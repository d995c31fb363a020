import ComTypes.Dict
import ComTypes.Naming.Overlay
import ComTypes.Render.Renderer
import ComTypes.Toml.Document
import ComTypes.Toml.Quote

/-!
# Configuration and overlay files

Both are TOML documents. A section can be a table or an array that lists its settings in order.
Missing settings take their defaults, and a setting of the wrong type makes the whole document
invalid. Beyond its settings a table may hold any sound values and an array any values at all.
-/

namespace ComTypes

namespace Toml.Value

def text? : Value → Option String
  | text value => some value
  | _ => none

def boolean? : Value → Option Bool
  | boolean value => some value
  | _ => none

/-- A number that counts something, in 64 bits. -/
def natural? : Value → Option Nat
  | integer (some (.ofNat value)) => if value < 0x10000000000000000 then some value else none
  | _ => none

def items? : Value → Option (List Value)
  | array _ items => some items
  | _ => none

/-- The key under which a date-time holds its text where a table is asked for. -/
def momentKey : String := "$__toml_private_datetime"

/-- The entries of a table. A date-time counts as a table that holds its text. -/
def entries? : Value → Option Entries
  | table _ entries => some entries
  | moment value => some [(momentKey, text value.text)]
  | _ => none

/-- The settings of a section by name: those of a table, or the items of an array in the order of the
names. What else a table holds must be sound; further items of an array are not looked at. -/
def settings? (names : List String) : Value → Option Entries
  | array _ items => some (names.zip items)
  | section_ => do
    let entries ← section_.entries?
    let (settings, others) := entries.partition (·.1 ∈ names)
    if entriesSound others then return settings else none

end Toml.Value

namespace Toml.Entries

def required {α : Type} (settings : Entries) (name : String) (decode : Value → Option α) :
    Option α := do
  decode (← settings.lookup name)

def optional {α : Type} (settings : Entries) (name : String) (decode : Value → Option α)
    (default : α) : Option α :=
  match settings.lookup name with
  | some value => decode value
  | none => some default

end Toml.Entries

namespace Toml.Value

def list? {α : Type} (decode : Value → Option α) (value : Value) : Option (List α) := do
  (← value.items?).mapM decode

/-- A dialect: its name, or a table that holds nothing but an empty value under its name. -/
def dialect? : Value → Option Dialect
  | text name => Dialect.ofName? name
  | table _ [(name, table _ [])] => Dialect.ofName? name
  | table _ [(name, array _ [])] => Dialect.ofName? name
  | _ => none

end Toml.Value

open Toml (Value)

structure ProxyEntry where
  path : String
  /-- The IID as written. -/
  iid : String
  name : Option String := none
deriving DecidableEq, Repr

structure Config where
  overlay : Option String := none
  output : String := "output.idl"
  render : RenderOptions := {}
  strict : Bool := false
  typeLibraries : List String := []
  proxies : List ProxyEntry := []
  iidNames : Dict String String := {}

namespace Config

def renderOptions? (section_ : Value) : Option RenderOptions := do
  let settings ← section_.settings?
    ["dialect", "hide_comments", "interfaces_only", "best_effort"]
  return {
    dialect := ← settings.optional "dialect" Value.dialect? .idl
    hideComments := ← settings.optional "hide_comments" Value.boolean? false
    interfacesOnly := ← settings.optional "interfaces_only" Value.boolean? false
    bestEffort := ← settings.optional "best_effort" Value.boolean? false }

def proxy? (section_ : Value) : Option ProxyEntry := do
  let settings ← section_.settings? ["path", "iid", "name"]
  return {
    path := ← settings.required "path" Value.text?
    iid := ← settings.required "iid" Value.text?
    name := ← settings.optional "name" (fun value => value.text?.map some) none }

def typeLibrary? (section_ : Value) : Option String := do
  (← section_.settings? ["path"]).required "path" Value.text?

def outputFile? (section_ : Value) : Option String := do
  (← section_.settings? ["file"]).optional "file" Value.text? "output.idl"

def strict? (section_ : Value) : Option Bool := do
  (← section_.settings? ["strict"]).optional "strict" Value.boolean? false

/-- Names by the text of an IID. -/
def iidNames? (section_ : Value) : Option (Dict String String) := do
  let names ← (← section_.entries?).mapM fun (iid, name) => name.text?.map (iid, ·)
  return Dict.ofList names

def ofValue? (document : Value) : Option Config := do
  let settings ← document.settings?
    ["overlay", "output", "render", "build", "type_library", "proxy", "iid_names"]
  return {
    overlay := ← settings.optional "overlay" (fun value => value.text?.map some) none
    output := ← settings.optional "output" outputFile? "output.idl"
    render := ← settings.optional "render" renderOptions? {}
    strict := ← settings.optional "build" strict? false
    typeLibraries := ← settings.optional "type_library" (Value.list? typeLibrary?) []
    proxies := ← settings.optional "proxy" (Value.list? proxy?) []
    iidNames := ← settings.optional "iid_names" iidNames? {} }

def parse? (document : String) : Option Config := do
  ofValue? (← Toml.parse document)

end Config

namespace Overlay

/-! ### Overlay files -/

/-- A member entry with the entries of its parameters. A parameter entry may in turn list parameters,
`levels` levels deep, which have to be well formed and do not count. -/
def memberOf? : (levels : Nat) → Value → Option MemberName
  | 0, _ => none
  | levels + 1, entry => do
    let settings ← entry.settings? ["index", "name", "parameters"]
    let index ← settings.required "index" Value.natural?
    let name ← settings.required "name" Value.text?
    let parameters ← settings.optional "parameters" (Value.list? (memberOf? levels)) []
    return { index, name, parameters := parameters.map fun p => ⟨p.index, p.name⟩ }

def typeOf? (levels : Nat) (entry : Value) : Option TypeName := do
  let settings ← entry.settings? ["index", "name", "members"]
  return {
    index := ← settings.required "index" Value.natural?
    name := ← settings.required "name" Value.text?
    members := ← settings.optional "members" (Value.list? (memberOf? levels)) [] }

/-- Read an overlay file. Entries cannot nest deeper than the file is long. -/
def parse? (document : String) : Option Overlay := do
  let settings ← (← Toml.parse document).settings? ["types"]
  return ⟨← settings.optional "types" (Value.list? (typeOf? document.length)) []⟩

/-- The lines of an entry: its header, index and name. -/
def entryLines (header : String) (index : Nat) (name : String) : String :=
  "[[" ++ header ++ s!"]]\nindex = {index}\nname = " ++ Toml.quote name ++ "\n"

/-- The entries of a type, each from its header on. -/
def typeEntries (type : TypeName) : List String :=
  entryLines "types" type.index type.name :: type.members.flatMap fun member =>
    entryLines "types.members" member.index member.name :: member.parameters.map fun parameter =>
      entryLines "types.members.parameters" parameter.index parameter.name

def toToml (overlay : Overlay) : String :=
  if overlay.types.isEmpty then "types = []\n"
  else "\n".intercalate (overlay.types.flatMap typeEntries)

end Overlay

end ComTypes

import ComTypes.Assembly.Members
import ComTypes.Library.Basic
import ComTypes.Record.TypeAttr

/-!
# Adding type libraries

A library is added in two passes. The first declares a node for every type info whose attributes
can be decoded, so that references between types resolve whatever their order. The second builds
the bodies. Outside strict mode, a type info without usable attributes is skipped, and a type with
failing members is kept with its issues.
-/

namespace ComTypes

/-- The kinds of type infos that a graph can hold. -/
inductive Definition where
  | enumeration
  | record (layout : RecordLayout)
  | interface (dispatch : Bool)
  | typedef (target : TypeDesc)
deriving DecidableEq, Repr

namespace Definition

/-- What a type info defines; modules and coclasses are not supported. -/
def ofShape : Shape → Except Fault Definition
  | .enumeration => .ok enumeration
  | .record => .ok (record .struct)
  | .union => .ok (record .union)
  | .vtable => .ok (interface false)
  | .dispatch => .ok (interface true)
  | .typedef target => .ok (typedef target)
  | .moduleInfo => .error (.unsupportedLayout (.typeInfo .moduleInfo))
  | .coclass => .error (.unsupportedLayout (.typeInfo .coclass))

def blank : Definition → Body
  | enumeration => .enumeration []
  | record layout => .record layout []
  | interface dispatch => .interface { dispatch := dispatch }
  | typedef _ => .typedef none

end Definition

/-- The decoded attributes of a type info, with what it defines. -/
def TypeInfo.header (info : TypeInfo) : Except Fault (TypeAttr × Definition) := do
  let attr ← TypeAttr.decode info.attr
  let definition ← Definition.ofShape attr.shape
  return (attr, definition)

namespace Assemble

/-- A step whose failure is an issue of the type itself. -/
def contained {α : Type} (step : Assemble α) : Assemble (Option α × List Issue) := do
  match ← attempt step with
  | .ok value => return (some value, [])
  | .error fault => return (none, [⟨none, fault⟩])

/-- Build the body of a type info, with the issues met on the way. -/
def body (info : TypeInfo) (names : NameLookup) (attr : TypeAttr) :
    Definition → Assemble (Body × List Issue)
  | .enumeration => do
    let (members, issues) ← collect attr.vars.toNat fun i => lift (enumMember info names i)
    return (.enumeration members, issues)
  | .record layout => do
    let (fields, issues) ← collect attr.vars.toNat (field info names)
    return (.record layout fields, issues)
  | .interface dispatch => do
    let (base, baseIssues) ←
      match info.implTypes.head? with
      | some implemented => contained (base info implemented.href)
      | none => pure (none, [])
    let (methods, issues) ← collect attr.funcs.toNat (method info names dispatch)
    return (.interface { methods, base, dispatch }, baseIssues ++ issues)
  | .typedef target => do
    let (target, issues) ← contained (resolve info target)
    return (.typedef target, issues)

/-- The node that a type info is built into: the one declared for its position, while that still
waits for its body, or else the one that its identity calls for. -/
def slot (info : TypeInfo) (index : Nat) (attr : TypeAttr) (definition : Definition) :
    Assemble TypeId := do
  let a ← get
  let waiting := (a.slots.get? index).filter fun id =>
    (a.graph.node? id).any fun node => node.state = .pending
  match waiting with
  | some id => return id
  | none =>
    let id ← declareTypeInfo attr.guid index info.name definition.blank
    modify fun a => { a with slots := a.slots.insert index id }
    return id

def build (info : TypeInfo) (index : Nat) (attr : TypeAttr) (definition : Definition)
    (names : NameLookup) : Assemble TypeId := do
  let id ← slot info index attr definition
  let (body, issues) ← body info names attr definition
  modifyNode id fun node => { node with
    name := info.name
    doc := info.documentation
    flags := attr.flags
    version := (attr.majorVersion, attr.minorVersion)
    customData := info.customDataFor .type
    external := false
    body }
  settle id issues
  return id

/-- Build, or build again, the node of one type info that stands at a given position. -/
def addTypeInfo (info : TypeInfo) (index : Nat) (names : NameLookup) : Assemble TypeId := do
  let (attr, definition) ← lift info.header
  build info index attr definition names

/-- A type info that has passed its first look: with its position, attributes and definition. -/
abbrev Enlisted := TypeInfo × Nat × TypeAttr × Definition

/-- Declare the node of a type info. Outside strict mode one without usable attributes is passed
over. -/
def enlist (info : TypeInfo) (index : Nat) : Assemble (Option Enlisted) := do
  match info.header with
  | .ok (attr, definition) =>
    let id ← declareTypeInfo attr.guid index info.name definition.blank
    modify fun a => { a with slots := a.slots.insert index id }
    return some (info, index, attr, definition)
  | .error fault =>
    if (← get).strict then throw fault
    return none

/-- Add every type info of a library. Returns the nodes that were built, in library order. -/
def addLibrary (library : Library) : Assemble (List TypeId) := do
  modify fun a => { a with slots := .empty, library := (library.libid, library.name) }
  -- Every node is declared before the first body is built, so references may point forward.
  let enlisted ← library.types.zipIdx.mapM fun (info, index) => enlist info index
  enlisted.reduceOption.mapM fun (info, index, attr, definition) =>
    build info index attr definition info.lookup

end Assemble

end ComTypes

import ComTypes.Assembly.Library
import ComTypes.Files.Tree
import ComTypes.Library.Decode
import ComTypes.Proxy.Decode
import ComTypes.Run.Config

/-!
# From a configuration to source

A configuration names type libraries and proxies, which are decoded into one graph in this order.
The graph takes the names of the overlay, and is rendered, or its names are written out.
-/

namespace ComTypes

inductive Cause where
  | fault (fault : Fault)
  | file (error : FileError)
  /-- A configuration file that is not valid. -/
  | invalidConfig (path : String)
  /-- An overlay file that is not valid. -/
  | invalidOverlay
  | note (text : String)
deriving DecidableEq, Repr

/-- The wording of a cause. The context of an invalid overlay says it all. -/
def Cause.message? : Cause → Option String
  | .fault reason => some reason.message
  | .file error => some error.message
  | .invalidConfig path => some ("failed to parse config file " ++ path)
  | .invalidOverlay => none
  | .note text => some text

structure Failure where
  context : Option String := none
  cause : Cause
deriving DecidableEq, Repr

namespace Failure

/-- The parts of the message, the outermost first. -/
def parts (failure : Failure) : List String :=
  failure.context.toList ++ failure.cause.message?.toList

def message (failure : Failure) : String := ": ".intercalate failure.parts

end Failure

abbrev Attempt := Except Failure

def Attempt.fault {α : Type} (context : String) : Except Fault α → Attempt α
  | .ok value => .ok value
  | .error fault => .error ⟨some context, .fault fault⟩

def Attempt.file {α : Type} (context : String) : Except FileError α → Attempt α
  | .ok value => .ok value
  | .error error => .error ⟨some context, .file error⟩

/-- Say what was being done, around a failure that has no context yet. -/
def Attempt.context {α : Type} (context : String) : Attempt α → Attempt α
  | .ok value => .ok value
  | .error failure => .error { failure with context := some context }

/-- A file to be written: where, its contents, and what writing it is called. -/
structure OutputFile where
  path : String
  contents : String
  task : String
deriving DecidableEq, Repr

def OutputFile.failure (output : OutputFile) (error : FileError) : Failure :=
  ⟨some (output.task ++ " to " ++ output.path), .file error⟩

namespace Config

def read (view : FileView) (path : String) : Attempt Config :=
  match view.text path with
  | .error error =>
    .error { cause := .note ("failed to read config file " ++ path ++ ": " ++ error.message) }
  | .ok document =>
    match parse? document with
    | some config => .ok config
    | none => .error { cause := .invalidConfig path }

def load (view : FileView) (path : String) : Attempt Config :=
  (read view path).context ("loading config from " ++ path)

def guid (text : String) : Attempt Guid :=
  match Guid.parse text with
  | .ok guid => .ok guid
  | .error error => .error { cause := .note ("invalid GUID `" ++ text ++ "`: " ++ error.message) }

/-- Run a step of assembling and say what was being done if it fails. -/
def assemble {α : Type} (context : String) (step : Assemble α) (a : Assembler) :
    Attempt Assembler :=
  match step a with
  | .ok _ a => .ok a
  | .error fault _ => .error ⟨some context, .fault fault⟩

def addLibrary (view : FileView) (base : String) (a : Assembler) (entry : String) :
    Attempt Assembler := do
  let path := Path.join base entry
  let bytes ← Attempt.file ("reading type library " ++ path) (view path)
  let library ← Attempt.fault ("decoding type library " ++ path) (Library.decode bytes)
  assemble ("building types from " ++ path) (Assemble.addLibrary library) a

def addProxy (view : FileView) (base : String) (a : Assembler) (entry : ProxyEntry) :
    Attempt Assembler := do
  let path := Path.join base entry.path
  let iid ← (guid entry.iid).context ("proxy " ++ path)
  let bytes ← Attempt.file ("reading proxy " ++ path) (view path)
  assemble ("decoding proxy " ++ path) (Assemble.addProxy bytes iid entry.name .none) a

/-- The graph with the names of the overlay file, if there is one. -/
def overlaid (view : FileView) (base : String) (graph : Graph) : Option String → Attempt Graph
  | none => .ok graph
  | some entry => do
    let path := Path.join base entry
    let document ← Attempt.file ("reading name overlay " ++ path) (view.text path)
    match Overlay.parse? document with
    | some overlay => return (overlay.apply graph).1
    | none => throw ⟨some ("parsing name overlay " ++ path), .invalidOverlay⟩

def noInputs : String :=
  "configuration lists no inputs.\nHint: add a `[[type_library]]` or `[[proxy]]` entry with a `path`."

/-- The graph of all inputs with the names of the overlay, and the GUIDs whose definition was
replaced on the way. -/
def graph (config : Config) (view : FileView) (base : String) : Attempt (Graph × List Guid) := do
  if config.typeLibraries.isEmpty && config.proxies.isEmpty then
    throw { cause := .note noInputs }
  let a ← config.typeLibraries.foldlM (addLibrary view base) { strict := config.strict }
  let a ← config.proxies.foldlM (addProxy view base) a
  let (changed, a) := a.takeChanged
  let graph ← overlaid view base a.graph config.overlay
  return (graph, changed)

/-- The names of the interfaces of a graph, by IID. -/
def interfaceNames (graph : Graph) : List (Guid × String) :=
  graph.nodes.toList.filterMap fun node =>
    match node.body, node.guid? with
    | .interface _, some guid => if node.name = "" then none else some (guid, node.name)
    | _, _ => none

/-- Interface names for rendering: those of the core interfaces that have not been redefined, then
those of the graph, then those the configuration gives. -/
def knownNames (config : Config) (graph : Graph) (changed : List Guid) : Attempt IidNames := do
  let known := (interfaceNames graph).foldl (fun names (iid, name) => names.insert iid name)
    (IidNames.wellKnown.invalidate changed)
  config.iidNames.entries.foldlM (fun names (text, name) => do
    let iid ← (guid text).context "reading [iid_names]"
    return names.insert iid name) known

def generate (config : Config) (view : FileView) (base : String) : Attempt String := do
  let (graph, changed) ← config.graph view base
  let iids ← config.knownNames graph changed
  Attempt.fault "rendering decoded types" (config.render.render iids graph graph.roots)

/-- The names of the graph that a configuration asks for, as an overlay file. -/
def captureNames (config : Config) (view : FileView) (base : String) : Attempt String := do
  let (graph, _) ← config.graph view base
  return (Overlay.capture graph).toToml

/-- The source file that a configuration asks for, at a given place or the configured one. -/
def sourceFile (config : Config) (view : FileView) (base : String) (place : Option String) :
    Attempt OutputFile := do
  let contents ← config.generate view base
  return { path := place.getD (Path.join base config.output), contents, task := "writing output" }

/-- Run the configuration file at a path: the source file it asks for. -/
def run (view : FileView) (path : String) (place : Option String) : Attempt OutputFile := do
  (← load view path).sourceFile view (Path.directory path) place

def inputs (config : Config) (base : String) : List String :=
  (config.typeLibraries ++ config.proxies.map (·.path) ++ config.overlay.toList).map (Path.join base)

end Config

end ComTypes

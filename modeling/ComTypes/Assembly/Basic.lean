import ComTypes.Graph.Basic

/-!
# Assembling a graph

An assembler takes type libraries and proxies one after the other into one graph. It remembers
which node stands for which type info of the current library, which nodes stand for type infos
without a GUID, which records the last decode of each proxy made, and which GUIDs have been given a
new definition.
-/

namespace ComTypes

/-- What tells a library apart from others: its GUID and its name. -/
abbrev LibraryKey := Guid × String

structure Assembler where
  graph : Graph := {}
  /-- Whether the first contained failure of a type ends the operation with an error. -/
  strict : Bool := false
  /-- The node of each type info of the current library, by position. -/
  slots : Table Nat TypeId := {}
  library : LibraryKey := (Guid.zero, "")
  /-- The node of each type info without a GUID, by library and position. -/
  anonymous : Table (LibraryKey × Nat) TypeId := {}
  /-- The records that the last decode of each proxy made, by IID: the place of each in the type
  format, and its node. -/
  proxyRecords : Table Guid (Table Nat TypeId) := {}
  /-- GUIDs whose definition was replaced, in the order of the replacements. -/
  changed : List Guid := []
deriving DecidableEq

namespace Assembler

instance : Inhabited Assembler := ⟨{}⟩

/-- Continue with an existing graph and forget everything else. -/
def ofGraph (graph : Graph) (strict : Bool) : Assembler := { graph, strict }

/-- The GUIDs whose definition was replaced since the last call. -/
def takeChanged (a : Assembler) : List Guid × Assembler := (a.changed, { a with changed := [] })

end Assembler

/-- A step of assembling. When it fails, what it did before stays done. -/
abbrev Assemble := EStateM Fault Assembler

namespace Assemble

def onGraph {α : Type} (operation : Graph → α × Graph) : Assemble α := fun a =>
  let (value, graph) := operation a.graph
  .ok value { a with graph }

def modifyNode (id : TypeId) (f : Node → Node) : Assemble Unit :=
  modify fun a => { a with graph := a.graph.modify id f }

/-- Run a step and return its failure as a value. -/
def attempt {α : Type} (step : Assemble α) : Assemble (Except Fault α) := fun a =>
  match step a with
  | .ok value a => .ok (.ok value) a
  | .error fault a => .ok (.error fault) a

/-- A computation without effects as a step. -/
def lift {α : Type} : Except Fault α → Assemble α
  | .ok value => pure value
  | .error fault => throw fault

/-- Find or create the node of a declaration. A node with the same GUID is reset and used again; if
it had a definition of its own, the GUID is reported as changed. -/
def declare (guid : Guid) (name : String) (body : Body) : Assemble TypeId := do
  let a ← get
  match a.graph.findGuid? guid with
  | some id =>
    -- A node that only waits for its body, or stands for a type elsewhere, has no definition to replace.
    if (a.graph.node? id).any fun node => node.state ≠ .pending && !node.external then
      modify fun a => { a with changed := a.changed ++ [guid] }
    modifyNode id fun node => { node with name, body, external := false, state := .pending }
    return id
  | none => onGraph (·.add (some guid) name body)

/-- Find or create the node of a type info. Without a GUID it is identified by its library and
position. -/
def declareTypeInfo (guid : Guid) (index : Nat) (name : String) (body : Body) :
    Assemble TypeId := do
  if !guid.isZero then
    declare guid name body
  else
    let a ← get
    let key := (a.library, index)
    match a.anonymous.get? key with
    | some id =>
      modifyNode id fun node =>
        { node with name, body, external := false, retired := false, state := .pending }
      return id
    | none =>
      let id ← onGraph (·.add none name body)
      modify fun a => { a with anonymous := a.anonymous.insert key id }
      return id

/-- Record how building a body ended. In strict mode the first issue is the step's failure. -/
def settle (id : TypeId) (issues : List Issue) : Assemble Unit := do
  modifyNode id fun node => { node with state := .ofIssues issues }
  -- The node keeps this state when the step fails.
  if (← get).strict then
    if let some first := issues.head? then
      throw first.fault

end Assemble

end ComTypes

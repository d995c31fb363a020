import ComTypes.Graph.Basic

/-!
# Name overlays

Names taken from one graph and written into another, addressed by the positions of types, members
and parameters. Entries that do not fit the other graph are passed over.
-/

namespace ComTypes

structure ParameterName where
  index : Nat
  name : String
deriving DecidableEq, Repr

/-- The name of a field, enumeration value or method, with the names of its parameters. -/
structure MemberName where
  index : Nat
  name : String
  parameters : List ParameterName := []
deriving DecidableEq, Repr

structure TypeName where
  index : TypeId
  name : String
  members : List MemberName := []
deriving DecidableEq, Repr

structure Overlay where
  types : List TypeName := []
deriving DecidableEq, Repr

namespace Overlay

/-! ### Taking names -/

def memberNames : Body → List MemberName
  | .record _ fields => fields.zipIdx.map fun (f, index) => { index, name := f.name }
  | .enumeration members => members.zipIdx.map fun (m, index) => { index, name := m.name }
  | .interface definition => definition.methods.zipIdx.map fun (m, index) =>
    { index, name := m.name
      parameters := m.parameters.zipIdx.map fun (p, index) => { index, name := p.name } }
  | .typedef _ | .structural _ => []

def capture (g : Graph) : Overlay where
  -- Positions count all nodes, those out of use included.
  types := g.nodes.toList.zipIdx.filterMap fun (node, index) =>
    if node.isDeclaration then
      some { index, name := node.name, members := memberNames node.body }
    else none

/-! ### Writing names

Each function returns the changed part with the number of names written. -/

def renameParameter (parameters : List Parameter) (entry : ParameterName) :
    List Parameter × Nat :=
  (parameters.modify entry.index fun p => { p with name := entry.name },
    if entry.index < parameters.length then 1 else 0)

/-- Apply one entry after the other and add up the names written. -/
def renameAll {α ε : Type} (rename : α → ε → α × Nat) (target : α) (entries : List ε) : α × Nat :=
  entries.foldl (fun (target, count) entry =>
    let (target, written) := rename target entry
    (target, count + written)) (target, 0)

def renameMethod (method : Method) (entry : MemberName) : Method × Nat :=
  let (parameters, written) := renameAll renameParameter method.parameters entry.parameters
  ({ method with name := entry.name, parameters }, written + 1)

def renameMember (body : Body) (entry : MemberName) : Body × Nat :=
  match body with
  | .record layout fields =>
    (.record layout (fields.modify entry.index fun f => { f with name := entry.name }),
      if entry.index < fields.length then 1 else 0)
  | .enumeration members =>
    (.enumeration (members.modify entry.index fun m => { m with name := entry.name }),
      if entry.index < members.length then 1 else 0)
  | .interface definition =>
    (.interface { definition with
        methods := definition.methods.modify entry.index fun m => (renameMethod m entry).1 },
      (definition.methods[entry.index]?).elim 0 fun m => (renameMethod m entry).2)
  | .typedef _ | .structural _ => (body, 0)

def renameNode (node : Node) (entry : TypeName) : Node × Nat :=
  let (body, written) := renameAll renameMember node.body entry.members
  ({ node with name := entry.name, body }, written + 1)

/-- Rename the type that an entry addresses, if it is a declaration in use. -/
def renameType (g : Graph) (entry : TypeName) : Graph × Nat :=
  match (g.node? entry.index).filter (·.isDeclaration) with
  | some node =>
    let (node, written) := renameNode node entry
    (g.modify entry.index fun _ => node, written)
  | none => (g, 0)

/-- Write the names into a graph, entry by entry. -/
def apply (overlay : Overlay) (g : Graph) : Graph × Nat := renameAll renameType g overlay.types

end Overlay

end ComTypes

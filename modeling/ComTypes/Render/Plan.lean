import ComTypes.Graph.Chain

/-!
# The order of declarations

Before a record or interface is declared, every record and interface that its body leads to is
declared ahead, unless that has been done before or it is defined elsewhere.
-/

namespace ComTypes

inductive Item where
  /-- Declare a record or interface ahead of its body. -/
  | forward (id : TypeId)
  | declare (id : TypeId)
deriving DecidableEq, Repr

namespace Item

def id : Item → TypeId
  | forward id => id
  | declare id => id

end Item

namespace Graph

def needsForward (g : Graph) (done : List Item) (target : TypeId) : Bool :=
  !(g.node? target).any (·.external) && !done.any (·.id = target)

/-- The items that declare one root, given the items before it. -/
def itemsFor (g : Graph) (done : List Item) (id : TypeId) : List Item :=
  match g.body? id with
  | some (.record _ _) | some (.interface _) =>
    ((g.reachedByBody id).filter (g.needsForward done)).map .forward ++ [.declare id]
  | some (.typedef _) | some (.enumeration _) => [.declare id]
  | some (.structural _) | none => []

def plan (g : Graph) (roots : List TypeId) : List Item :=
  roots.foldl (fun done id => done ++ g.itemsFor done id) []

end Graph

end ComTypes

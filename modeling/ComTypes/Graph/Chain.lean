import ComTypes.Graph.Basic

/-!
# Following references

A pointer leads to its target, an array to its element, and a type definition to the type it names.
Each type leads to at most one other, so the types met on the way form a single chain. A chain that
is longer than the graph has come back to where it was and ends nowhere.
-/

namespace ComTypes.Graph

/-- The type that a pointer or array leads to. -/
def throughStructure : Body → Option TypeId
  | .structural (.pointer target) => some target
  | .structural (.array element _) => some element
  | _ => none

/-- The type that a pointer, array or type definition leads to. -/
def throughTypedef : Body → Option TypeId
  | .typedef target => target
  | body => throughStructure body

/-- The first type of the chain from `id` that leads no further, if one is met within `hops`
steps. -/
def chainEnd? (g : Graph) (step : Body → Option TypeId) : (hops : Nat) → TypeId → Option TypeId
  -- With more hops than the graph has types, only a chain that runs in a circle comes to this case.
  | 0, _ => none
  | hops + 1, id =>
    match (g.body? id).bind step with
    | some next => g.chainEnd? step hops next
    | none => some id

/-- The record or interface at the end of the chain through pointers, arrays and type
definitions. -/
def referencedDeclaration? (g : Graph) (id : TypeId) : Option TypeId :=
  (g.chainEnd? throughTypedef (g.size + 1) id).filter fun last =>
    match g.body? last with
    | some (.record _ _) | some (.interface _) => true
    | _ => false

/-- Put the record or interface that `id` leads to behind those found before, if it is new. -/
def referencedDeclarations (g : Graph) (found : List TypeId) (id : TypeId) : List TypeId :=
  match g.referencedDeclaration? id with
  | some target => if target ∈ found then found else found ++ [target]
  | none => found

/-- The records and interfaces that the body of a declaration leads to, each once, in the order in
which the body first leads to them. -/
def reachedByBody (g : Graph) (id : TypeId) : List TypeId :=
  (g.bodyReferences id).foldl g.referencedDeclarations []

/-- The record, type definition or enumeration at the end of the chain through pointers and
arrays. -/
def namedType? (g : Graph) (id : TypeId) : Option TypeId :=
  (g.chainEnd? throughStructure (g.size + 1) id).filter fun last =>
    match g.body? last with
    | some (.record _ _) | some (.typedef _) | some (.enumeration _) => true
    | _ => false

/-- The records, type definitions and enumerations that a body names directly. -/
def namedByBody (g : Graph) (id : TypeId) : List TypeId :=
  (g.bodyReferences id).filterMap g.namedType?

/-- The members of `seen` and everything that can be named from `frontier`. Each round but the last
finds a type not seen before, so as many rounds as there are types are enough. -/
def closure (g : Graph) : (rounds : Nat) → (seen frontier : List TypeId) → List TypeId
  | 0, seen, _ => seen
  | rounds + 1, seen, frontier =>
    -- Types of earlier rounds have been looked into, so the next round starts from the new ones only.
    match ((frontier.flatMap g.namedByBody).filter (· ∉ seen)).eraseDups with
    | [] => seen
    | next => g.closure rounds (seen ++ next) next

/-- The interfaces among `roots` with every record, type definition and enumeration among `roots`
that their bodies lead to, in the order of `roots`. -/
def interfacesAndReachable (g : Graph) (roots : List TypeId) : List TypeId :=
  let interfaces := roots.filter fun id => (g.body? id).any Body.isInterface
  let reachable := g.closure (g.size + 1) interfaces interfaces
  roots.filter (· ∈ reachable)

end ComTypes.Graph

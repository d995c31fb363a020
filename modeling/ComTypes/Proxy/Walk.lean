import ComTypes.Graph.Basic
import ComTypes.Proxy.TypeForm

/-!
# Building the types of a proxy

Type descriptions become nodes. A structure becomes a record named by the order in which structures
are met; it is built once per decode, however often it is referred to, and a record that an earlier
decode of the same interface made for the same offset is used again.
-/

namespace ComTypes

structure Walker where
  graph : Graph
  /-- Records of the previous decode that have not been used again, by offset. -/
  previous : Table Nat TypeId
  /-- Records of this decode, by offset. -/
  current : Table Nat TypeId := .empty
  /-- Offsets of the records of this decode, in the order in which they were met. -/
  created : List Nat := []
  /-- The node and the size in memory of every structure that was met, by offset. -/
  memo : Table Nat (TypeId × Nat) := .empty
deriving DecidableEq

/-- A step of building the types of a proxy. When it fails, what it did before stays done. -/
abbrev Walk := EStateM Fault Walker

namespace Walker

/-- How deep descriptions may refer to one another. -/
def maxDepth : Nat := 64

/-- Forget the record at an offset, and take it out of use. -/
def strike (w : Walker) (offset : Nat) : Walker :=
  { w with
    graph := (w.current.get? offset).elim w.graph w.graph.retire
    current := w.current.erase offset
    memo := w.memo.erase offset }

/-- Take the records made since there were `mark` of them out of use. -/
def discardSince (w : Walker) (mark : Nat) : Walker :=
  (w.created.drop mark).foldl strike { w with created := w.created.take mark }

/-- The graph with the records of the previous decode that were not met again out of use. -/
def finish (w : Walker) : Graph :=
  w.previous.entries.foldl (fun g entry => g.retire entry.2) w.graph

end Walker

namespace Walk

def onGraph {α : Type} (operation : Graph → α × Graph) : Walk α := fun w =>
  let (value, graph) := operation w.graph
  .ok value { w with graph }

/-- A computation without effects as a step. -/
def lift {α : Type} : Except Fault α → Walk α
  | .ok value => pure value
  | .error fault => throw fault

def check : Option Fault → Walk Unit
  | some fault => throw fault
  | none => pure ()

def primitive (primitive : Primitive) : Walk TypeId := onGraph (·.intern (.primitive primitive))

def pointerTo (target : TypeId) : Walk TypeId := onGraph (·.intern (.pointer target))

/-- The record for the structure at an offset: the one of the previous decode, emptied, or a new one. -/
def recordNode (offset : Nat) : Walk TypeId := do
  let w ← get
  let name := s!"Struct_{w.created.length}"
  let id ←
    match w.previous.get? offset with
    | some id =>
      modify fun w => { w with
        previous := w.previous.erase offset
        graph := w.graph.modify id fun node =>
          { node with name, body := .record .struct [], retired := false, state := .pending } }
      pure id
    | none => onGraph (·.add none name (.record .struct []))
  -- Entered before the members are decoded: if one of them fails, the record is struck with the rest.
  modify fun w => { w with
    current := w.current.insert offset id
    created := w.created ++ [offset] }
  return id

/-- Make the record for a structure. It is known by its offset from now on, while its body still waits to
be filled, so its members can refer to it. -/
def openRecord (offset size : Nat) : Walk TypeId := do
  let id ← recordNode offset
  modify fun w => { w with memo := w.memo.insert offset (id, size) }
  return id

/-- The fields of a record, named by number, for the types of its members. -/
def fields (types : List TypeId) : List Field :=
  types.zipIdx.map fun (type, ordinal) => { name := s!"Member{ordinal}", type, ordinal }

def closeRecord (id : TypeId) (types : List TypeId) : Walk Unit :=
  modify fun w => { w with
    graph := w.graph.modify id fun node =>
      { node with body := .record .struct (fields types), state := .complete } }

/-- The array of `total` bytes whose elements have a given type and size; the size must divide the
total. -/
def fixedArray (total : Nat) (element : TypeId × Nat) (elementAt : Nat) : Walk TypeId := do
  if element.2 = 0 ∨ total % element.2 ≠ 0 then
    throw (.unsupportedFormat elementAt (.arrayDivision total element.2))
  onGraph (·.intern (.array element.1 (.fixed [⟨UInt32.ofNat (total / element.2), 0⟩])))

section

-- How the type at another offset of the format string is built.
variable (inner : Nat → Walk (TypeId × Nat))

def memberType : StructMember → Walk TypeId
  | .base p => primitive p
  | .described target => Prod.fst <$> inner target

def elementType : ArrayElement → Walk (TypeId × Nat)
  | .base p size => do return (← primitive p, size)
  | .described target => inner target

/-- The node for a description that stands at an offset, with its size in memory. -/
def formType (offset : Nat) : TypeForm → Walk (TypeId × Nat)
  | .base p size => do return (← primitive p, size)
  | .interfacePointer iid => do
    let target ← onGraph (·.externalInterface iid none)
    return (← pointerTo target, FormatChar.pointerSize)
  | .simplePointer p => do
    let target ← primitive p
    return (← pointerTo target, FormatChar.pointerSize)
  | .pointer target => do
    let (target, _) ← inner target
    return (← pointerTo target, FormatChar.pointerSize)
  | .struct size members => do
    let id ← openRecord offset size
    let types ← members.items.mapM (memberType inner)
    check members.fault
    closeRecord id types
    return (id, size)
  | .fixedArray total element elementAt => do
    let element ← elementType inner element
    return (← fixedArray total element elementAt, total)

end

/-- The node for the description at an offset, with its size in memory. Descriptions may be followed
`levels - 1` levels deep. -/
def type (format : Bytes) : (levels : Nat) → (offset : Nat) → Walk (TypeId × Nat)
  -- The limit comes before the memo, so even a structure that was met is refused here.
  | 0, offset => throw (.unsupportedFormat offset (.nestedTooDeep Walker.maxDepth))
  | levels + 1, offset => do
    match (← get).memo.get? offset with
    | some known => return known
    | none => formType (type format levels) offset (← lift (TypeForm.parse format offset))

end Walk

end ComTypes

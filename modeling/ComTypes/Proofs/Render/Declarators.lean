import ComTypes.Proofs.Graph.Arena
import ComTypes.Render.Spelling
import Mathlib.Data.List.Nodup
import Mathlib.Data.List.Perm.Subperm

/-!
# What spelled declarators denote

A declaration `long* x[2]` is read from the name outwards: the numbers behind the name are arrays, the first
of them outermost, and the stars before it are pointers inside these (`Declarator.read`). A node says itself
by which layers of pointers and arrays it is built from a base type (`Graph.Nests`), and with them what its
type is (`ownType`).

Spelling puts every star behind what stands before the name and every array behind what follows it, from the
base outwards, with no parentheses. So the text stands for arrays with the numbers of inner layers first,
around all pointers (`Scope.read_spell`). That is the type itself exactly if no pointer leads to an array and
the numbers are the same in both orders (`Spellable`), as for one array of pointers of any depth.

A chain of layers visits no node twice, so it is shorter than the graph has nodes (`Graph.Nests.length_lt`)
and is spelled to its end.
-/

namespace ComTypes

/-! ### Reading a declaration -/

/-- One way in which a type is derived from another. -/
inductive Derivation where
  | pointer
  | array (count : Nat)
deriving DecidableEq, Repr

namespace Declarator

/-- The number that digits stand for. -/
def readCount (digits : List Char) : Option Nat :=
  if digits ≠ [] ∧ digits.all Char.isDigit then some (Nat.ofDigitChars 10 digits 0) else none

/-- The numbers in brackets that a text consists of. Behind an open bracket, `inside` holds what has been
read since. -/
def readCounts : (inside : Option (List Char)) → List Char → Option (List Nat)
  | none, [] => some []
  | some _, [] => none
  | none, c :: rest => if c = '[' then readCounts (some []) rest else none
  | some digits, c :: rest =>
    if c = ']' then do
      let count ← readCount digits
      let more ← readCounts none rest
      return count :: more
    else readCounts (some (digits ++ [c])) rest

/-- What follows a given beginning of a text. -/
def behind? (beginning text : List Char) : Option (List Char) :=
  if beginning.isPrefixOf text then some (text.drop beginning.length) else none

/-- The type that a declaration gives to a name, over a base type whose spelling is taken as one token:
the ways in which it is derived from the base, outermost first. Stars in front of the name are pointers
around the base, and brackets behind it are arrays around these, the first of them outermost. -/
def read (base name text : String) : Option (List Derivation) := do
  let rest ← behind? base.toList text.toList
  let stars := rest.takeWhile (· = '*')
  let rest ← behind? (' ' :: name.toList) (rest.drop stars.length)
  let counts ← readCounts none rest
  return counts.map .array ++ stars.map fun _ => .pointer

theorem behind?_append (beginning rest : List Char) :
    behind? beginning (beginning ++ rest) = some rest := by
  have begins : beginning.isPrefixOf (beginning ++ rest) = true :=
    List.isPrefixOf_iff_prefix.mpr (List.prefix_append beginning rest)
  rw [behind?, if_pos begins, List.drop_left]

/-- A decimal numeral is read back. -/
theorem readCount_toDigits (n : Nat) : readCount (Nat.toDigits 10 n) = some n := by
  have digits : (Nat.toDigits 10 n).all Char.isDigit = true :=
    List.all_eq_true.mpr fun c member => Nat.isDigit_of_mem_toDigits (by decide) (by decide) member
  rw [readCount, if_pos ⟨Nat.toDigits_ne_nil, digits⟩,
    Nat.ofDigitChars_toDigits (by decide) (by decide)]

/-- Characters up to the next closing bracket are collected. -/
theorem readCounts_digits {digits : List Char} (plain : ∀ c ∈ digits, c.isDigit = true)
    (inside rest : List Char) :
    readCounts (some inside) (digits ++ ']' :: rest) =
      (readCount (inside ++ digits)).bind fun count =>
        (readCounts none rest).map (count :: ·) := by
  induction digits generalizing inside with
  | nil =>
    rw [List.nil_append, List.append_nil, readCounts, if_pos rfl]
    cases readCount inside with
    | none => rfl
    | some count => cases readCounts none rest <;> rfl
  | cons c digits ih =>
    have other : c ≠ ']' := by
      rintro rfl
      exact absurd (plain ']' List.mem_cons_self) (by decide)
    rw [List.cons_append, readCounts, if_neg other,
      ih (fun c member => plain c (List.mem_cons_of_mem _ member)), List.append_assoc]
    rfl

/-- Numbers in brackets. -/
def bracketed (counts : List Nat) : List Char :=
  counts.flatMap fun count => '[' :: (Nat.toDigits 10 count ++ [']'])

theorem bracketed_append (first second : List Nat) :
    bracketed (first ++ second) = bracketed first ++ bracketed second :=
  List.flatMap_append

/-- Bracketed counts are read back in order. -/
theorem readCounts_bracketed (counts : List Nat) : readCounts none (bracketed counts) = some counts := by
  induction counts with
  | nil => rfl
  | cons count counts ih =>
    have digits : ∀ c ∈ Nat.toDigits 10 count, c.isDigit = true :=
      fun c member => Nat.isDigit_of_mem_toDigits (by decide) (by decide) member
    have opened : bracketed (count :: counts) =
        '[' :: (Nat.toDigits 10 count ++ ']' :: bracketed counts) := by
      simp [bracketed]
    rw [opened, readCounts, if_pos rfl, readCounts_digits digits, List.nil_append,
      readCount_toDigits, ih]
    rfl

/-- Stars behind the base and numbers in brackets are read back. -/
theorem read_around {d : Declarator} {base : String} {pointers : Nat} {counts : List Nat}
    (before : d.before.toList = base.toList ++ List.replicate pointers '*')
    (after : d.after.toList = bracketed counts) (name : String) :
    read base name (d.around name) =
      some (counts.map .array ++ List.replicate pointers .pointer) := by
  have text : (d.around name).toList =
      base.toList ++ (List.replicate pointers '*' ++ (' ' :: name.toList ++ bracketed counts)) := by
    simp [around, before, after]
  have stars : (List.replicate pointers '*' ++ (' ' :: name.toList ++ bracketed counts)).takeWhile
      (· = '*') = List.replicate pointers '*' := by
    rw [List.takeWhile_append_of_pos (by simp)]
    simp
  rw [read, text, behind?_append]
  simp only [bind, Option.bind, stars]
  rw [List.drop_left, behind?_append]
  simp only [readCounts_bracketed, List.map_replicate]
  rfl

end Declarator

/-! ### Nested pointers and arrays -/

/-- What a pointer or an array of fixed size puts around a type. -/
inductive Layer where
  | pointer
  | array (dims : List ArrayDim)
deriving DecidableEq, Repr

namespace Layer

/-- The numbers of elements of an array, the first dimension outermost. -/
def counts : Layer → List Nat
  | pointer => []
  | array dims => dims.map (·.elements.toNat)

/-- The derivations of a layer, outermost first. -/
def derivations : Layer → List Derivation
  | pointer => [.pointer]
  | array dims => dims.map fun dim => .array dim.elements.toNat

end Layer

/-- The type that layers around a base make, outermost first. -/
def ownType (layers : List Layer) : List Derivation := layers.flatMap Layer.derivations

/-- Whether types are spelled as they are, without parts: base types and declarations. -/
def Body.isBase : Body → Bool
  | structural (.primitive _) => true
  | structural _ => false
  | _ => true

namespace Graph

/-- A node is built from a base by layers of pointers and arrays of fixed size, outermost first. -/
inductive Nests (g : Graph) : TypeId → List Layer → TypeId → Prop
  | base {id : TypeId} {body : Body} (found : g.body? id = some body) (base : body.isBase = true) :
      Nests g id [] id
  | pointer {id target base : TypeId} {layers : List Layer}
      (found : g.body? id = some (.structural (.pointer target))) (inner : Nests g target layers base) :
      Nests g id (.pointer :: layers) base
  | array {id element base : TypeId} {dims : List ArrayDim} {layers : List Layer}
      (found : g.body? id = some (.structural (.array element (.fixed dims))))
      (inner : Nests g element layers base) : Nests g id (.array dims :: layers) base

variable {g : Graph} {id base : TypeId} {layers : List Layer}

/-- A node says itself which layers it is built by. -/
theorem Nests.unique {base' : TypeId} {layers' : List Layer} (nests : g.Nests id layers base)
    (other : g.Nests id layers' base') : layers' = layers := by
  induction nests generalizing layers' with
  | base found isBase =>
    cases other with
    | base => rfl
    | pointer again | array again =>
      cases found.symm.trans again
      cases isBase
  | pointer found _ ih =>
    cases other with
    | base again isBase =>
      cases found.symm.trans again
      cases isBase
    | pointer again inner =>
      cases found.symm.trans again
      rw [ih inner]
    | array again => cases found.symm.trans again
  | array found _ ih =>
    cases other with
    | base again isBase =>
      cases found.symm.trans again
      cases isBase
    | pointer again => cases found.symm.trans again
    | array again inner =>
      cases found.symm.trans again
      rw [ih inner]

/-- What nests is in the graph. -/
theorem Nests.lt_size (nests : g.Nests id layers base) : id < g.size := by
  have inside : ∀ {body}, g.body? id = some body → id < g.size := fun found => by
    obtain ⟨node, found, _⟩ := Option.map_eq_some_iff.mp found
    exact lt_size_of_node? found
  cases nests with
  | base found => exact inside found
  | pointer found => exact inside found
  | array found => exact inside found

/-- The nodes on the way from a node with these layers to its base. -/
structure Path (g : Graph) (base : TypeId) (layers : List Layer) (path : List TypeId) : Prop where
  length : path.length = layers.length + 1
  nodup : path.Nodup
  nests : ∀ j ∈ path, ∃ inner, g.Nests j inner base ∧ inner.length ≤ layers.length

/-- A node has more layers than those on the way from the next one on, so it is none of them. -/
theorem Path.cons {layer : Layer} {path : List TypeId} (nests : g.Nests id (layer :: layers) base)
    (inner : Path g base layers path) : Path g base (layer :: layers) (id :: path) where
  length := by rw [List.length_cons, inner.length, List.length_cons]
  nodup := by
    refine List.nodup_cons.mpr ⟨fun member => ?_, inner.nodup⟩
    obtain ⟨fewer, again, short⟩ := inner.nests id member
    rw [nests.unique again, List.length_cons] at short
    exact Nat.not_succ_le_self _ short
  nests j member := by
    rcases List.mem_cons.mp member with rfl | member
    · exact ⟨_, nests, Nat.le_refl _⟩
    · obtain ⟨fewer, again, short⟩ := inner.nests j member
      exact ⟨fewer, again, Nat.le_succ_of_le short⟩

theorem Nests.exists_path (nests : g.Nests id layers base) : ∃ path, Path g base layers path := by
  induction nests with
  | @base id body found isBase =>
    refine ⟨[id], rfl, List.nodup_singleton id, fun j member => ?_⟩
    obtain rfl := List.mem_singleton.mp member
    exact ⟨[], .base found isBase, Nat.le_refl _⟩
  | pointer found inner ih =>
    obtain ⟨path, path_inner⟩ := ih
    exact ⟨_, path_inner.cons (.pointer found inner)⟩
  | array found inner ih =>
    obtain ⟨path, path_inner⟩ := ih
    exact ⟨_, path_inner.cons (.array found inner)⟩

/-- No node has more layers than the graph has nodes. -/
theorem Nests.length_lt (nests : g.Nests id layers base) : layers.length < g.size := by
  obtain ⟨path, length, nodup, all⟩ := nests.exists_path
  have inside : path ⊆ List.range g.size := fun j member => by
    obtain ⟨_, inner, _⟩ := all j member
    exact List.mem_range.mpr inner.lt_size
  have fits := (nodup.subperm inside).length_le
  rw [length, List.length_range] at fits
  exact fits

end Graph

/-! ### Spelling -/

/-- The numbers in brackets as they are written: those of an inner layer stand before those of an outer
one. -/
def spelledCounts (layers : List Layer) : List Nat := layers.reverse.flatMap Layer.counts

/-- The type that a reader finds. -/
def spelledType (layers : List Layer) : List Derivation :=
  (spelledCounts layers).map .array ++ List.replicate (layers.count .pointer) .pointer

namespace Scope

variable (s : Scope) {id base : TypeId} {layers : List Layer}

theorem toList_dimensions (dims : List ArrayDim) :
    (dimensions dims).toList = Declarator.bracketed (dims.map (·.elements.toNat)) := by
  unfold dimensions Declarator.bracketed
  rw [String.toList_join, List.flatMap_map, List.flatMap_map]
  refine List.flatMap_congr fun dim _ => ?_
  simp only [String.toList_append, Nat.toString_eq_repr, Nat.toList_repr, List.append_assoc]
  rfl

/-- A base type is spelled as it is. -/
theorem spellWithin_of_base {body : Body} (found : s.graph.body? id = some body)
    (isBase : body.isBase = true) (hops : Nat) :
    s.spellWithin (hops + 1) id = s.spell id ∧ (s.spell id).after = "" := by
  unfold spell spellWithin
  rw [found]
  cases body with
  | structural structural =>
    cases structural with
    | primitive => exact ⟨rfl, rfl⟩
    | pointer | array => cases isBase
  | typedef | enumeration | record | interface => exact ⟨rfl, rfl⟩

/-- A nest is spelled with its stars before the name and its dimensions behind it. -/
theorem spellWithin_of_nests (nests : s.graph.Nests id layers base) {hops : Nat}
    (enough : layers.length < hops) :
    (s.spellWithin hops id).before.toList =
        (s.spell base).before.toList ++ List.replicate (layers.count .pointer) '*' ∧
      (s.spellWithin hops id).after.toList = Declarator.bracketed (spelledCounts layers) := by
  induction nests generalizing hops with
  | base found isBase =>
    obtain ⟨hops, rfl⟩ := Nat.exists_eq_add_one.mpr enough
    obtain ⟨same, nothing⟩ := s.spellWithin_of_base found isBase hops
    rw [same, nothing]
    exact ⟨(List.append_nil _).symm, rfl⟩
  | @pointer id target base layers found inner ih =>
    obtain ⟨hops, rfl⟩ := Nat.exists_eq_add_one.mpr (Nat.zero_lt_of_lt enough)
    obtain ⟨before, after⟩ := ih (Nat.lt_of_succ_lt_succ enough)
    unfold spellWithin
    rw [found]
    constructor
    · rw [String.toList_append, before, List.count_cons_self, List.append_assoc,
        List.replicate_succ']
      rfl
    · rw [after, spelledCounts, spelledCounts, List.reverse_cons, List.flatMap_append]
      simp [Layer.counts]
  | @array id element base dims layers found inner ih =>
    obtain ⟨hops, rfl⟩ := Nat.exists_eq_add_one.mpr (Nat.zero_lt_of_lt enough)
    obtain ⟨before, after⟩ := ih (Nat.lt_of_succ_lt_succ enough)
    unfold spellWithin
    rw [found]
    constructor
    · rw [before, List.count_cons_of_ne (by simp)]
    · rw [String.toList_append, after, toList_dimensions, ← Declarator.bracketed_append, spelledCounts,
        spelledCounts, List.reverse_cons, List.flatMap_append]
      simp [Layer.counts]

/-- A declaration of a nested type is read as arrays of the numbers that are written, around pointers. -/
theorem read_spell (nests : s.graph.Nests id layers base) (x : String) :
    Declarator.read (s.spell base).before x ((s.spell id).around x) = some (spelledType layers) := by
  obtain ⟨before, after⟩ := s.spellWithin_of_nests nests (Nat.lt_succ_of_lt nests.length_lt)
  exact Declarator.read_around before after x

end Scope

/-! ### Nestings that can be spelled -/

/-- Whether a layer may stand inside another one that is written without parentheses. -/
def Layer.MayHold (outer inner : Layer) : Prop := outer = .pointer → inner.counts = []

/-- The nestings that stars before a name and numbers behind it can stand for. -/
structure Spellable (layers : List Layer) : Prop where
  /-- Pointers lead to no arrays. -/
  arraysOutside : layers.Pairwise Layer.MayHold
  /-- It makes no difference whether the numbers of inner or of outer arrays are written first. -/
  inOrder : layers.flatMap Layer.counts = spelledCounts layers

instance : DecidableRel Layer.MayHold := fun outer inner =>
  inferInstanceAs (Decidable (outer = .pointer → inner.counts = []))

instance (layers : List Layer) : Decidable (Spellable layers) :=
  decidable_of_iff (layers.Pairwise Layer.MayHold ∧ layers.flatMap Layer.counts = spelledCounts layers)
    ⟨fun ⟨outside, inOrder⟩ => ⟨outside, inOrder⟩, fun ⟨outside, inOrder⟩ => ⟨outside, inOrder⟩⟩

/-- An array of pointers, of any depth, can be spelled. -/
theorem spellable_array_of_pointers (dims : List ArrayDim) (pointers : Nat) :
    Spellable (.array dims :: List.replicate pointers .pointer) where
  arraysOutside := by
    refine List.pairwise_cons.mpr ⟨fun inner _ isPointer => ?_, ?_⟩
    · cases isPointer
    · exact List.pairwise_replicate.mpr (.inr fun _ => rfl)
  inOrder := by
    have none : (List.replicate pointers Layer.pointer).flatMap Layer.counts = [] := by
      simp [Layer.counts]
    rw [spelledCounts, List.reverse_cons, List.reverse_replicate, List.flatMap_append, List.flatMap_cons,
      List.flatMap_singleton, none, List.append_nil, List.nil_append]

namespace Derivation

/-- The number of elements of an array. -/
def count? : Derivation → Option Nat
  | pointer => none
  | array count => some count

/-- Whether a derivation may stand inside another one that is written without parentheses. -/
def MayHold (outer inner : Derivation) : Prop := outer = pointer → inner = pointer

/-- Where pointers lead to nothing but pointers, the arrays come first. -/
theorem arrays_append_pointers {type : List Derivation} (sorted : type.Pairwise MayHold) :
    (type.filterMap count?).map array ++ List.replicate (type.count pointer) pointer = type := by
  induction sorted with
  | nil => rfl
  | @cons outer type first _ ih =>
    cases outer with
    | array count =>
      have counted : (array count).count? = some count := rfl
      rw [List.filterMap_cons_some counted, List.map_cons, List.count_cons_of_ne (by simp), List.cons_append,
        ih]
    | pointer =>
      -- Behind a first pointer nothing is left to sort.
      have pointers : type = List.replicate type.length pointer :=
        List.eq_replicate_of_mem fun inner member => first inner member rfl
      rw [pointers]
      simp [count?, List.replicate_succ]

theorem pairwise_arrays_append_pointers (counts : List Nat) (pointers : Nat) :
    (counts.map array ++ List.replicate pointers pointer).Pairwise MayHold := by
  refine List.pairwise_append.mpr ⟨?_, ?_, ?_⟩
  · refine List.pairwise_map.mpr (List.pairwise_of_forall fun _ _ isPointer => ?_)
    cases isPointer
  · exact List.pairwise_replicate.mpr (.inr fun _ => rfl)
  · intro outer _ inner member _
    exact List.eq_of_mem_replicate member

end Derivation

namespace Layer

theorem filterMap_derivations (layer : Layer) :
    layer.derivations.filterMap Derivation.count? = layer.counts := by
  cases layer with
  | pointer => rfl
  | array dims => simp [derivations, counts, Derivation.count?, List.filterMap_map, Function.comp_def]

theorem count_derivations (layer : Layer) :
    layer.derivations.count .pointer = if layer == .pointer then 1 else 0 := by
  cases layer with
  | pointer => rfl
  | array dims => simp [derivations, List.count_eq_zero]

theorem pairwise_derivations (layer : Layer) : layer.derivations.Pairwise Derivation.MayHold := by
  cases layer with
  | pointer => exact List.pairwise_singleton _ _
  | array dims =>
    refine List.pairwise_map.mpr (List.pairwise_of_forall fun _ _ isPointer => ?_)
    cases isPointer

theorem mayHold_derivations {outer inner : Layer} :
    (∀ a ∈ outer.derivations, ∀ b ∈ inner.derivations, a.MayHold b) ↔ outer.MayHold inner := by
  cases outer with
  | array dims => simp [MayHold, derivations, Derivation.MayHold]
  | pointer =>
    cases inner with
    | pointer => simp [MayHold, derivations, Derivation.MayHold, counts]
    | array dims =>
      simp [MayHold, derivations, Derivation.MayHold, counts, List.eq_nil_iff_forall_not_mem]

end Layer

section Nesting

variable {layers : List Layer}

theorem filterMap_ownType (layers : List Layer) :
    (ownType layers).filterMap Derivation.count? = layers.flatMap Layer.counts := by
  rw [ownType, List.filterMap_flatMap]
  exact List.flatMap_congr fun layer _ => layer.filterMap_derivations

theorem count_ownType (layers : List Layer) :
    (ownType layers).count .pointer = layers.count .pointer := by
  induction layers with
  | nil => rfl
  | cons layer layers ih =>
    rw [ownType, List.flatMap_cons, List.count_append, layer.count_derivations, List.count_cons,
      Nat.add_comm]
    exact congrArg (· + _) ih

/-- The derivations may hold each other exactly if the layers may. -/
theorem pairwise_ownType :
    (ownType layers).Pairwise Derivation.MayHold ↔ layers.Pairwise Layer.MayHold := by
  rw [ownType, List.pairwise_flatMap]
  simp only [Layer.mayHold_derivations]
  exact and_iff_right fun layer _ => layer.pairwise_derivations

/-- Exactly the spellable nestings are read as what they are. -/
theorem spelledType_eq_ownType : spelledType layers = ownType layers ↔ Spellable layers := by
  constructor
  · intro same
    constructor
    · rw [← pairwise_ownType, ← same]
      exact Derivation.pairwise_arrays_append_pointers _ _
    · have counts := congrArg (List.filterMap Derivation.count?) same
      rw [filterMap_ownType] at counts
      rw [← counts]
      simp [spelledType, List.filterMap_map, Function.comp_def, Derivation.count?]
  · -- Both types are arrays before pointers, so their numbers and their pointers make them up.
    rintro ⟨arraysOutside, inOrder⟩
    rw [spelledType, ← inOrder, ← filterMap_ownType, ← count_ownType]
    exact Derivation.arrays_append_pointers (pairwise_ownType.mpr arraysOutside)

end Nesting

/-- A declaration with a nested type is read as arrays with the numbers of inner layers first, around all
pointers. That is the type itself exactly if its nesting is spellable, and the types of spellable nestings
with the same base and the same text are the same. -/
theorem spell_denotes_iff_spellable (s : Scope) (x : String) {id base : TypeId} {layers : List Layer}
    (nests : s.graph.Nests id layers base) :
    Declarator.read (s.spell base).before x ((s.spell id).around x) = some (spelledType layers) ∧
      (spelledType layers = ownType layers ↔ Spellable layers) ∧
      ∀ {other : TypeId} {layers' : List Layer}, s.graph.Nests other layers' base →
        Spellable layers → Spellable layers' → (s.spell other).around x = (s.spell id).around x →
        ownType layers' = ownType layers := by
  refine ⟨s.read_spell nests x, spelledType_eq_ownType, ?_⟩
  intro other layers' nests' spellable spellable' text
  have same : some (spelledType layers') = some (spelledType layers) := by
    rw [← s.read_spell nests' x, text, s.read_spell nests x]
  rw [← spelledType_eq_ownType.mpr spellable, ← spelledType_eq_ownType.mpr spellable']
  exact Option.some.inj same

/-! ### Nestings over one base -/

/-- `long` and types around it, each from nodes before it. -/
def nestedGraph : Graph :=
  [.primitive .i4,
    -- an array of two arrays of three
    .array 0 (.fixed [⟨3, 0⟩]), .array 1 (.fixed [⟨2, 0⟩]),
    -- a pointer to an array of two
    .array 0 (.fixed [⟨2, 0⟩]), .pointer 3,
    -- an array of two pointers
    .pointer 0, .array 5 (.fixed [⟨2, 0⟩]),
    -- two arrays of two, and the same as one array
    .array 3 (.fixed [⟨2, 0⟩]), .array 0 (.fixed [⟨2, 0⟩, ⟨2, 0⟩])].foldl
      (fun g structural => (g.intern structural).2) {}

def nestedScope : Scope where
  graph := nestedGraph
  names := #[]
  dialect := .idl
  hideComments := true
  bestEffort := false

theorem arrayOfArrays_nests : nestedGraph.Nests 2 [.array [⟨2, 0⟩], .array [⟨3, 0⟩]] 0 :=
  .array rfl (.array rfl (.base rfl rfl))

theorem pointerToArray_nests : nestedGraph.Nests 4 [.pointer, .array [⟨2, 0⟩]] 0 :=
  .pointer rfl (.array rfl (.base rfl rfl))

theorem arrayOfPointers_nests : nestedGraph.Nests 6 [.array [⟨2, 0⟩], .pointer] 0 :=
  .array rfl (.pointer rfl (.base rfl rfl))

theorem twoByTwo_nests : nestedGraph.Nests 7 [.array [⟨2, 0⟩], .array [⟨2, 0⟩]] 0 :=
  .array rfl (.array rfl (.base rfl rfl))

theorem twoByTwoAtOnce_nests : nestedGraph.Nests 8 [.array [⟨2, 0⟩, ⟨2, 0⟩]] 0 :=
  .array rfl (.base rfl rfl)

/-- An array of pointers is declared as one, and arrays in an array with the same text as a single array of
the same type. -/
theorem arrayOfPointers_denoted :
    (nestedScope.spell 6).around "x" = "long* x[2]" ∧
      Declarator.read "long" "x" "long* x[2]" = some (ownType [.array [⟨2, 0⟩], .pointer]) ∧
      (nestedScope.spell 7).around "x" = (nestedScope.spell 8).around "x" ∧
      ownType [.array [⟨2, 0⟩], .array [⟨2, 0⟩]] = ownType [.array [⟨2, 0⟩, ⟨2, 0⟩]] := by
  have text : (nestedScope.spell 6).around "x" = "long* x[2]" := by decide +kernel
  have base : (nestedScope.spell 0).before = "long" := by decide +kernel
  have alike : (nestedScope.spell 7).around "x" = (nestedScope.spell 8).around "x" := by decide +kernel
  obtain ⟨read, denotes, _⟩ := spell_denotes_iff_spellable nestedScope "x" arrayOfPointers_nests
  obtain ⟨_, _, determined⟩ := spell_denotes_iff_spellable nestedScope "x" twoByTwoAtOnce_nests
  rw [denotes.mpr (spellable_array_of_pointers [⟨2, 0⟩] 1), base, text] at read
  exact ⟨text, read, alike, determined twoByTwo_nests (by decide) (by decide) alike⟩

/-- An array of two arrays of three is declared as an array of three arrays of two, and a pointer to an
array with the same text as an array of pointers. -/
theorem nested_declared_otherwise :
    (nestedGraph.Nests 2 [.array [⟨2, 0⟩], .array [⟨3, 0⟩]] 0 ∧
        ownType [.array [⟨2, 0⟩], .array [⟨3, 0⟩]] = [.array 2, .array 3] ∧
        Declarator.read (nestedScope.spell 0).before "x" ((nestedScope.spell 2).around "x") =
          some [.array 3, .array 2]) ∧
      nestedGraph.Nests 4 [.pointer, .array [⟨2, 0⟩]] 0 ∧
      nestedGraph.Nests 6 [.array [⟨2, 0⟩], .pointer] 0 ∧
      ownType [.pointer, .array [⟨2, 0⟩]] ≠ ownType [.array [⟨2, 0⟩], .pointer] ∧
      (nestedScope.spell 4).around "x" = (nestedScope.spell 6).around "x" := by
  refine ⟨⟨arrayOfArrays_nests, rfl, nestedScope.read_spell arrayOfArrays_nests "x"⟩,
    pointerToArray_nests, arrayOfPointers_nests, ?_, ?_⟩
  · decide
  · decide +kernel

end ComTypes

import ComTypes.Proxy.Walk
import ComTypes.Proofs.Outcome
import ComTypes.Proofs.Table

/-!
# The accounts of a walker

A walker keeps three accounts of the records that it has met: the offsets in the order in which they were
met, the node for each offset, and the node with its size, which is what a description is decoded to when
it comes up again. They are changed one after the other. `Walker.Agree` says that they are accounts of the
same records: opening a record at a new offset enters it into all three (`Agree.enter`), and discarding
records strikes their offsets from all three, which leaves the accounts as they were before
(`Agree.discardSince`).
-/

namespace ComTypes

namespace Walker

variable {w w' : Walker} {offset size : Nat} {id : TypeId}

/-- The records of the previous decode that have not been met again. -/
def previousIds (w : Walker) : List TypeId := w.previous.values

/-- The records met so far, the last one first. -/
def recordIds (w : Walker) : List TypeId := w.memo.values.map (·.1)

/-- The accounts are in step: whatever was entered into one of them was entered into the others, and at no
offset twice. -/
structure Agree (w : Walker) : Prop where
  created : w.created = w.memo.keys.reverse
  current : w.current.entries = w.memo.entries.map fun entry => (entry.1, entry.2.1)
  keys : w.memo.keys.Nodup

theorem mem_recordIds_of_memo {found : TypeId × Nat} (known : w.memo.get? offset = some found) :
    found.1 ∈ w.recordIds :=
  List.mem_map.mpr ⟨_, Table.mem_values_of_get? known, rfl⟩

namespace Agree

variable (agree : w.Agree)

include agree

theorem mem_created : offset ∈ w.created ↔ offset ∈ w.memo.keys := by
  rw [agree.created, List.mem_reverse]

theorem created_nodup : w.created.Nodup := by
  rw [agree.created]
  exact List.nodup_reverse.mpr agree.keys

theorem current_keys : w.current.keys = w.memo.keys := by
  rw [Table.keys, agree.current, List.map_map]
  rfl

theorem current_values : w.current.values = w.recordIds := by
  rw [Table.values, agree.current, recordIds, Table.values, List.map_map, List.map_map]
  rfl

/-- Both tables hold the same node at an offset. -/
theorem current_get? (offset : Nat) :
    w.current.get? offset = (w.memo.get? offset).map (·.1) := by
  cases known : w.memo.get? offset with
  | none =>
    rw [Option.map_none, Table.get?_eq_none_iff, agree.current_keys]
    exact Table.get?_eq_none_iff.mp known
  | some found =>
    apply Table.get?_of_mem (agree.current_keys ▸ agree.keys)
    rw [agree.current]
    exact List.mem_map.mpr ⟨_, Table.mem_of_get? known, rfl⟩

theorem exists_current (met : offset ∈ w.created) :
    ∃ id ∈ w.recordIds, w.current.get? offset = some id := by
  cases known : w.memo.get? offset with
  | none => exact absurd (agree.mem_created.mp met) (Table.get?_eq_none_iff.mp known)
  | some found =>
    exact ⟨found.1, mem_recordIds_of_memo known, by rw [agree.current_get?, known, Option.map_some]⟩

end Agree

/-- The record that was met as the `k`-th is named after its place. -/
def Named (w : Walker) : Prop :=
  ∀ (k offset : Nat), w.created[k]? = some offset →
    ∃ id node, w.current.get? offset = some id ∧ w.graph.node? id = some node ∧
      node.name = s!"Struct_{k}"

/-- The accounts have the same offsets, each once, and the same nodes, which are different from each other
and from those of the previous decode. -/
structure Coherent (w : Walker) : Prop where
  created : w.created.Nodup
  current_keys : w.current.keys.Perm w.created
  memo_keys : w.memo.keys.Perm w.created
  same_node : ∀ offset, (w.memo.get? offset).map (·.1) = w.current.get? offset
  nodes : w.current.values.Nodup
  apart : ∀ id ∈ w.current.values, id ∉ w.previous.values
  named : w.Named

/-- Accounts that agree are coherent if their nodes are distinct and named in the graph. -/
theorem Agree.coherent (agree : w.Agree) (ids : (w.previousIds ++ w.recordIds).Nodup)
    (named : w.Named) : w.Coherent where
  created := agree.created_nodup
  current_keys := by
    rw [agree.current_keys, agree.created]
    exact (List.reverse_perm _).symm
  memo_keys := by
    rw [agree.created]
    exact (List.reverse_perm _).symm
  same_node offset := (agree.current_get? offset).symm
  nodes := agree.current_values ▸ (List.nodup_append.mp ids).2.1
  apart id member before :=
    (List.nodup_append.mp ids).2.2 id before id (agree.current_values ▸ member) rfl
  named := named

/-! ### Entering a record -/

/-- Enter a record into every account. -/
def enter (w : Walker) (offset size : Nat) (id : TypeId) : Walker :=
  { w with
    current := w.current.insert offset id
    created := w.created ++ [offset]
    memo := w.memo.insert offset (id, size) }

theorem entries_enter (unmet : w.memo.get? offset = none) :
    (w.enter offset size id).memo.entries = (offset, id, size) :: w.memo.entries :=
  Table.entries_insert (Table.get?_eq_none_iff.mp unmet)

theorem recordIds_enter (unmet : w.memo.get? offset = none) :
    (w.enter offset size id).recordIds = id :: w.recordIds := by
  simp [recordIds, Table.values, entries_enter unmet]

/-- The accounts stay in step when all of them are told of a record at a new offset. -/
theorem Agree.enter (agree : w.Agree) (unmet : w.memo.get? offset = none) (size : Nat) (id : TypeId) :
    (w.enter offset size id).Agree := by
  have keys : (w.enter offset size id).memo.keys = offset :: w.memo.keys := by
    simp [Table.keys, entries_enter unmet]
  have new := Table.get?_eq_none_iff.mp unmet
  refine ⟨?_, ?_, ?_⟩
  · rw [keys, List.reverse_cons, ← agree.created]
    rfl
  · rw [entries_enter unmet, List.map_cons, ← agree.current]
    exact Table.entries_insert (agree.current_keys ▸ new)
  · rw [keys]
    exact List.nodup_cons.mpr ⟨new, agree.keys⟩

/-! ### Discarding records -/

/-- The records met since there were `mark` of them. -/
def discarded (w : Walker) (mark : Nat) : List TypeId :=
  (w.created.drop mark).filterMap w.current.get?

/-- Offsets are struck from the accounts one by one; what is found at the later ones is not lost on the
way. -/
theorem foldl_strike {offsets : List Nat} (nodup : offsets.Nodup) (w : Walker) :
    offsets.foldl strike w =
      { w with
        graph := (offsets.filterMap w.current.get?).foldl Graph.retire w.graph
        current := offsets.foldl .erase w.current
        memo := offsets.foldl .erase w.memo } := by
  induction offsets generalizing w with
  | nil => rfl
  | cons offset rest ih =>
    obtain ⟨apart, nodup⟩ := List.nodup_cons.mp nodup
    have later : rest.filterMap (w.current.erase offset).get? = rest.filterMap w.current.get? := by
      refine List.filterMap_congr fun other member => ?_
      rw [Table.get?_erase, if_neg (ne_of_mem_of_not_mem member apart)]
    rw [List.foldl_cons, ih nodup, strike, later]
    cases found : w.current.get? offset <;> simp [found]

variable (agree : w.Agree) (agree' : w'.Agree) (before : w.memo.entries <:+ w'.memo.entries)

include agree agree' before

/-- The offsets that were added, in the order in which they were met. -/
theorem exists_added : ∃ added, added ++ w.memo.entries = w'.memo.entries ∧
    w'.created = w.created ++ (added.map (·.1)).reverse := by
  obtain ⟨added, split⟩ := before
  refine ⟨added, split, ?_⟩
  rw [agree.created, agree'.created, Table.keys, Table.keys, ← split, List.map_append,
    List.reverse_append]

/-- The records that were discarded are those that were added, and the accounts are what they were before. -/
theorem Agree.discardSince :
    w'.discardSince w.created.length =
      { w' with
        graph := (w'.discarded w.created.length).foldl Graph.retire w'.graph
        current := w.current
        created := w.created
        memo := w.memo } := by
  obtain ⟨added, split, created⟩ := exists_added agree agree' before
  have gone : w'.created.drop w.created.length = (added.map (·.1)).reverse := by
    rw [created, List.drop_left]
  have nodup : (w'.created.drop w.created.length).Nodup :=
    agree'.created_nodup.sublist (List.drop_sublist _ _)
  have current : (added.map fun entry => (entry.1, entry.2.1)) ++ w.current.entries =
      w'.current.entries := by
    rw [agree.current, agree'.current, ← split, List.map_append]
  have kept : (w'.created.drop w.created.length).foldl .erase w'.memo = w.memo :=
    Table.foldl_erase_of_append agree'.keys split fun k => by simp [gone]
  have kept' : (w'.created.drop w.created.length).foldl .erase w'.current = w.current :=
    Table.foldl_erase_of_append (agree'.current_keys ▸ agree'.keys) current fun k => by simp [gone]
  rw [Walker.discardSince, foldl_strike nodup]
  simp only [kept, kept', discarded]
  rw [created, List.take_left]

/-- The records are those kept and those discarded. -/
theorem recordIds_split : w'.recordIds = (w'.discarded w.created.length).reverse ++ w.recordIds := by
  obtain ⟨added, split, created⟩ := exists_added agree agree' before
  have nodes : ∀ entry ∈ added, w'.current.get? entry.1 = some entry.2.1 := by
    intro entry member
    have known : w'.memo.get? entry.1 = some entry.2 :=
      Table.get?_of_mem agree'.keys (split ▸ List.mem_append_left _ member)
    rw [agree'.current_get?, known, Option.map_some]
  have discarded : w'.discarded w.created.length = (added.map (·.2.1)).reverse := by
    rw [discarded, created, List.drop_left, ← List.map_reverse, List.filterMap_map, ← List.map_reverse,
      ← List.filterMap_eq_map]
    exact List.filterMap_congr fun entry member => nodes entry (List.mem_reverse.mp member)
  rw [discarded, List.reverse_reverse, recordIds, recordIds, Table.values, Table.values, ← split,
    List.map_map, List.map_map, List.map_append]
  rfl

end Walker

/-! ### Opening a record -/

namespace Walk

open Walker

variable {w : Walker} {offset : Nat}

/-- The name of the next record. -/
def nextName (w : Walker) : String := s!"Struct_{w.created.length}"

/-- A record that waits to be filled. -/
def reopened (name : String) (node : Node) : Node :=
  { node with name, body := .record .struct [], retired := false, state := .pending }

/-- A record of the previous decode is opened again. -/
def reopen (w : Walker) (offset size : Nat) (id : TypeId) : Walker :=
  { w.enter offset size id with
    graph := w.graph.modify id (reopened (nextName w))
    previous := w.previous.erase offset }

/-- A new record is opened. -/
def openNew (w : Walker) (offset size : Nat) : Walker :=
  { w.enter offset size w.graph.size with
    graph := (w.graph.add none (nextName w) (.record .struct [])).2 }

/-- A record that the previous decode left is opened again. -/
theorem openRecord_of_known {size : Nat} {id : TypeId} (known : w.previous.get? offset = some id) :
    openRecord offset size w = .ok id (reopen w offset size id) := by
  have made : recordNode offset w = .ok id { reopen w offset size id with memo := w.memo } := by
    unfold recordNode
    rw [get_bind]
    dsimp only
    rw [known]
    rfl
  rw [openRecord, ok_bind made]
  rfl

/-- A record for a new offset is appended. -/
theorem openRecord_of_unknown {size : Nat} (unknown : w.previous.get? offset = none) :
    openRecord offset size w = .ok w.graph.size (openNew w offset size) := by
  have made : recordNode offset w =
      .ok w.graph.size { openNew w offset size with memo := w.memo } := by
    unfold recordNode
    rw [get_bind]
    dsimp only
    rw [unknown]
    rfl
  rw [openRecord, ok_bind made]
  rfl

/-- Opening a record always succeeds, and enters it into the accounts. -/
theorem openRecord_enters (offset size : Nat) (w : Walker) :
    ∃ id graph previous, openRecord offset size w =
      .ok id { w.enter offset size id with graph, previous } := by
  cases known : w.previous.get? offset with
  | some id => exact ⟨id, _, _, openRecord_of_known known⟩
  | none => exact ⟨_, _, _, openRecord_of_unknown known⟩

end Walk

end ComTypes

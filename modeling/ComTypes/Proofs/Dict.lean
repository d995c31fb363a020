import Mathlib.Data.List.Nodup
import ComTypes.Dict

/-!
# Looking up in sorted dictionaries

An insertion decides the value of its own key and of no other, so in a dictionary made from a list of
entries the last entry for a key counts. Two dictionaries in which every look-up gives the same are equal
(`ext_get?`), so a dictionary can be written down in any order of its entries, and with entries that
later ones replace (`WrittenAs`).
-/

namespace ComTypes.Dict

variable {α β : Type} [Ord α] [Std.LawfulEqOrd α] [DecidableEq α]

omit [DecidableEq α] in
theorem compare_self_eq (a : α) : compare a a = .eq := Std.ReflCmp.compare_self

theorem compare_beq_eq (a b : α) : (compare a b == .eq) = decide (a = b) := by
  by_cases same : a = b
  · rw [same, compare_self_eq, decide_eq_true rfl]
    rfl
  · have differs : compare a b ≠ .eq := fun eq => same (Std.LawfulEqCmp.eq_of_compare eq)
    rw [decide_eq_false same, beq_eq_false_iff_ne]
    exact differs

/-- An entry that is put in its place hides the others with its key. -/
theorem find?_place (k j : α) (v : β) (l : List (α × β)) :
    (place k v l).find? (fun entry => compare entry.1 j == .eq) =
      if k = j then some (k, v) else l.find? fun entry => compare entry.1 j == .eq := by
  induction l with
  | nil =>
    by_cases same : k = j <;> simp [place, same, compare_beq_eq]
  | cons entry rest ih =>
    rw [place]
    cases order : compare k entry.1 with
    | lt => by_cases same : k = j <;> simp [same, compare_beq_eq]
    | eq =>
      have key : k = entry.1 := Std.LawfulEqCmp.eq_of_compare order
      by_cases same : k = j
      · simp [same, compare_beq_eq]
      · have other : entry.1 ≠ j := key ▸ same
        simp [same, other, compare_beq_eq]
    | gt =>
      have key : entry.1 ≠ k := by
        intro same
        rw [same, compare_self_eq] at order
        cases order
      by_cases here : entry.1 = j
      · have other : k ≠ j := fun same => key (here.trans same.symm)
        simp [here, other, compare_beq_eq]
      · simpa [here, compare_beq_eq] using ih

variable [Std.TransOrd α]

theorem get?_insert (d : Dict α β) (k j : α) (v : β) :
    (d.insert k v).get? j = if j = k then some v else d.get? j := by
  rw [get?, insert, find?_place]
  by_cases same : k = j
  · simp [same]
  · have other : j ≠ k := fun eq => same eq.symm
    rw [if_neg same, if_neg other]
    rfl

/-- The last entry for a key counts. -/
theorem get?_ofList (entries : List (α × β)) (k : α) :
    (ofList entries).get? k = (entries.reverse.find? (·.1 = k)).map (·.2) := by
  -- By induction on the entries from the last one back.
  rw [ofList, ← List.foldr_reverse]
  induction entries.reverse with
  | nil => rfl
  | cons entry rest ih =>
    rw [List.foldr_cons, get?_insert, ih, List.find?_cons]
    by_cases same : k = entry.1
    · simp [same]
    · have other : entry.1 ≠ k := fun eq => same eq.symm
      simp [same, other]

/-- A key whose entries agree. -/
theorem get?_ofList_of_mem {entries : List (α × β)} {k : α} {v : β} (member : (k, v) ∈ entries)
    (unique : ∀ w, (k, w) ∈ entries → w = v) : (ofList entries).get? k = some v := by
  rw [get?_ofList]
  cases found : entries.reverse.find? (·.1 = k) with
  | none =>
    have absent := List.find?_eq_none.mp found (k, v) (List.mem_reverse.mpr member)
    simp at absent
  | some entry =>
    have key : entry.1 = k := by simpa using List.find?_some found
    have inside := List.mem_reverse.mp (List.mem_of_find?_eq_some found)
    rw [Option.map_some]
    exact congrArg some (unique entry.2 (key ▸ inside))

/-- A key that is not among the entries is not found. -/
theorem get?_ofList_of_notMem {entries : List (α × β)} {k : α} (absent : ∀ w, (k, w) ∉ entries) :
    (ofList entries).get? k = none := by
  rw [get?_ofList, Option.map_eq_none_iff, List.find?_eq_none]
  intro entry inside same
  have key : entry.1 = k := by simpa using same
  exact absent entry.2 (key ▸ List.mem_reverse.mp inside)

/-! ### Equal look-ups -/

omit [DecidableEq α] [Std.TransOrd α] in
theorem keys_nodup (d : Dict α β) : (d.entries.map (·.1)).Nodup := by
  rw [List.nodup_iff_pairwise_ne, List.pairwise_map]
  refine d.ascending.imp ?_
  intro a b less equal
  rw [equal, compare_self_eq] at less
  cases less

omit [DecidableEq α] [Std.TransOrd α] in
/-- There is one entry for a key. -/
theorem entry_unique (d : Dict α β) {a b : α × β} (first : a ∈ d.entries) (second : b ∈ d.entries)
    (same : a.1 = b.1) : a = b :=
  List.inj_on_of_nodup_map d.keys_nodup first second same

omit [Std.TransOrd α] in
/-- The entries are what look-up finds. -/
theorem mem_entries_iff (d : Dict α β) (k : α) (v : β) : (k, v) ∈ d.entries ↔ d.get? k = some v := by
  constructor
  · intro member
    cases found : d.entries.find? fun entry => compare entry.1 k == .eq with
    | none =>
      have absent := List.find?_eq_none.mp found (k, v) member
      simp at absent
    | some entry =>
      have key : entry.1 = k := by
        have equal := List.find?_some found
        rw [compare_beq_eq] at equal
        exact of_decide_eq_true equal
      have same := d.entry_unique (List.mem_of_find?_eq_some found) member key
      rw [get?, found, same, Option.map_some]
  · intro known
    obtain ⟨entry, found, rfl⟩ := Option.map_eq_some_iff.mp known
    have equal := List.find?_some found
    rw [compare_beq_eq] at equal
    have key : entry.1 = k := of_decide_eq_true equal
    rw [← key]
    exact List.mem_of_find?_eq_some found

/-- A dictionary is what its look-ups give. -/
theorem ext_get? {d d' : Dict α β} (same : ∀ k, d.get? k = d'.get? k) : d = d' := by
  have perm : d.entries.Perm d'.entries := by
    rw [List.perm_ext_iff_of_nodup d.keys_nodup.of_map d'.keys_nodup.of_map]
    rintro ⟨k, v⟩
    rw [mem_entries_iff, mem_entries_iff, same]
  have entries : d.entries = d'.entries := by
    refine perm.eq_of_pairwise ?_ d.ascending d'.ascending
    intro a b _ _ less more
    exact absurd more (Std.OrientedCmp.not_lt_of_lt less)
  cases d
  cases d'
  cases entries
  rfl

/-- The entries, written one after the other, leave what the dictionary holds: under each key the last
one counts. -/
def WrittenAs (d : Dict α β) (written : List (α × β)) : Prop :=
  ∀ k, d.get? k = (written.reverse.find? (·.1 = k)).map (·.2)

/-- A dictionary is written as any list of entries from which it is made. -/
theorem writtenAs_iff {d : Dict α β} {written : List (α × β)} :
    d.WrittenAs written ↔ ofList written = d := by
  constructor
  · intro same
    apply ext_get?
    intro k
    rw [get?_ofList, same k]
  · rintro rfl k
    rw [get?_ofList]

/-- The entries of a dictionary may be written in any order. -/
theorem writtenAs_of_perm {d : Dict α β} {written : List (α × β)} (order : written.Perm d.entries) :
    d.WrittenAs written := by
  intro k
  rw [← get?_ofList]
  cases known : d.get? k with
  | some v =>
    have member := (d.mem_entries_iff k v).mpr known
    refine (get?_ofList_of_mem (order.mem_iff.mpr member) ?_).symm
    intro w other
    have same := d.entry_unique (order.mem_iff.mp other) member rfl
    cases same
    rfl
  | none =>
    refine (get?_ofList_of_notMem ?_).symm
    intro w other
    rw [(d.mem_entries_iff k w).mp (order.mem_iff.mp other)] at known
    cases known

end ComTypes.Dict

import Mathlib.Data.List.Nodup
import ComTypes.Table

/-!
# Keys and values of a table

A table made by insertions holds each key once. Then looking up a key and erasing it splits the table
in two (`values_perm_erase`), a new entry stands in front of the others (`entries_insert`), and erasing the
keys of the entries in front leaves those behind them (`foldl_erase_of_append`).
-/

namespace ComTypes.Table

variable {α β γ : Type}

/-- The keys of the entries, newest first. -/
def keys (t : Table α β) : List α := t.entries.map (·.1)

/-- The values of the entries, newest first. -/
def values (t : Table α β) : List β := t.entries.map (·.2)

@[simp] theorem keys_empty : (empty : Table α β).keys = [] := rfl

@[simp] theorem values_empty : (empty : Table α β).values = [] := rfl

variable [DecidableEq α] {t : Table α β} {k : α} {v : β}

theorem mem_of_get? (h : t.get? k = some v) : (k, v) ∈ t.entries := by
  obtain ⟨⟨key, value⟩, found, rfl⟩ := Option.map_eq_some_iff.mp h
  have same : key = k := by simpa using List.find?_some found
  rw [← same]
  exact List.mem_of_find?_eq_some found

theorem keys_erase : (t.erase k).keys = t.keys.filter (· ≠ k) := by
  simp only [keys, erase, List.filter_map]
  rfl

/-- Erasing a key keeps the order of the other values. -/
theorem values_erase_sublist : (t.erase k).values.Sublist t.values :=
  List.filter_sublist.map _

theorem erase_of_notMem (h : k ∉ t.keys) : (t.erase k).entries = t.entries := by
  refine List.filter_eq_self.mpr fun entry member => decide_eq_true fun same => h ?_
  exact List.mem_map.mpr ⟨entry, member, same⟩

/-- The values are those of the other keys and the one that was found. -/
theorem values_perm_erase (nodup : t.keys.Nodup) (found : t.get? k = some v) :
    t.values.Perm (v :: (t.erase k).values) := by
  obtain ⟨before, after, split⟩ := List.append_of_mem (mem_of_get? found)
  have keys : t.keys = before.map (·.1) ++ k :: after.map (·.1) := by simp [Table.keys, split]
  rw [keys, List.nodup_middle, List.nodup_cons, List.mem_append] at nodup
  have apart : ∀ entry ∈ before ++ after, decide (entry.1 ≠ k) = true := by
    refine fun entry member => decide_eq_true fun same => nodup.1 ?_
    rcases List.mem_append.mp member with early | late
    · exact .inl (List.mem_map.mpr ⟨entry, early, same⟩)
    · exact .inr (List.mem_map.mpr ⟨entry, late, same⟩)
  have rest : (t.erase k).entries = before ++ after := by
    rw [← List.filter_eq_self.mpr apart]
    simp [erase, split]
  have whole : t.values = before.map (·.2) ++ v :: after.map (·.2) := by simp [values, split]
  have others : (t.erase k).values = before.map (·.2) ++ after.map (·.2) := by
    simp [values, rest]
  rw [whole, others]
  exact List.perm_middle

theorem mem_keys_insert {j : α} : j ∈ (t.insert k v).keys ↔ j = k ∨ j ∈ t.keys := by
  show j ∈ k :: (t.erase k).keys ↔ _
  rw [List.mem_cons, keys_erase, List.mem_filter]
  by_cases same : j = k <;> simp [same]

theorem get?_eq_none_iff : t.get? k = none ↔ k ∉ t.keys := by
  simp only [get?, Option.map_eq_none_iff, List.find?_eq_none, decide_eq_true_eq, keys, List.mem_map,
    not_exists, not_and]

theorem mem_keys_of_get? (found : t.get? k = some v) : k ∈ t.keys :=
  List.mem_map.mpr ⟨_, mem_of_get? found, rfl⟩

theorem mem_values_of_get? (found : t.get? k = some v) : v ∈ t.values :=
  List.mem_map.mpr ⟨_, mem_of_get? found, rfl⟩

/-- An entry is what its key looks up, if no key repeats. -/
theorem get?_of_mem (nodup : t.keys.Nodup) (member : (k, v) ∈ t.entries) : t.get? k = some v := by
  cases found : t.get? k with
  | none => exact absurd (List.mem_map.mpr ⟨_, member, rfl⟩) (get?_eq_none_iff.mp found)
  | some other =>
    have same := List.inj_on_of_nodup_map nodup (mem_of_get? found) member rfl
    rw [(Prod.mk.inj same).2]

theorem entries_insert (new : k ∉ t.keys) : (t.insert k v).entries = (k, v) :: t.entries := by
  rw [insert, erase_of_notMem new]

/-- Erasing keys one by one leaves the entries under the others. -/
theorem entries_foldl_erase (gone : List α) :
    (gone.foldl erase t).entries = t.entries.filter (·.1 ∉ gone) := by
  induction gone generalizing t with
  | nil => simp
  | cons k rest ih => simp [ih, erase, List.filter_filter, Bool.and_comm]

/-- The keys of the newest entries are erased. -/
theorem foldl_erase_of_append {added : List (α × β)} {before : Table α β} (nodup : t.keys.Nodup)
    (split : added ++ before.entries = t.entries) {gone : List α}
    (same : ∀ k, k ∈ gone ↔ k ∈ added.map (·.1)) : gone.foldl erase t = before := by
  have apart : (added.map (·.1) ++ before.keys).Nodup := by
    rwa [keys, ← split, List.map_append] at nodup
  have kept : (gone.foldl erase t).entries = before.entries := by
    rw [entries_foldl_erase, ← split, List.filter_append]
    have none : added.filter (·.1 ∉ gone) = [] := by
      refine List.filter_eq_nil_iff.mpr fun entry member => ?_
      simpa [same] using ⟨_, member⟩
    have all : before.entries.filter (·.1 ∉ gone) = before.entries := by
      refine List.filter_eq_self.mpr fun entry member => decide_eq_true fun among => ?_
      exact (List.nodup_append.mp apart).2.2 _ ((same _).mp among) _
        (List.mem_map.mpr ⟨_, member, rfl⟩) rfl
    rw [none, all, List.nil_append]
  cases before
  exact congrArg Table.mk kept

/-- Of entries with different keys, each is found under its own. -/
theorem get?_foldl_insert (key : γ → α) (value : γ → β) (items : List γ)
    (nodup : (items.map key).Nodup) (k : α) :
    (items.foldl (fun t item => t.insert (key item) (value item)) t).get? k =
      ((items.find? (key · = k)).map value).or (t.get? k) := by
  induction items generalizing t with
  | nil => rfl
  | cons item rest ih =>
    rw [List.map_cons, List.nodup_cons] at nodup
    rw [List.foldl_cons, ih nodup.2, get?_insert]
    by_cases here : key item = k
    · subst here
      have later : rest.find? (key · = key item) = none := by
        simp only [List.find?_eq_none, decide_eq_true_eq]
        intro other member same
        exact nodup.1 (List.mem_map.mpr ⟨other, member, same⟩)
      simp [later]
    · simp [here, Ne.symm here]

theorem entries_eq_nil (none : ∀ k, t.get? k = none) : t.entries = [] := by
  cases held : t.entries with
  | nil => rfl
  | cons entry rest =>
    have found := none entry.1
    simp [get?, held] at found

end ComTypes.Table

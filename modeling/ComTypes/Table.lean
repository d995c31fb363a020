/-!
# Lookup tables

A finite map kept as a list of entries, the newest first. An insertion takes the place of an older
entry with the same key, so a table built by `insert` and `erase` holds each key at most once.
The order of entries is never observed through `get?`.
-/

namespace ComTypes

structure Table (α β : Type) where
  entries : List (α × β) := []
deriving DecidableEq, Repr

namespace Table

variable {α β : Type}

def empty : Table α β := {}

instance : Inhabited (Table α β) := ⟨empty⟩

def size (t : Table α β) : Nat := t.entries.length

variable [DecidableEq α]

def get? (t : Table α β) (k : α) : Option β :=
  (t.entries.find? (·.1 = k)).map (·.2)

def erase (t : Table α β) (k : α) : Table α β := ⟨t.entries.filter (·.1 ≠ k)⟩

def insert (t : Table α β) (k : α) (v : β) : Table α β := ⟨(k, v) :: (t.erase k).entries⟩

@[simp] theorem get?_empty (k : α) : (empty : Table α β).get? k = none := rfl

@[simp] theorem get?_insert_self (t : Table α β) (k : α) (v : β) :
    (t.insert k v).get? k = some v := by
  simp [get?, insert]

theorem get?_erase (t : Table α β) (k j : α) :
    (t.erase k).get? j = if j = k then none else t.get? j := by
  by_cases h : j = k
  · subst h
    simp [get?, erase]
  · simp only [get?, erase, List.find?_filter, h, if_false]
    congr 2
    funext entry
    by_cases same : entry.1 = j <;> simp [same, h]

theorem get?_insert (t : Table α β) (k j : α) (v : β) :
    (t.insert k v).get? j = if j = k then some v else t.get? j := by
  by_cases h : j = k
  · simp [h]
  · have other : k ≠ j := fun e => h e.symm
    have shown : (t.insert k v).get? j = (t.erase k).get? j := by
      simp [get?, insert, other]
    rw [shown, get?_erase, if_neg h, if_neg h]

end Table

end ComTypes

/-!
# Sorted dictionaries

A finite map kept as a list of entries in strictly ascending key order. The order is part of the
type, so two dictionaries with the same entries are equal however they were built.
-/

namespace ComTypes

/-- A finite map from `α` to `β` with its entries in ascending key order. -/
structure Dict (α β : Type) [Ord α] where
  entries : List (α × β) := []
  ascending : entries.Pairwise (fun a b => compare a.1 b.1 = .lt) := by exact List.Pairwise.nil

namespace Dict

variable {α β : Type} [Ord α]

def empty : Dict α β := {}

instance : Inhabited (Dict α β) := ⟨empty⟩

instance [DecidableEq α] [DecidableEq β] : DecidableEq (Dict α β) := fun a b =>
  decidable_of_iff (a.entries = b.entries)
    ⟨fun h => by cases a; cases b; cases h; rfl, fun h => h ▸ rfl⟩

def get? (d : Dict α β) (k : α) : Option β :=
  (d.entries.find? fun entry => compare entry.1 k == .eq).map (·.2)

/-- Put an entry in its place in an ascending list; an entry with the same key gives way. -/
def place (k : α) (v : β) : List (α × β) → List (α × β)
  | [] => [(k, v)]
  | entry :: rest =>
    match compare k entry.1 with
    | .lt => (k, v) :: entry :: rest
    | .eq => (k, v) :: rest
    | .gt => entry :: place k v rest

theorem mem_place {k : α} {v : β} {l : List (α × β)} {entry : α × β}
    (h : entry ∈ place k v l) : entry = (k, v) ∨ entry ∈ l := by
  induction l with
  | nil => simpa [place] using h
  | cons first rest ih =>
    simp only [place] at h
    split at h
    · simpa using h
    · simp only [List.mem_cons] at h ⊢
      rcases h with h | h
      · exact .inl h
      · exact .inr (.inr h)
    · simp only [List.mem_cons] at h ⊢
      rcases h with h | h
      · exact .inr (.inl h)
      · rcases ih h with h | h
        · exact .inl h
        · exact .inr (.inr h)

theorem place_ascending [Std.TransOrd α] [Std.LawfulEqOrd α] (k : α) (v : β) (l : List (α × β))
    (h : l.Pairwise fun a b => compare a.1 b.1 = .lt) :
    (place k v l).Pairwise fun a b => compare a.1 b.1 = .lt := by
  induction l with
  | nil => simp [place]
  | cons first rest ih =>
    rw [List.pairwise_cons] at h
    simp only [place]
    split
    next lt =>
      rw [List.pairwise_cons, List.pairwise_cons]
      refine ⟨fun entry member => ?_, h⟩
      rcases List.mem_cons.mp member with same | later
      · rw [same]
        exact lt
      · exact Std.TransCmp.lt_trans lt (h.1 entry later)
    next eq =>
      have same : k = first.1 := Std.LawfulEqCmp.eq_of_compare eq
      rw [List.pairwise_cons]
      exact ⟨fun entry member => same ▸ h.1 entry member, h.2⟩
    next gt =>
      rw [List.pairwise_cons]
      refine ⟨fun entry member => ?_, ih h.2⟩
      rcases mem_place member with rfl | later
      · exact Std.OrientedCmp.lt_of_gt gt
      · exact h.1 entry later

variable [Std.TransOrd α] [Std.LawfulEqOrd α]

def insert (d : Dict α β) (k : α) (v : β) : Dict α β where
  entries := place k v d.entries
  ascending := place_ascending k v d.entries d.ascending

/-- The dictionary of a list of entries; of entries with the same key the last one stays. -/
def ofList (entries : List (α × β)) : Dict α β :=
  entries.foldl (fun d entry => d.insert entry.1 entry.2) empty

end Dict

end ComTypes

import ComTypes.Proofs.Naming.Display

/-!
# Member names

Members are named from left to right, and each name is picked against those given out before it
(`go_picks`). So all names differ and a name is changed only where an earlier member has it, whatever
numbers and fallbacks the other names happen to look like. Names that are distinct and not empty stay as
they are (`go_of_distinct`), and in particular those that have been made so
(`disambiguate_distinct_and_least`).
-/

namespace ComTypes.Naming

/-- The name that the member at position `i` would like to have. -/
def memberBase (fallback : Nat → String) (i : Nat) (name : String) : String :=
  if name = "" then fallback i else name

theorem memberBase_ne_empty {fallback : Nat → String} (named : ∀ i, fallback i ≠ "") (i : Nat)
    (name : String) : memberBase fallback i name ≠ "" := by
  unfold memberBase
  split
  next => exact named i
  next given => exact given

theorem numbered_ne_empty (base : String) (k : Nat) : numbered base k ≠ "" := by
  intro empty
  have text := toList_numbered base k
  rw [empty] at text
  simp at text

/-- A name picked for a name is not empty. -/
theorem Picks.ne_empty {used : String → Prop} {base name : String} {start : Nat}
    (picks : Picks used base start name) (given : base ≠ "") : name ≠ "" := by
  by_cases taken : used base
  · obtain ⟨k, _, rfl, _⟩ := picks.2 taken
    exact numbered_ne_empty base k
  · rwa [picks.1 taken]

section Names

variable (fallback : Nat → String) {name : String}

theorem length_go (i : Nat) (taken names : List String) :
    (disambiguate.go fallback i taken names).length = names.length := by
  induction names generalizing i taken with
  | nil => rfl
  | cons name rest ih => rw [disambiguate.go, List.length_cons, List.length_cons, ih]

/-- Every member gets a name that is picked against those taken and those given out before. -/
theorem go_picks (i : Nat) (taken names : List String) {j : Nat} (found : names[j]? = some name) :
    ∃ given, (disambiguate.go fallback i taken names)[j]? = some given ∧
      Picks (fun text => text ∈ taken ∨ text ∈ (disambiguate.go fallback i taken names).take j)
        (memberBase fallback (i + j) name) (i + j) given := by
  induction names generalizing i taken j with
  | nil => cases found
  | cons head rest ih =>
    rw [disambiguate.go]
    cases j with
    | zero =>
      obtain rfl : head = name := Option.some.inj found
      refine ⟨_, rfl, (fresh_picks taken _ i).congr fun text => ?_⟩
      simp
    | succ j =>
      -- What was given to the first member is taken from there on.
      obtain ⟨given, at_j, picks⟩ := ih (i + 1) _ found
      have place : i + 1 + j = i + (j + 1) := Nat.add_right_comm i 1 j
      rw [place] at picks
      refine ⟨given, at_j, picks.congr fun text => ?_⟩
      simp only [List.mem_cons, List.take_succ_cons]
      tauto

/-- Names that are distinct, not empty and not taken stay as they are. -/
theorem go_of_distinct (i : Nat) (taken : List String) {names : List String} (distinct : names.Nodup)
    (named : ∀ name ∈ names, name ≠ "") (free : ∀ name ∈ names, name ∉ taken) :
    disambiguate.go fallback i taken names = names := by
  induction names generalizing i taken with
  | nil => rfl
  | cons name rest ih =>
    obtain ⟨apart, distinct⟩ := List.nodup_cons.mp distinct
    have kept : fresh taken (if name = "" then fallback i else name) i = name := by
      rw [if_neg (named name List.mem_cons_self)]
      exact if_neg (free name List.mem_cons_self)
    rw [disambiguate.go, kept, ih]
    · exact distinct
    · exact fun other member => named other (List.mem_cons_of_mem _ member)
    · intro other member again
      rcases List.mem_cons.mp again with rfl | again
      · exact apart member
      · exact free other (List.mem_cons_of_mem _ member) again

end Names

/-- The search for free names ends for every list, and each member has a name of its own, which is not
empty. A member keeps its name (or its fallback, if it has none) unless an earlier one shows it, and then
gets it with the least number from its own position on that no earlier one shows. Names that have been
made distinct stay as they are. -/
theorem disambiguate_distinct_and_least {fallback : Nat → String} (named : ∀ i, fallback i ≠ "")
    (names : List String) :
    (disambiguate fallback names).length = names.length ∧ (disambiguate fallback names).Nodup ∧
      (∀ given ∈ disambiguate fallback names, given ≠ "") ∧
      (∀ i name, names[i]? = some name → ∃ given, (disambiguate fallback names)[i]? = some given ∧
        Picks (· ∈ (disambiguate fallback names).take i) (memberBase fallback i name) i given) ∧
      ∀ other : Nat → String,
        disambiguate other (disambiguate fallback names) = disambiguate fallback names := by
  have length : (disambiguate fallback names).length = names.length := length_go fallback 0 [] names
  have picks : ∀ i name, names[i]? = some name →
      ∃ given, (disambiguate fallback names)[i]? = some given ∧
        Picks (· ∈ (disambiguate fallback names).take i) (memberBase fallback i name) i given := by
    intro i name found
    obtain ⟨given, at_i, picks⟩ := go_picks fallback 0 [] names found
    rw [Nat.zero_add] at picks
    exact ⟨given, at_i, picks.congr fun text => by simp [disambiguate]⟩
  -- Read the other way round: what stands at a position was picked for the name there.
  have origin : ∀ i given, (disambiguate fallback names)[i]? = some given →
      given ∉ (disambiguate fallback names).take i ∧ given ≠ "" := by
    intro i given at_i
    have inside : i < names.length := length ▸ (List.getElem?_eq_some_iff.mp at_i).1
    obtain ⟨_, again, picks⟩ := picks i names[i] (List.getElem?_eq_getElem inside)
    cases at_i.symm.trans again
    exact ⟨picks.free, picks.ne_empty (memberBase_ne_empty named i _)⟩
  have distinct : (disambiguate fallback names).Nodup := by
    refine List.pairwise_iff_getElem.mpr fun i j inside inside' before same => ?_
    refine (origin j _ (List.getElem?_eq_getElem inside')).1 ?_
    rw [← same]
    exact List.mem_take_iff_getElem.mpr ⟨i, by omega, rfl⟩
  have nonempty : ∀ given ∈ disambiguate fallback names, given ≠ "" := by
    intro given member
    obtain ⟨i, at_i⟩ := List.mem_iff_getElem?.mp member
    exact (origin i given at_i).2
  exact ⟨length, distinct, nonempty, picks, fun other =>
    go_of_distinct other 0 [] distinct nonempty fun _ _ => List.not_mem_nil⟩

/-- Names that collide with fallbacks and with numbered names, before and behind them. -/
def crowdedMembers : List String := ["field1", "", "field1_1", "", "field1", "field1_4"]

theorem crowdedMembers_distinct :
    disambiguate (fun i => s!"field{i}") crowdedMembers =
        ["field1", "field1_1", "field1_1_2", "field3", "field1_4", "field1_4_5"] ∧
      (disambiguate (fun i => s!"field{i}") crowdedMembers).Nodup := by
  constructor
  · decide +kernel
  · refine (disambiguate_distinct_and_least (fun i empty => ?_) crowdedMembers).2.1
    have text := congrArg String.toList empty
    simp at text

end ComTypes.Naming

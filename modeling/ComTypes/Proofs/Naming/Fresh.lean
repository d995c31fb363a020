import ComTypes.Naming.Distinct
import Mathlib.Data.List.Nodup
import Mathlib.Data.List.Perm.Subperm

/-!
# Free names

The search for a free name ends: names with different numbers differ, so among one more of them than
there are taken names one is free (`exists_free`). What is found is the name itself or its least free
number (`fresh_picks`).
-/

namespace ComTypes.Naming

theorem toList_numbered (base : String) (k : Nat) :
    (numbered base k).toList = base.toList ++ '_' :: Nat.toDigits 10 k := by
  show (base ++ "_" ++ k.repr).toList = _
  simp [Nat.toList_repr]

/-- Different numbers give different names. -/
theorem numbered_injective (base : String) : Function.Injective (numbered base) := by
  intro i j same
  have texts := congrArg String.toList same
  rw [toList_numbered, toList_numbered, List.append_cancel_left_eq, List.cons.injEq] at texts
  rw [← Nat.ofDigitChars_ten_toDigits (n := i), texts.2, Nat.ofDigitChars_ten_toDigits]

/-- Of more numbered names than are taken one is free. -/
theorem exists_free (taken : List String) (base : String) (start : Nat) :
    ∃ k < taken.length + 1, numbered base (start + k) ∉ taken := by
  by_contra none
  push Not at none
  let candidates := (List.range (taken.length + 1)).map fun k => numbered base (start + k)
  have distinct : candidates.Nodup := by
    refine List.Nodup.map (fun i j same => ?_) List.nodup_range
    exact Nat.add_left_cancel (numbered_injective base same)
  have among : candidates ⊆ taken := by
    intro name member
    obtain ⟨k, inside, rfl⟩ := List.mem_map.mp member
    exact none k (List.mem_range.mp inside)
  have fits : candidates.length ≤ taken.length := (distinct.subperm among).length_le
  rw [List.length_map, List.length_range] at fits
  omega

/-- The name is `base` if that is not used, and else `base` with the least number from `start` on that
makes it free. -/
def Picks (used : String → Prop) (base : String) (start : Nat) (name : String) : Prop :=
  (¬ used base → name = base) ∧
    (used base → ∃ k, start ≤ k ∧ name = numbered base k ∧ ¬ used (numbered base k) ∧
      ∀ j, start ≤ j → j < k → used (numbered base j))

/-- The name is the base or its first free numbered form. -/
theorem fresh_picks (taken : List String) (base : String) (start : Nat) :
    Picks (· ∈ taken) base start (fresh taken base start) := by
  constructor
  · intro free
    exact if_neg free
  · intro used
    obtain ⟨bound, inside, free⟩ := exists_free taken base start
    have ends : ((List.range (taken.length + 1)).find?
        fun k => numbered base (start + k) ∉ taken).isSome = true :=
      List.find?_isSome.mpr ⟨bound, List.mem_range.mpr inside, decide_eq_true free⟩
    obtain ⟨k, found⟩ := Option.isSome_iff_exists.mp ends
    obtain ⟨here, _, before⟩ := List.find?_range_eq_some.mp found
    refine ⟨start + k, Nat.le_add_right .., ?_, of_decide_eq_true here, fun j first earlier => ?_⟩
    · rw [fresh, if_pos used, found]
    · obtain ⟨i, rfl⟩ := Nat.exists_eq_add_of_le first
      simpa using before i (by omega)

/-- A picked name is not used. -/
theorem Picks.free {used : String → Prop} {base name : String} {start : Nat}
    (picks : Picks used base start name) : ¬ used name := by
  by_cases taken : used base
  · obtain ⟨k, _, rfl, free, _⟩ := picks.2 taken
    exact free
  · rwa [picks.1 taken]

end ComTypes.Naming

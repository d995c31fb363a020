import ComTypes.Proxy.TypeForm
import ComTypes.Proofs.Wire.Frame

/-!
# The extent of type descriptions

A description stands inside the format string, and so do the members of a structure: reading an entry
takes at least one byte (`readEntry_takes`). The number of entries that `membersFrom` is given is
therefore never what ends the list (`membersFrom_enough`), and no structure has more members than the
format has bytes. Sizes are numbers of two bytes (`parse_fits`).
-/

namespace ComTypes

/-- A read that succeeds takes this many bytes at least. -/
def Takes {α : Type} (count : Nat) (read : Read α) : Prop :=
  ∀ c value c', read c = .ok value c' → c'.rest.length + count ≤ c.rest.length

namespace Takes

variable {α β : Type} {read : Read α} {next : α → Read β} {count more : Nat}

theorem of_framed {written : α → Bytes → Prop} (framed : Framed read written)
    (length : ∀ value bytes, written value bytes → count ≤ bytes.length) : Takes count read := by
  intro c value c' run
  obtain ⟨bytes, holds, split, _⟩ := framed c.pos c.rest value c' run
  have enough := length value bytes holds
  rw [split, List.length_append]
  omega

theorem u8 : Takes 1 Read.u8 := of_framed .u8 fun value bytes written => by simp [written, Encode.u8]

theorem u16 : Takes 0 Read.u16 := of_framed .u16 fun _ _ _ => Nat.zero_le _

theorem i16 : Takes 0 Read.i16 := of_framed .i16 fun _ _ _ => Nat.zero_le _

theorem position : Takes 0 Read.position := by
  intro c value c' run
  cases run
  exact Nat.le_refl _

theorem pure (value : α) : Takes 0 (pure value : Read α) := by
  intro c value c' run
  cases run
  exact Nat.le_refl _

theorem throw (fault : Fault) : Takes count (throw fault : Read α) := fun _ _ _ run => nomatch run

theorem bind (first : Takes count read) (rest : ∀ value, Takes more (next value)) :
    Takes (count + more) (read >>= next) := by
  intro c value c' run
  obtain ⟨middle, c₁, ran, run⟩ := exists_of_bind_ok run
  have taken := first _ _ _ ran
  have taken' := rest middle _ _ _ run
  omega

theorem mono (takes : Takes count read) (fewer : more ≤ count) : Takes more read := by
  intro c value c' run
  have taken := takes _ _ _ run
  omega

theorem ite {condition : Prop} [Decidable condition] {other : Read α} (yes : Takes count read)
    (no : Takes count other) : Takes count (if condition then read else other) := by
  split
  · exact yes
  · exact no

end Takes

namespace TypeForm

theorem lift_takes {α : Type} (result : Except Fault α) : Takes 0 (lift result) := by
  cases result with
  | ok value => exact .pure value
  | error fault => exact .throw fault

theorem readOffset_takes : Takes 0 readOffset :=
  Takes.position.bind fun _ => Takes.i16.bind fun _ => lift_takes _

/-- Every entry of a structure takes a byte. -/
theorem readEntry_takes : Takes 1 readEntry := by
  show Takes (0 + (1 + 0)) readEntry
  refine Takes.position.bind fun place => Takes.u8.bind fun code => ?_
  refine .ite (.pure _) (.ite (.pure _) (.ite (.pure _) (.ite ?_ ?_)))
  · exact (Takes.u8.bind fun _ => readOffset_takes.bind fun _ => .pure _).mono (Nat.zero_le _)
  · cases FormatChar.base? code with
    | some primitive => exact .pure _
    | none => exact .throw _

/-- More entries than there are bytes are as good as any greater number. -/
theorem membersFrom_enough {entries more : Nat} {layout : Option Cursor} {c : Cursor}
    (enough : c.rest.length < entries) (enough' : c.rest.length < more) :
    membersFrom entries layout c = membersFrom more layout c := by
  induction entries generalizing more layout c with
  | zero => exact absurd enough (Nat.not_lt_zero _)
  | succ entries ih =>
    obtain ⟨more, rfl⟩ := Nat.exists_eq_succ_of_ne_zero (Nat.ne_of_gt (Nat.zero_lt_of_lt enough'))
    -- Behind an entry there are fewer bytes left.
    have rest : ∀ {entry c'} layout, readEntry c = .ok entry c' →
        membersFrom entries layout c' = membersFrom more layout c' := by
      intro entry c' layout read
      have taken := readEntry_takes _ _ _ read
      exact ih (by omega) (by omega)
    rw [membersFrom, membersFrom]
    cases read : readEntry c with
    | error fault c' => rfl
    | ok entry c' =>
      cases entry with
      | finish => rfl
      | padding => exact rest layout read
      | base primitive =>
        dsimp only
        rw [rest layout read]
      | embedded offset =>
        dsimp only
        rw [rest layout read]
      | pointer place =>
        cases layout with
        | none => rfl
        | some layout =>
          dsimp only
          cases Read.skip 4 layout with
          | error fault layout' => rfl
          | ok _ layout' =>
            dsimp only
            rw [rest (some layout') read]

theorem length_membersFrom (entries : Nat) (layout : Option Cursor) (c : Cursor) :
    (membersFrom entries layout c).items.length ≤ entries := by
  induction entries generalizing layout c with
  | zero => exact Nat.le_refl 0
  | succ entries ih =>
    rw [membersFrom]
    split
    · exact Nat.zero_le _
    · exact Nat.zero_le _
    · exact Nat.le_succ_of_le (ih _ _)
    · exact Nat.succ_le_succ (ih _ _)
    · exact Nat.succ_le_succ (ih _ _)
    · split
      · exact Nat.zero_le _
      · refine Nat.succ_le_succ ?_
        split
        · exact Nat.zero_le _
        · exact ih _ _

/-- There is at most one member more than bytes are left. -/
theorem length_members (format : Bytes) (layout : Option Nat) (c : Cursor) :
    (members format layout c).items.length ≤ c.rest.length + 1 := by
  unfold members
  split
  · exact length_membersFrom _ _ _
  · split
    · exact Nat.zero_le _
    · exact length_membersFrom _ _ _

/-- The members stand in the format, and the size of an array is a number of two bytes. -/
def Fits (format : Bytes) : TypeForm → Prop
  | struct _ members => members.items.length ≤ format.length
  | fixedArray total _ _ => total < 65536
  | base .. | interfacePointer _ | simplePointer _ | pointer _ => True

section Fits

variable {format : Bytes} {c : Cursor}

/-- A read that may end anyhow, for what comes behind it. -/
theorem reads {α : Type} (read : Read α) (c : Cursor) :
    Outcome (fun _ => True) (fun value c' => read c = .ok value c') (read c) := by
  cases read c with
  | ok value c' => exact ⟨trivial, rfl⟩
  | error fault c' => trivial

theorem readPointer_fits :
    Outcome (fun _ => True) (fun form _ => form.Fits format) (readPointer format c) := by
  unfold readPointer
  refine Outcome.bind (reads Read.u8 c) fun attributes c₁ _ _ => ?_
  split
  · refine Outcome.bind (reads Read.position c₁) fun place c₂ _ _ => ?_
    refine Outcome.bind (reads Read.u8 c₂) fun code c₃ _ _ => ?_
    refine Outcome.bind (reads Read.u8 c₃) fun _ c₄ _ _ => ?_
    cases FormatChar.stringPointer? code <;> cases FormatChar.base? code <;>
      first | exact Outcome.of_throw trivial | exact Outcome.of_pure trivial trivial
  · refine Outcome.bind (reads readOffset c₁) fun offset c₂ _ _ => ?_
    cases (format[offset]?).bind FormatChar.stringPointer? <;> exact Outcome.of_pure trivial trivial

theorem readLayout_takes : Takes 0 readLayout := by
  show Takes (0 + (0 + 0)) readLayout
  refine Takes.position.bind fun place => Takes.i16.bind fun conformance => ?_
  refine Takes.ite (fun _ _ _ run => nomatch run) ?_
  show Takes (0 + (0 + 0)) _
  refine Takes.position.bind fun place => Takes.i16.bind fun relative => .ite (.pure _) ?_
  show Takes (0 + 0) _
  exact (lift_takes _).bind fun _ => .pure _

theorem readStruct_fits (code : UInt8) (inside : c.rest.length < format.length) :
    Outcome (fun _ => True) (fun form _ => form.Fits format) (readStruct format code c) := by
  unfold readStruct
  refine Outcome.bind (reads Read.u8 c) fun _ c₁ _ first => ?_
  refine Outcome.bind (reads Read.u16 c₁) fun size c₂ _ second => ?_
  have taken := Takes.u8 _ _ _ first
  have taken₂ := Takes.u16 _ _ _ second
  have rest : ∀ (layout : Option Nat) (c₃ : Cursor), c₃.rest.length ≤ c₂.rest.length →
      (struct size.toNat (members format layout c₃)).Fits format := by
    intro layout c₃ taken₃
    exact Nat.le_trans (length_members format layout c₃) (by omega)
  split
  · refine Outcome.bind (reads readLayout c₂) fun layout c₃ _ third => ?_
    exact Outcome.of_get (Outcome.of_pure trivial (rest layout c₃ (readLayout_takes _ _ _ third)))
  · refine Outcome.bind (reads (pure none) c₂) fun layout c₃ _ third => ?_
    exact Outcome.of_get (Outcome.of_pure trivial (rest layout c₃ (Takes.pure _ _ _ _ third)))

theorem readArray_fits : Outcome (fun _ => True) (fun form _ => form.Fits format) (readArray c) := by
  unfold readArray
  refine Outcome.bind (reads Read.u8 c) fun _ c₁ _ _ => ?_
  refine Outcome.bind (reads Read.u16 c₁) fun total c₂ _ _ => ?_
  refine Outcome.bind (reads Read.position c₂) fun place c₃ _ _ => ?_
  refine Outcome.bind (reads Read.u8 c₃) fun code c₄ _ _ => ?_
  split
  · refine Outcome.bind (reads Read.u8 c₄) fun _ c₅ _ _ => ?_
    refine Outcome.bind (reads readOffset c₅) fun offset c₆ _ _ => ?_
    exact Outcome.of_pure trivial total.toNat_lt
  · cases FormatChar.sizedBase? code with
    | some sized => exact Outcome.of_pure trivial total.toNat_lt
    | none => exact Outcome.of_throw trivial

/-- A description takes at least one byte, and what it counts fits the format. -/
theorem read_fits (inside : c.rest.length ≤ format.length) :
    Outcome (fun _ => True) (fun form _ => c.rest ≠ [] ∧ form.Fits format) (read format c) := by
  unfold read
  refine Outcome.bind (reads Read.position c) fun start c₁ _ here => ?_
  cases here
  refine Outcome.bind (reads Read.u8 c) fun code c₁ _ first => ?_
  have taken := Takes.u8 _ _ _ first
  have inside' : c₁.rest.length < format.length := by omega
  have nonempty : c.rest ≠ [] := by
    intro empty
    simp [empty] at taken
  have fits : ∀ {result : EStateM.Result Fault Cursor TypeForm},
      Outcome (fun _ => True) (fun form _ => form.Fits format) result →
      Outcome (fun _ => True) (fun form _ => c.rest ≠ [] ∧ form.Fits format) result :=
    fun ends => ends.imp (fun _ h => h) fun _ _ _ holds => ⟨nonempty, holds⟩
  split
  · exact fits readPointer_fits
  split
  · refine Outcome.bind (reads Read.position c₁) fun place c₂ _ _ => ?_
    refine Outcome.bind (reads Read.u8 c₂) fun tag c₃ _ _ => ?_
    split
    · exact Outcome.of_throw trivial
    · refine Outcome.bind (reads Read.guid c₃) fun iid c₄ _ _ => ?_
      exact fits (Outcome.of_pure trivial trivial)
  split
  · exact fits (Outcome.of_pure trivial trivial)
  split
  · exact fits (Outcome.of_pure trivial trivial)
  split
  · exact fits (readStruct_fits code inside')
  split
  · exact fits readArray_fits
  cases FormatChar.sizedBase? code with
  | some sized => exact fits (Outcome.of_pure trivial trivial)
  | none => exact Outcome.of_throw trivial

/-- What can be read at an offset stands inside the format. -/
theorem parse_fits {offset : Nat} {form : TypeForm} (parsed : parse format offset = .ok form) :
    offset < format.length ∧ form.Fits format := by
  unfold parse Cursor.locate at parsed
  split at parsed
  · cases parsed
  · have shown : Outcome (fun _ => True) _ (read format ⟨offset, format.drop offset⟩) :=
      read_fits (by simp)
    dsimp only [bind, Except.bind] at parsed
    cases run : read format ⟨offset, format.drop offset⟩ with
    | error fault c =>
      rw [run] at parsed
      cases parsed
    | ok found c =>
      rw [run] at parsed shown
      cases parsed
      obtain ⟨_, nonempty, fits⟩ := shown
      exact ⟨by simpa using nonempty, fits⟩

end Fits

end TypeForm

end ComTypes

import ComTypes.Text.Utf16

/-!
# UTF-16 is decoded as it was encoded

A character of the basic plane is no surrogate, so its unit stands alone. Any other character gives a
high unit followed by a low one, and the two combine to the character again. So decoding and encoding
undo each other (`decode?_encode`, `encode_of_decode?`).

A surrogate is `Unpaired` if it stands outside such a pair. Whether it does shows from its two
neighbours, although decoding goes from left to right: no unit both opens and closes a pair. Decoding
fails exactly on the sequences with an unpaired surrogate, wherever it stands (`decode?_eq_none_iff`).
-/

namespace ComTypes.Utf16

/-- No character is a surrogate. -/
theorem not_surrogate (c : Char) : c.toNat < 0xD800 ∨ 0xDFFF < c.toNat ∧ c.toNat < 0x110000 :=
  c.valid

theorem toNat_unit {n : Nat} (small : n < 0x10000) : (UInt16.ofNat n).toNat = n := by
  simp only [UInt16.toNat_ofNat']
  omega

theorem isHigh_iff {n : Nat} (small : n < 0x10000) :
    isHigh (UInt16.ofNat n) = true ↔ 0xD800 ≤ n ∧ n < 0xDC00 := by
  simp only [isHigh, Bool.and_eq_true, decide_eq_true_eq, UInt16.le_iff_toNat_le,
    UInt16.lt_iff_toNat_lt, toNat_unit small]
  simp

theorem isLow_iff {n : Nat} (small : n < 0x10000) :
    isLow (UInt16.ofNat n) = true ↔ 0xDC00 ≤ n ∧ n < 0xE000 := by
  simp only [isLow, Bool.and_eq_true, decide_eq_true_eq, UInt16.le_iff_toNat_le,
    UInt16.lt_iff_toNat_lt, toNat_unit small]
  simp

theorem decode?_encodeChar (c : Char) (rest : List UInt16) :
    decode? (encodeChar c ++ rest) = (decode? rest).map (c :: ·) := by
  have valid := not_surrogate c
  unfold encodeChar
  by_cases small : c.toNat < 0x10000
  · -- One unit, which is neither high nor low.
    rw [if_pos small]
    have high : isHigh (UInt16.ofNat c.toNat) = false := by
      rw [← Bool.not_eq_true, isHigh_iff small]
      omega
    have low : isLow (UInt16.ofNat c.toNat) = false := by
      rw [← Bool.not_eq_true, isLow_iff small]
      omega
    rw [List.singleton_append, decode?.eq_def]
    simp only [high, low, toNat_unit small, Char.ofNat_toNat, Bool.false_eq_true, if_false]
  · rw [if_neg small]
    have upper : 0xD800 + (c.toNat - 0x10000) / 0x400 < 0xDC00 := by omega
    have lower : 0xDC00 + (c.toNat - 0x10000) % 0x400 < 0xE000 := by omega
    have high : isHigh (UInt16.ofNat (0xD800 + (c.toNat - 0x10000) / 0x400)) = true :=
      (isHigh_iff (by omega)).mpr ⟨by omega, upper⟩
    have low : isLow (UInt16.ofNat (0xDC00 + (c.toNat - 0x10000) % 0x400)) = true :=
      (isLow_iff (by omega)).mpr ⟨by omega, lower⟩
    have whole : combine (UInt16.ofNat (0xD800 + (c.toNat - 0x10000) / 0x400))
        (UInt16.ofNat (0xDC00 + (c.toNat - 0x10000) % 0x400)) = c := by
      unfold combine
      rw [toNat_unit (by omega), toNat_unit (by omega)]
      have sum : 0x10000 + (0xD800 + (c.toNat - 0x10000) / 0x400 - 0xD800) * 0x400 +
          (0xDC00 + (c.toNat - 0x10000) % 0x400 - 0xDC00) = c.toNat := by omega
      rw [sum, Char.ofNat_toNat]
    rw [List.cons_append, List.singleton_append, decode?.eq_def]
    simp only [high, low, whole, if_true]

/-- Decoding undoes encoding. -/
theorem decode?_encode (text : List Char) : decode? (encode text) = some text := by
  induction text with
  | nil => rfl
  | cons c rest ih =>
    show decode? (encodeChar c ++ encode rest) = _
    rw [decode?_encodeChar, ih, Option.map_some]

/-! ### Units that decode -/

theorem isHigh_iff_toNat {u : UInt16} : isHigh u = true ↔ 0xD800 ≤ u.toNat ∧ u.toNat < 0xDC00 := by
  rw [← isHigh_iff u.toNat_lt, UInt16.ofNat_toNat]

theorem isLow_iff_toNat {u : UInt16} : isLow u = true ↔ 0xDC00 ≤ u.toNat ∧ u.toNat < 0xE000 := by
  rw [← isLow_iff u.toNat_lt, UInt16.ofNat_toNat]

theorem not_isHigh_of_isLow {u : UInt16} (low : isLow u) : ¬ isHigh u := by
  rw [isLow_iff_toNat] at low
  rw [isHigh_iff_toNat]
  omega

theorem toNat_ofNat_of_valid {n : Nat} (valid : n.isValidChar) : (Char.ofNat n).toNat = n := by
  rw [Char.ofNat, dif_pos valid]
  rfl

theorem encodeChar_ofNat {u : UInt16} (high : ¬ isHigh u) (low : ¬ isLow u) :
    encodeChar (Char.ofNat u.toNat) = [u] := by
  rw [isHigh_iff_toNat] at high
  rw [isLow_iff_toNat] at low
  have small := u.toNat_lt
  have valid : u.toNat.isValidChar := by
    unfold Nat.isValidChar
    omega
  rw [encodeChar, toNat_ofNat_of_valid valid, if_pos small, UInt16.ofNat_toNat]

theorem encodeChar_combine {u v : UInt16} (high : isHigh u) (low : isLow v) :
    encodeChar (combine u v) = [u, v] := by
  rw [isHigh_iff_toNat] at high
  rw [isLow_iff_toNat] at low
  have valid : (0x10000 + (u.toNat - 0xD800) * 0x400 + (v.toNat - 0xDC00)).isValidChar := by
    unfold Nat.isValidChar
    omega
  have code : (combine u v).toNat = 0x10000 + (u.toNat - 0xD800) * 0x400 + (v.toNat - 0xDC00) :=
    toNat_ofNat_of_valid valid
  have large : ¬ (combine u v).toNat < 0x10000 := by omega
  have first : 0xD800 + ((combine u v).toNat - 0x10000) / 0x400 = u.toNat := by omega
  have second : 0xDC00 + ((combine u v).toNat - 0x10000) % 0x400 = v.toNat := by omega
  rw [encodeChar, if_neg large, first, second, UInt16.ofNat_toNat, UInt16.ofNat_toNat]

/-- Encoding undoes decoding. -/
theorem encode_of_decode? {units : List UInt16} {text : List Char}
    (decoded : decode? units = some text) : encode text = units := by
  fun_induction decode? units generalizing text with
  | case1 =>
    cases decoded
    rfl
  | case2 | case4 | case5 => cases decoded
  | case3 u high v rest low ih =>
    obtain ⟨chars, others, rfl⟩ := Option.map_eq_some_iff.mp decoded
    show encodeChar (combine u v) ++ encode chars = _
    rw [encodeChar_combine high low, ih others]
    rfl
  | case6 u rest high low ih =>
    obtain ⟨chars, others, rfl⟩ := Option.map_eq_some_iff.mp decoded
    show encodeChar (Char.ofNat u.toNat) ++ encode chars = _
    rw [encodeChar_ofNat high low, ih others]
    rfl

/-! ### Unpaired surrogates -/

/-- A surrogate outside a pair: a high one without a low one right behind it, or a low one without a high
one right before it. -/
def Unpaired (before : List UInt16) (unit : UInt16) (after : List UInt16) : Prop :=
  isHigh unit ∧ ¬ after.head?.any isLow ∨ isLow unit ∧ ¬ before.getLast?.any isHigh

/-- Some surrogate is unpaired. -/
def HasUnpaired (units : List UInt16) : Prop :=
  ∃ before unit after, units = before ++ unit :: after ∧ Unpaired before unit after

/-- Units in front count only if the last of them is high. -/
theorem unpaired_append {closed before after : List UInt16} {unit : UInt16}
    (ends : ¬ closed.getLast?.any isHigh) :
    Unpaired (closed ++ before) unit after ↔ Unpaired before unit after := by
  unfold Unpaired
  rw [List.getLast?_append]
  cases before.getLast? with
  | none => simp [ends]
  | some last => simp

/-- Units in front that pair off among themselves make no difference. -/
theorem hasUnpaired_append {closed rest : List UInt16} (ends : ¬ closed.getLast?.any isHigh)
    (paired : ∀ before unit after, closed = before ++ unit :: after →
      ¬ Unpaired before unit (after ++ rest)) :
    HasUnpaired (closed ++ rest) ↔ HasUnpaired rest := by
  constructor
  · rintro ⟨before, unit, after, split, unpaired⟩
    rcases List.append_eq_append_iff.mp split with ⟨between, rfl, there⟩ | ⟨between, here, there⟩
    · exact ⟨between, unit, after, there, (unpaired_append ends).mp unpaired⟩
    · cases between with
      | nil =>
        -- The unit is the first behind those in front.
        rw [List.append_nil] at here
        rw [← here, ← List.append_nil closed, unpaired_append ends] at unpaired
        exact ⟨[], unit, after, there.symm, unpaired⟩
      | cons first between =>
        cases there
        exact absurd unpaired (paired before unit between here)
  · rintro ⟨before, unit, after, rfl, unpaired⟩
    exact ⟨closed ++ before, unit, after, (List.append_assoc ..).symm,
      (unpaired_append ends).mpr unpaired⟩

theorem hasUnpaired_single {u : UInt16} (high : ¬ isHigh u) (low : ¬ isLow u) (rest : List UInt16) :
    HasUnpaired (u :: rest) ↔ HasUnpaired rest := by
  refine @hasUnpaired_append [u] rest (by simpa using high) fun before unit after split => ?_
  match before, split with
  | [], split =>
    cases split
    simp [Unpaired, high, low]
  | _ :: _, split => simp at split

theorem hasUnpaired_pair {u v : UInt16} (high : isHigh u) (low : isLow v) (rest : List UInt16) :
    HasUnpaired (u :: v :: rest) ↔ HasUnpaired rest := by
  have opens : ¬ isLow u := fun closes => not_isHigh_of_isLow closes high
  have closes := not_isHigh_of_isLow low
  refine @hasUnpaired_append [u, v] rest (by simpa using closes) fun before unit after split => ?_
  match before, split with
  | [], split =>
    cases split
    simp [Unpaired, low, opens]
  | [_], split =>
    cases split
    simp [Unpaired, high, closes]
  | _ :: _ :: _, split => simp at split

/-- Decoding fails exactly if a surrogate is unpaired. -/
theorem decode?_eq_none_iff {units : List UInt16} : decode? units = none ↔ HasUnpaired units := by
  fun_induction decode? units with
  | case1 => simp [HasUnpaired]
  | case2 u high => exact iff_of_true rfl ⟨[], u, [], rfl, .inl ⟨high, by simp⟩⟩
  | case3 u high v rest low ih => rw [Option.map_eq_none_iff, ih, hasUnpaired_pair high low]
  | case4 u high v rest low =>
    exact iff_of_true rfl ⟨[], u, v :: rest, rfl, .inl ⟨high, by simpa using low⟩⟩
  | case5 u rest high low => exact iff_of_true rfl ⟨[], u, rest, rfl, .inr ⟨low, by simp⟩⟩
  | case6 u rest high low ih => rw [Option.map_eq_none_iff, ih, hasUnpaired_single high low]

end ComTypes.Utf16

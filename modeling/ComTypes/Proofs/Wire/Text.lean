import ComTypes.Proofs.Wire.Frame

/-!
# Texts are read as they are written

A text stands in a buffer as a count of units and the units themselves. A count and as many units are
read whatever they are, and decoded afterwards (`Read.text_units`), so that an unpaired surrogate is
reported at the count, with the cursor behind the units. Everything else that is read is written for
the text that comes out (`Framed.text`).
-/

namespace ComTypes

/-- Units that are all there are taken, and then decoded. -/
theorem Read.text_units {units : List UInt16} (short : units.length < 0x10000) (pos : Nat)
    (rest : Bytes) :
    Read.text ⟨pos, Encode.counted16 Encode.u16 units ++ rest⟩ =
      match Utf16.decode? units with
      | some chars => .ok (String.ofList chars) ⟨pos + 2 + units.length * 2, rest⟩
      | none => .error (.malformed pos .loneSurrogate) ⟨pos + 2 + units.length * 2, rest⟩ := by
  have bytes : (UInt16.ofNat units.length).toNat * 2 = (units.flatMap Encode.u16).length := by
    rw [Utf16.toNat_unit short, Reads.length_flatMap_u16]
  rw [Encode.counted16, List.append_assoc, Read.text, position_bind, ok_bind (Reads.u16 _ pos _), bytes,
    ok_bind (Reads.take _ _ rest), Reads.units_flatMap, Reads.length_flatMap_u16, Encode.length_u16]
  cases Utf16.decode? units <;> rfl

/-- A text of at most 65535 units is read back from its count and units, whatever follows. Nothing else
gives a text: the bytes that are taken are the count and the units of what is returned. Units with an
unpaired surrogate, wherever it stands, are refused at the offset of their count. -/
theorem texts_read_as_written :
    (∀ s, (Encode.units s).length ≤ 65535 → ∀ pos rest,
      Read.text ⟨pos, Encode.text s ++ rest⟩ = .ok s ⟨pos + (Encode.text s).length, rest⟩) ∧
    (∀ c s c', Read.text c = .ok s c' →
      (Encode.units s).length ≤ 65535 ∧ c.rest = Encode.text s ++ c'.rest ∧
        c'.pos = c.pos + (Encode.text s).length) ∧
    ∀ units, units.length ≤ 65535 → ∀ before unit after, units = before ++ unit :: after →
      Utf16.Unpaired before unit after → ∀ pos rest,
        Read.text ⟨pos, Encode.counted16 Encode.u16 units ++ rest⟩ =
          .error (.malformed pos .loneSurrogate) ⟨pos + 2 + units.length * 2, rest⟩ := by
  refine ⟨?_, ?_, ?_⟩
  · intro s short pos rest
    exact Reads.text s (Nat.lt_succ_of_le short) pos rest
  · rintro ⟨pos, input⟩ s ⟨pos', rest⟩ run
    obtain ⟨bytes, ⟨rfl, short⟩, rfl, frame⟩ := Framed.text pos input s ⟨pos', rest⟩ run
    cases (frame.whole rest).symm.trans run
    exact ⟨Nat.le_of_lt_succ short, rfl, rfl⟩
  · intro units short before unit after split unpaired pos rest
    have refused : Utf16.decode? units = none :=
      Utf16.decode?_eq_none_iff.mpr ⟨before, unit, after, split, unpaired⟩
    rw [Read.text_units (Nat.lt_succ_of_le short), refused]

/-- A text with a character of two units. -/
def clefText : String := "Grüße 𝄞"

/-- The text is read back with two bytes left over. The same units with the surrogates of the last
character swapped are refused at their count. -/
theorem clefText_read :
    Read.text ⟨4, Encode.text clefText ++ [7, 7]⟩ = .ok clefText ⟨22, [7, 7]⟩ ∧
    (Encode.units clefText).length ≤ 65535 ∧
    Read.text ⟨0, Encode.counted16 Encode.u16 [0x20, 0xDD1E, 0xD834]⟩ =
      .error (.malformed 0 .loneSurrogate) ⟨8, []⟩ := by
  obtain ⟨reads, only, refuses⟩ := texts_read_as_written
  have short : (Encode.units clefText).length ≤ 65535 := by decide +kernel
  have run := reads clefText short 4 [7, 7]
  refine ⟨run, (only _ _ _ run).1, ?_⟩
  exact refuses [0x20, 0xDD1E, 0xD834] (by decide) [0x20, 0xDD1E] 0xD834 [] rfl
    (by simp [Utf16.Unpaired, Utf16.isHigh]) 0 []

end ComTypes

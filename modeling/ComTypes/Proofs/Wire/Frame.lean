import ComTypes.Proofs.Wire.RoundTrip

/-!
# What a read takes

A read that succeeds depends on the bytes that it takes and on nothing behind them, and it depends on
all of them. `Frame read pos bytes value` says so for one place of a buffer: with these bytes the read
gives the value, whatever follows, and with fewer of them it fails because bytes are missing.

`Framed read written` says that every success of a read has such a frame, and what the bytes of the
frame are. Reads in a row put their frames in a row (`Framed.bind`), so that a record is followed field
by field, as in `Reads.bind`, but from the bytes to the value.
-/

namespace ComTypes

/-- The input ends at `stop`, which is too early for a read that needs a number of bytes from some
offset on. -/
def MissingAt (stop : Nat) (fault : Fault) : Prop :=
  ∃ start needed, start ≤ stop ∧ stop - start < needed ∧
    fault = .malformed start (.short needed (stop - start))

/-- The read takes these bytes at this place, and no fewer. -/
structure Frame {α : Type} (read : Read α) (pos : Nat) (bytes : Bytes) (value : α) : Prop where
  whole : ∀ rest, read ⟨pos, bytes ++ rest⟩ = .ok value ⟨pos + bytes.length, rest⟩
  cut : ∀ n < bytes.length, ∃ fault c, read ⟨pos, bytes.take n⟩ = .error fault c ∧
    MissingAt (pos + n) fault

/-- Whenever the read succeeds it has taken bytes that are written for its value. -/
def Framed {α : Type} (read : Read α) (written : α → Bytes → Prop) : Prop :=
  ∀ pos input value c, read ⟨pos, input⟩ = .ok value c →
    ∃ bytes, written value bytes ∧ input = bytes ++ c.rest ∧ Frame read pos bytes value

variable {α β : Type}

/-! ### Reads in a row -/

namespace Frame

variable {read : Read α} {next : α → Read β} {pos : Nat} {bytes more : Bytes} {value : α} {result : β}

theorem nothing (run : ∀ rest, read ⟨pos, rest⟩ = .ok value ⟨pos, rest⟩) : Frame read pos [] value where
  whole := run
  cut n short := absurd short (Nat.not_lt_zero n)

/-- A cut in the second part leaves the first part whole. -/
theorem bind (first : Frame read pos bytes value)
    (second : Frame (next value) (pos + bytes.length) more result) :
    Frame (read >>= next) pos (bytes ++ more) result := by
  constructor
  · intro rest
    rw [List.append_assoc, ok_bind (first.whole (more ++ rest)), second.whole, List.length_append,
      Nat.add_assoc]
  · intro n short
    by_cases inside : n < bytes.length
    · obtain ⟨fault, c, run, missing⟩ := first.cut n inside
      rw [List.take_append_of_le_length (Nat.le_of_lt inside)]
      exact ⟨fault, c, error_bind run next, missing⟩
    · obtain ⟨m, rfl⟩ := Nat.exists_eq_add_of_le (Nat.le_of_not_lt inside)
      rw [List.length_append] at short
      obtain ⟨fault, c, run, missing⟩ := second.cut m (by omega)
      rw [List.take_length_add_append, ok_bind (first.whole _)]
      exact ⟨fault, c, run, by rwa [← Nat.add_assoc]⟩

end Frame

namespace Framed

variable {read : Read α} {next : α → Read β} {written : α → Bytes → Prop}
  {written' : β → Bytes → Prop}

theorem imp {wider : α → Bytes → Prop} (h : Framed read written)
    (more : ∀ value bytes, written value bytes → wider value bytes) : Framed read wider := by
  intro pos input value c run
  obtain ⟨bytes, holds, split, frame⟩ := h pos input value c run
  exact ⟨bytes, more value bytes holds, split, frame⟩

/-- A read that takes nothing. -/
theorem pure {value : α} (holds : written value []) : Framed (pure value) written := by
  intro pos input value' c run
  cases run
  exact ⟨[], holds, rfl, .nothing fun _ => rfl⟩

/-- A read that never succeeds. -/
theorem throw (fault : Fault) : Framed (throw fault : Read α) written := by
  intro pos input value c run
  cases run

theorem bind (first : Framed read written)
    (rest : ∀ value bytes, written value bytes →
      Framed (next value) fun result more => written' result (bytes ++ more)) :
    Framed (read >>= next) written' := by
  intro pos input result c run
  obtain ⟨value, c', ran, _⟩ := exists_of_bind_ok run
  obtain ⟨bytes, holds, rfl, frame⟩ := first pos input value c' ran
  rw [ok_bind (frame.whole c'.rest)] at run
  obtain ⟨more, holds', split, frame'⟩ := rest value bytes holds _ _ result c run
  refine ⟨bytes ++ more, holds', ?_, frame.bind frame'⟩
  rw [split, List.append_assoc]

theorem map {f : α → β} (h : Framed read written)
    (holds : ∀ value bytes, written value bytes → written' (f value) bytes) :
    Framed (f <$> read) written' := by
  rw [map_eq_pure_bind]
  refine h.bind fun value bytes given => pure ?_
  rw [List.append_nil]
  exact holds value bytes given

theorem position {next : Nat → Read α} (h : ∀ start, Framed (next start) written) :
    Framed (Read.position >>= next) written := by
  intro pos input value c run
  obtain ⟨bytes, holds, split, frame⟩ := h pos pos input value c run
  exact ⟨bytes, holds, split, frame.whole, frame.cut⟩

theorem ite {condition : Prop} [Decidable condition] {other : Read α}
    (yes : condition → Framed read written) (no : ¬ condition → Framed other written) :
    Framed (if condition then read else other) written := by
  split
  next holds => exact yes holds
  next fails => exact no fails

/-- The same read a number of times over. What is written for the items is put together one by one. -/
theorem times {all : List α → Bytes → Prop} (each : Framed read written) (none : all [] [])
    (more : ∀ item bytes items rest, written item bytes → all items rest →
      all (item :: items) (bytes ++ rest)) (count : Nat) :
    Framed (Read.times read count) fun items bytes => items.length = count ∧ all items bytes := by
  induction count with
  | zero => exact pure ⟨rfl, none⟩
  | succ count ih =>
    refine each.bind fun item bytes first => ih.bind fun items rest ⟨length, others⟩ => pure ?_
    rw [List.append_nil]
    exact ⟨congrArg (· + 1) length, more item bytes items rest first others⟩

/-- Items that are each read as they are encoded. -/
theorem times_encode {encode : α → Bytes} {fits : α → Prop}
    (each : Framed read fun item bytes => bytes = encode item ∧ fits item) (count : Nat) :
    Framed (Read.times read count) fun items bytes =>
      items.length = count ∧ bytes = items.flatMap encode ∧ ∀ item ∈ items, fits item := by
  refine each.times ⟨rfl, fun item member => absurd member List.not_mem_nil⟩ ?_ count
  rintro item _ items _ ⟨rfl, first⟩ ⟨rfl, others⟩
  exact ⟨List.flatMap_cons.symm, List.forall_mem_cons.mpr ⟨first, others⟩⟩

/-! ### Bytes and numbers -/

theorem take (count : Nat) :
    Framed (Read.take count) fun value bytes => bytes = value ∧ value.length = count := by
  intro pos input value c run
  by_cases short : (input.take count).length < count
  · simp only [Read.take, if_pos short] at run
    cases run
  · simp only [Read.take, if_neg short] at run
    cases run
    have length : (input.take count).length = count := by
      have most := List.length_take_le count input
      omega
    refine ⟨input.take count, ⟨rfl, length⟩, (List.take_append_drop count input).symm, ?_, ?_⟩
    · intro rest
      have whole := Reads.take (input.take count) pos rest
      rwa [length] at whole ⊢
    · intro n fewer
      have left : ((input.take count).take n).length = n := by
        rw [List.length_take]
        omega
      have stops : (((input.take count).take n).take count).length < count := by
        rw [List.length_take]
        omega
      refine ⟨_, _, by rw [Read.take, if_pos stops], pos, count, Nat.le_add_right .., ?_, ?_⟩
      · omega
      · rw [left, Nat.add_sub_cancel_left]

/-- Writing undoes reading. -/
theorem littleEndian_littleEndian (bytes : Bytes) :
    Encode.littleEndian bytes.length (Read.littleEndian bytes) = bytes := by
  induction bytes with
  | nil => rfl
  | cons byte rest ih =>
    have small := byte.toNat_lt
    have high : (byte.toNat + 256 * Read.littleEndian rest) / 256 = Read.littleEndian rest := by
      omega
    have low : UInt8.ofNat (byte.toNat + 256 * Read.littleEndian rest) = byte := by
      rw [← UInt8.toNat_inj, UInt8.toNat_ofNat']
      omega
    rw [List.length_cons, Encode.littleEndian, Read.littleEndian, high, low, ih]

theorem littleEndian_lt (bytes : Bytes) : Read.littleEndian bytes < Reads.range bytes.length := by
  induction bytes with
  | nil => exact Nat.one_pos
  | cons byte rest ih =>
    have small := byte.toNat_lt
    rw [Read.littleEndian, List.length_cons, Reads.range]
    omega

theorem number (width : Nat) : Framed (Read.number width) fun n bytes =>
    bytes = Encode.littleEndian width n ∧ n < Reads.range width := by
  refine (take width).map ?_
  rintro _ bytes ⟨rfl, rfl⟩
  exact ⟨(littleEndian_littleEndian bytes).symm, littleEndian_lt bytes⟩

theorem u8 : Framed Read.u8 fun n bytes => bytes = Encode.u8 n := by
  refine (number 1).map ?_
  rintro n _ ⟨rfl, _⟩
  rfl

theorem u16 : Framed Read.u16 fun n bytes => bytes = Encode.u16 n := by
  refine (number 2).map ?_
  rintro n _ ⟨rfl, small⟩
  rw [Encode.u16, Utf16.toNat_unit small]

theorem i16 : Framed Read.i16 fun n bytes => bytes = Encode.i16 n := by
  refine u16.map ?_
  rintro n _ rfl
  rw [Encode.i16, UInt16.toUInt16_toInt16]

theorem u32 : Framed Read.u32 fun n bytes => bytes = Encode.u32 n := by
  refine (number 4).map ?_
  rintro n _ ⟨rfl, small⟩
  rw [Encode.u32, Reads.toNat_count small]

theorem i32 : Framed Read.i32 fun n bytes => bytes = Encode.i32 n := by
  refine u32.map ?_
  rintro n _ rfl
  rw [Encode.i32, UInt32.toUInt32_toInt32]

theorem i64 : Framed Read.i64 fun n bytes => bytes = Encode.i64 n := by
  refine (number 8).map ?_
  rintro n _ ⟨rfl, small⟩
  have exact : (UInt64.ofNat n).toNat = n := UInt64.toNat_ofNat_of_lt' small
  rw [Encode.i64, UInt64.toUInt64_toInt64, exact]

theorem guid : Framed Read.guid fun g bytes => bytes = Encode.guid g := by
  refine (take 16).map ?_
  rintro bytes _ ⟨rfl, length⟩
  simp [Encode.guid, Guid.ofBytes, length]

/-! ### Composite values -/

theorem blob : Framed Read.blob fun value bytes =>
    bytes = Encode.blob value ∧ value.length < 0x100000000 := by
  refine u32.bind ?_
  rintro length _ rfl
  refine (take length.toNat).imp ?_
  rintro bytes _ ⟨rfl, same⟩
  refine ⟨?_, same ▸ length.toNat_lt⟩
  rw [Encode.blob, same, UInt32.ofNat_toNat]

/-- Units hold all of the bytes they are formed from. -/
theorem flatMap_units {count : Nat} {bytes : Bytes} (even : bytes.length = count * 2) :
    (Read.units bytes).flatMap Encode.u16 = bytes := by
  induction count generalizing bytes with
  | zero =>
    rw [Nat.zero_mul, List.length_eq_zero_iff] at even
    rw [even]
    rfl
  | succ count ih =>
    match bytes with
    | [] | [_] =>
      simp only [List.length_cons, List.length_nil] at even
      omega
    | low :: high :: rest =>
      have others : rest.length = count * 2 := by
        simp only [List.length_cons] at even
        omega
      have small : low.toNat + 256 * high.toNat < 0x10000 := by
        have := low.toNat_lt
        have := high.toNat_lt
        omega
      have pair : Encode.u16 (UInt16.ofNat (low.toNat + 256 * high.toNat)) = [low, high] := by
        rw [Encode.u16, Utf16.toNat_unit small]
        exact littleEndian_littleEndian [low, high]
      rw [Read.units, List.flatMap_cons, pair, ih others]
      rfl

theorem text : Framed Read.text fun s bytes => bytes = Encode.text s ∧ Encode.Short s := by
  refine position fun start => u16.bind ?_
  rintro count _ rfl
  refine (take _).bind ?_
  rintro _ bytes ⟨rfl, length⟩
  cases decoded : Utf16.decode? (Read.units bytes) with
  | none => exact throw _
  | some chars =>
    refine pure ?_
    have same : (Read.units bytes).flatMap Encode.u16 = bytes := flatMap_units length
    have units : Encode.units (String.ofList chars) = Read.units bytes := by
      rw [Encode.units, String.toList_ofList]
      exact Utf16.encode_of_decode? decoded
    have counted : (Read.units bytes).length = count.toNat := by
      have doubled := Reads.length_flatMap_u16 (Read.units bytes)
      rw [same, length] at doubled
      omega
    constructor
    · rw [Encode.text, units, counted, UInt16.ofNat_toNat, same, List.append_nil]
    · rw [Encode.Short, units, counted]
      exact count.toNat_lt

theorem coded (field : CodedField) (start code : Nat) (value : Option α) :
    Framed (Read.coded field start code value) fun result bytes =>
      bytes = [] ∧ value = some result := by
  cases value with
  | some result => exact pure ⟨rfl, rfl⟩
  | none => exact throw _

theorem header {tag : Bytes} (versions : List UInt16) :
    Framed (Read.header tag versions) fun version bytes =>
      version ∈ versions ∧ bytes = Encode.header tag version := by
  refine (take 4).bind ?_
  rintro found _ ⟨rfl, _⟩
  refine ite (fun _ => throw _) fun same => u16.bind ?_
  rintro version _ rfl
  refine ite (fun _ => throw _) fun known => pure ?_
  rw [Decidable.not_not] at same known
  rw [List.append_nil, same]
  exact ⟨known, rfl⟩

end Framed

/-! ### Whole buffers -/

theorem whole_of_error {read : Read α} {buffer : Bytes} {fault : Fault} {c : Cursor}
    (run : read ⟨0, buffer⟩ = .error fault c) : Read.whole read buffer = .error fault := by
  have failed : (read <* Read.finish).run (Cursor.start buffer) = .error fault c :=
    error_bind run _
  rw [Read.whole, failed]

/-- What is left behind the record decides whether a whole buffer is accepted. -/
theorem whole_of_ok {read : Read α} {buffer rest : Bytes} {value : α} {pos : Nat}
    (run : read ⟨0, buffer⟩ = .ok value ⟨pos, rest⟩) : Read.whole read buffer =
      if rest = [] then .ok value else .error (.malformed pos (.trailing rest.length)) := by
  have ended : (read <* Read.finish).run (Cursor.start buffer) =
      (Read.finish >>= fun _ => pure value) ⟨pos, rest⟩ := ok_bind run _
  rw [Read.whole, ended]
  cases rest <;> rfl

namespace Framed

variable {read : Read α} {written : α → Bytes → Prop} {buffer : Bytes} {value : α}

/-- An accepted buffer is what is written for its value. -/
theorem of_whole (h : Framed read written) (run : Read.whole read buffer = .ok value) :
    written value buffer ∧ Frame read 0 buffer value := by
  cases ran : read ⟨0, buffer⟩ with
  | error fault c =>
    rw [whole_of_error ran] at run
    cases run
  | ok found c =>
    rw [whole_of_ok ran] at run
    by_cases ended : c.rest = []
    · rw [if_pos ended] at run
      cases run
      obtain ⟨bytes, holds, split, frame⟩ := h 0 buffer value c ran
      rw [ended, List.append_nil] at split
      subst split
      exact ⟨holds, frame⟩
    · rw [if_neg ended] at run
      cases run

end Framed

namespace Frame

variable {read : Read α} {bytes : Bytes} {value : α}

/-- With bytes missing the buffer is refused, at the offset of the read that needed them. -/
theorem whole_take (frame : Frame read 0 bytes value) {n : Nat} (short : n < bytes.length) :
    ∃ fault, Read.whole read (bytes.take n) = .error fault ∧ MissingAt n fault := by
  obtain ⟨fault, c, run, missing⟩ := frame.cut n short
  rw [Nat.zero_add] at missing
  exact ⟨fault, whole_of_error run, missing⟩

/-- With bytes left over the buffer is refused, at the end of the record. -/
theorem whole_append (frame : Frame read 0 bytes value) {rest : Bytes} (more : rest ≠ []) :
    Read.whole read (bytes ++ rest) = .error (.malformed bytes.length (.trailing rest.length)) := by
  rw [whole_of_ok (frame.whole rest), if_neg more, Nat.zero_add]

end Frame

end ComTypes

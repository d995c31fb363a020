import ComTypes.Proofs.Wire.Frame

/-!
# The cursor keeps to its buffer

`Stays buffer read` says that a read which starts in a buffer ends there, no further back, whether it
succeeds or fails, and that a malformation it reports lies in the buffer. Reads in a row stay if each of
them does (`Stays.bind`), so a decoder is followed field by field. An offset that a decoder computes for
itself is one that it has looked up before (`Stays.position`).

An `Operation` is one of the things that a reader can be asked to do, seeks included. How far it gets
depends on the sizes of its parts: the cursor is left behind the last part that is all there
(`Operation.left_pos`).
-/

namespace ComTypes

variable {α β : Type} {buffer : Bytes} {c c' : Cursor}

/-! ### Places in a buffer -/

namespace Cursor.On

theorem start (buffer : Bytes) : (Cursor.start buffer).On buffer := ⟨Nat.zero_le _, rfl⟩

/-- A cursor that was located is on the buffer. -/
theorem of_locate {pos : Nat} (found : Cursor.locate buffer pos = .ok c) : c.On buffer := by
  unfold Cursor.locate at found
  split at found
  · cases found
  next inside =>
    cases found
    exact ⟨Nat.le_of_not_lt inside, rfl⟩

/-- What is left is what lies behind the position. -/
theorem length_rest (on : c.On buffer) : c.rest.length = buffer.length - c.pos := by
  rw [on.rest_eq, List.length_drop]

/-- A cursor that goes forward by what is left stays on the buffer. -/
theorem advance (on : c.On buffer) {count : Nat} (enough : count ≤ c.rest.length) :
    Cursor.On buffer ⟨c.pos + count, c.rest.drop count⟩ := by
  have left := on.length_rest
  have inside := on.inside
  refine ⟨?_, ?_⟩
  · show c.pos + count ≤ buffer.length
    omega
  · show c.rest.drop count = buffer.drop (c.pos + count)
    rw [on.rest_eq, List.drop_drop]

end Cursor.On

/-! ### Reads that stay -/

/-- In this buffer the read leaves the cursor where it was or further on, and what it reports as
malformed lies in the buffer. -/
def Stays (buffer : Bytes) (read : Read α) : Prop :=
  ∀ c : Cursor, c.On buffer →
    (left (read c)).On buffer ∧ c.pos ≤ (left (read c)).pos ∧
      ∀ offset cause c', read c = .error (.malformed offset cause) c' → offset ≤ buffer.length

/-- The bytes are there or they are not. -/
theorem take_eq (count : Nat) (c : Cursor) : Read.take count c =
    if count ≤ c.rest.length then .ok (c.rest.take count) ⟨c.pos + count, c.rest.drop count⟩
    else .error (.malformed c.pos (.short count c.rest.length)) c := by
  unfold Read.take
  simp only [List.length_take]
  split
  next short => rw [if_neg (by omega)]
  next enough => rw [if_pos (by omega)]

/-- Dropping the value leaves the cursor where it was. -/
theorem left_discard (read : Read α) (c : Cursor) :
    left ((discard read : Read Unit) c) = left (read c) := by
  show left (EStateM.map _ read c) = _
  unfold EStateM.map
  cases read c <;> rfl

theorem discard_eq_error_iff {read : Read α} {fault : Fault} :
    (discard read : Read Unit) c = .error fault c' ↔ read c = .error fault c' := by
  show EStateM.map _ read c = _ ↔ _
  unfold EStateM.map
  cases read c <;> simp

theorem discard_map (f : α → β) (read : Read α) :
    (discard (f <$> read) : Read Unit) = discard read := by
  funext c
  show EStateM.map _ (EStateM.map f read) c = EStateM.map _ read c
  unfold EStateM.map
  cases read c <;> rfl

/-- A read goes on behind the bytes it takes, and stops before them if they are too few. -/
theorem left_take_bind (count : Nat) (next : Bytes → Read β) (c : Cursor) :
    left ((Read.take count >>= next) c) =
      if count ≤ c.rest.length then
        left (next (c.rest.take count) ⟨c.pos + count, c.rest.drop count⟩)
      else c := by
  have run := take_eq count c
  split at run
  next enough => rw [ok_bind run, if_pos enough]
  next short =>
    rw [error_bind run, if_neg short]
    rfl

/-- Peeking leaves the cursor where it is. -/
theorem left_peek (c : Cursor) : left (Read.peek c) = c := by
  unfold Read.peek
  cases c.rest <;> rfl

/-- Asking for the end leaves the cursor where it is. -/
theorem left_finish (c : Cursor) : left (Read.finish c) = c := by
  unfold Read.finish
  split <;> rfl

namespace Stays

variable {read other : Read α} {next : α → Read β}

theorem pure (value : α) : Stays buffer (pure value) := fun c on =>
  ⟨on, Nat.le_refl _, fun _ _ _ failed => by cases failed⟩

theorem throw {fault : Fault}
    (inside : ∀ offset cause, fault = .malformed offset cause → offset ≤ buffer.length) :
    Stays buffer (throw fault : Read α) := by
  refine fun c on => ⟨on, Nat.le_refl _, fun offset cause c' failed => ?_⟩
  cases failed
  exact inside offset cause rfl

theorem malformed {offset : Nat} (inside : offset ≤ buffer.length) (cause : Malformation) :
    Stays buffer (Read.malformed offset cause : Read α) := by
  refine throw fun offset' cause' same => ?_
  cases same
  exact inside

theorem unsupported (cause : LayoutGap) :
    Stays buffer (MonadExcept.throw (Fault.unsupportedLayout cause) : Read α) :=
  throw fun _ _ same => by cases same

theorem bind (first : Stays buffer read) (second : ∀ value, Stays buffer (next value)) :
    Stays buffer (read >>= next) := by
  intro c on
  obtain ⟨inside, further, points⟩ := first c on
  cases ran : read c with
  | error fault c₁ =>
    rw [ran] at inside further points
    rw [error_bind ran]
    refine ⟨inside, further, fun offset cause c' failed => ?_⟩
    cases failed
    exact points offset cause c₁ rfl
  | ok value c₁ =>
    rw [ran] at inside further
    rw [ok_bind ran]
    obtain ⟨inside', further', points'⟩ := second value c₁ inside
    exact ⟨inside', Nat.le_trans further further', points'⟩

theorem map (f : α → β) (h : Stays buffer read) : Stays buffer (f <$> read) := by
  rw [map_eq_pure_bind]
  exact h.bind fun value => pure (f value)

/-- What is looked up as the position is a place in the buffer. -/
theorem position {next : Nat → Read α} (h : ∀ start ≤ buffer.length, Stays buffer (next start)) :
    Stays buffer (Read.position >>= next) := fun c on => h c.pos on.inside c on

theorem ite {condition : Prop} [Decidable condition] (yes : Stays buffer read)
    (no : Stays buffer other) : Stays buffer (if condition then read else other) := by
  split
  · exact yes
  · exact no

theorem times (each : Stays buffer read) (count : Nat) : Stays buffer (Read.times read count) := by
  induction count with
  | zero => exact pure []
  | succ count ih => exact each.bind fun first => ih.bind fun rest => pure _

theorem take (count : Nat) : Stays buffer (Read.take count) := by
  intro c on
  rw [take_eq]
  split
  next enough =>
    exact ⟨on.advance enough, Nat.le_add_right .., fun _ _ _ failed => by cases failed⟩
  next short =>
    refine ⟨on, Nat.le_refl _, fun offset cause c' failed => ?_⟩
    cases failed
    exact on.inside

theorem number (width : Nat) : Stays buffer (Read.number width) := (take width).map _

theorem u8 : Stays buffer Read.u8 := (number 1).map _

theorem u16 : Stays buffer Read.u16 := (number 2).map _

theorem i16 : Stays buffer Read.i16 := u16.map _

theorem u32 : Stays buffer Read.u32 := (number 4).map _

theorem i32 : Stays buffer Read.i32 := u32.map _

theorem i64 : Stays buffer Read.i64 := (number 8).map _

theorem guid : Stays buffer Read.guid := (take 16).map _

theorem text : Stays buffer Read.text := by
  refine position fun start inside => u16.bind fun count => (take _).bind fun bytes => ?_
  cases Utf16.decode? (Read.units bytes) with
  | some chars => exact pure _
  | none => exact malformed inside _

theorem blob : Stays buffer Read.blob := u32.bind fun _ => take _

theorem header (tag : Bytes) (versions : List UInt16) : Stays buffer (Read.header tag versions) := by
  refine (take 4).bind fun found => ?_
  refine ite (unsupported _) (u16.bind fun version => ?_)
  exact ite (unsupported _) (pure _)

theorem coded (field : CodedField) {offset : Nat} (inside : offset ≤ buffer.length) (code : Nat)
    (value : Option α) : Stays buffer (Read.coded field offset code value) := by
  cases value with
  | some value => exact pure value
  | none => exact malformed inside _

/-- A read that leaves the cursor alone and reports malformations there. -/
theorem of_still (still : ∀ c, left (read c) = c)
    (here : ∀ c offset cause c', read c = .error (.malformed offset cause) c' → offset = c.pos) :
    Stays buffer read := by
  intro c on
  rw [still]
  refine ⟨on, Nat.le_refl _, fun offset cause c' failed => ?_⟩
  rw [here c offset cause c' failed]
  exact on.inside

theorem peek : Stays buffer Read.peek := by
  refine of_still left_peek fun c offset cause c' failed => ?_
  unfold Read.peek at failed
  split at failed <;> cases failed
  rfl

theorem finish : Stays buffer Read.finish := by
  refine of_still left_finish fun c offset cause c' failed => ?_
  unfold Read.finish at failed
  split at failed <;> cases failed
  rfl

end Stays

/-! ### Single operations -/

/-- What a reader can be asked to do. -/
inductive Operation where
  | seek (pos : Nat)
  | skip (count : Nat)
  | take (count : Nat)
  | peek
  | u8 | u16 | i16 | u32 | i32 | i64 | guid
  | text
  | blob
  | header (tag : Bytes) (versions : List UInt16)
  | finish
deriving DecidableEq, Repr

namespace Operation

/-- Carry an operation out on a cursor in a buffer. Its value is dropped; what matters here is where it
leaves the cursor. -/
def run (buffer : Bytes) : Operation → Read Unit
  | seek pos => Read.seek buffer pos
  | skip count => Read.skip count
  | take count => discard (Read.take count)
  | peek => discard Read.peek
  | u8 => discard Read.u8
  | u16 => discard Read.u16
  | i16 => discard Read.i16
  | u32 => discard Read.u32
  | i32 => discard Read.i32
  | i64 => discard Read.i64
  | guid => discard Read.guid
  | text => discard Read.text
  | blob => discard Read.blob
  | header tag versions => discard (Read.header tag versions)
  | finish => Read.finish

/-- The cursor after a number of operations. One that fails is followed by the next all the same. -/
def runAll (buffer : Bytes) (ops : List Operation) (c : Cursor) : Cursor :=
  ops.foldl (fun c op => left (op.run buffer c)) c

/-- Texts, byte strings and headers are read part by part. -/
def isCompound : Operation → Bool
  | text | blob | header _ _ => true
  | _ => false

/-- How many bytes an operation takes that takes them at once. -/
def width? : Operation → Option Nat
  | skip count | take count => some count
  | u8 => some 1
  | u16 | i16 => some 2
  | u32 | i32 => some 4
  | i64 => some 8
  | guid => some 16
  | seek _ | peek | text | blob | header _ _ | finish => none

/-- The sizes of the parts that an operation takes in turn from the bytes that lie ahead. The first part
of a text or a byte string tells the size of the second, and a header with a wrong tag has no second. -/
def parts (rest : Bytes) : Operation → List Nat
  | text => [2, Read.littleEndian (rest.take 2) * 2]
  | blob => [4, Read.littleEndian (rest.take 4)]
  | header tag _ => if rest.take 4 = tag then [4, 2] else [4]
  | op => op.width?.toList

/-- How far parts of the given sizes reach, up to the first that is not all there. -/
def reach : (sizes : List Nat) → (available : Nat) → Nat
  | [], _ => 0
  | size :: sizes, available =>
    if size ≤ available then size + reach sizes (available - size) else 0

theorem run_eq_skip {op : Operation} {width : Nat} (fixed : op.width? = some width) :
    op.run buffer = Read.skip width := by
  cases op with
  | skip | take =>
    cases fixed
    rfl
  | u8 | u16 | i16 | u32 | i32 | i64 | guid =>
    cases fixed
    simp only [run, Read.skip, Read.u8, Read.u16, Read.i16, Read.u32, Read.i32, Read.i64, Read.guid,
      Read.number, discard_map]
  | seek | peek | text | blob | header | finish => cases fixed

/-- Seeking goes anywhere in the buffer and fails beyond it. -/
theorem seek_eq (buffer : Bytes) (pos : Nat) (c : Cursor) : (seek pos).run buffer c =
    if buffer.length < pos then .error (.malformed pos (.seekPastEnd buffer.length)) c
    else .ok () ⟨pos, buffer.drop pos⟩ := by
  show Read.seek buffer pos c = _
  unfold Read.seek Cursor.locate
  by_cases past : buffer.length < pos
  · rw [if_pos past, if_pos past]
  · rw [if_neg past, if_neg past]

/-! ### Where operations leave the cursor -/

theorem littleEndian_take_lt {width : Nat} {rest : Bytes} (enough : width ≤ rest.length) :
    Read.littleEndian (rest.take width) < Reads.range width := by
  have length : (rest.take width).length = width := List.length_take_of_le enough
  have small := Framed.littleEndian_lt (rest.take width)
  rwa [length] at small

/-- A text that cannot be read leaves the cursor at the part that failed. -/
theorem left_text (c : Cursor) :
    (left (Read.text c)).pos = c.pos + reach (parts c.rest text) c.rest.length := by
  rw [Read.text, position_bind, Read.u16, Read.number, bind_map_left, bind_map_left, left_take_bind]
  simp only [parts, reach]
  split
  next enough =>
    rw [left_take_bind, Utf16.toNat_unit (littleEndian_take_lt enough), List.length_drop]
    split
    · cases Utf16.decode? _ <;> exact Nat.add_assoc ..
    · rfl
  next => rfl

theorem left_blob (c : Cursor) :
    (left (Read.blob c)).pos = c.pos + reach (parts c.rest blob) c.rest.length := by
  rw [Read.blob, Read.u32, Read.number, bind_map_left, bind_map_left, left_take_bind]
  simp only [parts, reach]
  split
  next enough =>
    rw [take_eq, Reads.toNat_count (littleEndian_take_lt enough), List.length_drop]
    split
    · exact Nat.add_assoc ..
    · rfl
  next => rfl

theorem left_header (tag : Bytes) (versions : List UInt16) (c : Cursor) :
    (left (Read.header tag versions c)).pos =
      c.pos + reach (parts c.rest (header tag versions)) c.rest.length := by
  rw [Read.header, left_take_bind]
  simp only [parts]
  by_cases same : c.rest.take 4 = tag
  · simp only [if_pos same, if_neg (not_not_intro same), reach]
    split
    next enough =>
      rw [Read.u16, Read.number, bind_map_left, bind_map_left, left_take_bind, List.length_drop]
      split
      · split <;> exact Nat.add_assoc ..
      · rfl
    next => rfl
  · simp only [if_neg same, if_pos same, reach]
    split <;> rfl

/-- An operation other than a seek leaves the cursor behind the last of its parts that is all there. -/
theorem left_pos {op : Operation} (stays : ∀ pos, op ≠ seek pos) (buffer : Bytes) (c : Cursor) :
    (left (op.run buffer c)).pos = c.pos + reach (op.parts c.rest) c.rest.length := by
  cases fixed : op.width? with
  | some width =>
    have parts_eq : op.parts c.rest = [width] := by
      cases op <;> cases fixed <;> rfl
    rw [run_eq_skip fixed, parts_eq, Read.skip, left_discard, take_eq, reach]
    split <;> rfl
  | none =>
    cases op with
    | seek pos => exact absurd rfl (stays pos)
    | text => rw [run, left_discard, left_text]
    | blob => rw [run, left_discard, left_blob]
    | header tag versions => rw [run, left_discard, left_header]
    | peek =>
      rw [run, left_discard, left_peek]
      rfl
    | finish =>
      rw [run, left_finish]
      rfl
    | skip | take | u8 | u16 | i16 | u32 | i32 | i64 | guid => cases fixed

/-- Unless it is made of parts, an operation that fails leaves the cursor alone. -/
theorem left_eq_of_error {op : Operation} (simple : op.isCompound = false) {fault : Fault}
    (failed : op.run buffer c = .error fault c') : c' = c := by
  cases fixed : op.width? with
  | some width =>
    rw [run_eq_skip fixed, Read.skip, discard_eq_error_iff, take_eq] at failed
    split at failed
    · cases failed
    · cases failed
      rfl
  | none =>
    cases op with
    | seek pos =>
      rw [seek_eq] at failed
      split at failed
      · cases failed
        rfl
      · cases failed
    | peek =>
      rw [run, discard_eq_error_iff] at failed
      rw [← left_peek c, failed]
      rfl
    | finish =>
      rw [run] at failed
      rw [← left_finish c, failed]
      rfl
    | text | blob | header => cases simple
    | skip | take | u8 | u16 | i16 | u32 | i32 | i64 | guid => cases fixed

/-! ### Operations in a row -/

theorem stays {op : Operation} (still : ∀ pos, op ≠ seek pos) : Stays buffer (op.run buffer) := by
  cases op with
  | seek pos => exact absurd rfl (still pos)
  | skip => exact (Stays.take _).map _
  | take => exact (Stays.take _).map _
  | peek => exact Stays.peek.map _
  | u8 => exact Stays.u8.map _
  | u16 => exact Stays.u16.map _
  | i16 => exact Stays.i16.map _
  | u32 => exact Stays.u32.map _
  | i32 => exact Stays.i32.map _
  | i64 => exact Stays.i64.map _
  | guid => exact Stays.guid.map _
  | text => exact Stays.text.map _
  | blob => exact Stays.blob.map _
  | header => exact (Stays.header _ _).map _
  | finish => exact Stays.finish

/-- Every operation ends in the buffer in which it starts. -/
theorem on_run (op : Operation) (on : c.On buffer) : (left (op.run buffer c)).On buffer := by
  by_cases seeks : ∃ pos, op = seek pos
  · obtain ⟨pos, rfl⟩ := seeks
    rw [seek_eq]
    split
    · exact on
    next inside => exact ⟨Nat.le_of_not_lt inside, rfl⟩
  · exact (stays (fun pos same => seeks ⟨pos, same⟩) c on).1

/-- After any sequence of operations the cursor is on the buffer. -/
theorem on_runAll (ops : List Operation) (on : c.On buffer) : (runAll buffer ops c).On buffer := by
  induction ops generalizing c with
  | nil => exact on
  | cons op rest ih => exact ih (op.on_run on)

end Operation

end ComTypes

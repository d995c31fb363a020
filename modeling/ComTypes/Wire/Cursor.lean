import ComTypes.Fault
import ComTypes.Guid
import ComTypes.Text.Utf16

/-!
# Reading bytes

A cursor is a position in a buffer together with the bytes from there on. A read either succeeds
completely and moves the cursor past what it took, or fails with the offset at which it started.
A compound read that fails leaves the cursor behind the parts it had already taken.
-/

namespace ComTypes

abbrev Bytes := List UInt8

/-- A place in a buffer: how many bytes lie before it, and the bytes that follow. -/
structure Cursor where
  pos : Nat
  rest : Bytes
deriving DecidableEq, Repr

namespace Cursor

def start (buffer : Bytes) : Cursor := ⟨0, buffer⟩

/-- The place `pos` bytes into a buffer, which may be its end but not beyond. -/
def locate (buffer : Bytes) (pos : Nat) : Except Fault Cursor :=
  if buffer.length < pos then .error (.malformed pos (.seekPastEnd buffer.length))
  else .ok ⟨pos, buffer.drop pos⟩

/-- The cursor stands in `buffer`: what follows it is what follows its position there. -/
structure On (buffer : Bytes) (c : Cursor) : Prop where
  inside : c.pos ≤ buffer.length
  rest_eq : c.rest = buffer.drop c.pos

end Cursor

/-- A computation that reads from a cursor. -/
abbrev Read := EStateM Fault Cursor

namespace Read

/-- The number whose bytes, least significant first, are given. -/
def littleEndian : Bytes → Nat
  | [] => 0
  | b :: rest => b.toNat + 256 * littleEndian rest

def position : Read Nat := fun c => .ok c.pos c

def malformed {α : Type} (offset : Nat) (cause : Malformation) : Read α :=
  throw (.malformed offset cause)

/-- The next `count` bytes. The cursor stays where it is if there are fewer. -/
def take (count : Nat) : Read Bytes := fun c =>
  let chunk := c.rest.take count
  if chunk.length < count then .error (.malformed c.pos (.short count c.rest.length)) c
  else .ok chunk ⟨c.pos + count, c.rest.drop count⟩

def skip (count : Nat) : Read Unit := discard (take count)

/-- Move to a position of the buffer that the cursor stands in. -/
def seek (buffer : Bytes) (pos : Nat) : Read Unit := fun c =>
  match Cursor.locate buffer pos with
  | .ok moved => .ok () moved
  | .error fault => .error fault c

/-- The next byte, which stays unread. -/
def peek : Read UInt8 := fun c =>
  match c.rest with
  | [] => .error (.malformed c.pos .nothingToPeek) c
  | b :: _ => .ok b c

/-- An unsigned number of `width` bytes. -/
def number (width : Nat) : Read Nat := littleEndian <$> take width

def u8 : Read UInt8 := UInt8.ofNat <$> number 1

def u16 : Read UInt16 := UInt16.ofNat <$> number 2

def i16 : Read Int16 := UInt16.toInt16 <$> u16

def u32 : Read UInt32 := UInt32.ofNat <$> number 4

def i32 : Read Int32 := UInt32.toInt32 <$> u32

def i64 : Read Int64 := (fun n => (UInt64.ofNat n).toInt64) <$> number 8

/-- A GUID in its in-memory byte order. -/
def guid : Read Guid := Guid.ofBytes <$> take 16

/-- The two-byte units that bytes form; an odd byte at the end is left out. -/
def units : Bytes → List UInt16
  | low :: high :: rest => UInt16.ofNat (low.toNat + 256 * high.toNat) :: units rest
  | _ => []

/-- A text: a two-byte count of units, then the units. An unpaired surrogate is reported at the
offset of the count. -/
def text : Read String := do
  let start ← position
  let count ← u16
  let bytes ← take (count.toNat * 2)
  match Utf16.decode? (units bytes) with
  | some chars => return String.ofList chars
  | none => malformed start .loneSurrogate

/-- A four-byte length followed by that many bytes. -/
def blob : Read Bytes := do
  let length ← u32
  take length.toNat

def times {α : Type} (read : Read α) : Nat → Read (List α)
  | 0 => pure []
  | n + 1 => do
    let first ← read
    let rest ← times read n
    return first :: rest

/-- A record header: a four-byte tag, then a version, which must be one of `versions`. A wrong tag
is reported before the version is read. -/
def header (tag : Bytes) (versions : List UInt16) : Read UInt16 := do
  let found ← take 4
  if found ≠ tag then
    throw (.unsupportedLayout (.tag tag found))
  let version ← u16
  if version ∉ versions then
    throw (.unsupportedLayout (.version tag version))
  return version

/-- Require that nothing is left. -/
def finish : Read Unit := fun c =>
  if c.rest.isEmpty then .ok () c
  else .error (.malformed c.pos (.trailing c.rest.length)) c

/-- Read a whole buffer from its start; leftover bytes are an error. -/
def whole {α : Type} (read : Read α) (buffer : Bytes) : Except Fault α :=
  match (read <* finish).run (Cursor.start buffer) with
  | .ok value _ => .ok value
  | .error fault _ => .error fault

/-- A coded field: its number, turned into a value; an unknown code is reported at `offset`. -/
def coded {α : Type} (field : CodedField) (offset : Nat) (code : Nat) (value : Option α) : Read α :=
  match value with
  | some value => pure value
  | none => malformed offset (.unknown field code)

end Read

end ComTypes

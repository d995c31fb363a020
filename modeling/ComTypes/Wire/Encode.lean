import ComTypes.Guid
import ComTypes.Text.Utf16
import ComTypes.Wire.Cursor

/-!
# Writing bytes

The layout of the values that `Read` takes in: numbers least significant byte first, texts as
counted UTF-16 units, byte strings with their length in front.
-/

namespace ComTypes.Encode

/-- The lowest `width` bytes of a number, least significant first. -/
def littleEndian : Nat → Nat → Bytes
  | 0, _ => []
  | width + 1, n => UInt8.ofNat n :: littleEndian width (n / 256)

def u8 (n : UInt8) : Bytes := [n]

def u16 (n : UInt16) : Bytes := littleEndian 2 n.toNat

def i16 (n : Int16) : Bytes := u16 n.toUInt16

def u32 (n : UInt32) : Bytes := littleEndian 4 n.toNat

def i32 (n : Int32) : Bytes := u32 n.toUInt32

def i64 (n : Int64) : Bytes := littleEndian 8 n.toUInt64.toNat

/-- A GUID in its in-memory byte order. -/
def guid (g : Guid) : Bytes := g.bytes

def units (text : String) : List UInt16 := Utf16.encode text.toList

/-- A text: the count of its units, then the units. -/
def text (s : String) : Bytes :=
  u16 (UInt16.ofNat (units s).length) ++ (units s).flatMap u16

def blob (bytes : Bytes) : Bytes := u32 (UInt32.ofNat bytes.length) ++ bytes

def header (tag : Bytes) (version : UInt16) : Bytes := tag ++ u16 version

def counted16 {α : Type} (item : α → Bytes) (items : List α) : Bytes :=
  u16 (UInt16.ofNat items.length) ++ items.flatMap item

def counted32 {α : Type} (item : α → Bytes) (items : List α) : Bytes :=
  u32 (UInt32.ofNat items.length) ++ items.flatMap item

end ComTypes.Encode

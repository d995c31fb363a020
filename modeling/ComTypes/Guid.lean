import ComTypes.Text.Hex
import ComTypes.Text.Blank
import ComTypes.Text.Utf8

/-!
# GUIDs

A GUID is sixteen bytes. Its text has five groups of hexadecimal digits; the first three groups are
stored little-endian, the last eight bytes in order. `textOrder` lists the byte that each pair of
digits shows, `textPositions` the place in the text that each byte is read from.
-/

namespace ComTypes

/-- A globally unique identifier, in its in-memory byte order. -/
structure Guid where
  bytes : List UInt8
  length_eq : bytes.length = 16
deriving DecidableEq, Repr

namespace Guid

/-- The GUID of the first sixteen bytes of a list, with zeros where there are fewer. -/
def ofBytes (bytes : List UInt8) : Guid where
  bytes := (bytes ++ List.replicate 16 0).take 16
  length_eq := by simp

/-- The GUID that stands for none. -/
def zero : Guid := ofBytes []

instance : Inhabited Guid := ⟨zero⟩

/-- Whether this is the GUID that stands for none. -/
def isZero (guid : Guid) : Bool := guid = zero

/-- The bytes in the order in which the text shows them, group by group. -/
def textOrder : List (List Nat) :=
  [[3, 2, 1, 0], [5, 4], [7, 6], [8, 9], [10, 11, 12, 13, 14, 15]]

def group (guid : Guid) (places : List Nat) : List Char :=
  places.flatMap fun place => Hex.byte (guid.bytes.getD place 0)

/-- The text as characters, in lower case and without braces. -/
def chars (guid : Guid) : List Char :=
  ['-'].intercalate (textOrder.map guid.group)

def text (guid : Guid) : String := String.ofList guid.chars

/-- The registry form: the text in upper case, without braces. -/
def registry (guid : Guid) : String := String.ofList (Hex.upper guid.chars)

/-! ### Reading -/

inductive ParseError where
  | length
  | separator (index : Nat)
  | digits (index : Nat)
deriving DecidableEq, Repr

def ParseError.message : ParseError → String
  | .length => "GUID string has wrong length (expected 36 bytes)"
  | .separator index => s!"GUID string is missing a separator (`-`) at index {index}"
  | .digits index => s!"GUID string contains invalid ASCII hex at index {index}"

def separators : List Nat := [8, 13, 18, 23]

/-- Where the two digits of each byte start in the text, by byte. -/
def textPositions : List Nat := [6, 4, 2, 0, 11, 9, 16, 14, 19, 21, 24, 26, 28, 30, 32, 34]

def digitAt? (text : List UInt8) (place : Nat) : Option Nat :=
  (text[place]?).bind fun b => Hex.value? (Char.ofNat b.toNat)

/-- The byte whose two digits start at a place of an encoded text. -/
def byteAt (text : List UInt8) (place : Nat) : Except ParseError UInt8 :=
  match digitAt? text place, digitAt? text (place + 1) with
  | some high, some low => .ok (UInt8.ofNat (high * 16 + low))
  | _, _ => .error (.digits place)

/-- Read a GUID from the UTF-8 bytes of its text, in either case and without braces. -/
def ofText (text : List UInt8) : Except ParseError Guid :=
  if text.length ≠ 36 then .error .length
  else match separators.find? (text[·]? ≠ some 0x2D) with
    | some index => .error (.separator index)
    | none => (textPositions.mapM (byteAt text)).map ofBytes

/-- Read a GUID from its registry form. White space around it is ignored, and so is any number of
braces inside that. -/
def parse (text : String) : Except ParseError Guid :=
  let bare := Text.dropEndWhile (· = '\x7d') ((Text.trim text.toList).dropWhile (· = '\x7b'))
  ofText (Utf8.encode (String.ofList bare))

end Guid

end ComTypes

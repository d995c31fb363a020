/-!
# UTF-16

A character up to U+FFFF is one unit, any other a high surrogate followed by a low one. Decoding
refuses every surrogate that stands outside such a pair, so a unit sequence that decodes is the
encoding of exactly one text.
-/

namespace ComTypes.Utf16

def encodeChar (c : Char) : List UInt16 :=
  if c.toNat < 0x10000 then [UInt16.ofNat c.toNat]
  else
    [UInt16.ofNat (0xD800 + (c.toNat - 0x10000) / 0x400),
      UInt16.ofNat (0xDC00 + (c.toNat - 0x10000) % 0x400)]

def encode (text : List Char) : List UInt16 := text.flatMap encodeChar

/-- A unit that opens a surrogate pair. -/
def isHigh (u : UInt16) : Bool := 0xD800 ≤ u && u < 0xDC00

/-- A unit that closes a surrogate pair. -/
def isLow (u : UInt16) : Bool := 0xDC00 ≤ u && u < 0xE000

/-- The character a surrogate pair stands for. -/
def combine (high low : UInt16) : Char :=
  Char.ofNat (0x10000 + (high.toNat - 0xD800) * 0x400 + (low.toNat - 0xDC00))

/-- The text of a unit sequence; `none` if a surrogate is unpaired. -/
def decode? : List UInt16 → Option (List Char)
  | [] => some []
  | u :: rest =>
    if isHigh u then
      match rest with
      | [] => none
      | v :: rest' => if isLow v then (decode? rest').map (combine u v :: ·) else none
    else if isLow u then none
    else (decode? rest).map (Char.ofNat u.toNat :: ·)

end ComTypes.Utf16

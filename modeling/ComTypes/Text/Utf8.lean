/-!
# UTF-8

Texts are encoded character by character. Reading bytes back goes through `scan`, which cuts the
input into well-formed characters and ill-formed runs: a run is the longest start of a character
that the next byte breaks off, or a single byte that starts none. Strict decoding refuses any such
run, lenient decoding shows one replacement character for each.
-/

namespace ComTypes.Utf8

def encode (text : String) : List UInt8 := text.toList.flatMap String.utf8EncodeChar

def size (text : String) : Nat := text.utf8ByteSize

/-- What the first byte of a character announces. -/
inductive Lead where
  /-- A character of its own. -/
  | ascii
  /-- The character's high bits, the range its second byte must lie in, and how many further
  bytes follow the second. -/
  | multi (bits : Nat) (low high : UInt8) (further : Nat)
  /-- No character starts with this byte. -/
  | stray
deriving DecidableEq, Repr

/-- Classify a first byte. The ranges for the second byte leave out overlong forms, surrogates and
numbers past the last code point. -/
def lead (b : UInt8) : Lead :=
  if b < 0x80 then .ascii
  else if b < 0xC2 then .stray
  else if b < 0xE0 then .multi (b.toNat - 0xC0) 0x80 0xBF 0
  else if b = 0xE0 then .multi 0 0xA0 0xBF 1
  else if b = 0xED then .multi 0xD 0x80 0x9F 1
  else if b < 0xF0 then .multi (b.toNat - 0xE0) 0x80 0xBF 1
  else if b = 0xF0 then .multi 0 0x90 0xBF 2
  else if b < 0xF4 then .multi (b.toNat - 0xF0) 0x80 0xBF 2
  else if b = 0xF4 then .multi 4 0x80 0x8F 2
  else .stray

def continues (b : UInt8) : Bool := 0x80 ≤ b && b ≤ 0xBF

/-- The bits so far followed by the six a continuation byte carries. -/
def extend (bits : Nat) (b : UInt8) : Nat := bits * 64 + b.toNat % 64

/-- Cut bytes into characters (`some`) and ill-formed runs (`none`). -/
def scan : List UInt8 → List (Option Char)
  | [] => []
  | b :: rest =>
    match lead b with
    | .ascii => some (Char.ofNat b.toNat) :: scan rest
    | .stray => none :: scan rest
    | .multi bits low high further =>
      match rest with
      | [] => [none]
      | c :: rest₁ =>
        -- The byte that breaks a character off may start one itself, so it is looked at again.
        if ¬ (low ≤ c ∧ c ≤ high) then none :: scan (c :: rest₁)
        else if further = 0 then some (Char.ofNat (extend bits c)) :: scan rest₁
        else match rest₁ with
          | [] => [none]
          | d :: rest₂ =>
            if ¬ continues d then none :: scan (d :: rest₂)
            else if further = 1 then
              some (Char.ofNat (extend (extend bits c) d)) :: scan rest₂
            else match rest₂ with
              | [] => [none]
              | e :: rest₃ =>
                if ¬ continues e then none :: scan (e :: rest₃)
                else some (Char.ofNat (extend (extend (extend bits c) d) e)) :: scan rest₃

/-- The text the bytes encode, if they are well formed throughout. -/
def decode? (bytes : List UInt8) : Option String := ((scan bytes).mapM id).map String.ofList

/-- The text with U+FFFD in place of each ill-formed run. -/
def lenient (bytes : List UInt8) : String :=
  String.ofList ((scan bytes).map (·.getD '\uFFFD'))

end ComTypes.Utf8

/-!
# Hexadecimal numerals

Numbers are written in base sixteen without leading zeros, or padded on the left to a fixed width.
Reading a digit accepts both cases; writing uses lower case unless `upper` is asked for.
-/

namespace ComTypes.Hex

/-- The digits of `n`, most significant first, without leading zeros; zero is `0`. -/
def digits (n : Nat) : List Char := Nat.toDigits 16 n

/-- The digits of `n` with zeros put in front until there are `width` of them. -/
def padded (width n : Nat) : List Char :=
  List.replicate (width - (digits n).length) '0' ++ digits n

def byte (b : UInt8) : List Char :=
  [Nat.digitChar (b.toNat / 16), Nat.digitChar (b.toNat % 16)]

def upper (numeral : List Char) : List Char := numeral.map Char.toUpper

/-- `0x` in front of the shortest numeral. -/
def marked (n : Nat) : String := "0x" ++ String.ofList (digits n)

/-- `0x` in front of a numeral of at least `width` digits. -/
def markedWide (width n : Nat) : String := "0x" ++ String.ofList (padded width n)

/-- `0x` in front of an upper-case numeral of at least eight digits. -/
def word (n : UInt32) : String := "0x" ++ String.ofList (upper (padded 8 n.toNat))

def value? (c : Char) : Option Nat :=
  if '0' ≤ c ∧ c ≤ '9' then some (c.toNat - '0'.toNat)
  else if 'a' ≤ c ∧ c ≤ 'f' then some (c.toNat - 'a'.toNat + 10)
  else if 'A' ≤ c ∧ c ≤ 'F' then some (c.toNat - 'A'.toNat + 10)
  else none

end ComTypes.Hex

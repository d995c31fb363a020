import ComTypes.Text.Hex

/-!
# TOML numbers

A numeral can be well formed and yet be too large for whoever asks for its value, or stand for no
value at all, such as a mark of a base without digits behind it. Neither makes a document malformed.
So integers are read without a limit, as nothing if they stand for no number, and floats as the
decimals they are written as; what is out of range is for the reader of the value to say.
-/

namespace ComTypes.Toml

/-! ### Digits -/

/-- The digits of a numeral in which single underscores may stand between digits. -/
def digitRun (isDigit : Char → Bool) : List Char → Option (List Char)
  | [] => none
  | [c] => if isDigit c then some [c] else none
  | c :: '_' :: rest => if isDigit c then (digitRun isDigit rest).map (c :: ·) else none
  | c :: rest => if isDigit c then (digitRun isDigit rest).map (c :: ·) else none

/-- The number that digits of a base stand for. -/
def valueOf (base : Nat) (digits : List Char) : Nat :=
  digits.foldl (fun n c => n * base + (Hex.value? c).getD 0) 0

/-- Whether a minus stands in front, and the numeral behind the sign that it may have. -/
def signed : List Char → Bool × List Char
  | '-' :: rest => (true, rest)
  | '+' :: rest => (false, rest)
  | rest => (false, rest)

/-! ### Integers -/

/-- An integer in a base other than ten, from behind the mark of the base. Without digits it stands
for no number. -/
def radixInteger? (base : Nat) (numeral : List Char) : Option (Option Nat) :=
  if numeral = [] then some none
  else (digitRun (fun c => (Hex.value? c).any (· < base)) numeral).map fun digits =>
    some (valueOf base digits)

/-- A numeral without its underscores, each of which stands between two digits of any base.
`afterDigit` tells whether a digit stands in front. -/
def withoutUnderscores : (afterDigit : Bool) → List Char → Option (List Char)
  | _, [] => some []
  | _, ['_'] => none
  | afterDigit, '_' :: c :: rest =>
    if afterDigit ∧ (Hex.value? c).isSome then (withoutUnderscores true rest).map (c :: ·)
    else none
  | _, c :: rest => (withoutUnderscores (Hex.value? c).isSome rest).map (c :: ·)

/-- A decimal integer, from behind the sign that it may have, without a zero in front. Behind an
underscore anything may follow but a space and what makes it a float; with other characters than
digits it stands for no number. -/
def decimalInteger? (numeral : List Char) : Option (Option Nat) := do
  let behind := numeral.dropWhile Char.isDigit
  if numeral = [] ∨ (behind ≠ [] ∧ behind.head? ≠ some '_') then none
  else if behind.any fun c => c = '.' || c = 'e' || c = 'E' || c = ' ' then none
  else if numeral.head? = some '0' ∧ numeral ≠ ['0'] then none
  else
    let chars ← withoutUnderscores false numeral
    return if chars.all Char.isDigit then some (valueOf 10 chars) else none

/-- An integer; the inner result is nothing if it stands for no number. -/
def integer? (token : List Char) : Option (Option Int) :=
  match token with
  | '0' :: 'x' :: rest => (radixInteger? 16 rest).map (·.map Int.ofNat)
  | '0' :: 'o' :: rest => (radixInteger? 8 rest).map (·.map Int.ofNat)
  | '0' :: 'b' :: rest => (radixInteger? 2 rest).map (·.map Int.ofNat)
  | token =>
    let (negative, numeral) := signed token
    (decimalInteger? numeral).map fun size? =>
      size?.map fun size => if negative then -Int.ofNat size else Int.ofNat size

/-! ### Floats -/

/-- The size of a float that is written in digits: a number of units of a power of ten. -/
structure Decimal where
  units : Nat
  exponent : Int
deriving DecidableEq, Repr

/-- What is nearer to an infinity than to any double is as large as this: it lies half a step above
the greatest double. -/
def Decimal.limit : Nat := Nat.pow 2 1024 - Nat.pow 2 970

/-- Whether the nearest double is an infinity. A decimal of `places` places before the point is less
than `10 ^ places` and not less than a tenth of it, so exact comparison is needed for one number of
places only. -/
def Decimal.overflows (decimal : Decimal) : Bool :=
  let places := Int.ofNat (Nat.toDigits 10 decimal.units).length + decimal.exponent
  if decimal.units = 0 ∨ places < 309 then false
  else if 309 < places then true
  else Decimal.limit * Nat.pow 10 (-decimal.exponent).toNat
    ≤ decimal.units * Nat.pow 10 decimal.exponent.toNat

/-- The power of ten that an exponent gives; it may be missing. -/
def exponent? : List Char → Option Int
  | [] => some 0
  | c :: rest =>
    if c = 'e' ∨ c = 'E' then
      let (negative, numeral) := signed rest
      (digitRun Char.isDigit numeral).map fun digits =>
        let size := Int.ofNat (valueOf 10 digits)
        if negative then -size else size
    else none

/-- The digits of a float before its point, without zeros in front. -/
def wholeDigits? (numeral : List Char) : Option (List Char) :=
  (digitRun Char.isDigit numeral).filter fun digits =>
    digits.length = 1 || digits.head? ≠ some '0'

/-- A float; the inner result is nothing for an infinity and for what is not a number. -/
def float? (token : List Char) : Option (Option Decimal) :=
  let (_, numeral) := signed token
  let isPart := fun c : Char => c.isDigit || c = '_'
  if numeral = "inf".toList ∨ numeral = "nan".toList then some none
  else do
    let whole ← wholeDigits? (numeral.takeWhile isPart)
    match numeral.dropWhile isPart with
    | [] => none
    | '.' :: behind =>
      let fraction ← digitRun Char.isDigit (behind.takeWhile isPart)
      let exponent ← exponent? (behind.dropWhile isPart)
      return some ⟨valueOf 10 (whole ++ fraction), exponent - Int.ofNat fraction.length⟩
    | behind =>
      let exponent ← exponent? behind
      return some ⟨valueOf 10 whole, exponent⟩

end ComTypes.Toml

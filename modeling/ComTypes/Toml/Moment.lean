import ComTypes.Toml.Blank
import ComTypes.Toml.Number

/-!
# TOML dates and times

A date, a time of day, or both with the offset from universal time that they may have. They are
written out in one form, whichever of the forms of a document they were read from.
-/

namespace ComTypes.Toml

structure Date where
  year : Nat
  month : Nat
  day : Nat
deriving DecidableEq, Repr

structure TimeOfDay where
  hour : Nat
  minute : Nat
  second : Option Nat := none
  nanosecond : Option Nat := none
deriving DecidableEq, Repr

/-- How far a local time is from universal time. -/
inductive Offset where
  /-- Universal time itself. -/
  | universal
  /-- A number of minutes ahead of universal time. -/
  | ahead (minutes : Int)
deriving DecidableEq, Repr

inductive Moment where
  | date (day : Date)
  | time (clock : TimeOfDay)
  | dateTime (day : Date) (clock : TimeOfDay) (offset : Option Offset)
deriving DecidableEq, Repr

/-! ### Reading -/

def fixedNumber (width low high : Nat) (rest : Rest) : Option (Nat × Rest) :=
  let digits := rest.take width
  let value := valueOf 10 digits
  if digits.length = width ∧ digits.all Char.isDigit ∧ low ≤ value ∧ value ≤ high then
    some (value, rest.drop width)
  else none

def monthDays (year month : Nat) : Nat :=
  if month = 2 then
    if year % 4 = 0 ∧ (year % 100 ≠ 0 ∨ year % 400 = 0) then 29 else 28
  else if month = 4 ∨ month = 6 ∨ month = 9 ∨ month = 11 then 30
  else 31

def date? (rest : Rest) : Option (Date × Rest) := do
  let (year, rest) ← fixedNumber 4 0 9999 rest
  let (month, rest) ← fixedNumber 2 1 12 (← expect? '-' rest)
  let (day, rest) ← fixedNumber 2 1 (monthDays year month) (← expect? '-' rest)
  return (⟨year, month, day⟩, rest)

/-- The nanoseconds that the digits of a fraction give; further digits are cut off. -/
def nanoseconds (fraction : List Char) : Nat :=
  valueOf 10 ((fraction ++ List.replicate 9 '0').take 9)

def timeOfDay? (rest : Rest) : Option (TimeOfDay × Rest) := do
  let (hour, rest) ← fixedNumber 2 0 23 rest
  let (minute, rest) ← fixedNumber 2 0 59 (← expect? ':' rest)
  match rest with
  | ':' :: rest =>
    let (second, rest) ← fixedNumber 2 0 60 rest
    match rest with
    | '.' :: rest =>
      let fraction := rest.takeWhile Char.isDigit
      if fraction = [] then none
      else return (⟨hour, minute, some second, some (nanoseconds fraction)⟩,
        rest.dropWhile Char.isDigit)
    | rest => return (⟨hour, minute, some second, none⟩, rest)
  | rest => return (⟨hour, minute, none, none⟩, rest)

/-- An offset and what follows it; it may be missing. -/
def offset? : Rest → Option (Option Offset × Rest)
  | [] => some (none, [])
  | c :: rest =>
    if c = 'Z' ∨ c = 'z' then some (some .universal, rest)
    else if c = '+' ∨ c = '-' then do
      let (hours, rest) ← fixedNumber 2 0 23 rest
      let (minutes, rest) ← fixedNumber 2 0 59 (← expect? ':' rest)
      let size := Int.ofNat (60 * hours + minutes)
      return (some (.ahead (if c = '-' then -size else size)), rest)
    else none

/-- The date, time of day or both that a token is, from its beginning to its end. -/
def moment? (token : List Char) : Option Moment :=
  match date? token with
  | some (date, []) => some (.date date)
  | some (date, c :: rest) => do
    let (time, rest) ← if c = 'T' ∨ c = 't' ∨ c = ' ' then timeOfDay? rest else none
    let (offset, rest) ← offset? rest
    if rest = [] then some (.dateTime date time offset) else none
  | none => do
    let (time, rest) ← timeOfDay? token
    if rest = [] then some (.time time) else none

/-! ### Writing -/

/-- The numeral of `n` with zeros put in front until it has `width` digits. -/
def wideNumeral (width n : Nat) : String :=
  let digits := Nat.toDigits 10 n
  String.ofList (List.replicate (width - digits.length) '0' ++ digits)

def Date.text (date : Date) : String :=
  wideNumeral 4 date.year ++ "-" ++ wideNumeral 2 date.month ++ "-" ++ wideNumeral 2 date.day

/-- The digits of a fraction of a second, without zeros at its end beyond the first digit. -/
def fractionText (nanosecond : Nat) : String :=
  let digits := ((wideNumeral 9 nanosecond).toList.reverse.dropWhile (· = '0')).reverse
  if digits = [] then "0" else String.ofList digits

def TimeOfDay.text (time : TimeOfDay) : String :=
  wideNumeral 2 time.hour ++ ":" ++ wideNumeral 2 time.minute
    ++ (time.second.elim "" fun second => ":" ++ wideNumeral 2 second)
    ++ (time.nanosecond.elim "" fun nanosecond => "." ++ fractionText nanosecond)

def Offset.text : Offset → String
  | universal => "Z"
  | ahead minutes =>
    (if minutes < 0 then "-" else "+") ++ wideNumeral 2 (minutes.natAbs / 60) ++ ":"
      ++ wideNumeral 2 (minutes.natAbs % 60)

def Moment.text : Moment → String
  | .date day => day.text
  | .time clock => clock.text
  | .dateTime day clock offset => day.text ++ "T" ++ clock.text ++ offset.elim "" Offset.text

end ComTypes.Toml

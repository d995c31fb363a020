import ComTypes.Toml.Moment
import ComTypes.Toml.Number

/-!
# TOML values

A value remembers how it came about where later lines may add to it: tables by their origin, arrays
by whether they are written as a sequence of headed tables.
-/

namespace ComTypes.Toml

inductive Origin where
  /-- By a header of its own. -/
  | header
  /-- By the header of a table inside it. -/
  | implied
  /-- By a dotted key. -/
  | dotted
  /-- In braces. -/
  | inline
deriving DecidableEq, Repr

inductive Value where
  | text (value : String)
  /-- An integer; nothing if its numeral stands for no number. -/
  | integer (value : Option Int)
  | boolean (value : Bool)
  /-- A float by its size; nothing for an infinity and for what is not a number. -/
  | float (size : Option Decimal)
  | moment (value : Moment)
  /-- An array; `headed` if its items are tables under headers. -/
  | array (headed : Bool) (items : List Value)
  | table (origin : Origin) (entries : List (String × Value))
deriving Repr

/-- The contents of a table, in order of appearance. -/
abbrev Entries := List (String × Value)

def Entries.replace (entries : Entries) (key : String) (value : Value) : Entries :=
  entries.map fun entry => if entry.1 = key then (key, value) else entry

/-- Change the table that a path leads to. Tables missing on the way are made, by a dotted key or by
the header of the table at the end. A headed array stands for its last table. Braced tables and
other values are closed. A dotted key may not lead through a table that has a header, unless as the
last of a headed array, and counts as having made the tables it leads through. -/
def Entries.update (dotted : Bool) (change : Origin → Entries → Option Entries) :
    List String → Origin → Entries → Option Entries
  | [], origin, entries => change origin entries
  | key :: path, _, entries =>
    match entries.lookup key with
    | none => do
      let origin := if dotted then .dotted else .implied
      let child ← Entries.update dotted change path origin []
      return entries ++ [(key, .table origin child)]
    | some (.table origin child) =>
      if origin = .inline ∨ (dotted ∧ origin = .header) then none
      else do
        let origin := if dotted then .dotted else origin
        let child ← Entries.update dotted change path origin child
        return entries.replace key (.table origin child)
    | some (.array true items) =>
      match items.getLast? with
      | some (.table origin child) => do
        let child ← Entries.update dotted change path origin child
        return entries.replace key (.array true (items.dropLast ++ [.table origin child]))
      | _ => none
    | some _ => none

/-- Give a value to a key, which must be new. A dotted key adds only to tables that dotted keys have
made, so not to the last table of a headed array itself. -/
def Entries.assign (path : List String) (key : String) (value : Value) (entries : Entries) :
    Option Entries :=
  Entries.update true (fun origin entries =>
    if path ≠ [] ∧ origin ≠ .dotted then none
    else if (entries.lookup key).isSome then none
    else some (entries ++ [(key, value)])) path .header entries

/-- Open a table by a header. Only a table that the headers of its subtables have made may be there
before. -/
def Entries.openTable (key : String) (entries : Entries) : Option Entries :=
  match entries.lookup key with
  | none => some (entries ++ [(key, .table .header [])])
  | some (.table .implied child) => some (entries.replace key (.table .header child))
  | some _ => none

/-- Open the next table of a headed array. -/
def Entries.openItem (key : String) (entries : Entries) : Option Entries :=
  match entries.lookup key with
  | none => some (entries ++ [(key, .array true [.table .header []])])
  | some (.array true items) =>
    some (entries.replace key (.array true (items ++ [.table .header []])))
  | some _ => none

/-! ### Values that nobody asks for -/

/-- Whether an integer fits into 128 bits, with or without a sign. -/
def fits128 (value : Int) : Bool :=
  -0x80000000000000000000000000000000 ≤ value && value < 0x100000000000000000000000000000000

mutual

/-- Whether every number in a value can be held: an integer in 128 bits, a float in a double. -/
def Value.isSound : Value → Bool
  | .integer value => value.any fits128
  | .float size => !size.any Decimal.overflows
  | .array _ items => Value.areSound items
  | .table _ entries => Value.entriesSound entries
  | .text _ | .boolean _ | .moment _ => true

def Value.areSound : List Value → Bool
  | [] => true
  | item :: items => item.isSound && Value.areSound items

def Value.entriesSound : List (String × Value) → Bool
  | [] => true
  | (_, value) :: entries => value.isSound && Value.entriesSound entries

end

end ComTypes.Toml

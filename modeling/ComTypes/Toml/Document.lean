import ComTypes.Toml.Lexis

/-!
# TOML documents

A document is a sequence of headers and assignments, which build up one table.
-/

namespace ComTypes.Toml

/-! ### Keys -/

/-- A character of a key without quotes. -/
def isBareChar (c : Char) : Bool := c.isAlphanum || c = '_' || c = '-'

def keyPart : Rest → Option (String × Rest)
  | c :: rest =>
    if c = '"' ∨ c = '\'' then
      (lineString c (rest.length + 1) rest).map fun (chars, rest) => (String.ofList chars, rest)
    else if isBareChar c then
      some (String.ofList ((c :: rest).takeWhile isBareChar), (c :: rest).dropWhile isBareChar)
    else none
  | [] => none

/-- The parts of a key, of which there are at most `parts`, with dots between them. -/
def keyParts : (parts : Nat) → Rest → Option (List String × Rest)
  | 0, _ => none
  | parts + 1, rest => do
    let (part, rest) ← keyPart rest
    match skipSpace rest with
    | '.' :: rest =>
      let (later, rest) ← keyParts parts (skipSpace rest)
      return (part :: later, rest)
    | rest => return ([part], rest)

def maxKeyParts : Nat := 80

/-- A key with at least one part: the parts before the last, the last part, and what follows. -/
def key (rest : Rest) : Option (List String × String × Rest) := do
  let (parts, rest) ← keyParts maxKeyParts rest
  let last ← parts.getLast?
  return (parts.dropLast, last, rest)

/-! ### Values -/

def maxDepth : Nat := 80

abbrev Assignment := List String × String × Value

def inlineTable (assignments : List Assignment) : Option Value :=
  (assignments.foldlM (fun entries (path, key, value) => Entries.assign path key value entries)
    []).map (.table .inline)

mutual

/-- A value, found in at most `steps` steps and at most `depth` levels deep. -/
def value : (steps depth : Nat) → Rest → Option (Value × Rest)
  | 0, _, _ => none
  | steps + 1, depth, rest =>
    match rest with
    | '"' :: rest => (quotedString '"' rest).map fun (text, rest) => (.text text, rest)
    | '\'' :: rest => (quotedString '\'' rest).map fun (text, rest) => (.text text, rest)
    | '[' :: rest =>
      match depth with
      | 0 => none
      | depth + 1 => do
        let (items, rest) ← arrayItems steps depth (skipBlank rest)
        return (.array false items, rest)
    | '\x7b' :: rest =>
      match depth with
      | 0 => none
      | depth + 1 => do
        let (assignments, rest) ← tableItems steps depth (skipBlank rest)
        return (← inlineTable assignments, rest)
    | rest => do
      let token := scalarToken rest
      return (← scalarOf token, rest.drop token.length)

/-- The items of an array, from behind its bracket or a comma. -/
def arrayItems : (steps depth : Nat) → Rest → Option (List Value × Rest)
  | 0, _, _ => none
  | _ + 1, _, ']' :: rest => some ([], rest)
  | steps + 1, depth, rest => do
    let (first, rest) ← value steps depth rest
    match skipBlank rest with
    | ',' :: rest =>
      let (later, rest) ← arrayItems steps depth (skipBlank rest)
      return (first :: later, rest)
    | ']' :: rest => return ([first], rest)
    | _ => none

/-- The assignments of a table in braces, from behind its brace or a comma. Lines may end between
all of its parts but those of a key. -/
def tableItems : (steps depth : Nat) → Rest → Option (List Assignment × Rest)
  | 0, _, _ => none
  | _ + 1, _, '\x7d' :: rest => some ([], rest)
  | steps + 1, depth, rest => do
    let (path, last, rest) ← key rest
    let rest ← expect? '=' (skipBlank rest)
    let (first, rest) ← value steps depth (skipBlank rest)
    match skipBlank rest with
    | ',' :: rest =>
      let (later, rest) ← tableItems steps depth (skipBlank rest)
      return ((path, last, first) :: later, rest)
    | '\x7d' :: rest => return ([(path, last, first)], rest)
    | _ => none

end

/-! ### Statements -/

/-- A line of a document that says something. -/
inductive Statement where
  | header (path : List String) (key : String)
  | itemHeader (path : List String) (key : String)
  | assignment (path : List String) (key : String) (value : Value)

def statement : Rest → Option (Statement × Rest)
  | '[' :: '[' :: rest => do
    let (path, last, rest) ← key (skipSpace rest)
    let rest ← expect? ']' (← expect? ']' (skipSpace rest))
    return (.itemHeader path last, rest)
  | '[' :: rest => do
    let (path, last, rest) ← key (skipSpace rest)
    return (.header path last, ← expect? ']' (skipSpace rest))
  | rest => do
    let (path, last, rest) ← key rest
    let rest := skipSpace (← expect? '=' (skipSpace rest))
    let (value, rest) ← value (2 * rest.length + 2) maxDepth rest
    return (.assignment path last value, rest)

/-- The statements of a document of at most `lines` lines. -/
def statements : (lines : Nat) → Rest → Option (List Statement)
  | 0, _ => none
  | _ + 1, [] => some []
  | lines + 1, rest =>
    match endLine rest with
    | some rest => statements lines rest
    | none => do
      let (first, rest) ← statement (skipSpace rest)
      return first :: (← statements lines (← endLine rest))

/-- What has been read of a document: its table, and where the last header points. -/
structure Progress where
  root : Entries := []
  current : List String := []

def Progress.within (progress : Progress) (path : List String)
    (change : Entries → Option Entries) : Option Entries :=
  Entries.update false (fun _ entries => change entries) path .header progress.root

def Progress.take (progress : Progress) : Statement → Option Progress
  | .header path key => do
    return ⟨← progress.within path (Entries.openTable key), path ++ [key]⟩
  | .itemHeader path key => do
    return ⟨← progress.within path (Entries.openItem key), path ++ [key]⟩
  | .assignment path key value => do
    return { progress with
      root := ← progress.within progress.current (Entries.assign path key value) }

/-- The table that a document describes. A byte order mark in front is ignored. -/
def parse (document : String) : Option Value := do
  let rest :=
    match document.toList with
    | '\uFEFF' :: rest => rest
    | rest => rest
  let progress ← (← statements (rest.length + 1) rest).foldlM Progress.take {}
  return .table .header progress.root

end ComTypes.Toml

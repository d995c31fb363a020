import ComTypes.Text.Hex
import ComTypes.Toml.Blank
import ComTypes.Toml.Value

/-!
# TOML: strings and scalars

Values that do not nest. Each function takes what follows in the document and returns what it
recognised with the rest, or nothing if the document is malformed.
-/

namespace ComTypes.Toml

/-! ### Strings -/

/-- The character with the code that `width` digits give. -/
def codePoint (width : Nat) (rest : Rest) : Option (Char × Rest) := do
  let digits ← (rest.take width).mapM Hex.value?
  let code := digits.foldl (fun n d => n * 16 + d) 0
  if digits.length = width ∧ code.isValidChar then
    return (Char.ofNat code, rest.drop width)
  else none

/-- The character of an escape, from behind the backslash. -/
def escaped : Rest → Option (Char × Rest)
  | 'b' :: rest => some ('\x08', rest)
  | 't' :: rest => some ('\t', rest)
  | 'n' :: rest => some ('\n', rest)
  | 'f' :: rest => some ('\x0c', rest)
  | 'r' :: rest => some ('\r', rest)
  | 'e' :: rest => some ('\x1b', rest)
  | '"' :: rest => some ('"', rest)
  | '\\' :: rest => some ('\\', rest)
  | 'x' :: rest => codePoint 2 rest
  | 'u' :: rest => codePoint 4 rest
  | 'U' :: rest => codePoint 8 rest
  | _ => none

/-- The contents of a string on one line, from behind the opening quote. Escapes count only in
basic strings, which `"` encloses. At most `chars` characters are taken. -/
def lineString (quote : Char) : (chars : Nat) → Rest → Option (List Char × Rest)
  | 0, _ => none
  | _ + 1, [] => none
  | chars + 1, c :: rest =>
    if c = quote then some ([], rest)
    else if c = '\\' ∧ quote = '"' then do
      let (c, rest) ← escaped rest
      let (cs, rest) ← lineString quote chars rest
      return (c :: cs, rest)
    else if isControl c then none
    else do
      let (cs, rest) ← lineString quote chars rest
      return (c :: cs, rest)

/-- The contents of a string over several lines, from behind the opening quotes and the line end
that may follow them. Three quotes close it; up to two more in front of them belong to the contents.
In basic strings a backslash at the end of a line takes the blanks and line ends behind it away. -/
def blockString (quote : Char) : (chars : Nat) → Rest → Option (List Char × Rest)
  | 0, _ => none
  | _ + 1, [] => none
  | chars + 1, c :: rest =>
    let run := (c :: rest).takeWhile (· = quote)
    if run.length ≥ 3 then
      if run.length ≤ 5 then some (run.drop 3, (c :: rest).drop run.length) else none
    else if c = '\\' ∧ quote = '"' then
      match newline? (skipSpace rest) with
      | some rest => blockString quote chars (skipBlankLines (rest.length + 1) rest)
      | none => do
        let (c, rest) ← escaped rest
        let (cs, rest) ← blockString quote chars rest
        return (c :: cs, rest)
    else
      match newline? (c :: rest) with
      | some after => do
        let (cs, rest) ← blockString quote chars after
        return ((c :: rest).take ((c :: rest).length - after.length) ++ cs, rest)
      | none =>
        if isControl c then none
        else do
          let (cs, rest) ← blockString quote chars rest
          return (c :: cs, rest)
where
  /-- The rest behind blanks and line ends. -/
  skipBlankLines : Nat → Rest → Rest
    | 0, rest => rest
    | lines + 1, rest =>
      match newline? (skipSpace rest) with
      | some rest => skipBlankLines lines rest
      | none => skipSpace rest

/-- A string of either form whose opening quote stands in front of `rest`. -/
def quotedString (quote : Char) (rest : Rest) : Option (String × Rest) := do
  let (chars, rest) ←
    match rest with
    | a :: b :: body =>
      if a = quote ∧ b = quote then
        let body := (newline? body).getD body
        blockString quote (body.length + 1) body
      else lineString quote (rest.length + 1) rest
    | rest => lineString quote (rest.length + 1) rest
  return (String.ofList chars, rest)

/-! ### Scalars -/

/-- A character that a scalar without quotes may hold as far as cutting it out is concerned. -/
def isScalarChar (c : Char) : Bool :=
  !(isSpace c || c = '\r' || c = '\n' || c = '#' || c = '=' || c = ',' || c = '[' || c = ']' ||
    c = '\x7b' || c = '\x7d')

/-- Whether a scalar that is no string could begin here. -/
def scalarBegins : Rest → Bool
  | c :: _ => isScalarChar c && c ≠ '"' && c ≠ '\''
  | [] => false

/-- The characters of a scalar that is no string. Blanks belong to it if it goes on behind them, as
between a date and a time. -/
def scalarToken : Rest → List Char
  | [] => []
  | c :: rest =>
    if isScalarChar c || (isSpace c && scalarBegins (skipSpace rest)) then c :: scalarToken rest
    else []

/-- The value of a scalar that is no string. -/
def scalarOf (token : List Char) : Option Value :=
  if token = "true".toList then some (.boolean true)
  else if token = "false".toList then some (.boolean false)
  else (integer? token).map .integer
    <|> (float? token).map .float
    <|> (moment? token).map .moment

end ComTypes.Toml

import ComTypes.Text.Hex

/-!
# Writing TOML strings

Of the four forms of a string, the first that holds the text without an escape is taken; a text that
none holds is written in a basic form with escapes. A tab is escaped in basic forms all the same.
-/

namespace ComTypes.Toml

/-- A control character that only an escape can stand for. -/
def needsEscape (c : Char) : Bool := (c.toNat < 0x20 || c = '\x7f') && c ≠ '\t' && c ≠ '\n'

/-- Whether a text holds more than two of a quote in a row. -/
def hasLongRun (quote : Char) : List Char → Bool
  | a :: b :: c :: rest => (a = quote && b = quote && c = quote) || hasLongRun quote (b :: c :: rest)
  | _ => false

/-- The contents of a basic string. Over several lines, line ends stand for themselves and only the
third quote in a row is escaped; `run` counts the quotes in front, back to the last escape. -/
def basicContents (block : Bool) : (run : Nat) → List Char → List Char
  | _, [] => []
  | run, c :: rest =>
    if c = '"' then
      if block ∧ run < 2 then c :: basicContents block (run + 1) rest
      else '\\' :: '"' :: basicContents block 0 rest
    else
      let written :=
        if c = '\\' then ['\\', '\\']
        else if c = '\x08' then ['\\', 'b']
        else if c = '\t' then ['\\', 't']
        else if c = '\x0c' then ['\\', 'f']
        else if c = '\r' then ['\\', 'r']
        else if c = '\n' then if block then ['\n'] else ['\\', 'n']
        else if needsEscape c then '\\' :: 'u' :: Hex.upper (Hex.padded 4 c.toNat)
        else [c]
      written ++ basicContents block 0 rest

/-- Contents between quotes; over several lines they start on a line of their own. -/
def enclosed (quote : String) (ownLine : Bool) (contents : List Char) : String :=
  quote ++ (if ownLine then "\n" else "") ++ String.ofList contents ++ quote

def quote (text : String) : String :=
  let chars := text.toList
  let multi := chars.contains '\n'
  let plain := !chars.any needsEscape
  if plain && !multi && !chars.contains '\\' && !chars.contains '"' then
    enclosed "\"" false (basicContents false 0 chars)
  else if plain && !multi && !chars.contains '\'' then
    enclosed "'" false chars
  else if plain && !chars.contains '\\' && !hasLongRun '"' chars then
    enclosed "\"\"\"" multi (basicContents true 0 chars)
  else if plain && !hasLongRun '\'' chars then
    enclosed "'''" multi chars
  else if multi then enclosed "\"\"\"" true (basicContents true 0 chars)
  else enclosed "\"" false (basicContents false 0 chars)

end ComTypes.Toml

/-!
# String literals

The contents of a double-quoted literal: nine characters are written as a backslash and a letter,
all others as themselves. `unescape?` reads such contents back.
-/

namespace ComTypes.Text

/-- The characters that are escaped, each with the letter that stands after the backslash. -/
def escapes : List (Char × Char) :=
  [('\\', '\\'), ('"', '"'), ('\r', 'r'), ('\n', 'n'), ('\t', 't'), ('\x0c', 'f'), ('\x0b', 'v'),
    ('\x08', 'b'), ('\x00', '0')]

def escapeChar (c : Char) : List Char :=
  match escapes.lookup c with
  | some letter => ['\\', letter]
  | none => [c]

/-- A text as it stands between the quotes of a literal. -/
def escape (text : String) : String := String.ofList (text.toList.flatMap escapeChar)

/-- The character that a letter after a backslash stands for. -/
def escapedBy? (letter : Char) : Option Char := (escapes.find? (·.2 = letter)).map (·.1)

/-- The characters that the contents of a literal stand for. A bare quote, a backslash at the end and
a backslash before any other letter are refused. -/
def unescape? : List Char → Option (List Char)
  | [] => some []
  | [c] => if c = '\\' ∨ c = '"' then none else some [c]
  | c :: d :: rest =>
    if c = '\\' then do
      return (← escapedBy? d) :: (← unescape? rest)
    else if c = '"' then none
    else (c :: ·) <$> unescape? (d :: rest)

end ComTypes.Text

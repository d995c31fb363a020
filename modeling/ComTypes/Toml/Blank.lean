/-!
# TOML: blanks, comments and line ends

What separates the parts of a document. Each function takes what follows in the document and returns
the rest behind what it passed.
-/

namespace ComTypes.Toml

abbrev Rest := List Char

/-- The rest behind a given character. -/
def expect? (c : Char) : Rest → Option Rest
  | d :: rest => if d = c then some rest else none
  | [] => none

/-! ### Blanks, comments and line ends -/

def isSpace (c : Char) : Bool := c = ' ' || c = '\t'

/-- A control character other than tab, which may stand nowhere but at a line end. -/
def isControl (c : Char) : Bool := (c.toNat < 0x20 || c = '\x7f') && c ≠ '\t'

/-- The rest behind spaces and tabs. -/
def skipSpace (rest : Rest) : Rest := rest.dropWhile isSpace

/-- The rest behind a line end, LF or CRLF. -/
def newline? : Rest → Option Rest
  | '\n' :: rest => some rest
  | '\r' :: '\n' :: rest => some rest
  | _ => none

/-- The rest behind a comment, if one starts here. -/
def skipComment : Rest → Rest
  | '#' :: rest => rest.dropWhile (!isControl ·)
  | rest => rest

/-- The rest behind blanks, a comment and the line end; the document may end here instead. -/
def endLine (rest : Rest) : Option Rest :=
  match skipComment (skipSpace rest) with
  | [] => some []
  | rest => newline? rest

/-- The rest behind any number of blanks, comments and line ends, of at most `lines` lines. -/
def skipLines : (lines : Nat) → Rest → Rest
  | 0, rest => rest
  | lines + 1, rest =>
    let rest := skipComment (skipSpace rest)
    match newline? rest with
    | some rest => skipLines lines rest
    | none => rest

/-- The rest behind any number of blanks, comments and line ends. -/
def skipBlank (rest : Rest) : Rest := skipLines (rest.length + 1) rest

end ComTypes.Toml

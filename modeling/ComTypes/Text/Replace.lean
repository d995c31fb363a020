/-!
# Replacing a pair of characters

Every occurrence of two given characters in a row gives way to a text. Occurrences are found from
left to right and do not overlap; what has been put in is not searched again.
-/

namespace ComTypes.Text

/-- `text` with each `a` directly followed by `b` replaced by `new`. -/
def replacePair (a b : Char) (new : List Char) : List Char → List Char
  | [] => []
  | [c] => [c]
  | c :: d :: rest =>
    if c = a ∧ d = b then new ++ replacePair a b new rest
    else c :: replacePair a b new (d :: rest)

/-- `text` with every `*/` broken up, so that it can stand inside a block comment. -/
def commentSafe (text : String) : String :=
  String.ofList (replacePair '*' '/' ['*', ' ', '/'] text.toList)

end ComTypes.Text

/-!
# Source lines

Rendered source is a list of lines, each with its depth of indentation. An empty line carries no
indentation.
-/

namespace ComTypes

structure Line where
  depth : Nat := 0
  text : String
deriving DecidableEq, Repr

namespace Line

def indentWidth : Nat := 4

def blank : Line := { text := "" }

def indentBy (levels : Nat) (line : Line) : Line := { line with depth := line.depth + levels }

/-- The line as written, with its end. -/
def render (line : Line) : String :=
  if line.text = "" then "\n"
  else String.ofList (List.replicate (line.depth * indentWidth) ' ') ++ line.text ++ "\n"

end Line

def sourceText (lines : List Line) : String := String.join (lines.map Line.render)

end ComTypes

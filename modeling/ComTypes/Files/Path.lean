/-!
# Paths

Slash-separated paths as texts. Nothing is normalised: joining puts texts together, and the parent
of a path is the text up to its last but one component. A component is a segment that is not empty
and, unless it comes first, not a single dot.
-/

namespace ComTypes.Path

def segments (path : String) : List String := split path.toList
where
  /-- Cut at every slash. -/
  split (chars : List Char) : List String := (cut chars).map String.ofList
  /-- The characters of each segment. -/
  cut : List Char → List (List Char)
    | [] => [[]]
    | c :: rest =>
      if c = '/' then [] :: cut rest
      else match cut rest with
        | [] => [[c]]
        | segment :: later => (c :: segment) :: later

def isAbsolute (path : String) : Bool := path.toList.head? = some '/'

/-- A path seen from a base. An absolute path stands for itself, and an empty base adds nothing. -/
def join (base path : String) : String :=
  if isAbsolute path ∨ base = "" then path
  else if base.toList.getLast? = some '/' then base ++ path
  else base ++ "/" ++ path

def componentPlaces (segments : List String) : List Nat :=
  (segments.zipIdx.filter fun (segment, i) => segment ≠ "" ∧ (segment ≠ "." ∨ i = 0)).map (·.2)

/-- The path without its last component; a path without components has no parent. -/
def parent? (path : String) : Option String :=
  let segments := segments path
  match (componentPlaces segments).reverse with
  | [] => none
  | [_] => some (if isAbsolute path then "/" else "")
  | _ :: place :: _ => some ("/".intercalate (segments.take (place + 1)))

/-- The directory that a file's relative paths are seen from: its parent, or else the current
directory. -/
def directory (path : String) : String := (parent? path).getD "."

end ComTypes.Path

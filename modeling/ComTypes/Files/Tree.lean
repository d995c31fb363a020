import ComTypes.Files.Path
import ComTypes.Text.Utf8
import ComTypes.Wire.Cursor

/-!
# Files

What reading and writing files can yield, and a directory tree held in memory that behaves like one
on disk. A tree lists its files by the names on the way to them; a directory exists if a file lies
below it. Paths are seen from the top of the tree. The directories above the top exist, and nothing
else is known of them.
-/

namespace ComTypes

inductive FileError where
  | notFound
  | notDirectory
  | isDirectory
  | nameTooLong
  | zeroInName
  | invalidText
  | other (text : String)
deriving DecidableEq, Repr

def FileError.message : FileError → String
  | notFound => "No such file or directory (os error 2)"
  | notDirectory => "Not a directory (os error 20)"
  | isDirectory => "Is a directory (os error 21)"
  | nameTooLong => "File name too long (os error 36)"
  | zeroInName => "file name contained an unexpected NUL byte"
  | invalidText => "stream did not contain valid UTF-8"
  | other text => text

abbrev FileView := String → Except FileError Bytes

/-- The text of a file, which must be valid UTF-8. -/
def FileView.text (view : FileView) (path : String) : Except FileError String := do
  match Utf8.decode? (← view path) with
  | some text => return text
  | none => throw .invalidText

/-- Files below a directory, by the names on the way to them. -/
structure FileTree where
  files : List (List String × Bytes) := []

namespace FileTree

inductive Entry where
  | file (contents : Bytes)
  | directory
  | nothing
deriving DecidableEq, Repr

/-- Whether a place is the top of the tree or above it. -/
def isTop (names : List String) : Bool := names.all (· = "..")

def entryAt (tree : FileTree) (names : List String) : Entry :=
  match tree.files.find? (·.1 = names) with
  | some (_, contents) => .file contents
  | none => if isTop names ∨ tree.files.any (names.isPrefixOf ·.1) then .directory else .nothing

def nameLimit : Nat := 255

/-- The number of bytes that a path stays below. -/
def pathLimit : Nat := 4096

/-- Follow segments from a place of the tree. A name is only looked up in a directory; the last
place need not exist. -/
def follow (tree : FileTree) : (place segments : List String) → Except FileError (List String)
  | place, [] => .ok place
  | place, segment :: rest =>
    match tree.entryAt place with
    | .nothing => .error .notFound
    | .file _ => .error .notDirectory
    | .directory =>
      if segment = "" ∨ segment = "." then tree.follow place rest
      else if segment = ".." then
        tree.follow (if isTop place then place ++ [".."] else place.dropLast) rest
      else if nameLimit < Utf8.size segment then .error .nameTooLong
      else tree.follow (place ++ [segment]) rest

/-- The place that the segments of a path lead to. What lies outside the tree does not exist. -/
def locate (tree : FileTree) (path : String) (segments : List String) :
    Except FileError (List String) :=
  if path.toList.contains (Char.ofNat 0) then .error .zeroInName
  else if pathLimit ≤ Utf8.size path then .error .nameTooLong
  else if path = "" ∨ Path.isAbsolute path then .error .notFound
  else tree.follow [] segments

def read (tree : FileTree) : FileView := fun path => do
  match tree.entryAt (← tree.locate path (Path.segments path)) with
  | .file contents => return contents
  | .directory => throw .isDirectory
  | .nothing => throw .notFound

/-- The tree with a file written, new or in place of an older one. Directories are not made. A path
that ends in a slash names a directory, so its last name is not looked up; the directory that would
hold it must exist. -/
def write (tree : FileTree) (path : String) (contents : Bytes) : Except FileError FileTree := do
  let segments := Path.segments path
  let named := (segments.reverse.dropWhile (· = "")).reverse
  if named.length < segments.length then
    let _ ← tree.locate path (named.dropLast ++ [""])
    throw .isDirectory
  else
    let place ← tree.locate path named
    if tree.entryAt place = .directory then throw .isDirectory
    else return ⟨tree.files.filter (·.1 ≠ place) ++ [(place, contents)]⟩

end FileTree

end ComTypes

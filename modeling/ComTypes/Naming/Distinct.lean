/-!
# Distinct names

A name that is taken gets a number behind an underscore, the least from some start that makes it
free. Among one more candidates than there are taken names, one is always free.
-/

namespace ComTypes.Naming

def numbered (base : String) (k : Nat) : String := s!"{base}_{k}"

/-- `base` if it is not taken, else the first free one of `base_start`, `base_(start+1)`, … -/
def fresh (taken : List String) (base : String) (start : Nat) : String :=
  if base ∈ taken then
    match (List.range (taken.length + 1)).find? (fun k => numbered base (start + k) ∉ taken) with
    | some k => numbered base (start + k)
    | none => base
  else base

/-- Names made distinct from left to right: an empty name becomes `fallback i`, and a repeated one
is numbered from its own position `i` on. -/
def disambiguate (fallback : Nat → String) (names : List String) : List String :=
  go 0 [] names
where
  /-- The names from position `i` on, with those given out before, the latest first. -/
  go (i : Nat) (taken : List String) : List String → List String
    | [] => []
    | name :: rest =>
      let unique := fresh taken (if name = "" then fallback i else name) i
      unique :: go (i + 1) (unique :: taken) rest

end ComTypes.Naming

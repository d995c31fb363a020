import ComTypes.Fault

/-!
# Lists read as far as possible

A list of entries whose reading may break off. The entries before the break are kept, so that they
can be worked on before the fault is raised.
-/

namespace ComTypes

/-- A list that was read as far as possible, with the fault that ended it if one did. -/
structure Listing (α : Type) where
  items : List α
  fault : Option Fault
deriving DecidableEq, Repr

namespace Listing

variable {α : Type}

/-- A list that ended as it should, without items so far. -/
def done : Listing α := ⟨[], none⟩

/-- A list that a fault cut off, without items so far. -/
def failed (fault : Fault) : Listing α := ⟨[], some fault⟩

def cons (item : α) (listing : Listing α) : Listing α := ⟨item :: listing.items, listing.fault⟩

end Listing

end ComTypes

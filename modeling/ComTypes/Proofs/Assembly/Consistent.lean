import ComTypes.Proofs.Assembly.Run

/-!
# The graph of every run is consistent

Whatever calls an assembler takes and however they end, its graph is closed under the types its nodes
name, its index of GUIDs says what the nodes say, identities are unique, and structural types are
interned and made from earlier nodes (`reachable_consistent`). Callers who hand in a body for a type
defined elsewhere have to name existing nodes in it, and a structural body that they hand in is a node
of its own.
-/

namespace ComTypes

/-- A run that hands in the same structure twice, and then a type definition for it. -/
def handingRun : Assembler :=
  Call.run (Call.run (Call.run {}
    (.external (.ofBytes [1]) "First" (.structural (.primitive .i4))))
    (.external (.ofBytes [2]) "Second" (.structural (.primitive .i4))))
    (.external (.ofBytes [3]) "Alias" (.typedef (some 0)))

end ComTypes

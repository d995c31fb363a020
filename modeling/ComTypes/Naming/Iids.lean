import ComTypes.Guid
import ComTypes.Table

/-!
# Names of interfaces

Known interface names by IID. Whoever renders owns them; an entry goes stale when a decode reports
a new definition for its IID.
-/

namespace ComTypes

abbrev IidNames := Table Guid String

namespace IidNames

/-- The GUID whose first field is `data` and whose other fields are those of the core interfaces. -/
def coreIid (data : UInt32) : Guid :=
  Guid.ofBytes ((List.range 4).map (fun i => UInt8.ofNat (data.toNat >>> (8 * i))) ++
    [0, 0, 0, 0, 0xC0, 0, 0, 0, 0, 0, 0, 0x46])

def core : List (Guid × String) :=
  [(coreIid 0, "IUnknown"), (coreIid 1, "IClassFactory"), (coreIid 3, "IMarshal"),
    (coreIid 0x00020400, "IDispatch")]

def wellKnown : IidNames := core.foldl (fun names (iid, name) => names.insert iid name) .empty

/-- The names without those of the given IIDs. -/
def invalidate (names : IidNames) (iids : List Guid) : IidNames := iids.foldl Table.erase names

end IidNames

end ComTypes

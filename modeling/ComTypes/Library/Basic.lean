import ComTypes.Dict
import ComTypes.Documentation
import ComTypes.TypeKind
import ComTypes.Wire.Cursor

/-!
# Type libraries

A type library as an image holds it: for each type info the raw attribute, function and variable
records, and beside them everything that is looked up by number (names, documentation, referenced
types, custom data). The raw records are decoded when types are assembled.
-/

namespace ComTypes

/-- A name in a type info: of the member itself (ordinal 0) or of its `i`th parameter
(ordinal `i + 1`). -/
structure NameKey where
  member : Int32
  ordinal : Nat
deriving DecidableEq, Repr

namespace NameKey

/-- By member id, then by ordinal. -/
instance : Ord NameKey := ⟨compareLex (compareOn member) (compareOn ordinal)⟩

instance : Std.TransOrd NameKey :=
  inferInstanceAs (Std.TransCmp (compareLex (compareOn member) (compareOn ordinal)))

instance : Std.LawfulEqOrd NameKey where
  compare_self {a} := by
    have member : compare a.member a.member = .eq := Std.ReflCmp.compare_self
    have ordinal : compare a.ordinal a.ordinal = .eq := Std.ReflCmp.compare_self
    show (compare a.member a.member).then (compare a.ordinal a.ordinal) = .eq
    rw [member, ordinal]
    rfl
  eq_of_compare {a b} h := by
    have parts : compare a.member b.member = .eq ∧ compare a.ordinal b.ordinal = .eq :=
      Ordering.then_eq_eq.mp h
    have member : a.member = b.member := Std.LawfulEqCmp.eq_of_compare parts.1
    have ordinal : a.ordinal = b.ordinal := Std.LawfulEqCmp.eq_of_compare parts.2
    cases a
    cases b
    exact congr (congrArg mk member) ordinal

end NameKey

/-- Knowledge of member and parameter names that the records themselves do not hold. -/
abbrev NameLookup := Int32 → Nat → Option String

def NameLookup.none : NameLookup := fun _ _ => Option.none

def NameLookup.ofDict (names : Dict NameKey String) : NameLookup :=
  fun member ordinal => names.get? ⟨member, ordinal⟩

inductive TypeReference where
  /-- Another type info of the same library, by position. -/
  | within (index : UInt32)
  /-- A type that another library defines. -/
  | external (guid : Guid) (name : String) (kind : TypeKind)
deriving DecidableEq, Repr

inductive CustomTarget where
  | type
  | func (index : Nat)
  | param (func index : Nat)
  | var (index : Nat)
deriving DecidableEq, Repr

structure ImplType where
  href : UInt32
  flags : UInt16
deriving DecidableEq, Repr

/-- One type info of a library. Its position in the library is its index. -/
structure TypeInfo where
  documentation : Documentation
  /-- The attribute record. -/
  attr : Bytes
  /-- The function records, in order. -/
  funcs : List Bytes
  /-- The variable records, in order. -/
  vars : List Bytes
  implTypes : List ImplType
  references : Dict UInt32 TypeReference
  names : Dict NameKey String
  memberDocs : Dict Int32 Documentation
  customData : List (CustomTarget × CustomItem)
deriving DecidableEq

namespace TypeInfo

def name (info : TypeInfo) : String := info.documentation.name

def lookup (info : TypeInfo) : NameLookup := NameLookup.ofDict info.names

def customDataFor (info : TypeInfo) (target : CustomTarget) : List CustomItem :=
  (info.customData.filter (·.1 = target)).map (·.2)

def memberDoc (info : TypeInfo) (member : Int32) : Documentation :=
  (info.memberDocs.get? member).getD {}

end TypeInfo

structure Library where
  libid : Guid
  version : UInt16 × UInt16
  name : String
  docString : String
  types : List TypeInfo
deriving DecidableEq

end ComTypes

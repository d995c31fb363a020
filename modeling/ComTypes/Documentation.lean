import ComTypes.Guid

/-!
# Documentation and custom data

What can be attached to a type or a member besides its definition: a name with help texts, and
vendor attributes keyed by GUID.
-/

namespace ComTypes

structure Documentation where
  name : String := ""
  docString : String := ""
  helpContext : UInt32 := 0
  helpFile : String := ""
deriving DecidableEq, Repr, Inhabited

inductive CustomValue where
  | int (value : Int64)
  | text (value : String)
deriving DecidableEq, Repr

structure CustomItem where
  guid : Guid
  value : CustomValue
deriving DecidableEq, Repr

end ComTypes

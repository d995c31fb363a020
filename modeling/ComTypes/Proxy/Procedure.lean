import ComTypes.Proxy.TypeForm

/-!
# Procedures of a procedure format string

What stands at one offset of a procedure format string: the number of the procedure and its
parameters, as far as they can be read. Types that the parameters refer to are not followed here.
-/

namespace ComTypes

inductive ParamType where
  /-- A built-in type, passed by value or through a simple reference. -/
  | base (primitive : Primitive) (byReference : Bool)
  /-- A type described in the type format string. -/
  | described (offset : Nat)
deriving DecidableEq, Repr

structure ParamEntry where
  type : ParamType
  isIn : Bool
  isOut : Bool
  isReturn : Bool
deriving DecidableEq, Repr

structure Procedure where
  number : UInt16
  entries : Listing ParamEntry
deriving DecidableEq, Repr

namespace Procedure

/-- The flags that every supported procedure carries: it belongs to an object and is interpreted. -/
def requiredFlags : UInt8 := 0x42

def hasCallFlags : UInt8 := 0x08

def hasExtensions : UInt8 := 0x40

/-- Offset that stands for a slot inherited from the base. -/
def inherited : UInt16 := 0xFFFF

def skipHandle : Read Unit := do
  let place ← Read.position
  let code ← Read.u8
  if code = FormatChar.bindPrimitive then Read.skip 3
  else if code = FormatChar.bindGeneric ∨ code = FormatChar.bindContext then Read.skip 5
  else throw (.unsupportedFormat place (.explicitHandle code))

/-- Pass over an extension block, whose size counts its own byte. -/
def skipExtensions : Read Unit := do
  let size ← Read.u8
  Read.skip (size.toNat - 1)

/-- One entry of the parameter list. A returned long integer is a result code. -/
def readEntry : Read ParamEntry := do
  let attributes ← Read.u16
  let _ ← Read.u16
  let isReturn := attributes &&& 0x0020 ≠ 0
  let entry := fun type =>
    ParamEntry.mk type (attributes &&& 0x0008 ≠ 0) (attributes &&& 0x0010 ≠ 0) isReturn
  if attributes &&& 0x0040 ≠ 0 then
    let place ← Read.position
    let code ← Read.u8
    let _ ← Read.u8
    if isReturn ∧ code = FormatChar.long then
      return entry (.base .hresult false)
    else match FormatChar.base? code with
      | some primitive => return entry (.base primitive (attributes &&& 0x0100 ≠ 0))
      | none => throw (.unsupportedFormat place (.baseType code))
  else
    return entry (.described (← Read.u16).toNat)

/-- A number of entries, as far as they can be read. -/
def entriesFrom : Nat → Cursor → Listing ParamEntry
  | 0, _ => .done
  | count + 1, c =>
    match readEntry c with
    | .error fault _ => .failed fault
    | .ok entry c => .cons entry (entriesFrom count c)

def read : Read Procedure := do
  let start ← Read.position
  let handle ← Read.u8
  let flags ← Read.u8
  if flags &&& requiredFlags ≠ requiredFlags then
    throw (.unsupportedFormat start (.oiFlags flags))
  if flags &&& hasCallFlags ≠ 0 then
    Read.skip 4
  let number ← Read.u16
  let _stackSize ← Read.u16
  if handle = 0 then
    skipHandle
  let _clientBuffer ← Read.u16
  let _serverBuffer ← Read.u16
  let options ← Read.u8
  let count ← Read.u8
  if options &&& hasExtensions ≠ 0 then
    skipExtensions
  return ⟨number, entriesFrom count.toNat (← get)⟩

def parse (format : Bytes) (offset : Nat) : Except Fault Procedure := do
  let c ← Cursor.locate format offset
  match read c with
  | .ok procedure _ => return procedure
  | .error fault _ => throw fault

end Procedure

end ComTypes

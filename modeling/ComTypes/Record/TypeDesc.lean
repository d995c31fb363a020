import ComTypes.Primitive
import ComTypes.Wire.Cursor
import ComTypes.Wire.Encode

/-!
# Type descriptors

A type descriptor is a VARTYPE code followed by what the code calls for: nothing for a built-in
type, an inner descriptor for pointers and arrays, a reference number for a user-defined type.
Descriptors nest at most `TypeDesc.maxDepth` levels deep.
-/

namespace ComTypes

structure ArrayDim where
  elements : UInt32
  lowerBound : Int32
deriving DecidableEq, Repr

inductive TypeDesc where
  | base (primitive : Primitive)
  | pointer (target : TypeDesc)
  | safeArray (element : TypeDesc)
  | fixedArray (dims : List ArrayDim) (element : TypeDesc)
  /-- A type named by the reference table of the type info. -/
  | userDefined (href : UInt32)
deriving DecidableEq, Repr

namespace TypeDesc

def pointerCode : UInt16 := 26

def safeArrayCode : UInt16 := 27

def fixedArrayCode : UInt16 := 28

def userDefinedCode : UInt16 := 29

/-- How many constructors may stand above a leaf. -/
def maxDepth : Nat := 64

def readDim : Read ArrayDim := do
  let elements ← Read.u32
  let lowerBound ← Read.i32
  return ⟨elements, lowerBound⟩

/-- A descriptor that may nest `levels - 1` levels deep. -/
def readNested : (levels : Nat) → Read TypeDesc
  | 0 => do
    Read.malformed (← Read.position) (.nestedTooDeep maxDepth)
  | levels + 1 => do
    let start ← Read.position
    let code ← Read.u16
    if code = pointerCode then
      return .pointer (← readNested levels)
    else if code = safeArrayCode then
      return .safeArray (← readNested levels)
    else if code = fixedArrayCode then
      let count ← Read.u16
      if count = 0 then
        Read.malformed start .zeroDimensions
      let dims ← Read.times readDim count.toNat
      return .fixedArray dims (← readNested levels)
    else if code = userDefinedCode then
      return .userDefined (← Read.u32)
    else match Primitive.ofCode? code with
      | some primitive => return .base primitive
      | none => throw (.unsupportedLayout (.vartype code))

def read : Read TypeDesc := readNested (maxDepth + 1)

def encodeDim (dim : ArrayDim) : Bytes := Encode.u32 dim.elements ++ Encode.i32 dim.lowerBound

/-- A descriptor in bytes. A built-in type without a VARTYPE has no encoding; it is written as
code zero, which no reader accepts. -/
def encode : TypeDesc → Bytes
  | base primitive => Encode.u16 (primitive.code?.getD 0)
  | pointer target => Encode.u16 pointerCode ++ target.encode
  | safeArray element => Encode.u16 safeArrayCode ++ element.encode
  | fixedArray dims element =>
    Encode.u16 fixedArrayCode ++ Encode.counted16 encodeDim dims ++ element.encode
  | userDefined href => Encode.u16 userDefinedCode ++ Encode.u32 href

end TypeDesc

/-- A type descriptor with the flags of the parameter or field it belongs to. -/
structure ElemDesc where
  type : TypeDesc
  flags : UInt16
deriving DecidableEq, Repr

namespace ElemDesc

def read : Read ElemDesc := do
  let type ← TypeDesc.read
  let flags ← Read.u16
  return ⟨type, flags⟩

def encode (elem : ElemDesc) : Bytes := elem.type.encode ++ Encode.u16 elem.flags

end ElemDesc

end ComTypes

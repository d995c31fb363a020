import ComTypes.Primitive

/-!
# Format characters

The one-byte codes of procedure and type format strings, and the base types among them with their
size in memory.
-/

namespace ComTypes.FormatChar

def referencePointer : UInt8 := 0x11
def fullPointer : UInt8 := 0x14
/-- Structure of base types and embedded types. -/
def struct : UInt8 := 0x15
/-- Structure with padding or pointers. -/
def bogusStruct : UInt8 := 0x1A
def fixedArray : UInt8 := 0x1D
def string : UInt8 := 0x22
def wideString : UInt8 := 0x25
def interfacePointer : UInt8 := 0x2F
def bindContext : UInt8 := 0x30
def bindGeneric : UInt8 := 0x31
def bindPrimitive : UInt8 := 0x32
/-- Pointer member of a structure. -/
def pointer : UInt8 := 0x36
/-- Type described elsewhere, embedded in a structure or array. -/
def embeddedComplex : UInt8 := 0x4C
/-- Interface pointer with its IID spelled out. -/
def constantIid : UInt8 := 0x5A
def structEnd : UInt8 := 0x5B
def long : UInt8 := 0x08

/-- Characters between the members of a structure that stand for no member: padding, alignment and
structure padding. -/
def isPadding (code : UInt8) : Bool :=
  code = 0x5C || (0x37 ≤ code && code ≤ 0x39) || (0x3D ≤ code && code ≤ 0x43)

def isPointer (code : UInt8) : Bool := referencePointer ≤ code && code ≤ fullPointer

/-- The base types: format character, type, and size in memory. -/
def baseTypes : List (UInt8 × Primitive × Nat) :=
  [(0x01, .byte, 1), (0x02, .char, 1), (0x03, .i1, 1), (0x04, .ui1, 1), (0x05, .wchar, 2),
    (0x06, .i2, 2), (0x07, .ui2, 2), (0x08, .i4, 4), (0x09, .ui4, 4), (0x0A, .r4, 4),
    (0x0B, .i8, 8), (0x0C, .r8, 8), (0x0D, .i2, 2), (0x0E, .i4, 4), (0x10, .errorStatus, 4),
    (0xB8, .intptr, 8), (0xB9, .uintptr, 8)]

def sizedBase? (code : UInt8) : Option (Primitive × Nat) := baseTypes.lookup code

def base? (code : UInt8) : Option Primitive := (sizedBase? code).map (·.1)

/-- The string type that a pointer to a string stands for. -/
def stringPointer? (code : UInt8) : Option Primitive :=
  if code = string then some .lpstr else if code = wideString then some .lpwstr else none

def pointerSize : Nat := 8

end ComTypes.FormatChar

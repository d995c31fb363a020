import ComTypes.Proxy.FormatChar
import ComTypes.Wire.Cursor
import ComTypes.Wire.Listing

/-!
# Type descriptions of a type format string

What stands at one offset of a type format string. A description refers to others by their offsets;
nothing is followed here, so reading one description is a function of the bytes alone.
-/

namespace ComTypes

inductive StructMember where
  | base (primitive : Primitive)
  /-- A type described at another offset. -/
  | described (offset : Nat)
deriving DecidableEq, Repr

inductive ArrayElement where
  | base (primitive : Primitive) (size : Nat)
  | described (offset : Nat)
deriving DecidableEq, Repr

inductive TypeForm where
  /-- A built-in type and its size in memory. -/
  | base (primitive : Primitive) (size : Nat)
  | interfacePointer (iid : Guid)
  /-- A pointer to a built-in type. -/
  | simplePointer (target : Primitive)
  /-- A pointer to a type described at another offset. -/
  | pointer (offset : Nat)
  /-- A structure: its size and its members, as far as they can be read. -/
  | struct (size : Nat) (members : Listing StructMember)
  /-- An array: its size, its element, and where the element is described. -/
  | fixedArray (total : Nat) (element : ArrayElement) (elementAt : Nat)
deriving DecidableEq, Repr

namespace TypeForm

/-- The offset that lies `relative` bytes from `start`; it must not lie before the format. -/
def target (start : Nat) (relative : Int16) : Except Fault Nat :=
  match (start + relative.toInt : Int) with
  | .ofNat offset => .ok offset
  | .negSucc _ => .error (.malformed start (.beforeFormat relative.toInt))

/-- A pure result as a read that does not move. -/
def lift {α : Type} : Except Fault α → Read α
  | .ok value => pure value
  | .error fault => throw fault

def readOffset : Read Nat := do
  let start ← Read.position
  let relative ← Read.i16
  lift (target start relative)

inductive Entry where
  | finish
  | padding
  | base (primitive : Primitive)
  | embedded (offset : Nat)
  /-- A pointer, described in the pointer layout; `place` is where the entry stands. -/
  | pointer (place : Nat)
deriving DecidableEq, Repr

def readEntry : Read Entry := do
  let place ← Read.position
  let code ← Read.u8
  if code = FormatChar.structEnd then return .finish
  else if FormatChar.isPadding code then return .padding
  else if code = FormatChar.pointer then return .pointer place
  else if code = FormatChar.embeddedComplex then
    let _ ← Read.u8
    return .embedded (← readOffset)
  else match FormatChar.base? code with
    | some primitive => return .base primitive
    | none => throw (.unsupportedFormat place (.structMember code))

/-- The members of a structure from a cursor on. Pointer members take their descriptions, four
bytes each, from the pointer layout in turn. Every entry takes at least one byte, so as many
`entries` as there are bytes are enough. -/
def membersFrom : (entries : Nat) → Option Cursor → Cursor → Listing StructMember
  | 0, _, _ => .done
  | entries + 1, layout, c =>
    match readEntry c with
    | .error fault _ => .failed fault
    | .ok .finish _ => .done
    | .ok .padding c => membersFrom entries layout c
    | .ok (.base primitive) c => .cons (.base primitive) (membersFrom entries layout c)
    | .ok (.embedded offset) c => .cons (.described offset) (membersFrom entries layout c)
    | .ok (.pointer place) c =>
      match layout with
      | none => .failed (.unsupportedFormat place .pointerWithoutLayout)
      | some layout => .cons (.described layout.pos) <|
        match Read.skip 4 layout with
        | .error fault _ => .failed fault
        | .ok _ layout => membersFrom entries (some layout) c

/-- The members of a structure whose pointer layout, if it has one, stands at a given offset. -/
def members (format : Bytes) (layout : Option Nat) (c : Cursor) : Listing StructMember :=
  match layout with
  | none => membersFrom (c.rest.length + 1) none c
  | some offset =>
    match Cursor.locate format offset with
    | .error fault => .failed fault
    | .ok layout => membersFrom (c.rest.length + 1) (some layout) c

/-- A pointer, from behind its format character. A pointer to a string is a string type of its
own. -/
def readPointer (format : Bytes) : Read TypeForm := do
  let attributes ← Read.u8
  if attributes &&& 0x08 ≠ 0 then
    let place ← Read.position
    let code ← Read.u8
    let _ ← Read.u8
    match FormatChar.stringPointer? code, FormatChar.base? code with
    | some text, _ => return .base text FormatChar.pointerSize
    | none, some primitive => return .simplePointer primitive
    | none, none => throw (.unsupportedFormat place (.simplePointer code))
  else
    let offset ← readOffset
    match (format[offset]?).bind FormatChar.stringPointer? with
    | some text => return .base text FormatChar.pointerSize
    | none => return .pointer offset

/-- Where the pointer layout of a structure stands, for the kind of structure that has one. -/
def readLayout : Read (Option Nat) := do
  let place ← Read.position
  let conformance ← Read.i16
  if conformance ≠ 0 then
    throw (.unsupportedFormat place .conformantStruct)
  let place ← Read.position
  let relative ← Read.i16
  if relative = 0 then return none
  return some (← lift (target place relative))

/-- A structure, from behind its format character. -/
def readStruct (format : Bytes) (code : UInt8) : Read TypeForm := do
  let _ ← Read.u8
  let size ← Read.u16
  let layout ← if code = FormatChar.bogusStruct then readLayout else pure none
  return .struct size.toNat (members format layout (← get))

/-- A fixed-size array, from behind its format character. -/
def readArray : Read TypeForm := do
  let _ ← Read.u8
  let total ← Read.u16
  let place ← Read.position
  let code ← Read.u8
  if code = FormatChar.embeddedComplex then
    let _ ← Read.u8
    let offset ← readOffset
    return .fixedArray total.toNat (.described offset) place
  else match FormatChar.sizedBase? code with
    | some (primitive, size) => return .fixedArray total.toNat (.base primitive size) place
    | none => throw (.unsupportedFormat place (.arrayElement code))

def read (format : Bytes) : Read TypeForm := do
  let start ← Read.position
  let code ← Read.u8
  if FormatChar.isPointer code then readPointer format
  else if code = FormatChar.interfacePointer then
    let place ← Read.position
    if (← Read.u8) ≠ FormatChar.constantIid then
      throw (.unsupportedFormat place .interfaceWithoutIid)
    return .interfacePointer (← Read.guid)
  else if code = FormatChar.string then return .base .char 1
  else if code = FormatChar.wideString then return .base .wchar 2
  else if code = FormatChar.struct ∨ code = FormatChar.bogusStruct then readStruct format code
  else if code = FormatChar.fixedArray then readArray
  else match FormatChar.sizedBase? code with
    | some (primitive, size) => return .base primitive size
    | none => throw (.unsupportedFormat start (.typeFormat code))

def parse (format : Bytes) (offset : Nat) : Except Fault TypeForm := do
  let c ← Cursor.locate format offset
  match read format c with
  | .ok form _ => return form
  | .error fault _ => throw fault

end TypeForm

end ComTypes

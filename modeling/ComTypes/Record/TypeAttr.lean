import ComTypes.Record.TypeDesc
import ComTypes.TypeKind

/-!
# Type attributes

The attribute record of a type info: identity, kind, flags, member counts, sizes and version.
A type definition carries the descriptor of the type it names; no other kind does.
-/

namespace ComTypes

/-- The kind of a type info together with what only that kind carries. -/
inductive Shape where
  | enumeration
  | record
  | moduleInfo
  | vtable
  | dispatch
  | coclass
  | typedef (target : TypeDesc)
  | union
deriving DecidableEq, Repr

namespace Shape

def kind : Shape → TypeKind
  | enumeration => .enumeration
  | record => .record
  | moduleInfo => .moduleInfo
  | vtable => .vtable
  | dispatch => .dispatch
  | coclass => .coclass
  | typedef _ => .typedef
  | union => .union

/-- The descriptor of the named type, if this is a type definition. -/
def target? : Shape → Option TypeDesc
  | typedef target => some target
  | _ => none

/-- What a given kind carries behind the fixed fields. -/
def read : TypeKind → Read Shape
  | .enumeration => pure enumeration
  | .record => pure record
  | .moduleInfo => pure moduleInfo
  | .vtable => pure vtable
  | .dispatch => pure dispatch
  | .coclass => pure coclass
  | .typedef => typedef <$> TypeDesc.read
  | .union => pure union

/-- What stands behind the fixed fields, in bytes. -/
def encode (shape : Shape) : Bytes := shape.target?.elim [] TypeDesc.encode

end Shape

structure TypeAttr where
  guid : Guid
  lcid : UInt32
  shape : Shape
  flags : UInt16
  funcs : UInt16
  vars : UInt16
  implTypes : UInt16
  sizeVft : UInt16
  sizeInstance : UInt32
  alignment : UInt16
  majorVersion : UInt16
  minorVersion : UInt16
deriving DecidableEq, Repr

namespace TypeAttr

def tag : Bytes := [0x54, 0x41, 0x54, 0x52]

/-- A TYPEKIND code; an unknown one is reported at its own offset. -/
def readKind : Read TypeKind := do
  let start ← Read.position
  let code ← Read.u16
  Read.coded .typeKind start code.toNat (TypeKind.ofCode? code)

def read : Read TypeAttr := do
  let _ ← Read.header tag [1]
  let guid ← Read.guid
  let lcid ← Read.u32
  let kind ← readKind
  let flags ← Read.u16
  let funcs ← Read.u16
  let vars ← Read.u16
  let implTypes ← Read.u16
  let sizeVft ← Read.u16
  let sizeInstance ← Read.u32
  let alignment ← Read.u16
  let majorVersion ← Read.u16
  let minorVersion ← Read.u16
  let shape ← Shape.read kind
  return { guid, lcid, shape, flags, funcs, vars, implTypes, sizeVft, sizeInstance, alignment,
           majorVersion, minorVersion }

def decode (bytes : Bytes) : Except Fault TypeAttr := Read.whole read bytes

def encode (attr : TypeAttr) : Bytes :=
  Encode.header tag 1 ++ Encode.guid attr.guid ++ Encode.u32 attr.lcid ++
    Encode.u16 attr.shape.kind.code ++ Encode.u16 attr.flags ++ Encode.u16 attr.funcs ++
    Encode.u16 attr.vars ++ Encode.u16 attr.implTypes ++ Encode.u16 attr.sizeVft ++
    Encode.u32 attr.sizeInstance ++ Encode.u16 attr.alignment ++ Encode.u16 attr.majorVersion ++
    Encode.u16 attr.minorVersion ++ attr.shape.encode

end TypeAttr

end ComTypes

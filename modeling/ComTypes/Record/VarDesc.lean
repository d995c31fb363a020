import ComTypes.Record.TypeDesc

/-!
# Variable descriptors

The record of one field or constant of a type info. Static and dispatch variables carry a word that
has no meaning; it is read and dropped.
-/

namespace ComTypes

/-- What a variable is, with what only that kind carries. -/
inductive VarKind where
  | perInstance (offset : UInt32)
  | static
  | constant (value : Int64)
  | dispatch
deriving DecidableEq, Repr

namespace VarKind

def code : VarKind → UInt16
  | perInstance _ => 0
  | static => 1
  | constant _ => 2
  | dispatch => 3

/-- What a given VARKIND code calls for; an unknown code is reported at `start`. -/
def read (start : Nat) (code : UInt16) : Read VarKind :=
  if code = 0 then perInstance <$> Read.u32
  else if code = 1 then (fun _ => static) <$> Read.u32
  else if code = 2 then constant <$> Read.i64
  else if code = 3 then (fun _ => dispatch) <$> Read.u32
  else Read.malformed start (.unknown .varKind code.toNat)

/-- What stands behind the flags, in bytes. `ignored` is the word without meaning. -/
def encode (ignored : UInt32) : VarKind → Bytes
  | perInstance offset => Encode.u32 offset
  | static => Encode.u32 ignored
  | constant value => Encode.i64 value
  | dispatch => Encode.u32 ignored

end VarKind

structure VarDesc where
  memberId : Int32
  kind : VarKind
  flags : UInt16
  elem : ElemDesc
deriving DecidableEq, Repr

namespace VarDesc

def tag : Bytes := [0x56, 0x41, 0x52, 0x44]

def read : Read VarDesc := do
  let _ ← Read.header tag [1]
  let memberId ← Read.i32
  let start ← Read.position
  let code ← Read.u16
  let flags ← Read.u16
  let kind ← VarKind.read start code
  let elem ← ElemDesc.read
  return { memberId, kind, flags, elem }

def decode (bytes : Bytes) : Except Fault VarDesc := Read.whole read bytes

def encode (ignored : UInt32) (var : VarDesc) : Bytes :=
  Encode.header tag 1 ++ Encode.i32 var.memberId ++ Encode.u16 var.kind.code ++
    Encode.u16 var.flags ++ var.kind.encode ignored ++ var.elem.encode

end VarDesc

end ComTypes

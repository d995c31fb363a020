import ComTypes.Record.TypeDesc

/-!
# Function descriptors

The record of one function of a type info: its member id, how it is called, its slot in the
v-table, and the types of its result and parameters.
-/

namespace ComTypes

inductive FuncKind where
  | virtual | pureVirtual | nonVirtual | static | dispatch
deriving DecidableEq, Repr

namespace FuncKind

def all : List FuncKind := [virtual, pureVirtual, nonVirtual, static, dispatch]

def code : FuncKind → UInt16
  | virtual => 0
  | pureVirtual => 1
  | nonVirtual => 2
  | static => 3
  | dispatch => 4

def ofCode? (code : UInt16) : Option FuncKind := all.find? (·.code = code)

end FuncKind

inductive InvokeKind where
  | method | propertyGet | propertyPut | propertyPutRef
deriving DecidableEq, Repr

namespace InvokeKind

instance : Inhabited InvokeKind := ⟨method⟩

def all : List InvokeKind := [method, propertyGet, propertyPut, propertyPutRef]

def code : InvokeKind → UInt16
  | method => 1
  | propertyGet => 2
  | propertyPut => 4
  | propertyPutRef => 8

def ofCode? (code : UInt16) : Option InvokeKind := all.find? (·.code = code)

end InvokeKind

structure FuncDesc where
  memberId : Int32
  kind : FuncKind
  invokeKind : InvokeKind
  callConv : UInt16
  optionalParams : Int16
  vtableOffset : Int16
  flags : UInt16
  result : ElemDesc
  params : List ElemDesc
deriving DecidableEq, Repr

namespace FuncDesc

def tag : Bytes := [0x46, 0x55, 0x4E, 0x43]

/-- A FUNCKIND code; an unknown one is reported at its own offset. -/
def readKind : Read FuncKind := do
  let start ← Read.position
  let code ← Read.u16
  Read.coded .funcKind start code.toNat (FuncKind.ofCode? code)

/-- An INVOKEKIND code; an unknown one is reported at its own offset. -/
def readInvokeKind : Read InvokeKind := do
  let start ← Read.position
  let code ← Read.u16
  Read.coded .invokeKind start code.toNat (InvokeKind.ofCode? code)

def read : Read FuncDesc := do
  let _ ← Read.header tag [1]
  let memberId ← Read.i32
  let kind ← readKind
  let invokeKind ← readInvokeKind
  let callConv ← Read.u16
  let count ← Read.u16
  let optionalParams ← Read.i16
  let vtableOffset ← Read.i16
  let flags ← Read.u16
  let result ← ElemDesc.read
  let params ← Read.times ElemDesc.read count.toNat
  return { memberId, kind, invokeKind, callConv, optionalParams, vtableOffset, flags, result,
           params }

def decode (bytes : Bytes) : Except Fault FuncDesc := Read.whole read bytes

def encode (func : FuncDesc) : Bytes :=
  Encode.header tag 1 ++ Encode.i32 func.memberId ++ Encode.u16 func.kind.code ++
    Encode.u16 func.invokeKind.code ++ Encode.u16 func.callConv ++
    Encode.u16 (UInt16.ofNat func.params.length) ++ Encode.i16 func.optionalParams ++
    Encode.i16 func.vtableOffset ++ Encode.u16 func.flags ++ func.result.encode ++
    func.params.flatMap ElemDesc.encode

end FuncDesc

end ComTypes

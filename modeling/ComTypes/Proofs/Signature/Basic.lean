import ComTypes.Library.Encode
import ComTypes.Proofs.Dict
import ComTypes.Proofs.Wire.RoundTrip
import ComTypes.Proxy.Image
import ComTypes.Proxy.Procedure
import ComTypes.Record.FuncDesc
import Mathlib.Data.List.Nodup

/-!
# Signatures and their two descriptions

A signature is an interface as both a type library and a proxy can describe it: the types of its
parameters are built-in types that both formats have, or pointers to one. `Signature.libraryImage` and
`Signature.proxyImage` are the two descriptions. They name methods by different numbers, a type
library by member ids of its own choice and a proxy by procedure numbers, so the names of methods and
parameters are keyed accordingly.
-/

namespace ComTypes

/-- A built-in type that both formats have. -/
inductive CommonType where
  | i1 | ui1 | i2 | ui2 | i4 | ui4 | r4 | i8 | r8 | intptr | uintptr
deriving DecidableEq, Repr

namespace CommonType

def primitive : CommonType → Primitive
  | i1 => .i1
  | ui1 => .ui1
  | i2 => .i2
  | ui2 => .ui2
  | i4 => .i4
  | ui4 => .ui4
  | r4 => .r4
  | i8 => .i8
  | r8 => .r8
  | intptr => .intptr
  | uintptr => .uintptr

/-- The format character in a procedure. -/
def formatChar : CommonType → UInt8
  | i1 => 0x03
  | ui1 => 0x04
  | i2 => 0x06
  | ui2 => 0x07
  | i4 => 0x08
  | ui4 => 0x09
  | r4 => 0x0A
  | i8 => 0x0B
  | r8 => 0x0C
  | intptr => 0xB8
  | uintptr => 0xB9

end CommonType

namespace Signature

/-- A parameter. -/
structure Param where
  name : Option String
  type : CommonType
  byReference : Bool
  isIn : Bool
  isOut : Bool
deriving DecidableEq, Repr

/-- What a method returns. -/
inductive Result where
  | hresult | nothing
deriving DecidableEq, Repr

/-- A method. -/
structure Method where
  number : UInt16
  name : String
  params : List Param
  result : Result
deriving DecidableEq, Repr

/-- The base of an interface. -/
structure Base where
  iid : Guid
  name : String
  nonzero : iid.isZero = false
deriving DecidableEq, Repr

end Signature

/-- An interface that both formats can describe. -/
structure Signature where
  iid : Guid
  name : String
  base : Option Signature.Base
  methods : List Signature.Method
  nonzero : iid.isZero = false
  distinct : (methods.map (·.number)).Nodup
deriving DecidableEq, Repr

namespace Signature

/-! ### Names -/

/-- The names of a method and its parameters, under a given member id. -/
def Method.names (method : Method) (member : Int32) : List (NameKey × String) :=
  (⟨member, 0⟩, method.name) ::
    method.params.zipIdx.filterMap fun (param, ordinal) =>
      param.name.map fun name => (⟨member, ordinal + 1⟩, name)

/-- The names of all methods and parameters. -/
def names (signature : Signature) (memberId : UInt16 → Int32) : List (NameKey × String) :=
  signature.methods.flatMap fun method => method.names (memberId method.number)

/-- The member id that a proxy knows a method by: its number. -/
def procedureId (number : UInt16) : Int32 := Int32.ofNat number.toNat

/-- The names as a proxy asks for them. -/
def procedureNames (signature : Signature) : NameLookup :=
  .ofDict (.ofList (signature.names procedureId))

/-! ### The type library -/

/-- The type of a parameter. -/
def Param.desc (param : Param) : TypeDesc :=
  if param.byReference then .pointer (.base param.type.primitive) else .base param.type.primitive

/-- The flags of a parameter. -/
def Param.flags (param : Param) : UInt16 :=
  (if param.isIn then 1 else 0) ||| (if param.isOut then 2 else 0)

/-- A parameter of a function record. -/
def Param.elem (param : Param) : ElemDesc := ⟨param.desc, param.flags⟩

def Result.primitive : Result → Primitive
  | hresult => .hresult
  | nothing => .void

/-- The function record of a method: a pure virtual function with the standard calling convention. -/
def Method.func (method : Method) (member : Int32) : FuncDesc where
  memberId := member
  kind := .pureVirtual
  invokeKind := .method
  callConv := 4
  optionalParams := 0
  vtableOffset := Int16.ofNat (method.number.toNat * FormatChar.pointerSize)
  flags := 0
  result := ⟨.base method.result.primitive, 0⟩
  params := method.params.map Param.elem

/-- The attributes of the interface: no flags and no version. -/
def attr (signature : Signature) : TypeAttr where
  guid := signature.iid
  lcid := 0
  shape := .vtable
  flags := 0
  funcs := UInt16.ofNat signature.methods.length
  vars := 0
  implTypes := UInt16.ofNat signature.base.toList.length
  sizeVft := 0
  sizeInstance := 0
  alignment := 0
  majorVersion := 0
  minorVersion := 0

/-- The tables of the type info: the reference to the base, and the names. -/
def tables (signature : Signature) (memberId : UInt16 → Int32) : TypeInfo.Tables where
  references := signature.base.toList.map fun base => (0, .external base.iid base.name .vtable)
  names := signature.names memberId
  memberDocs := []

/-- The type info, without its tables. -/
def typeInfo (signature : Signature) (memberId : UInt16 → Int32) : TypeInfo where
  documentation := { name := signature.name }
  attr := signature.attr.encode
  funcs := signature.methods.map fun method => (method.func (memberId method.number)).encode
  vars := []
  implTypes := signature.base.toList.map fun _ => ⟨0, 0⟩
  references := .empty
  names := .empty
  memberDocs := .empty
  customData := []

/-- A library with the interface as its only type info. -/
def library (signature : Signature) (memberId : UInt16 → Int32) : Library where
  libid := .zero
  version := (1, 0)
  name := ""
  docString := ""
  types := [signature.typeInfo memberId]

/-- The description of the interface by a type library. -/
def libraryImage (signature : Signature) (memberId : UInt16 → Int32) : Bytes :=
  (signature.library memberId).encodeWith [signature.tables memberId]

/-! ### The proxy -/

/-- The attributes of a parameter in a procedure. -/
def Param.attributes (param : Param) : UInt16 :=
  0x0040 ||| (if param.isIn then 0x0008 else 0) ||| (if param.isOut then 0x0010 else 0) |||
    (if param.byReference then 0x0100 else 0)

/-- The entries of a procedure: attributes and format character of each parameter, and last of the
result if there is one. -/
def Method.entries (method : Method) : List (UInt16 × UInt8) :=
  method.params.map (fun param => (param.attributes, param.type.formatChar)) ++
    match method.result with
    | .hresult => [(0x0070, FormatChar.long)]
    | .nothing => []

/-- An entry in bytes, with its place on the stack. -/
def encodeEntry (entry : (UInt16 × UInt8) × Nat) : Bytes :=
  Encode.u16 entry.1.1 ++ Encode.u16 (UInt16.ofNat (FormatChar.pointerSize * (entry.2 + 1))) ++
    Encode.u8 entry.1.2 ++ Encode.u8 0

/-- The procedure of a method: an interpreted object procedure with an implicit handle. -/
def Method.procedure (method : Method) : Bytes :=
  Encode.u8 0x33 ++ Encode.u8 0x46 ++ Encode.u16 method.number ++
    Encode.u16 (UInt16.ofNat (FormatChar.pointerSize * (method.entries.length + 1))) ++
    Encode.u16 0 ++ Encode.u16 8 ++ Encode.u8 0x06 ++
    Encode.u8 (UInt8.ofNat method.entries.length) ++ method.entries.zipIdx.flatMap encodeEntry

/-- Where procedures start that stand back to back from an offset on. -/
def offsetsFrom (start : Nat) : List Method → List Nat
  | [] => []
  | method :: rest => start :: offsetsFrom (start + method.procedure.length) rest

/-- The description of the interface by a proxy. The first slots of the v-table are inherited. -/
def proxyImage (signature : Signature) (inherited : Nat) : ProxyImage where
  baseIid := signature.base.elim .zero (·.iid)
  procOffsets := List.replicate inherited Procedure.inherited ++
    (offsetsFrom 0 signature.methods).map UInt16.ofNat
  procFormat := signature.methods.flatMap Method.procedure
  typeFormat := []

/-! ### Limits of the formats -/

/-- Both formats can hold the signature. -/
structure Fits (signature : Signature) (inherited : Nat) : Prop where
  name : Encode.Short signature.name
  base : ∀ base ∈ signature.base, Encode.Short base.name
  methodNames : ∀ method ∈ signature.methods, Encode.Short method.name
  paramNames : ∀ method ∈ signature.methods, ∀ param ∈ method.params, ∀ name ∈ param.name,
    Encode.Short name
  /-- The entries of a procedure are counted by one byte. -/
  entries : ∀ method ∈ signature.methods, method.entries.length < 0x100
  slots : inherited + signature.methods.length < 0x10000
  /-- Offsets of procedures have two bytes, and the last offset stands for an inherited slot. -/
  offsets : ∀ offset ∈ offsetsFrom 0 signature.methods, offset < 0xFFFF

/-! ### Looking up names -/

theorem Method.mem_names {method : Method} {member : Int32} {key : NameKey} {name : String} :
    (key, name) ∈ method.names member ↔ key.member = member ∧
      (key.ordinal = 0 ∧ name = method.name ∨ ∃ ordinal param, method.params[ordinal]? = some param ∧
        param.name = some name ∧ key.ordinal = ordinal + 1) := by
  obtain ⟨found, place⟩ := key
  simp only [names, List.mem_cons, List.mem_filterMap, Prod.exists, List.mem_zipIdx_iff_getElem?,
    Prod.mk.injEq, NameKey.mk.injEq, Option.map_eq_some_iff]
  constructor
  · rintro (⟨⟨rfl, rfl⟩, rfl⟩ | ⟨param, ordinal, at_ordinal, _, given, ⟨rfl, rfl⟩, rfl⟩)
    · exact ⟨rfl, .inl ⟨rfl, rfl⟩⟩
    · exact ⟨rfl, .inr ⟨ordinal, param, at_ordinal, given, rfl⟩⟩
  · rintro ⟨rfl, ⟨rfl, rfl⟩ | ⟨ordinal, param, at_ordinal, given, rfl⟩⟩
    · exact .inl ⟨⟨rfl, rfl⟩, rfl⟩
    · exact .inr ⟨param, ordinal, at_ordinal, _, given, ⟨rfl, rfl⟩, rfl⟩

section Lookup

variable {signature : Signature} {memberId : UInt16 → Int32} {method : Method}

/-- Under the member id of a method stand its own names and no others. -/
theorem mem_names (injective : Function.Injective memberId) (member : method ∈ signature.methods)
    {ordinal : Nat} {name : String} :
    (⟨memberId method.number, ordinal⟩, name) ∈ signature.names memberId ↔
      (⟨memberId method.number, ordinal⟩, name) ∈ method.names (memberId method.number) := by
  simp only [names, List.mem_flatMap]
  constructor
  · rintro ⟨other, among, inside⟩
    have same : method.number = other.number := injective (Method.mem_names.mp inside).1
    rwa [← List.inj_on_of_nodup_map signature.distinct member among same] at inside
  · exact fun inside => ⟨method, member, inside⟩

theorem lookup_method (injective : Function.Injective memberId) (member : method ∈ signature.methods) :
    (Dict.ofList (signature.names memberId)).get? ⟨memberId method.number, 0⟩ = some method.name := by
  apply Dict.get?_ofList_of_mem
  · rw [mem_names injective member, Method.mem_names]
    exact ⟨rfl, .inl ⟨rfl, rfl⟩⟩
  · intro name inside
    rw [mem_names injective member, Method.mem_names] at inside
    rcases inside.2 with ⟨_, same⟩ | ⟨ordinal, _, _, _, impossible⟩
    · exact same
    · cases impossible

theorem lookup_param (injective : Function.Injective memberId) (member : method ∈ signature.methods)
    {ordinal : Nat} {param : Param} (found : method.params[ordinal]? = some param) :
    (Dict.ofList (signature.names memberId)).get? ⟨memberId method.number, ordinal + 1⟩ =
      param.name := by
  have unique : ∀ name, (⟨memberId method.number, ordinal + 1⟩, name) ∈ signature.names memberId →
      param.name = some name := by
    intro name inside
    rw [mem_names injective member, Method.mem_names] at inside
    rcases inside.2 with ⟨impossible, _⟩ | ⟨place, other, at_place, given, same⟩
    · cases impossible
    · cases Nat.succ.inj same
      cases found.symm.trans at_place
      exact given
  cases given : param.name with
  | none =>
    apply Dict.get?_ofList_of_notMem
    intro name inside
    rw [unique name inside] at given
    cases given
  | some name =>
    apply Dict.get?_ofList_of_mem
    · rw [mem_names injective member, Method.mem_names]
      exact ⟨rfl, .inr ⟨ordinal, param, found, given, rfl⟩⟩
    · intro other inside
      rw [unique other inside] at given
      exact Option.some.inj given

end Lookup

theorem procedureId_injective : Function.Injective procedureId := by
  intro a b same
  have small : ∀ n : UInt16, (procedureId n).toInt = n.toNat := by
    intro n
    have bound := n.toNat_lt
    exact Int32.toInt_ofNat_of_lt (by omega)
  have equal := congrArg Int32.toInt same
  rw [small, small] at equal
  exact UInt16.toNat_inj.mp (by omega)

end Signature

end ComTypes

import ComTypes.Proofs.Wire.RoundTrip
import ComTypes.Record.FuncDesc
import ComTypes.Record.TypeAttr

/-!
# Records are read as they were written

Type descriptors nest, and the reader counts the levels; a descriptor that is not deeper than that, and
that is made from types with a code, is read back. So are the records that consist of descriptors and
numbers.
-/

namespace ComTypes

/-- A built-in type is found by its code, which is none of the codes for composite types. -/
theorem Primitive.ofCode?_of_code {primitive : Primitive} {code : UInt16}
    (h : primitive.code? = some code) :
    Primitive.ofCode? code = some primitive ∧ code ≠ TypeDesc.pointerCode ∧
      code ≠ TypeDesc.safeArrayCode ∧ code ≠ TypeDesc.fixedArrayCode ∧
      code ≠ TypeDesc.userDefinedCode := by
  cases primitive <;> cases h <;> decide

namespace TypeDesc

/-- How many constructors stand above the leaf. -/
def depth : TypeDesc → Nat
  | base _ | userDefined _ => 0
  | pointer target | safeArray target | fixedArray _ target => target.depth + 1

/-- The descriptor has an encoding: its leaf has a code, and arrays have a countable number of
dimensions. -/
def Writable : TypeDesc → Prop
  | base primitive => primitive.code? ≠ none
  | userDefined _ => True
  | pointer target | safeArray target => target.Writable
  | fixedArray dims target => 0 < dims.length ∧ dims.length < 0x10000 ∧ target.Writable

theorem reads_dim (dim : ArrayDim) : Reads readDim (encodeDim dim) dim :=
  (Reads.u32 _).bind ((Reads.i32 _).thenGive (.pure _))

/-- A descriptor is read back if the reader has a level for each of its constructors. -/
theorem reads_nested {desc : TypeDesc} {levels : Nat} (shallow : desc.depth < levels)
    (writable : desc.Writable) : Reads (readNested levels) desc.encode desc := by
  cases levels with
  | zero => omega
  | succ levels =>
    rw [readNested]
    refine .position fun start => ?_
    cases desc with
    | base primitive =>
      cases found : primitive.code? with
      | none => exact absurd found writable
      | some code =>
        obtain ⟨known, notPointer, notSafe, notFixed, notUser⟩ := Primitive.ofCode?_of_code found
        rw [encode, found, Option.getD_some]
        refine (Reads.u16 code).thenGive ?_
        rw [if_neg notPointer, if_neg notSafe, if_neg notFixed, if_neg notUser, known]
        exact .pure _
    | userDefined href =>
      refine (Reads.u16 _).bind ?_
      exact (Reads.u32 href).thenGive (.pure _)
    | pointer target =>
      have inner : target.depth < levels := by simpa [depth] using shallow
      refine (Reads.u16 _).bind ?_
      exact (reads_nested inner writable).thenGive (.pure _)
    | safeArray target =>
      have inner : target.depth < levels := by simpa [depth] using shallow
      refine (Reads.u16 _).bind ?_
      exact (reads_nested inner writable).thenGive (.pure _)
    | fixedArray dims target =>
      obtain ⟨some, countable, writable⟩ := writable
      have inner : target.depth < levels := by simpa [depth] using shallow
      rw [encode, List.append_assoc]
      refine (Reads.u16 _).bind ?_
      rw [if_neg (by decide), if_neg (by decide), if_pos rfl]
      rw [Encode.counted16, List.append_assoc]
      refine (Reads.u16 _).bind ?_
      have count : UInt16.ofNat dims.length ≠ 0 := by
        intro zero
        have length : dims.length = 0 := by
          rw [← Utf16.toNat_unit countable, zero]
          rfl
        omega
      rw [if_neg count, Utf16.toNat_unit countable]
      refine (Reads.times fun dim _ => reads_dim dim).bind ?_
      exact (reads_nested inner writable).thenGive (.pure _)

theorem reads {desc : TypeDesc} (shallow : desc.depth ≤ maxDepth) (writable : desc.Writable) :
    Reads read desc.encode desc :=
  reads_nested (Nat.lt_succ_of_le shallow) writable

end TypeDesc

/-! ### Element and function descriptors -/

namespace ElemDesc

/-- The descriptor can be written and read. -/
def Writable (elem : ElemDesc) : Prop := elem.type.depth ≤ TypeDesc.maxDepth ∧ elem.type.Writable

theorem reads {elem : ElemDesc} (writable : elem.Writable) : Reads read elem.encode elem :=
  (TypeDesc.reads writable.1 writable.2).bind ((Reads.u16 _).thenGive (.pure _))

end ElemDesc

/-- A coded field whose code is known. -/
theorem Reads.coded {α : Type} {field : CodedField} {code : UInt16} {value : Option α} {result : α}
    (known : value = some result) (start : Nat) :
    Reads (Read.coded field start code.toNat value) [] result := by
  rw [known]
  exact .pure result

/-- Function kinds have codes of their own. -/
theorem FuncKind.ofCode?_code (kind : FuncKind) : FuncKind.ofCode? kind.code = some kind := by
  cases kind <;> rfl

/-- Invocation kinds have codes of their own. -/
theorem InvokeKind.ofCode?_code (kind : InvokeKind) :
    InvokeKind.ofCode? kind.code = some kind := by
  cases kind <;> rfl

/-- Type kinds have codes of their own. -/
theorem TypeKind.ofCode?_code (kind : TypeKind) : TypeKind.ofCode? kind.code = some kind := by
  cases kind <;> rfl

namespace FuncDesc

theorem reads_kind (kind : FuncKind) : Reads readKind (Encode.u16 kind.code) kind :=
  .position fun start => (Reads.u16 _).thenGive (.coded kind.ofCode?_code start)

theorem reads_invokeKind (kind : InvokeKind) : Reads readInvokeKind (Encode.u16 kind.code) kind :=
  .position fun start => (Reads.u16 _).thenGive (.coded kind.ofCode?_code start)

/-- The function can be written and read. -/
structure Writable (func : FuncDesc) : Prop where
  count : func.params.length < 0x10000
  result : func.result.Writable
  params : ∀ elem ∈ func.params, elem.Writable

theorem reads {func : FuncDesc} (writable : func.Writable) : Reads read func.encode func := by
  simp only [encode, List.append_assoc]
  refine (Reads.header rfl (List.mem_singleton.mpr rfl)).bind ?_
  refine (Reads.i32 _).bind ?_
  refine (reads_kind _).bind ?_
  refine (reads_invokeKind _).bind ?_
  refine (Reads.u16 _).bind ?_
  refine (Reads.u16 _).bind ?_
  refine (Reads.i16 _).bind ?_
  refine (Reads.i16 _).bind ?_
  refine (Reads.u16 _).bind ?_
  refine (ElemDesc.reads writable.result).bind ?_
  rw [Utf16.toNat_unit writable.count]
  exact (Reads.times fun elem member => ElemDesc.reads (writable.params elem member)).thenGive
    (.pure _)

theorem decode_encode {func : FuncDesc} (writable : func.Writable) :
    decode func.encode = .ok func :=
  (reads writable).whole

end FuncDesc

/-! ### Type attributes -/

namespace TypeAttr

theorem reads_kind (kind : TypeKind) : Reads readKind (Encode.u16 kind.code) kind :=
  .position fun start => (Reads.u16 _).thenGive (.coded kind.ofCode?_code start)

/-- What the shape carries can be written and read. -/
def Writable (attr : TypeAttr) : Prop :=
  ∀ target, attr.shape = .typedef target → target.depth ≤ TypeDesc.maxDepth ∧ target.Writable

/-- A shape is read back under its kind. -/
theorem reads_shape {shape : Shape} (writable : ∀ target, shape = .typedef target →
      target.depth ≤ TypeDesc.maxDepth ∧ target.Writable) :
    Reads (Shape.read shape.kind) shape.encode shape := by
  cases shape with
  | typedef target =>
    obtain ⟨shallow, writable⟩ := writable target rfl
    exact (TypeDesc.reads shallow writable).map _
  | enumeration | record | moduleInfo | vtable | dispatch | coclass | union => exact .pure _

theorem reads {attr : TypeAttr} (writable : attr.Writable) : Reads read attr.encode attr := by
  simp only [encode, List.append_assoc]
  refine (Reads.header rfl (List.mem_singleton.mpr rfl)).bind ?_
  refine (Reads.guid _).bind ?_
  refine (Reads.u32 _).bind ?_
  refine (reads_kind _).bind ?_
  refine (Reads.u16 _).bind ?_
  refine (Reads.u16 _).bind ?_
  refine (Reads.u16 _).bind ?_
  refine (Reads.u16 _).bind ?_
  refine (Reads.u16 _).bind ?_
  refine (Reads.u32 _).bind ?_
  refine (Reads.u16 _).bind ?_
  refine (Reads.u16 _).bind ?_
  refine (Reads.u16 _).bind ?_
  exact (reads_shape writable).thenGive (.pure _)

theorem decode_encode {attr : TypeAttr} (writable : attr.Writable) :
    decode attr.encode = .ok attr :=
  (reads writable).whole

end TypeAttr

end ComTypes

import ComTypes.Proofs.Record.RoundTrip
import ComTypes.Proofs.Wire.Frame
import ComTypes.Record.VarDesc

/-!
# Records have one encoding

A record decoder accepts the encodings of records and nothing else (`records_exact`): what it accepts is
what the encoder writes for the value that comes out. The one exception is the word without meaning of
static and dispatch variables, which may be anything. A record whose type descriptors nest too deep has
an encoding like any other, but it is refused.
-/

namespace ComTypes

/-! ### Type descriptors -/

/-- A code that names a primitive is the primitive's own. -/
theorem Primitive.code_of_ofCode? {code : UInt16} {primitive : Primitive}
    (found : ofCode? code = some primitive) : primitive.code? = some code := by
  simpa using List.find?_some found

namespace TypeDesc

theorem framed_dim : Framed readDim fun dim bytes => bytes = encodeDim dim ∧ True := by
  apply Framed.u32.bind
  rintro elements _ rfl
  apply Framed.i32.bind
  rintro lowerBound _ rfl
  exact Framed.pure ⟨by simp [encodeDim], trivial⟩

/-- A reader with a number of levels accepts descriptors of smaller depth only. -/
theorem framed_nested (levels : Nat) : Framed (readNested levels) fun desc bytes =>
    bytes = desc.encode ∧ desc.depth < levels ∧ desc.Writable := by
  induction levels with
  | zero => exact Framed.position fun start => Framed.throw _
  | succ levels ih =>
    rw [readNested]
    refine Framed.position fun start => Framed.u16.bind ?_
    rintro code _ rfl
    refine Framed.ite (fun same => ?_) fun notPointer => ?_
    · apply ih.bind
      rintro target _ ⟨rfl, shallow, writable⟩
      exact Framed.pure ⟨by simp [encode, same], Nat.succ_lt_succ shallow, writable⟩
    refine Framed.ite (fun same => ?_) fun notSafe => ?_
    · apply ih.bind
      rintro target _ ⟨rfl, shallow, writable⟩
      exact Framed.pure ⟨by simp [encode, same], Nat.succ_lt_succ shallow, writable⟩
    refine Framed.ite (fun same => ?_) fun notFixed => ?_
    · apply Framed.u16.bind
      rintro count _ rfl
      refine Framed.ite (fun _ => Framed.throw _) fun some => ?_
      apply (framed_dim.times_encode count.toNat).bind
      rintro dims _ ⟨length, rfl, _⟩
      apply ih.bind
      rintro target _ ⟨rfl, shallow, writable⟩
      have positive : 0 < dims.length := by
        rw [length]
        exact Nat.pos_of_ne_zero fun zero => some (UInt16.toNat_inj.mp zero)
      have countable : dims.length < 0x10000 := length ▸ count.toNat_lt
      have counted : UInt16.ofNat dims.length = count := by rw [length, UInt16.ofNat_toNat]
      exact Framed.pure ⟨by simp [encode, Encode.counted16, same, counted], Nat.succ_lt_succ shallow,
        positive, countable, writable⟩
    refine Framed.ite (fun same => ?_) fun notUser => ?_
    · apply Framed.u32.bind
      rintro href _ rfl
      exact Framed.pure ⟨by simp [encode, same], Nat.succ_pos _, trivial⟩
    cases found : Primitive.ofCode? code with
    | none => exact Framed.throw _
    | some primitive =>
      have known := Primitive.code_of_ofCode? found
      exact Framed.pure ⟨by simp [encode, known], Nat.succ_pos _, by simp [Writable, known]⟩

theorem framed : Framed read fun desc bytes =>
    bytes = desc.encode ∧ desc.depth ≤ maxDepth ∧ desc.Writable :=
  (framed_nested (maxDepth + 1)).imp fun _ _ ⟨same, shallow, writable⟩ =>
    ⟨same, Nat.le_of_lt_succ shallow, writable⟩

end TypeDesc

/-- An element descriptor is read from its encoding only. -/
theorem ElemDesc.framed : Framed read fun elem bytes => bytes = elem.encode ∧ elem.Writable := by
  apply TypeDesc.framed.bind
  rintro type _ ⟨rfl, writable⟩
  apply Framed.u16.bind
  rintro flags _ rfl
  exact Framed.pure ⟨by simp [encode], writable⟩

/-! ### Records -/

/-- A coded field, whose codes are found in a list of all kinds. -/
theorem framed_kind {α : Type} (field : CodedField) {ofCode? : UInt16 → Option α} {code : α → UInt16}
    (known : ∀ {c kind}, ofCode? c = some kind → code kind = c) :
    Framed (do
        let start ← Read.position
        let c ← Read.u16
        Read.coded field start c.toNat (ofCode? c)) fun kind bytes =>
      bytes = Encode.u16 (code kind) := by
  refine Framed.position fun start => Framed.u16.bind ?_
  rintro c _ rfl
  refine (Framed.coded field start c.toNat (ofCode? c)).imp ?_
  rintro kind _ ⟨rfl, found⟩
  rw [List.append_nil, known found]

namespace TypeAttr

theorem framed_kind : Framed readKind fun kind bytes => bytes = Encode.u16 kind.code :=
  ComTypes.framed_kind .typeKind fun found => by simpa using List.find?_some found

theorem framed_shape (kind : TypeKind) : Framed (Shape.read kind) fun shape bytes =>
    shape.kind = kind ∧ bytes = shape.encode ∧ ∀ target, shape = .typedef target →
      target.depth ≤ TypeDesc.maxDepth ∧ target.Writable := by
  cases kind with
  | typedef =>
    apply TypeDesc.framed.map
    rintro desc _ ⟨rfl, writable⟩
    refine ⟨rfl, rfl, ?_⟩
    rintro target ⟨⟩
    exact writable
  | enumeration | record | moduleInfo | vtable | dispatch | coclass | union =>
    exact Framed.pure ⟨rfl, rfl, fun target same => nomatch same⟩

theorem framed : Framed read fun attr bytes => attr.Writable ∧ bytes = attr.encode := by
  apply (Framed.header [1]).bind
  rintro version _ ⟨one, rfl⟩
  obtain rfl := List.mem_singleton.mp one
  apply Framed.guid.bind
  rintro guid _ rfl
  apply Framed.u32.bind
  rintro lcid _ rfl
  apply framed_kind.bind
  rintro kind _ rfl
  apply Framed.u16.bind
  rintro flags _ rfl
  apply Framed.u16.bind
  rintro funcs _ rfl
  apply Framed.u16.bind
  rintro vars _ rfl
  apply Framed.u16.bind
  rintro implTypes _ rfl
  apply Framed.u16.bind
  rintro sizeVft _ rfl
  apply Framed.u32.bind
  rintro sizeInstance _ rfl
  apply Framed.u16.bind
  rintro alignment _ rfl
  apply Framed.u16.bind
  rintro majorVersion _ rfl
  apply Framed.u16.bind
  rintro minorVersion _ rfl
  apply (framed_shape kind).bind
  rintro shape _ ⟨rfl, rfl, writable⟩
  exact Framed.pure ⟨writable, by simp [encode]⟩

/-- The decoder accepts what can be written, as it is written. -/
theorem decode_eq_ok_iff {bytes : Bytes} {attr : TypeAttr} :
    decode bytes = .ok attr ↔ attr.Writable ∧ bytes = attr.encode := by
  constructor
  · intro run
    exact (framed.of_whole run).1
  · rintro ⟨writable, rfl⟩
    exact decode_encode writable

end TypeAttr

namespace FuncDesc

theorem framed_kind : Framed readKind fun kind bytes => bytes = Encode.u16 kind.code :=
  ComTypes.framed_kind .funcKind fun found => by simpa using List.find?_some found

theorem framed_invokeKind : Framed readInvokeKind fun kind bytes => bytes = Encode.u16 kind.code :=
  ComTypes.framed_kind .invokeKind fun found => by simpa using List.find?_some found

theorem framed : Framed read fun func bytes => func.Writable ∧ bytes = func.encode := by
  apply (Framed.header [1]).bind
  rintro version _ ⟨one, rfl⟩
  obtain rfl := List.mem_singleton.mp one
  apply Framed.i32.bind
  rintro memberId _ rfl
  apply framed_kind.bind
  rintro kind _ rfl
  apply framed_invokeKind.bind
  rintro invokeKind _ rfl
  apply Framed.u16.bind
  rintro callConv _ rfl
  apply Framed.u16.bind
  rintro count _ rfl
  apply Framed.i16.bind
  rintro optionalParams _ rfl
  apply Framed.i16.bind
  rintro vtableOffset _ rfl
  apply Framed.u16.bind
  rintro flags _ rfl
  apply ElemDesc.framed.bind
  rintro result _ ⟨rfl, writable⟩
  apply (ElemDesc.framed.times_encode count.toNat).bind
  rintro params _ ⟨length, rfl, others⟩
  have counted : UInt16.ofNat params.length = count := by rw [length, UInt16.ofNat_toNat]
  exact Framed.pure ⟨⟨length ▸ count.toNat_lt, writable, others⟩, by simp [encode, counted]⟩

theorem decode_eq_ok_iff {bytes : Bytes} {func : FuncDesc} :
    decode bytes = .ok func ↔ func.Writable ∧ bytes = func.encode := by
  constructor
  · intro run
    exact (framed.of_whole run).1
  · rintro ⟨writable, rfl⟩
    exact decode_encode writable

end FuncDesc

namespace VarDesc

/-- The variable can be written and read. -/
def Writable (var : VarDesc) : Prop := var.elem.Writable

theorem reads_kind (ignored : UInt32) (start : Nat) (kind : VarKind) :
    Reads (VarKind.read start kind.code) (kind.encode ignored) kind := by
  cases kind with
  | perInstance offset => exact (Reads.u32 offset).map _
  | static => exact (Reads.u32 ignored).map _
  | constant value => exact (Reads.i64 value).map _
  | dispatch => exact (Reads.u32 ignored).map _

theorem reads (ignored : UInt32) {var : VarDesc} (writable : var.Writable) :
    Reads read (var.encode ignored) var := by
  simp only [encode, List.append_assoc]
  apply (Reads.header rfl (List.mem_singleton.mpr rfl)).bind
  apply (Reads.i32 _).bind
  refine .position fun start => (Reads.u16 _).bind ?_
  apply (Reads.u16 _).bind
  apply (reads_kind ignored start _).bind
  exact (ElemDesc.reads writable).thenGive (.pure _)

theorem framed_kind (start : Nat) (code : UInt16) : Framed (VarKind.read start code) fun kind bytes =>
    kind.code = code ∧ ∃ ignored, bytes = kind.encode ignored := by
  refine Framed.ite (fun same => Framed.u32.map ?_) fun _ => ?_
  · rintro offset _ rfl
    exact ⟨same.symm, 0, rfl⟩
  refine Framed.ite (fun same => Framed.u32.map ?_) fun _ => ?_
  · rintro ignored _ rfl
    exact ⟨same.symm, ignored, rfl⟩
  refine Framed.ite (fun same => Framed.i64.map ?_) fun _ => ?_
  · rintro value _ rfl
    exact ⟨same.symm, 0, rfl⟩
  refine Framed.ite (fun same => Framed.u32.map ?_) fun _ => Framed.throw _
  rintro ignored _ rfl
  exact ⟨same.symm, ignored, rfl⟩

theorem framed : Framed read fun var bytes =>
    var.Writable ∧ ∃ ignored, bytes = var.encode ignored := by
  apply (Framed.header [1]).bind
  rintro version _ ⟨one, rfl⟩
  obtain rfl := List.mem_singleton.mp one
  apply Framed.i32.bind
  rintro memberId _ rfl
  refine Framed.position fun start => Framed.u16.bind ?_
  rintro code _ rfl
  apply Framed.u16.bind
  rintro flags _ rfl
  apply (framed_kind start code).bind
  rintro kind _ ⟨rfl, ignored, rfl⟩
  apply ElemDesc.framed.bind
  rintro elem _ ⟨rfl, writable⟩
  exact Framed.pure ⟨writable, ignored, by simp [encode]⟩

theorem decode_eq_ok_iff {bytes : Bytes} {var : VarDesc} :
    decode bytes = .ok var ↔ var.Writable ∧ ∃ ignored, bytes = var.encode ignored := by
  constructor
  · intro run
    exact (framed.of_whole run).1
  · rintro ⟨writable, ignored, rfl⟩
    exact (reads ignored writable).whole

end VarDesc

/-! ### Nesting too deep -/

/-- The read refuses these bytes for the given reason, wherever they stand. -/
def Rejects {α : Type} (read : Read α) (bytes : Bytes) (cause : Malformation) : Prop :=
  ∀ pos rest, ∃ offset c, read ⟨pos, bytes ++ rest⟩ = .error (.malformed offset cause) c

namespace Rejects

variable {α β : Type} {read : Read α} {next : α → Read β} {bytes bytes' : Bytes}
  {cause : Malformation}

/-- A read fails if its first step does, whatever would follow. -/
theorem bind (h : Rejects read bytes cause) : Rejects (read >>= next) (bytes ++ bytes') cause := by
  intro pos rest
  rw [List.append_assoc]
  obtain ⟨offset, c, run⟩ := h pos (bytes' ++ rest)
  exact ⟨offset, c, error_bind run next⟩

/-- What comes first is read, and what comes next is refused. -/
theorem after {value : α} (first : Reads read bytes value) (second : Rejects (next value) bytes' cause) :
    Rejects (read >>= next) (bytes ++ bytes') cause := by
  intro pos rest
  rw [List.append_assoc, ok_bind (first pos (bytes' ++ rest))]
  exact second _ rest

/-- A read fails if its first step does, at the end of the bytes. -/
theorem last (h : Rejects read bytes cause) : Rejects (read >>= next) bytes cause := by
  have whole : Rejects (read >>= next) (bytes ++ []) cause := h.bind
  rwa [List.append_nil] at whole

theorem position {next : Nat → Read α} (h : ∀ start, Rejects (next start) bytes cause) :
    Rejects (Read.position >>= next) bytes cause := by
  intro pos rest
  exact h pos pos rest

/-- The items are read up to the first one that is refused. -/
theorem times {encode : α → Bytes} {items : List α}
    (each : ∀ item ∈ items, Reads read (encode item) item ∨ Rejects read (encode item) cause)
    (some : ∃ item ∈ items, Rejects read (encode item) cause) :
    Rejects (Read.times read items.length) (items.flatMap encode) cause := by
  induction items with
  | nil =>
    obtain ⟨item, member, _⟩ := some
    cases member
  | cons item rest ih =>
    obtain ⟨other, member, refused⟩ := some
    rcases List.mem_cons.mp member with rfl | later
    · exact refused.bind
    · have others := ih (fun item inside => each item (List.mem_cons_of_mem _ inside))
        ⟨other, later, refused⟩
      rcases each item List.mem_cons_self with first | refused
      · exact after first others.last
      · exact refused.bind

/-- Bytes that are refused are no whole record. -/
theorem whole (h : Rejects read bytes cause) :
    ∃ offset, Read.whole read bytes = .error (.malformed offset cause) := by
  obtain ⟨offset, c, run⟩ := h 0 []
  rw [List.append_nil] at run
  exact ⟨offset, whole_of_error run⟩

end Rejects

namespace TypeDesc

/-- A reader with too few levels runs out of them. -/
theorem rejects_nested {desc : TypeDesc} {levels : Nat} (deep : levels ≤ desc.depth)
    (writable : desc.Writable) :
    Rejects (readNested levels) desc.encode (.nestedTooDeep maxDepth) := by
  cases levels with
  | zero =>
    intro pos rest
    exact ⟨pos, _, rfl⟩
  | succ levels =>
    rw [readNested]
    apply Rejects.position
    intro start
    cases desc with
    | base primitive => exact absurd deep (Nat.not_succ_le_zero levels)
    | userDefined href => exact absurd deep (Nat.not_succ_le_zero levels)
    | pointer target =>
      have inner := rejects_nested (Nat.le_of_succ_le_succ deep) writable
      exact .after (Reads.u16 _) inner.last
    | safeArray target =>
      have inner := rejects_nested (Nat.le_of_succ_le_succ deep) writable
      exact .after (Reads.u16 _) inner.last
    | fixedArray dims target =>
      obtain ⟨some, countable, writable⟩ := writable
      have inner := rejects_nested (Nat.le_of_succ_le_succ deep) writable
      have count : UInt16.ofNat dims.length ≠ 0 := by
        intro zero
        have length := Utf16.toNat_unit countable
        rw [zero, UInt16.toNat_zero] at length
        omega
      rw [encode, List.append_assoc]
      apply Rejects.after (Reads.u16 _)
      rw [if_neg (by decide), if_neg (by decide), if_pos rfl, Encode.counted16, List.append_assoc]
      apply Rejects.after (Reads.u16 _)
      rw [if_neg count, Utf16.toNat_unit countable]
      exact .after (Reads.times fun dim _ => reads_dim dim) inner.last

end TypeDesc

namespace ElemDesc

theorem rejects {elem : ElemDesc} (deep : TypeDesc.maxDepth < elem.type.depth)
    (writable : elem.type.Writable) :
    Rejects read elem.encode (.nestedTooDeep TypeDesc.maxDepth) := by
  have refused : Rejects TypeDesc.read elem.type.encode (.nestedTooDeep TypeDesc.maxDepth) :=
    TypeDesc.rejects_nested deep writable
  exact refused.bind

/-- An element that can be written is read back or nested too deep. -/
theorem reads_or_rejects {elem : ElemDesc} (writable : elem.type.Writable) :
    Reads read elem.encode elem ∨
      Rejects read elem.encode (.nestedTooDeep TypeDesc.maxDepth) := by
  by_cases shallow : elem.type.depth ≤ TypeDesc.maxDepth
  · exact .inl (reads ⟨shallow, writable⟩)
  · exact .inr (rejects (Nat.lt_of_not_le shallow) writable)

end ElemDesc

/-- Type attributes nested too deep are refused. -/
theorem TypeAttr.decode_deep {attr : TypeAttr} {target : TypeDesc} (same : attr.shape = .typedef target)
    (deep : TypeDesc.maxDepth < target.depth) (writable : target.Writable) :
    ∃ offset, decode attr.encode = .error (.malformed offset (.nestedTooDeep TypeDesc.maxDepth)) := by
  have refused : Rejects TypeDesc.read target.encode (.nestedTooDeep TypeDesc.maxDepth) :=
    TypeDesc.rejects_nested deep writable
  apply Rejects.whole
  simp only [encode, same, Shape.encode, List.append_assoc]
  apply Rejects.after (Reads.header rfl (List.mem_singleton.mpr rfl))
  apply Rejects.after (Reads.guid _)
  apply Rejects.after (Reads.u32 _)
  apply Rejects.after (reads_kind _)
  apply Rejects.after (Reads.u16 _)
  apply Rejects.after (Reads.u16 _)
  apply Rejects.after (Reads.u16 _)
  apply Rejects.after (Reads.u16 _)
  apply Rejects.after (Reads.u16 _)
  apply Rejects.after (Reads.u32 _)
  apply Rejects.after (Reads.u16 _)
  apply Rejects.after (Reads.u16 _)
  apply Rejects.after (Reads.u16 _)
  have shape : Rejects (Shape.read .typedef) target.encode (.nestedTooDeep TypeDesc.maxDepth) := by
    show Rejects (Shape.typedef <$> TypeDesc.read) _ _
    rw [map_eq_pure_bind]
    exact refused.last
  exact shape.last

/-- A function descriptor nested too deep is refused. -/
theorem FuncDesc.decode_deep {func : FuncDesc} (count : func.params.length < 0x10000)
    (writable : ∀ elem ∈ func.result :: func.params, elem.type.Writable)
    (deep : ∃ elem ∈ func.result :: func.params, TypeDesc.maxDepth < elem.type.depth) :
    ∃ offset, decode func.encode = .error (.malformed offset (.nestedTooDeep TypeDesc.maxDepth)) := by
  apply Rejects.whole
  simp only [encode, List.append_assoc]
  apply Rejects.after (Reads.header rfl (List.mem_singleton.mpr rfl))
  apply Rejects.after (Reads.i32 _)
  apply Rejects.after (reads_kind _)
  apply Rejects.after (reads_invokeKind _)
  apply Rejects.after (Reads.u16 _)
  apply Rejects.after (Reads.u16 _)
  apply Rejects.after (Reads.i16 _)
  apply Rejects.after (Reads.i16 _)
  apply Rejects.after (Reads.u16 _)
  rw [Utf16.toNat_unit count]
  obtain ⟨elem, member, deep⟩ := deep
  have refused := ElemDesc.rejects deep (writable elem member)
  rcases List.mem_cons.mp member with rfl | later
  · exact refused.bind
  · have params := Rejects.times (fun other inside =>
      ElemDesc.reads_or_rejects (writable other (List.mem_cons_of_mem _ inside))) ⟨elem, later, refused⟩
    rcases ElemDesc.reads_or_rejects (writable _ List.mem_cons_self) with result | refused
    · exact .after result params.last
    · exact refused.bind

/-- A variable descriptor nested too deep is refused. -/
theorem VarDesc.decode_deep (ignored : UInt32) {var : VarDesc}
    (deep : TypeDesc.maxDepth < var.elem.type.depth) (writable : var.elem.type.Writable) :
    ∃ offset, decode (var.encode ignored) =
      .error (.malformed offset (.nestedTooDeep TypeDesc.maxDepth)) := by
  apply Rejects.whole
  simp only [encode, List.append_assoc]
  apply Rejects.after (Reads.header rfl (List.mem_singleton.mpr rfl))
  apply Rejects.after (Reads.i32 _)
  apply Rejects.position
  intro start
  apply Rejects.after (Reads.u16 _)
  apply Rejects.after (Reads.u16 _)
  apply Rejects.after (reads_kind ignored start _)
  exact (ElemDesc.rejects deep writable).last

/-! ### All records -/

/-- The record decoders accept exactly what can be written, as it is written, up to the word without
meaning of a variable. Descriptors that nest too deep are refused as such. -/
theorem records_exact :
    (∀ bytes attr, TypeAttr.decode bytes = .ok attr ↔
      TypeAttr.Writable attr ∧ bytes = attr.encode) ∧
    (∀ bytes func, FuncDesc.decode bytes = .ok func ↔
      FuncDesc.Writable func ∧ bytes = func.encode) ∧
    (∀ bytes var, VarDesc.decode bytes = .ok var ↔
      VarDesc.Writable var ∧ ∃ ignored, bytes = var.encode ignored) ∧
    (∀ (attr : TypeAttr) (target : TypeDesc), attr.shape = .typedef target → target.Writable →
      64 < target.depth → ∃ offset,
        TypeAttr.decode attr.encode = .error (.malformed offset (.nestedTooDeep 64))) ∧
    (∀ func : FuncDesc, func.params.length < 0x10000 →
      (∀ elem ∈ func.result :: func.params, elem.type.Writable) →
      (∃ elem ∈ func.result :: func.params, 64 < elem.type.depth) → ∃ offset,
        FuncDesc.decode func.encode = .error (.malformed offset (.nestedTooDeep 64))) ∧
    ∀ (var : VarDesc) (ignored : UInt32), var.elem.type.Writable → 64 < var.elem.type.depth →
      ∃ offset, VarDesc.decode (var.encode ignored) =
        .error (.malformed offset (.nestedTooDeep 64)) := by
  refine ⟨?_, ?_, ?_, ?_, ?_, ?_⟩
  · intro bytes attr
    exact TypeAttr.decode_eq_ok_iff
  · intro bytes func
    exact FuncDesc.decode_eq_ok_iff
  · intro bytes var
    exact VarDesc.decode_eq_ok_iff
  · intro attr target same writable deep
    exact TypeAttr.decode_deep same deep writable
  · intro func count writable deep
    exact FuncDesc.decode_deep count writable deep
  · intro var ignored writable deep
    exact VarDesc.decode_deep ignored deep writable

/-- A number of pointers, one to the next, and the last to a long integer. -/
def pointers : Nat → TypeDesc
  | 0 => .base .i4
  | n + 1 => .pointer (pointers n)

/-- A variable without an offset whose type is such a chain. -/
def staticPointers (n : Nat) : VarDesc where
  memberId := 7
  kind := .static
  flags := 0
  elem := ⟨pointers n, 0⟩

/-- 64 levels are accepted, with any word in place of the offset, and 65 are refused. -/
theorem staticPointers_exact :
    (∀ ignored, VarDesc.decode ((staticPointers 64).encode ignored) = .ok (staticPointers 64)) ∧
    ∃ offset, VarDesc.decode ((staticPointers 65).encode 0xDEAD) =
      .error (.malformed offset (.nestedTooDeep 64)) := by
  obtain ⟨-, -, accepts, -, -, refuses⟩ := records_exact
  constructor
  · intro ignored
    refine (accepts _ _).mpr ⟨⟨by decide, ?_⟩, ignored, rfl⟩
    simp [staticPointers, pointers, TypeDesc.Writable, Primitive.code?]
  · apply refuses
    · simp [staticPointers, pointers, TypeDesc.Writable, Primitive.code?]
    · decide

end ComTypes

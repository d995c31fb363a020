import ComTypes.Library.Decode
import ComTypes.Proofs.Wire.Bounds
import ComTypes.Proxy.Image
import ComTypes.Record.FuncDesc
import ComTypes.Record.VarDesc

/-!
# Faults point into the input

No decoder seeks, and the offsets that decoders report by themselves are positions at which they have
stood. So every decoder of a record or an image stays in its input (`TypeAttr.stays`, `FuncDesc.stays`,
`VarDesc.stays`, `Library.stays`, `ProxyImage.stays`), and a malformation is reported inside it or at its
end (`Stays.pointsInside`). `cursor_keeps_to_buffer` puts this together with what holds of every sequence
of operations.
-/

namespace ComTypes

/-- A malformation is reported at an offset of the input, or at its end. -/
def PointsInside {α : Type} (decode : Bytes → Except Fault α) : Prop :=
  ∀ bytes offset cause, decode bytes = .error (.malformed offset cause) → offset ≤ bytes.length

variable {α : Type} {buffer : Bytes}

/-- Leftover bytes are reported where they begin, and all else by the read itself. -/
theorem Stays.pointsInside {read : Read α} (h : ∀ buffer, Stays buffer read) :
    PointsInside (Read.whole read) := by
  intro bytes offset cause refused
  obtain ⟨inside, -, points⟩ := h bytes _ (Cursor.On.start bytes)
  cases ran : read (Cursor.start bytes) with
  | error fault c =>
    rw [whole_of_error ran] at refused
    cases refused
    exact points offset cause c ran
  | ok value c =>
    rw [whole_of_ok ran] at refused
    rw [ran] at inside
    split at refused <;> cases refused
    exact inside.inside

/-! ### Records -/

namespace TypeDesc

theorem stays_dim : Stays buffer readDim := .bind .u32 fun _ => .bind .i32 fun _ => .pure _

theorem stays_nested (levels : Nat) : Stays buffer (readNested levels) := by
  induction levels with
  | zero => exact .position fun start inside => .malformed inside _
  | succ levels ih =>
    refine .position fun start inside => .bind .u16 fun code => ?_
    refine .ite (.bind ih fun _ => .pure _) ?_
    refine .ite (.bind ih fun _ => .pure _) ?_
    refine .ite (.bind .u16 fun count => .ite (.malformed inside _) ?_) ?_
    · exact .bind (.times stays_dim _) fun dims => .bind ih fun _ => .pure _
    refine .ite (.bind .u32 fun _ => .pure _) ?_
    cases Primitive.ofCode? code with
    | some primitive => exact .pure _
    | none => exact .unsupported _

end TypeDesc

theorem ElemDesc.stays : Stays buffer read :=
  .bind (TypeDesc.stays_nested _) fun _ => .bind .u16 fun _ => .pure _

namespace TypeAttr

theorem stays_kind : Stays buffer readKind :=
  .position fun _ inside => .bind .u16 fun _ => .coded _ inside _ _

theorem stays_shape (kind : TypeKind) : Stays buffer (Shape.read kind) := by
  cases kind with
  | typedef => exact .map _ (TypeDesc.stays_nested _)
  | enumeration | record | moduleInfo | vtable | dispatch | coclass | union => exact .pure _

/-- Reading a type info stays within the buffer. -/
theorem stays : Stays buffer read := by
  refine .bind (.header tag [1]) fun _ => .bind .guid fun guid => .bind .u32 fun lcid => ?_
  refine .bind stays_kind fun kind => .bind .u16 fun flags => .bind .u16 fun funcs => ?_
  refine .bind .u16 fun vars => .bind .u16 fun implTypes => .bind .u16 fun sizeVft => ?_
  refine .bind .u32 fun sizeInstance => .bind .u16 fun alignment => .bind .u16 fun major => ?_
  exact .bind .u16 fun minor => .bind (stays_shape kind) fun shape => .pure _

end TypeAttr

theorem FuncDesc.stays : Stays buffer read := by
  have kind : Stays buffer readKind := .position fun _ inside => .bind .u16 fun _ => .coded _ inside _ _
  have invokeKind : Stays buffer readInvokeKind :=
    .position fun _ inside => .bind .u16 fun _ => .coded _ inside _ _
  refine .bind (.header tag [1]) fun _ => .bind .i32 fun memberId => .bind kind fun kind => ?_
  refine .bind invokeKind fun invokeKind => .bind .u16 fun callConv => .bind .u16 fun count => ?_
  refine .bind .i16 fun optionalParams => .bind .i16 fun vtableOffset => .bind .u16 fun flags => ?_
  exact .bind ElemDesc.stays fun result => .bind (.times ElemDesc.stays _) fun params => .pure _

theorem VarDesc.stays : Stays buffer read := by
  refine .bind (.header tag [1]) fun _ => .bind .i32 fun memberId => .position fun start inside => ?_
  refine .bind .u16 fun code => .bind .u16 fun flags => ?_
  have kind : Stays buffer (VarKind.read start code) := by
    refine .ite (.map _ .u32) (.ite (.map _ .u32) (.ite (.map _ .i64) (.ite (.map _ .u32) ?_)))
    exact .malformed inside _
  exact .bind kind fun kind => .bind ElemDesc.stays fun elem => .pure _

/-! ### Type infos and images -/

namespace TypeInfo

theorem stays_documentation : Stays buffer readDocumentation :=
  .bind .text fun _ => .bind .text fun _ => .bind .u32 fun _ => .bind .text fun _ => .pure _

theorem stays_blobs : Stays buffer readBlobs := .bind .u16 fun _ => .times .blob _

theorem stays_implType : Stays buffer readImplType := .bind .u32 fun _ => .bind .u16 fun _ => .pure _

theorem stays_target : Stays buffer readTarget := by
  refine .position fun start inside => .bind .u8 fun code => ?_
  refine .ite (.bind .u32 fun _ => .pure _) (.ite ?_ (.malformed inside _))
  exact .bind .guid fun guid => .bind .text fun name => .bind TypeAttr.stays_kind fun kind => .pure _

theorem stays_reference : Stays buffer readReference :=
  .bind .u32 fun _ => .bind stays_target fun _ => .pure _

theorem stays_name : Stays buffer readName :=
  .bind .i32 fun _ => .bind .u16 fun _ => .bind .text fun _ => .pure _

theorem stays_memberDoc : Stays buffer readMemberDoc :=
  .bind .i32 fun _ => .bind .text fun _ => .bind .text fun _ => .bind .u32 fun _ => .pure _

theorem stays_customTarget : Stays buffer readCustomTarget := by
  refine .position fun start inside => .bind .u8 fun code => .bind .u16 fun first => ?_
  refine .bind .u16 fun second => .ite (.pure _) (.ite (.pure _) (.ite (.pure _) (.ite (.pure _) ?_)))
  exact .malformed inside _

theorem stays_customValue : Stays buffer readCustomValue := by
  refine .position fun start inside => .bind .u8 fun code => .ite (.bind .i64 fun _ => .pure _) ?_
  exact .ite (.bind .text fun _ => .pure _) (.malformed inside _)

theorem stays_customData : Stays buffer readCustomData :=
  .bind stays_customTarget fun _ => .bind .guid fun _ => .bind stays_customValue fun _ => .pure _

theorem stays : Stays buffer read := by
  refine .bind stays_documentation fun documentation => .bind .blob fun attr => ?_
  refine .bind stays_blobs fun funcs => .bind stays_blobs fun vars => ?_
  refine .bind .u16 fun _ => .bind (.times stays_implType _) fun implTypes => ?_
  refine .bind .u16 fun _ => .bind (.times stays_reference _) fun references => ?_
  refine .bind .u32 fun _ => .bind (.times stays_name _) fun names => ?_
  refine .bind .u32 fun _ => .bind (.times stays_memberDoc _) fun memberDocs => ?_
  exact .bind .u32 fun _ => .bind (.times stays_customData _) fun customData => .pure _

end TypeInfo

/-- Reading an image stays within the buffer. -/
theorem Library.stays : Stays buffer read := by
  refine .bind (.header tag [1]) fun _ => .bind .guid fun libid => .bind .u16 fun major => ?_
  refine .bind .u16 fun minor => .bind .text fun name => .bind .text fun docString => ?_
  exact .bind .u32 fun _ => .bind (.times TypeInfo.stays _) fun types => .pure _

theorem ProxyImage.stays : Stays buffer read := by
  refine .bind (.header tag [1]) fun _ => .bind .guid fun baseIid => .bind .u16 fun _ => ?_
  refine .bind (.times .u16 _) fun procOffsets => .bind .blob fun procFormat => ?_
  exact .bind .blob fun typeFormat => .pure _

/-! ### Operations and decoders -/

/-- From the start of a buffer or any place in it, every sequence of operations leads to a place in the
buffer, and what is left is what lies behind it. Only a seek that succeeds goes back. A failing operation
leaves the cursor alone, except that one made of parts leaves it behind the parts it has taken. What an
operation reports as malformed lies in the buffer, unless it is the place that a seek was asked for; and
what a decoder reports as malformed lies in its input. -/
theorem cursor_keeps_to_buffer :
    (∀ buffer c, (c = Cursor.start buffer ∨ ∃ pos, Cursor.locate buffer pos = .ok c) → ∀ ops,
      (Operation.runAll buffer ops c).pos ≤ buffer.length ∧
        (Operation.runAll buffer ops c).rest.length =
          buffer.length - (Operation.runAll buffer ops c).pos) ∧
    (∀ buffer c (op : Operation), c.pos ≤ (left (op.run buffer c)).pos ∨
      ∃ pos, op = .seek pos ∧ op.run buffer c = .ok () ⟨pos, buffer.drop pos⟩) ∧
    (∀ buffer c c' fault (op : Operation), op.run buffer c = .error fault c' →
      op.isCompound = false → c' = c) ∧
    (∀ buffer c c' fault (op : Operation), op.run buffer c = .error fault c' →
      op.isCompound = true → c'.pos = c.pos + Operation.reach (op.parts c.rest) c.rest.length) ∧
    (∀ buffer c c' offset cause (op : Operation), c.On buffer →
      op.run buffer c = .error (.malformed offset cause) c' →
        offset ≤ buffer.length ∨ op = .seek offset) ∧
    PointsInside TypeAttr.decode ∧ PointsInside FuncDesc.decode ∧ PointsInside VarDesc.decode ∧
    PointsInside Library.decode ∧ PointsInside ProxyImage.decode := by
  refine ⟨?_, ?_, ?_, ?_, ?_, ?_⟩
  · intro buffer c begins ops
    have on : c.On buffer := by
      rcases begins with rfl | ⟨pos, found⟩
      · exact .start buffer
      · exact .of_locate found
    have ends := Operation.on_runAll ops on
    exact ⟨ends.inside, ends.length_rest⟩
  · intro buffer c op
    by_cases seeks : ∃ pos, op = .seek pos
    · obtain ⟨pos, rfl⟩ := seeks
      rw [Operation.seek_eq]
      split
      · exact .inl (Nat.le_refl _)
      · exact .inr ⟨pos, rfl, rfl⟩
    · rw [Operation.left_pos fun pos same => seeks ⟨pos, same⟩]
      exact .inl (Nat.le_add_right ..)
  · intro buffer c c' fault op failed simple
    exact Operation.left_eq_of_error simple failed
  · intro buffer c c' fault op failed compound
    have still : ∀ pos, op ≠ .seek pos := by
      rintro pos rfl
      cases compound
    have reached := Operation.left_pos still buffer c
    rwa [failed] at reached
  · intro buffer c c' offset cause op on failed
    by_cases seeks : ∃ pos, op = .seek pos
    · obtain ⟨pos, rfl⟩ := seeks
      rw [Operation.seek_eq] at failed
      split at failed <;> cases failed
      exact .inr rfl
    · have points := (Operation.stays (fun pos same => seeks ⟨pos, same⟩) c on).2.2
      exact .inl (points offset cause c' failed)
  · exact ⟨Stays.pointsInside fun _ => TypeAttr.stays, Stays.pointsInside fun _ => FuncDesc.stays,
      Stays.pointsInside fun _ => VarDesc.stays, Stays.pointsInside fun _ => Library.stays,
      Stays.pointsInside fun _ => ProxyImage.stays⟩

/-- A text of one character of two units, and a byte. -/
def clefBuffer : Bytes := [2, 0, 0x34, 0xD8, 0x1E, 0xDD, 9]

/-- The text is read, a number of two bytes is not, a seek goes too far, another one back, and of the text
that begins there only the count is taken. Leftover bytes are reported where they begin, and a record that
is cut off in its version at the version. -/
theorem clefBuffer_kept :
    (Operation.runAll clefBuffer [.text, .u16, .seek 100, .seek 1, .text]
      (Cursor.start clefBuffer)).pos = 3 ∧
    (Operation.runAll clefBuffer [.text, .u16, .seek 100, .seek 1, .text]
      (Cursor.start clefBuffer)).rest.length = 7 - 3 ∧
    (∃ fault c', Operation.u16.run clefBuffer ⟨6, [9]⟩ = .error fault c' ∧ c' = ⟨6, [9]⟩) ∧
    (∃ fault c', Operation.text.run clefBuffer ⟨1, clefBuffer.drop 1⟩ = .error fault c' ∧
      c'.pos = 1 + Operation.reach [2, 0x3400 * 2] 6) ∧
    (∃ offset cause c', Operation.finish.run clefBuffer ⟨6, [9]⟩ =
      .error (.malformed offset cause) c' ∧ (offset ≤ 7 ∨ Operation.finish = .seek offset)) ∧
    ∃ offset cause, VarDesc.decode (VarDesc.tag ++ [1]) = .error (.malformed offset cause) ∧
      offset ≤ 5 := by
  obtain ⟨keeps, -, simple, compound, points, -, -, decodes, -, -⟩ := cursor_keeps_to_buffer
  have number : Operation.u16.run clefBuffer ⟨6, [9]⟩ = .error (.malformed 6 (.short 2 1)) ⟨6, [9]⟩ := rfl
  have text : Operation.text.run clefBuffer ⟨1, clefBuffer.drop 1⟩ =
      .error (.malformed 3 (.short (0x3400 * 2) 4)) ⟨3, clefBuffer.drop 3⟩ := rfl
  have finish : Operation.finish.run clefBuffer ⟨6, [9]⟩ =
      .error (.malformed 6 (.trailing 1)) ⟨6, [9]⟩ := rfl
  have decode : VarDesc.decode (VarDesc.tag ++ [1]) = .error (.malformed 4 (.short 2 1)) := rfl
  refine ⟨by decide +kernel, (keeps _ _ (.inl rfl) _).2, ⟨_, _, number, ?_⟩, ⟨_, _, text, ?_⟩,
    ⟨_, _, _, finish, ?_⟩, ⟨_, _, decode, decodes _ _ _ decode⟩⟩
  · exact simple _ _ _ _ .u16 number rfl
  · exact compound _ _ _ _ .text text rfl
  · exact points _ _ _ _ _ .finish ⟨by decide, rfl⟩ finish

end ComTypes

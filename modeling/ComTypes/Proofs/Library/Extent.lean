import ComTypes.Library.Decode
import ComTypes.Proofs.Library.Written
import ComTypes.Proofs.Record.Exact

/-!
# Where records end

Every decoder of a whole buffer knows where its record ends: of an accepted buffer no proper part from
the start is accepted, nor is the buffer with anything behind it. The fault names the place, which is
the start of the read that ran out of bytes, or the end of the record (`decoders_delimit`).

For this it does not matter what the bytes of a read look like, only that it has frames (`HasExtent`).
-/

namespace ComTypes

/-- Every success of the read has a frame, of whatever bytes. -/
def HasExtent {α : Type} (read : Read α) : Prop := Framed read fun _ _ => True

/-- What is accepted is neither cut short nor followed by anything: the one is reported where bytes are
missing, the other behind the record. -/
def Delimits {α : Type} (decode : Bytes → Except Fault α) : Prop :=
  ∀ bytes value, decode bytes = .ok value →
    (∀ n < bytes.length, ∃ start needed left, start ≤ n ∧ left = n - start ∧ left < needed ∧
      decode (bytes.take n) = .error (.malformed start (.short needed left))) ∧
    ∀ rest ≠ [], decode (bytes ++ rest) = .error (.malformed bytes.length (.trailing rest.length))

variable {α β : Type}

/-- A read with frames, run on whole buffers, tells where its record ends. -/
theorem Framed.delimits {read : Read α} {written : α → Bytes → Prop} (h : Framed read written) :
    Delimits (Read.whole read) := by
  intro bytes value run
  obtain ⟨-, frame⟩ := h.of_whole run
  constructor
  · intro n short
    obtain ⟨fault, refused, start, needed, before, fewer, rfl⟩ := frame.whole_take short
    exact ⟨start, needed, n - start, before, rfl, fewer, refused⟩
  · intro rest more
    exact frame.whole_append more

namespace HasExtent

variable {read : Read α} {next : α → Read β} {written : α → Bytes → Prop}

theorem pure (value : α) : HasExtent (pure value) := Framed.pure trivial

theorem malformed (offset : Nat) (cause : Malformation) :
    HasExtent (Read.malformed offset cause : Read α) := Framed.throw _

theorem bind (first : Framed read written) (rest : ∀ value, HasExtent (next value)) :
    HasExtent (read >>= next) :=
  first.bind fun value _ _ => rest value

theorem position {next : Nat → Read α} (h : ∀ start, HasExtent (next start)) :
    HasExtent (Read.position >>= next) :=
  Framed.position h

theorem ite {condition : Prop} [Decidable condition] {other : Read α} (yes : HasExtent read)
    (no : HasExtent other) : HasExtent (if condition then read else other) :=
  Framed.ite (fun _ => yes) fun _ => no

/-- The same read over and over has an extent if each has a frame. -/
theorem times (each : Framed read written) (count : Nat) : HasExtent (Read.times read count) := by
  have all : Framed (Read.times read count) fun items _ => items.length = count ∧ True :=
    each.times trivial (fun _ _ _ _ _ _ => trivial) count
  exact all.imp fun _ _ _ => trivial

end HasExtent

/-! ### Type infos -/

namespace TypeInfo

theorem hasExtent_documentation : HasExtent readDocumentation := by
  apply HasExtent.bind Framed.text
  intro name
  apply HasExtent.bind Framed.text
  intro docString
  apply HasExtent.bind Framed.u32
  intro helpContext
  apply HasExtent.bind Framed.text
  intro helpFile
  exact .pure _

theorem hasExtent_blobs : HasExtent readBlobs :=
  .bind Framed.u16 fun count => .times Framed.blob count.toNat

theorem hasExtent_implType : HasExtent readImplType :=
  .bind Framed.u32 fun _ => .bind Framed.u16 fun _ => .pure _

theorem hasExtent_target : HasExtent readTarget := by
  apply HasExtent.position
  intro start
  apply HasExtent.bind Framed.u8
  intro code
  apply HasExtent.ite
  · exact .bind Framed.u32 fun _ => .pure _
  apply HasExtent.ite
  · apply HasExtent.bind Framed.guid
    intro guid
    apply HasExtent.bind Framed.text
    intro name
    apply HasExtent.bind TypeAttr.framed_kind
    intro kind
    exact .pure _
  · exact .malformed _ _

theorem hasExtent_reference : HasExtent readReference :=
  .bind Framed.u32 fun _ => .bind hasExtent_target fun _ => .pure _

theorem hasExtent_name : HasExtent readName :=
  .bind Framed.i32 fun _ => .bind Framed.u16 fun _ => .bind Framed.text fun _ => .pure _

theorem hasExtent_memberDoc : HasExtent readMemberDoc := by
  apply HasExtent.bind Framed.i32
  intro member
  apply HasExtent.bind Framed.text
  intro name
  apply HasExtent.bind Framed.text
  intro docString
  apply HasExtent.bind Framed.u32
  intro helpContext
  exact .pure _

theorem hasExtent_customTarget : HasExtent readCustomTarget := by
  apply HasExtent.position
  intro start
  apply HasExtent.bind Framed.u8
  intro code
  apply HasExtent.bind Framed.u16
  intro first
  apply HasExtent.bind Framed.u16
  intro second
  exact .ite (.pure _) (.ite (.pure _) (.ite (.pure _) (.ite (.pure _) (.malformed _ _))))

theorem hasExtent_customValue : HasExtent readCustomValue := by
  apply HasExtent.position
  intro start
  apply HasExtent.bind Framed.u8
  intro code
  apply HasExtent.ite
  · exact .bind Framed.i64 fun _ => .pure _
  apply HasExtent.ite
  · exact .bind Framed.text fun _ => .pure _
  · exact .malformed _ _

theorem hasExtent_customData : HasExtent readCustomData := by
  apply HasExtent.bind hasExtent_customTarget
  intro target
  apply HasExtent.bind Framed.guid
  intro guid
  apply HasExtent.bind hasExtent_customValue
  intro value
  exact .pure _

theorem hasExtent : HasExtent read := by
  apply HasExtent.bind hasExtent_documentation
  intro documentation
  apply HasExtent.bind Framed.blob
  intro attr
  apply HasExtent.bind hasExtent_blobs
  intro funcs
  apply HasExtent.bind hasExtent_blobs
  intro vars
  apply HasExtent.bind Framed.u16
  intro implTypes
  apply HasExtent.bind (HasExtent.times hasExtent_implType _)
  intro implTypes
  apply HasExtent.bind Framed.u16
  intro references
  apply HasExtent.bind (HasExtent.times hasExtent_reference _)
  intro references
  apply HasExtent.bind Framed.u32
  intro names
  apply HasExtent.bind (HasExtent.times hasExtent_name _)
  intro names
  apply HasExtent.bind Framed.u32
  intro memberDocs
  apply HasExtent.bind (HasExtent.times hasExtent_memberDoc _)
  intro memberDocs
  apply HasExtent.bind Framed.u32
  intro customData
  apply HasExtent.bind (HasExtent.times hasExtent_customData _)
  intro customData
  exact .pure _

end TypeInfo

/-- What a library image is decoded to does not depend on what follows it. -/
theorem Library.hasExtent : HasExtent read := by
  apply HasExtent.bind (Framed.header [1])
  intro version
  apply HasExtent.bind Framed.guid
  intro libid
  apply HasExtent.bind Framed.u16
  intro major
  apply HasExtent.bind Framed.u16
  intro minor
  apply HasExtent.bind Framed.text
  intro name
  apply HasExtent.bind Framed.text
  intro docString
  apply HasExtent.bind Framed.u32
  intro types
  apply HasExtent.bind (HasExtent.times TypeInfo.hasExtent _)
  intro types
  exact .pure _

/-! ### All decoders -/

/-- Of what a decoder of a record or an image accepts, no proper part from the start is accepted, and
nothing longer. A part is refused as malformed, at the read whose bytes it does not hold; with more
bytes the fault is at the end of the record. -/
theorem decoders_delimit :
    Delimits TypeAttr.decode ∧ Delimits FuncDesc.decode ∧ Delimits VarDesc.decode ∧
    Delimits Library.decode ∧ Delimits ProxyImage.decode ∧
    (∀ needed left, (Malformation.short needed left).message = s!"need {needed} bytes, have {left}") ∧
    ∀ count, (Malformation.trailing count).message = s!"{count} trailing bytes after record" := by
  refine ⟨?_, ?_, ?_, ?_, ?_, ?_, ?_⟩
  · exact TypeAttr.framed.delimits
  · exact FuncDesc.framed.delimits
  · exact VarDesc.framed.delimits
  · exact Framed.delimits Library.hasExtent
  · exact ProxyImage.framed.delimits
  · intro needed left
    rfl
  · intro count
    rfl

/-- A constant of a pointer type. -/
def pointerConstant : VarDesc where
  memberId := 3
  kind := .constant (-1)
  flags := 0
  elem := ⟨.pointer (.base .i4), 0⟩

theorem pointerConstant_delimited :
    VarDesc.decode (pointerConstant.encode 0) = .ok pointerConstant ∧
    (∀ n < (pointerConstant.encode 0).length, ∃ start needed left,
      start ≤ n ∧ left = n - start ∧ left < needed ∧
      VarDesc.decode ((pointerConstant.encode 0).take n) =
        .error (.malformed start (.short needed left))) ∧
    ∀ rest ≠ [], VarDesc.decode (pointerConstant.encode 0 ++ rest) =
      .error (.malformed 28 (.trailing rest.length)) := by
  have accepted : VarDesc.decode (pointerConstant.encode 0) = .ok pointerConstant := by
    decide +kernel
  exact ⟨accepted, decoders_delimit.2.2.1 _ _ accepted⟩

end ComTypes

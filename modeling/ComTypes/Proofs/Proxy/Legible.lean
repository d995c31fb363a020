import ComTypes.Proofs.Proxy.Retrace

/-!
# Legible proxies

Whether the procedures of a proxy can be decoded depends on the descriptions that they refer to: each has
to be readable, and the elements of an array have to fill it. An image is `Legible` if this holds of every
offset that its procedures refer to, so the order of the procedures plays no part.

A walk through all procedures has covered every such offset. It meets a structure once, so what is known
of an offset is that it is a record met so far or that it reads and leads to covered offsets (`Covered`);
a record that was closed leads to covered offsets, too (`Walker.Follows`). A walk that fails has found the
image not to be legible, or it has been stopped by the nesting limit (`Walk.Ends`, `methods_legible`).
-/

namespace ComTypes

/-! ### Images -/

namespace TypeForm

/-- The size in memory. -/
def size : TypeForm → Nat
  | base _ size => size
  | interfacePointer _ | simplePointer _ | pointer _ => FormatChar.pointerSize
  | struct size _ => size
  | fixedArray total _ _ => total

/-- The description names another offset. -/
inductive Names : TypeForm → Nat → Prop
  | pointer {target : Nat} : Names (.pointer target) target
  | member {size target : Nat} {members : Listing StructMember} :
      .described target ∈ members.items → Names (.struct size members) target
  | element {total target elementAt : Nat} :
      Names (.fixedArray total (.described target) elementAt) target

/-- Elements of this size fill the array. -/
def Tiles (size total : Nat) : Prop := size ≠ 0 ∧ total % size = 0

/-- The members of a structure can be read, and the elements of an array fill it. -/
def Readable (format : Bytes) : TypeForm → Prop
  | struct _ members => members.fault = none
  | fixedArray total (.base _ size) _ => Tiles size total
  | fixedArray total (.described target) _ =>
    ∃ form, parse format target = .ok form ∧ Tiles form.size total
  | base .. | interfacePointer _ | simplePointer _ | pointer _ => True

end TypeForm

/-- The procedures can be read, and so can every description that they refer to. -/
structure ProxyImage.Legible (image : ProxyImage) : Prop where
  procedures : ∀ slot ∈ image.procOffsets, slot ≠ Procedure.inherited →
    ∃ procedure, Procedure.parse image.procFormat slot.toNat = .ok procedure ∧
      procedure.entries.fault = none
  types : ∀ offset, image.Refers offset →
    ∃ form, TypeForm.parse image.typeFormat offset = .ok form ∧ form.Readable image.typeFormat

/-- The fault of a walk that has gone too deep. -/
def Fault.TooDeep (fault : Fault) : Prop :=
  ∃ offset, fault = .unsupportedFormat offset (.nestedTooDeep Walker.maxDepth)

namespace ProxyImage

variable {image : ProxyImage}

/-- With more procedures an image refers to more descriptions. -/
theorem Refers.reorder {offsets : List UInt16} (slots : image.procOffsets ⊆ offsets) {offset : Nat}
    (refers : image.Refers offset) : Refers { image with procOffsets := offsets } offset := by
  induction refers with
  | parameter among own parsed listed described =>
    exact .parameter (slots among) own parsed listed described
  | pointer _ parsed ih => exact .pointer ih parsed
  | member _ parsed listed ih => exact .member ih parsed listed
  | element _ parsed ih => exact .element ih parsed

/-- An image is legible in whatever order its procedures stand. -/
theorem Legible.reorder (legible : image.Legible) {offsets : List UInt16}
    (slots : offsets ⊆ image.procOffsets) : Legible { image with procOffsets := offsets } where
  procedures slot among := legible.procedures slot (slots among)
  types offset refers := legible.types offset (refers.reorder slots)

end ProxyImage

/-! ### What a walk has covered -/

/-- What stands at the offset is readable and names covered offsets only. -/
def Settled (format : Bytes) (covered : Nat → Prop) (offset : Nat) : Prop :=
  ∃ form, TypeForm.parse format offset = .ok form ∧ form.Readable format ∧
    ∀ target, form.Names target → covered target

/-- A record has been met at the offset, or what stands there leads to such records only. -/
inductive Covered (format : Bytes) (met : List Nat) : Nat → Prop
  | met {offset : Nat} : offset ∈ met → Covered format met offset
  | form {offset : Nat} {form : TypeForm} : TypeForm.parse format offset = .ok form →
      form.Readable format → (∀ target, form.Names target → Covered format met target) →
      Covered format met offset

variable {format : Bytes} {met met' : List Nat} {offset : Nat}

theorem Covered.mono (covered : Covered format met offset) (more : met ⊆ met') :
    Covered format met' offset := by
  induction covered with
  | met among => exact .met (more among)
  | form parsed readable _ ih => exact .form parsed readable ih

theorem Settled.mono (settled : Settled format (Covered format met) offset) (more : met ⊆ met') :
    Settled format (Covered format met') offset := by
  obtain ⟨form, parsed, readable, targets⟩ := settled
  exact ⟨form, parsed, readable, fun target names => (targets target names).mono more⟩

/-- What is covered is settled if every record met so far is. -/
theorem Covered.settled (covered : Covered format met offset)
    (records : ∀ offset ∈ met, Settled format (Covered format met) offset) :
    Settled format (Covered format met) offset := by
  cases covered with
  | met among => exact records offset among
  | form parsed readable targets => exact ⟨_, parsed, readable, targets⟩

namespace Walker

/-- The offsets of the records met so far. -/
def offsets (w : Walker) : List Nat := w.memo.keys

/-- The records stand where structures of their size are described. -/
def Sized (format : Bytes) (w : Walker) : Prop :=
  ∀ offset found, w.memo.get? offset = some found → ∃ members,
    TypeForm.parse format offset = .ok (.struct found.2 members)

/-- The walker has gone on and settled every record that it has met on the way. -/
structure Follows (format : Bytes) (w w' : Walker) : Prop where
  sized : w'.Sized format
  subset : w.offsets ⊆ w'.offsets
  settled : ∀ offset ∈ w'.offsets,
    offset ∈ w.offsets ∨ Settled format (Covered format w'.offsets) offset

variable {w w' w'' : Walker}

/-- A step that leaves the memo alone has nothing to settle. -/
theorem Follows.of_same (sized : w.Sized format) (same : w'.memo = w.memo) :
    w.Follows format w' := by
  unfold Sized at sized
  refine ⟨?_, ?_, fun offset among => .inl ?_⟩
  · rwa [Sized, same]
  · simp [offsets, same]
  · rwa [offsets, same] at among

theorem Follows.trans (first : w.Follows format w') (second : w'.Follows format w'') :
    w.Follows format w'' where
  sized := second.sized
  subset := List.Subset.trans first.subset second.subset
  settled offset among := by
    rcases second.settled offset among with before | settled
    · exact (first.settled offset before).imp_right fun settled => settled.mono second.subset
    · exact .inr settled

/-- A structure of the size described stands at the offset that is entered. -/
theorem Sized.enter (sized : w.Sized format) {offset size : Nat} {members : Listing StructMember}
    (parsed : TypeForm.parse format offset = .ok (.struct size members)) (id : TypeId) :
    (w.enter offset size id).Sized format := by
  intro other found known
  have known : (w.memo.insert offset (id, size)).get? other = some found := known
  rw [Table.get?_insert] at known
  split at known
  next here =>
    cases known
    exact ⟨members, here ▸ parsed⟩
  next => exact sized other found known

/-- Entering a record adds its offset to those met. -/
theorem mem_offsets_enter {offset size other : Nat} {id : TypeId} :
    other ∈ (w.enter offset size id).offsets ↔ other = offset ∨ other ∈ w.offsets :=
  Table.mem_keys_insert

end Walker

namespace Walk

open Walker

/-! ### How a step ends -/

/-- The step ends with a value, or its fault says that the image is not legible or too deep. -/
def Ends {α : Type} (image : ProxyImage) (post : α → Walker → Prop) (step : Walk α) (w : Walker) :
    Prop :=
  w.Sized image.typeFormat →
    match step w with
    | .ok value w' => w.Follows image.typeFormat w' ∧ post value w'
    | .error fault _ => fault.TooDeep ∨ ¬ image.Legible

namespace Ends

variable {α β : Type} {image : ProxyImage} {post : α → Walker → Prop} {final : β → Walker → Prop}
  {w : Walker}

theorem pure {value : α} (holds : post value w) : Ends image post (pure value) w :=
  fun sized => ⟨.of_same sized rfl, holds⟩

theorem throw {fault : Fault} (illegible : ¬ image.Legible) :
    Ends image post (throw fault : Walk α) w :=
  fun _ => .inr illegible

theorem bind {step : Walk α} {next : α → Walk β} (first : Ends image post step w)
    (rest : ∀ {value w'}, w.Follows image.typeFormat w' → post value w' →
      Ends image final (next value) w') : Ends image final (step >>= next) w := by
  intro sized
  have started := first sized
  cases run : step w with
  | error fault w' =>
    rw [run] at started
    rw [error_bind run]
    exact started
  | ok value w' =>
    rw [run] at started
    obtain ⟨follows, holds⟩ := started
    have ended := rest follows holds follows.sized
    rw [ok_bind run]
    cases run' : next value w' with
    | error fault w'' =>
      rw [run'] at ended
      exact ended
    | ok result w'' =>
      rw [run'] at ended
      exact ⟨follows.trans ended.1, ended.2⟩

theorem map {step : Walk α} (f : α → β) (first : Ends image post step w)
    (rest : ∀ {value w'}, post value w' → final (f value) w') : Ends image final (f <$> step) w := by
  rw [map_eq_pure_bind]
  exact first.bind fun _ holds => pure (rest holds)

/-- The steps for the items of a list. What one of them has reached must last. -/
theorem mapM {γ : Type} {step : γ → Walk α} {items : List γ} {reached : γ → Walker → Prop}
    (each : ∀ item ∈ items, ∀ t, Ends image (fun _ => reached item) (step item) t)
    (lasting : ∀ {item t u}, reached item t → t.Follows image.typeFormat u → reached item u) :
    Ends image (fun _ t => ∀ item ∈ items, reached item t) (items.mapM step) w := by
  induction items generalizing w with
  | nil => exact pure fun _ member => absurd member List.not_mem_nil
  | cons item rest ih =>
    rw [List.mapM_cons]
    apply (each item List.mem_cons_self w).bind
    intro value t _ first
    apply (ih fun other member => each other (List.mem_cons_of_mem item member)).bind
    intro values u follows others
    apply pure
    intro other member
    rcases List.mem_cons.mp member with rfl | later
    · exact lasting first follows
    · exact others other later

theorem get {next : Walker → Walk α} (h : Ends image post (next w) w) :
    Ends image post (get >>= next) w := h

theorem onGraph (operation : Graph → α × Graph) :
    Ends image (fun _ t => t.offsets = w.offsets) (onGraph operation) w :=
  fun sized => ⟨.of_same sized rfl, rfl⟩

theorem primitive (p : Primitive) : Ends image (fun _ t => t.offsets = w.offsets) (primitive p) w :=
  onGraph _

theorem pointerTo (target : TypeId) :
    Ends image (fun _ t => t.offsets = w.offsets) (pointerTo target) w :=
  onGraph _

/-- A fault that stands in the formats. -/
theorem check {fault : Option Fault} (legible : image.Legible → fault = none) :
    Ends image (fun _ t => t = w ∧ fault = none) (check fault) w := by
  cases fault with
  | none => exact pure ⟨rfl, rfl⟩
  | some fault => exact throw fun h => by cases legible h

theorem fixedArray {total elementAt : Nat} {element : TypeId × Nat}
    (legible : image.Legible → TypeForm.Tiles element.2 total) :
    Ends image (fun _ t => t.offsets = w.offsets ∧ TypeForm.Tiles element.2 total)
      (fixedArray total element elementAt) w := by
  unfold Walk.fixedArray
  by_cases uneven : element.2 = 0 ∨ total % element.2 ≠ 0
  · rw [if_pos uneven]
    apply throw
    intro h
    obtain ⟨nonzero, even⟩ := legible h
    rcases uneven with zero | odd
    · exact nonzero zero
    · exact odd even
  · rw [if_neg uneven]
    rw [not_or, not_not] at uneven
    exact fun sized => ⟨.of_same sized rfl, rfl, uneven⟩

end Ends

/-! ### Types -/

/-- The offset is covered, and what stands there has this size. -/
structure Described (format : Bytes) (offset size : Nat) (w : Walker) : Prop where
  covered : Covered format w.offsets offset
  sized : ∃ form, TypeForm.parse format offset = .ok form ∧ form.size = size

/-- A description that was read is described if what it names is covered. -/
theorem Described.of_form {form : TypeForm} {w : Walker}
    (parsed : TypeForm.parse format offset = .ok form) (readable : form.Readable format)
    (targets : ∀ target, form.Names target → Covered format w.offsets target) :
    Described format offset form.size w :=
  ⟨.form parsed readable targets, form, parsed, rfl⟩

section Types

variable {image : ProxyImage} {inner : Nat → Walk (TypeId × Nat)} {w : Walker} {form : TypeForm}

/-- What legible images refer to is readable. -/
theorem readable_of_legible (refers : image.Refers offset)
    (parsed : TypeForm.parse image.typeFormat offset = .ok form) (legible : image.Legible) :
    form.Readable image.typeFormat := by
  obtain ⟨_, again, readable⟩ := legible.types offset refers
  cases again.symm.trans parsed
  exact readable

/-- What building the types that the image refers to comes to. -/
def TypeEnds (image : ProxyImage) (inner : Nat → Walk (TypeId × Nat)) : Prop :=
  ∀ {offset}, image.Refers offset → ∀ w, Ends image
    (fun found t => Described image.typeFormat offset found.2 t) (inner offset) w

/-- A member that decodes covers the description it names. -/
theorem memberType_ends (ends : TypeEnds image inner) {member : StructMember}
    (refers : ∀ target, member = .described target → image.Refers target) :
    Ends image (fun _ t => ∀ target, member = .described target →
      Covered image.typeFormat t.offsets target) (memberType inner member) w := by
  cases member with
  | base p =>
    intro sized
    exact ⟨.of_same sized rfl, fun target described => by cases described⟩
  | described target =>
    apply (ends (refers target rfl) w).map
    rintro found t described _ ⟨⟩
    exact described.covered

/-- A structure behind the opening of its record. -/
def structRest (inner : Nat → Walk (TypeId × Nat)) (id : TypeId) (size : Nat)
    (members : Listing StructMember) : Walk (TypeId × Nat) := do
  let types ← members.items.mapM (memberType inner)
  check members.fault
  closeRecord id types
  return (id, size)

/-- A structure that decodes has all its members, and each is covered. -/
theorem structRest_ends (ends : TypeEnds image inner) (refers : image.Refers offset) (id : TypeId)
    {size : Nat} {members : Listing StructMember}
    (parsed : TypeForm.parse image.typeFormat offset = .ok (.struct size members)) :
    Ends image (fun found t => found.2 = size ∧ members.fault = none ∧
        ∀ target, .described target ∈ members.items → Covered image.typeFormat t.offsets target)
      (structRest inner id size members) w := by
  unfold structRest
  have each : ∀ member ∈ members.items, ∀ t, Ends image
      (fun _ u => ∀ target, member = .described target →
        Covered image.typeFormat u.offsets target) (memberType inner member) t := by
    intro member among t
    apply memberType_ends ends
    rintro target rfl
    exact .member refers parsed among
  apply (Ends.mapM each fun reached follows target described =>
    (reached target described).mono follows.subset).bind
  intro types t _ covered
  apply (Ends.check (readable_of_legible refers parsed)).bind
  rintro _ _ _ ⟨rfl, whole⟩
  intro sized
  exact ⟨.of_same sized rfl, rfl, whole, fun target listed => covered _ listed target rfl⟩

/-- The members are built with the record of the structure among those that were met. It is settled when
all of them are covered. -/
theorem structType_ends (ends : TypeEnds image inner) (refers : image.Refers offset) {size : Nat}
    {members : Listing StructMember}
    (parsed : TypeForm.parse image.typeFormat offset = .ok (.struct size members)) :
    Ends image (fun found t => Described image.typeFormat offset found.2 t)
      (formType inner offset (.struct size members)) w := by
  intro sized
  -- Opening the record is not a step that follows: what it adds is settled in the end only.
  obtain ⟨id, graph, previous, opened⟩ := openRecord_enters offset size w
  have built := structRest_ends ends refers id parsed
    (w := { w.enter offset size id with graph, previous }) (sized.enter parsed id)
  have run : formType inner offset (.struct size members) w =
      structRest inner id size members { w.enter offset size id with graph, previous } :=
    ok_bind opened _
  rw [run]
  cases ended : structRest inner id size members
      { w.enter offset size id with graph, previous } with
  | error fault w₂ =>
    rw [ended] at built
    exact built
  | ok found w₂ =>
    rw [ended] at built
    obtain ⟨follows, same, whole, covered⟩ := built
    have settled : Settled image.typeFormat (Covered image.typeFormat w₂.offsets) offset := by
      refine ⟨_, parsed, whole, fun target names => ?_⟩
      cases names with
      | member listed => exact covered target listed
    have own : offset ∈ w₂.offsets := follows.subset (mem_offsets_enter.mpr (.inl rfl))
    refine ⟨⟨follows.sized, fun other among => follows.subset (mem_offsets_enter.mpr (.inr among)), ?_⟩,
      .met own, _, parsed, same.symm⟩
    intro other among
    rcases follows.settled other among with before | after
    · rcases mem_offsets_enter.mp before with rfl | old
      · exact .inr settled
      · exact .inl old
    · exact .inr after

/-- A description that decodes is described. -/
theorem formType_ends (ends : TypeEnds image inner) (refers : image.Refers offset)
    (parsed : TypeForm.parse image.typeFormat offset = .ok form) :
    Ends image (fun found t => Described image.typeFormat offset found.2 t)
      (formType inner offset form) w := by
  cases form with
  | base p size =>
    apply (Ends.primitive p).bind
    intro id t _ _
    exact Ends.pure (.of_form parsed trivial fun target names => by cases names)
  | interfacePointer iid =>
    apply (Ends.onGraph _).bind
    intro target t _ _
    apply (Ends.pointerTo target).bind
    intro id u _ _
    exact Ends.pure (.of_form parsed trivial fun target names => by cases names)
  | simplePointer p =>
    apply (Ends.primitive p).bind
    intro target t _ _
    apply (Ends.pointerTo target).bind
    intro id u _ _
    exact Ends.pure (.of_form parsed trivial fun target names => by cases names)
  | pointer target =>
    apply (ends (.pointer refers parsed) w).bind
    intro found t _ described
    apply (Ends.pointerTo found.1).bind
    intro id u follows _
    apply Ends.pure
    apply Described.of_form parsed trivial
    rintro _ ⟨⟩
    exact described.covered.mono follows.subset
  | struct size members => exact structType_ends ends refers parsed
  | fixedArray total element elementAt =>
    have legible := readable_of_legible refers parsed
    cases element with
    | base p size =>
      have element : Ends image (fun found _ => found.2 = size)
          (elementType inner (.base p size)) w := by
        apply (Ends.primitive p).bind
        intro id t _ _
        exact Ends.pure rfl
      apply element.bind
      rintro ⟨id, _⟩ t _ rfl
      apply (Ends.fixedArray legible).bind
      rintro array u _ ⟨_, tiles⟩
      exact Ends.pure (.of_form parsed tiles fun target names => by cases names)
    | described target =>
      apply (ends (.element refers parsed) w).bind
      rintro ⟨id, _⟩ t _ ⟨covered, other, parsed', rfl⟩
      have fills : image.Legible → TypeForm.Tiles other.size total := by
        intro h
        obtain ⟨_, again, tiles⟩ := legible h
        cases again.symm.trans parsed'
        exact tiles
      apply (Ends.fixedArray fills).bind
      rintro array u follows ⟨_, tiles⟩
      apply Ends.pure
      apply Described.of_form parsed ⟨other, parsed', tiles⟩
      rintro _ ⟨⟩
      exact covered.mono follows.subset

/-- Building a type covers its offset, or fails at the nesting limit or because the image is not
legible. -/
theorem type_ends (image : ProxyImage) (levels : Nat) :
    TypeEnds image (type image.typeFormat levels) := by
  induction levels with
  | zero =>
    intro offset _ w _
    exact .inl ⟨offset, rfl⟩
  | succ levels ih =>
    intro offset refers w
    rw [type]
    apply Ends.get
    cases met : w.memo.get? offset with
    | some known =>
      intro sized
      obtain ⟨members, parsed⟩ := sized offset known met
      exact ⟨.of_same sized rfl, .met (Table.mem_keys_of_get? met), _, parsed, rfl⟩
    | none =>
      cases parsed : TypeForm.parse image.typeFormat offset with
      | error fault =>
        apply Ends.throw
        intro legible
        obtain ⟨form, again, _⟩ := legible.types offset refers
        cases again.symm.trans parsed
      | ok form => exact formType_ends ih refers parsed

end Types

/-! ### Procedures -/

section Procedures

variable {image : ProxyImage} {w : Walker}

/-- The procedure can be read, and the descriptions that it refers to are covered. -/
def Traced (image : ProxyImage) (slot : UInt16) (w : Walker) : Prop :=
  ∃ procedure, Procedure.parse image.procFormat slot.toNat = .ok procedure ∧
    procedure.entries.fault = none ∧
    ∀ entry ∈ procedure.entries.items, ∀ offset, entry.type = .described offset →
      Covered image.typeFormat w.offsets offset

/-- A procedure that was traced stays so as the walk goes on. -/
theorem Traced.follows {slot : UInt16} {w' : Walker} (traced : Traced image slot w)
    (follows : w.Follows image.typeFormat w') : Traced image slot w' := by
  obtain ⟨procedure, parsed, whole, covered⟩ := traced
  exact ⟨procedure, parsed, whole, fun entry among offset described =>
    (covered entry among offset described).mono follows.subset⟩

/-- An entry that decodes covers the description it names. -/
theorem entryType_ends {entry : ParamEntry}
    (refers : ∀ offset, entry.type = .described offset → image.Refers offset) :
    Ends image (fun _ t => ∀ offset, entry.type = .described offset →
      Covered image.typeFormat t.offsets offset) (entryType (typeAt image.typeFormat) entry) w := by
  have typed : Ends image (fun _ t => ∀ offset, entry.type = .described offset →
      Covered image.typeFormat t.offsets offset) (paramType (typeAt image.typeFormat) entry.type) w := by
    cases type : entry.type with
    | base p byReference =>
      apply (Ends.primitive p).bind
      intro target t _ _
      cases byReference with
      | false => exact Ends.pure fun offset described => by cases described
      | true => exact fun sized => ⟨.of_same sized rfl, fun offset described => by cases described⟩
    | described offset =>
      apply (type_ends image _ (refers offset type) w).map
      rintro found t described _ ⟨⟩
      exact described.covered
  apply typed.bind
  intro id t _ covered
  exact Ends.pure covered

/-- A procedure that decodes was traced to the end. -/
theorem procedure_ends {slot : UInt16} (names : NameLookup) (among : slot ∈ image.procOffsets)
    (own : slot ≠ Procedure.inherited) :
    Ends image (fun _ => Traced image slot) (procedure image names slot.toNat) w := by
  unfold procedure
  cases parsed : Procedure.parse image.procFormat slot.toNat with
  | error fault =>
    apply Ends.throw
    intro legible
    obtain ⟨procedure, again, _⟩ := legible.procedures slot among own
    cases again.symm.trans parsed
  | ok procedure =>
    have whole : image.Legible → procedure.entries.fault = none := by
      intro legible
      obtain ⟨_, again, whole⟩ := legible.procedures slot among own
      cases again.symm.trans parsed
      exact whole
    show Ends image _ (method (typeAt image.typeFormat) names procedure) w
    have each : ∀ entry ∈ procedure.entries.items, ∀ t, Ends image
        (fun _ u => ∀ offset, entry.type = .described offset →
          Covered image.typeFormat u.offsets offset) (entryType (typeAt image.typeFormat) entry) t := by
      intro entry listed t
      exact entryType_ends fun offset described => .parameter among own parsed listed described
    apply (Ends.mapM each fun reached follows offset described =>
      (reached offset described).mono follows.subset).bind
    intro entries _ _ covered
    apply (Ends.check whole).bind
    rintro _ t _ ⟨rfl, whole⟩
    have traced : Traced image slot t := ⟨procedure, parsed, whole, covered⟩
    have result : Ends image (fun _ u => t.Follows image.typeFormat u) (resultType entries) t := by
      unfold resultType
      cases (entries.filter (·.1.isReturn)).getLast? with
      | some entry => exact fun sized => ⟨.of_same sized rfl, .of_same sized rfl⟩
      | none => exact fun sized => ⟨.of_same sized rfl, .of_same sized rfl⟩
    apply result.bind
    intro returnType u _ follows
    exact Ends.pure (traced.follows follows)

/-- The procedures of some slots are all decoded, or decoding stops at one of them. -/
theorem methods_ends (names : NameLookup) {slots : List (UInt16 × Nat)}
    (among : ∀ slot ∈ slots, slot.1 ∈ image.procOffsets) (sized : w.Sized image.typeFormat) :
    (∃ found w', methods image names slots w = ((found, []), w') ∧
      w.Follows image.typeFormat w' ∧
      ∀ slot ∈ slots, slot.1 ≠ Procedure.inherited → Traced image slot.1 w') ∨
    ∃ found slot fault w', methods image names slots w = ((found, [⟨some slot, fault⟩]), w') ∧
      (fault.TooDeep ∨ ¬ image.Legible) := by
  induction slots generalizing w with
  | nil => exact .inl ⟨[], w, rfl, .of_same sized rfl, fun _ member => absurd member List.not_mem_nil⟩
  | cons entry rest ih =>
    obtain ⟨offset, slot⟩ := entry
    have others : ∀ slot ∈ rest, slot.1 ∈ image.procOffsets :=
      fun slot member => among slot (List.mem_cons_of_mem _ member)
    rw [methods]
    by_cases skipped : offset = Procedure.inherited
    · rw [if_pos skipped]
      rcases ih others sized with ⟨found, w', run, follows, traced⟩ | stopped
      · refine .inl ⟨found, w', run, follows, fun other member own => ?_⟩
        rcases List.mem_cons.mp member with rfl | later
        · exact absurd skipped own
        · exact traced other later own
      · exact .inr stopped
    · rw [if_neg skipped]
      have ended := procedure_ends names (among _ List.mem_cons_self) skipped sized
      cases run : procedure image names offset.toNat w with
      | error fault after =>
        rw [run] at ended
        exact .inr ⟨[], slot, fault, _, rfl, ended⟩
      | ok method after =>
        rw [run] at ended
        obtain ⟨first, own⟩ := ended
        rcases ih others first.sized with
          ⟨found, w', run', follows, traced⟩ | ⟨found, at_slot, fault, w', run', cause⟩
        · refine .inl ⟨method :: found, w', by simp [run'], first.trans follows,
            fun other member procedures => ?_⟩
          rcases List.mem_cons.mp member with rfl | later
          · exact own.follows follows
          · exact traced other later procedures
        · exact .inr ⟨method :: found, at_slot, fault, w', by simp [run'], cause⟩

/-- A walk through all procedures shows that the image is legible. -/
theorem legible_of_traced (start : w.offsets = []) {w' : Walker}
    (follows : w.Follows image.typeFormat w')
    (traced : ∀ slot ∈ image.procOffsets, slot ≠ Procedure.inherited → Traced image slot w') :
    image.Legible := by
  have records : ∀ offset ∈ w'.offsets,
      Settled image.typeFormat (Covered image.typeFormat w'.offsets) offset := by
    intro offset met
    rcases follows.settled offset met with before | settled
    · rw [start] at before
      cases before
    · exact settled
  -- All records are settled, so references do not lead out of what is covered.
  have covered : ∀ {offset}, image.Refers offset → Covered image.typeFormat w'.offsets offset := by
    have named : ∀ {offset target form}, Covered image.typeFormat w'.offsets offset →
        TypeForm.parse image.typeFormat offset = .ok form → form.Names target →
        Covered image.typeFormat w'.offsets target := by
      intro offset target form covered parsed names
      obtain ⟨_, again, _, targets⟩ := covered.settled records
      cases again.symm.trans parsed
      exact targets target names
    intro offset refers
    induction refers with
    | parameter among own parsed listed described =>
      obtain ⟨_, again, _, covered⟩ := traced _ among own
      cases again.symm.trans parsed
      exact covered _ listed _ described
    | pointer _ parsed ih => exact named ih parsed .pointer
    | member _ parsed listed ih => exact named ih parsed (.member listed)
    | element _ parsed ih => exact named ih parsed .element
  refine ⟨fun slot among own => ?_, fun offset refers => ?_⟩
  · obtain ⟨procedure, parsed, whole, _⟩ := traced slot among own
    exact ⟨procedure, parsed, whole⟩
  · obtain ⟨form, parsed, readable, _⟩ := (covered refers).settled records
    exact ⟨form, parsed, readable⟩

/-- Decoding ends without an issue only if the image is legible. If there is an issue, the image is not
legible or the walk has gone too deep. -/
theorem methods_legible (image : ProxyImage) (names : NameLookup) (start : w.memo = .empty) :
    ((methods image names image.procOffsets.zipIdx w).1.2 = [] ∧ image.Legible) ∨
    ∃ slot fault, (methods image names image.procOffsets.zipIdx w).1.2 = [⟨some slot, fault⟩] ∧
      (fault.TooDeep ∨ ¬ image.Legible) := by
  have sized : w.Sized image.typeFormat := fun offset found known => by simp [start] at known
  have among : ∀ slot ∈ image.procOffsets.zipIdx, slot.1 ∈ image.procOffsets :=
    fun slot member => List.fst_mem_of_mem_zipIdx member
  rcases methods_ends names among sized with
    ⟨found, w', run, follows, traced⟩ | ⟨found, slot, fault, w', run, cause⟩
  · refine .inl ⟨by rw [run], legible_of_traced (by simp [offsets, start]) follows ?_⟩
    intro slot member own
    obtain ⟨index, found⟩ := List.mem_iff_getElem?.mp member
    exact traced (slot, index) (List.mk_mem_zipIdx_iff_getElem?.mpr found) own
  · exact .inr ⟨slot, fault, by rw [run], cause⟩

end Procedures

end Walk

end ComTypes

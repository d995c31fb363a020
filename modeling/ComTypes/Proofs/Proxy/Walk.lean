import ComTypes.Proofs.Proxy.Stage

/-!
# Traversing the formats of a proxy

Building a type (`type_stage`) and a method (`method_stage`) is a stage, and if it succeeds, every record
that was added is complete. The recursion follows the levels of `Walk.type`; its cases are the type
descriptions, of which structures are the ones that open and close a record (`structType_stage`).

Decoding goes on to the first procedure that fails. `methods_decoded` says what it leaves: everything up
to some stage is complete and kept, and what was added after that stage is discarded.
-/

namespace ComTypes.Walk

open Walker

variable {r : Regime} {w : Walker}

/-! ### Stages -/

/-- An array of a type that may be named may be named. -/
theorem fixedArray_stage (sound : w.Sound r) (total elementAt : Nat) {element : TypeId × Nat}
    (named : w.graph.Nameable (w.regime r) element.1) :
    Outcome (w.Stage r) (Built r w) (fixedArray total element elementAt w) := by
  unfold fixedArray
  by_cases uneven : element.2 = 0 ∨ total % element.2 ≠ 0
  · rw [if_pos uneven]
    exact Outcome.of_throw (.refl sound)
  · rw [if_neg uneven]
    refine intern_stage sound fun t member => ?_
    rwa [List.mem_singleton.mp member]

/-- A type that is found after others were built. -/
theorem Built.since {t u : Walker} {id : TypeId} (before : FilledSince r w t) (sound : t.Sound r)
    (stage : t.Stage r u) (built : Built r t id u) : Built r w id u :=
  ⟨built.1, before.trans built.2 sound stage⟩

/-- The record and all records that were added while its members were built are complete. -/
theorem close_filled {w₁ w₂ : Walker} {id : TypeId} {types : List TypeId} (opened : Opened w id w₁)
    (stage : w₁.Stage r w₂) (filled : FilledSince r w₁ w₂)
    (named : ∀ t ∈ types, w₂.graph.Nameable (w₂.regime r) t) :
    FilledSince r w { w₂ with graph := w₂.graph.modify id (closed types) } := by
  have grows : w₂.graph.Grows (w₂.graph.modify id (closed types)) :=
    .of_modify (fun _ => rfl) fun _ _ => .inr rfl
  intro j member other
  by_cases same : j = id
  · subst same
    obtain ⟨node₁, found₁, used⟩ := opened.used
    have met : j ∈ w₁.recordIds := by simp [opened.last]
    obtain ⟨node₂, found₂, alike⟩ := stage.alike found₁ fun _ => met
    refine ⟨closed types node₂, Graph.node?_modify_self _ found₂, alike.retired.trans used, rfl,
      fun t inside => ?_⟩
    rw [closed, targets_fields] at inside
    exact (named t inside).grows stage.sound.graph grows
  · have apart : j ∉ w₁.recordIds := by
      rw [opened.last]
      simp [other, same]
    obtain ⟨node, found, used, complete, targets⟩ := (filled j member apart).filled
    refine ⟨node, (Graph.node?_modify_of_ne _ (Ne.symm same)).trans found, used, complete,
      fun t inside => ?_⟩
    exact (targets t inside).grows stage.sound.graph grows

/-- What building the type at any offset does. -/
def TypeStage (r : Regime) (inner : Nat → Walk (TypeId × Nat)) : Prop :=
  ∀ (w : Walker) (offset : Nat), w.Sound r →
    Outcome (w.Stage r) (fun found t => Built r w found.1 t) (inner offset w)

section

variable {inner : Nat → Walk (TypeId × Nat)} (staged : TypeStage r inner)

include staged

theorem memberType_stage (sound : w.Sound r) (member : StructMember) :
    Outcome (w.Stage r) (Built r w) (memberType inner member w) := by
  cases member with
  | base p => exact primitive_stage sound p
  | described target => exact (staged w target sound).map fun _ _ _ built => built

/-- A structure: its record is opened, its members are built, and the record is closed. When a
member fails the record stays open; whoever asked for it has to take it out of use. -/
theorem structType_stage {offset size : Nat} {members : Listing StructMember} (sound : w.Sound r)
    (unmet : w.memo.get? offset = none) :
    Outcome (w.Stage r) (fun found t => Built r w found.1 t)
      (formType inner offset (.struct size members) w) := by
  have progress := stage_progress r
  refine Outcome.bind (openRecord_stage sound unmet) fun id w₁ first opened => ?_
  have each : ∀ member ∈ members.items, ∀ t, w₁.Stage r t → w₁.Stage r t ∧ FilledSince r w₁ t →
      Outcome (t.Stage r)
        (fun id u => (u.Sound r ∧ u.graph.Nameable (u.regime r) id) ∧
          w₁.Stage r u ∧ FilledSince r w₁ u)
        (memberType inner member t) := by
    intro member _ t before ⟨_, filled⟩
    refine (memberType_stage staged before.sound member).imp (fun _ h => h)
      fun id u stage built => ?_
    have since := built.since filled before.sound stage
    exact ⟨⟨stage.sound, since.1⟩, before.trans stage, since.2⟩
  have lasting : ∀ (id : TypeId) (t u : Walker), t.Sound r ∧ t.graph.Nameable (t.regime r) id →
      t.Stage r u → u.Sound r ∧ u.graph.Nameable (u.regime r) id := by
    rintro id t u ⟨sound, named⟩ stage
    exact ⟨stage.sound, Nameable.lasting named sound stage⟩
  have built := progress.mapM_keeping (.refl first.sound)
    ⟨Stage.refl first.sound, FilledSince.of_same rfl⟩ each lasting
  refine Outcome.bind (progress.since first built)
    fun types w₂ stage ⟨named, second, filled⟩ => ?_
  cases members.fault with
  | some fault => exact Outcome.of_throw stage
  | none =>
    have member : id ∈ w₂.recordIds := second.recordIds_subset (by simp [opened.last])
    have types_named := fun t inside => (named t inside).2
    have close := Stage.close stage member opened.fresh types_named
    exact ⟨close, close.sound.nameable_record member,
      close_filled opened second filled types_named⟩

/-- A description that has not been met decodes to a type that may be named. -/
theorem formType_stage {offset : Nat} (sound : w.Sound r) (unmet : w.memo.get? offset = none)
    (form : TypeForm) :
    Outcome (w.Stage r) (fun found t => Built r w found.1 t) (formType inner offset form w) := by
  have progress := stage_progress r
  cases form with
  | base p size =>
    refine progress.bind (primitive_stage sound p) fun id t stage built => ?_
    exact Outcome.of_pure (.refl stage.sound) built
  | interfacePointer iid =>
    refine progress.bind (interface_stage sound iid) fun target t first ⟨named, filled⟩ => ?_
    refine progress.bind (pointerTo_stage first.sound named) fun id u second built => ?_
    exact Outcome.of_pure (.refl second.sound) (built.since filled first.sound second)
  | simplePointer p =>
    refine progress.bind (primitive_stage sound p) fun target t first ⟨named, filled⟩ => ?_
    refine progress.bind (pointerTo_stage first.sound named) fun id u second built => ?_
    exact Outcome.of_pure (.refl second.sound) (built.since filled first.sound second)
  | pointer target =>
    refine progress.bind (staged w target sound) fun target t first ⟨named, filled⟩ => ?_
    refine progress.bind (pointerTo_stage first.sound named) fun id u second built => ?_
    exact Outcome.of_pure (.refl second.sound) (built.since filled first.sound second)
  | struct size members => exact structType_stage staged sound unmet
  | fixedArray total element elementAt =>
    have elements : Outcome (w.Stage r) (fun found t => Built r w found.1 t)
        (elementType inner element w) := by
      cases element with
      | base p size =>
        refine progress.bind (primitive_stage sound p) fun id t stage built => ?_
        exact Outcome.of_pure (.refl stage.sound) built
      | described target => exact staged w target sound
    refine progress.bind elements fun element t first ⟨named, filled⟩ => ?_
    refine progress.bind (fixedArray_stage first.sound total elementAt named)
      fun id u second built => ?_
    exact Outcome.of_pure (.refl second.sound) (built.since filled first.sound second)

theorem paramType_stage (sound : w.Sound r) (type : ParamType) :
    Outcome (w.Stage r) (Built r w) (paramType inner type w) := by
  cases type with
  | base p byReference =>
    refine (stage_progress r).bind (primitive_stage sound p) fun id t first built => ?_
    cases byReference with
    | false => exact Outcome.of_pure (.refl first.sound) built
    | true =>
      exact (pointerTo_stage first.sound built.1).imp (fun _ h => h)
        fun _ _ second pointer => pointer.since built.2 first.sound second
  | described offset => exact (staged w offset sound).map fun _ _ _ built => built

end

/-- Building a type is a stage. If it succeeds, the type may be named and every record that was
added is complete. -/
theorem type_stage (format : Bytes) (levels : Nat) : TypeStage r (type format levels) := by
  induction levels with
  | zero => exact fun w offset sound => Outcome.of_throw (.refl sound)
  | succ levels ih =>
    intro w offset sound
    rw [type]
    refine Outcome.of_get ?_
    cases met : w.memo.get? offset with
    | some known =>
      exact Outcome.of_pure (.refl sound)
        ⟨sound.nameable_record (mem_recordIds_of_memo met), .of_same rfl⟩
    | none =>
      refine (stage_progress r).bind (lift_stage sound _) ?_
      rintro form t - ⟨rfl, _⟩
      exact formType_stage ih sound met form

/-! ### Methods -/

/-- A parameter has the type of an entry. -/
theorem mem_parameters {names : NameLookup} {member : Int32} {p : Parameter}
    {entries : List (ParamEntry × TypeId)} (inside : p ∈ parameters names member entries) :
    ∃ entry ∈ entries, p.type = entry.2 := by
  obtain ⟨⟨entry, ordinal⟩, indexed, rfl⟩ := List.mem_map.mp inside
  have among := List.fst_mem_of_mem_zipIdx indexed
  exact ⟨entry, (List.mem_filter.mp among).1, rfl⟩

/-- The result of a procedure may be named. -/
theorem resultType_stage (sound : w.Sound r) {entries : List (ParamEntry × TypeId)}
    (named : ∀ entry ∈ entries, w.graph.Nameable (w.regime r) entry.2) :
    Outcome (w.Stage r) (Built r w) (resultType entries w) := by
  unfold resultType
  cases last : (entries.filter (·.1.isReturn)).getLast? with
  | some entry =>
    have among := List.mem_filter.mp (List.mem_of_getLast? last)
    exact Outcome.of_pure (.refl sound) ⟨named entry among.1, .of_same rfl⟩
  | none => exact primitive_stage sound .void

/-- The types of the method may be named, and records added on the way are complete. -/
def MethodBuilt (r : Regime) (w : Walker) (method : Method) (w' : Walker) : Prop :=
  (∀ t ∈ method.types, w'.graph.Nameable (w'.regime r) t) ∧ FilledSince r w w'

/-- A method is built of types that may be named. -/
theorem method_stage {inner : Nat → Walk (TypeId × Nat)} (staged : TypeStage r inner)
    (sound : w.Sound r) (names : NameLookup) (procedure : Procedure) :
    Outcome (w.Stage r) (MethodBuilt r w) (method inner names procedure w) := by
  have progress := stage_progress r
  have each : ∀ entry ∈ procedure.entries.items, ∀ t, w.Stage r t → FilledSince r w t →
      Outcome (t.Stage r)
        (fun typed u => (u.Sound r ∧ u.graph.Nameable (u.regime r) typed.2) ∧ FilledSince r w u)
        (entryType inner entry t) := by
    intro entry _ t before filled
    refine progress.bind (paramType_stage staged before.sound entry.type) fun id u stage built => ?_
    have since := built.since filled before.sound stage
    exact Outcome.of_pure (.refl stage.sound) ⟨⟨stage.sound, since.1⟩, since.2⟩
  have lasting : ∀ (typed : ParamEntry × TypeId) (t u : Walker),
      t.Sound r ∧ t.graph.Nameable (t.regime r) typed.2 → t.Stage r u →
      u.Sound r ∧ u.graph.Nameable (u.regime r) typed.2 := by
    rintro typed t u ⟨sound, named⟩ stage
    exact ⟨stage.sound, Nameable.lasting named sound stage⟩
  refine progress.bind (progress.mapM_keeping (.refl sound) (FilledSince.of_same rfl) each lasting)
    fun entries t first ⟨named, filled⟩ => ?_
  cases procedure.entries.fault with
  | some fault => exact Outcome.of_throw (.refl first.sound)
  | none =>
    show Outcome (t.Stage r) (MethodBuilt r w) ((resultType entries >>= fun returnType =>
      pure (typedMethod names procedure.number entries returnType)) t)
    refine progress.bind (resultType_stage first.sound fun entry inside => (named entry inside).2)
      fun returnType u second result => ?_
    refine Outcome.of_pure (.refl second.sound) ⟨fun x inside => ?_,
      (result.since filled first.sound second).2⟩
    rcases List.mem_cons.mp inside with rfl | inside
    · exact result.1
    · obtain ⟨p, among, rfl⟩ := List.mem_map.mp inside
      obtain ⟨entry, member, same⟩ := mem_parameters among
      rw [same]
      exact Nameable.lasting (named entry member).2 first.sound second

/-- A procedure decodes to a method built of types that may be named. -/
theorem procedure_stage (sound : w.Sound r) (image : ProxyImage) (names : NameLookup)
    (offset : Nat) :
    Outcome (w.Stage r) (MethodBuilt r w) (procedure image names offset w) := by
  refine (stage_progress r).bind (lift_stage sound _) ?_
  rintro parsed t - ⟨rfl, _⟩
  exact method_stage (type_stage image.typeFormat _) sound names parsed

/-! ### All methods -/

/-- What decoding leaves behind. Up to `kept` every procedure succeeded; what was added between
`kept` and `failed` is discarded. -/
structure Decoded (r : Regime) (w : Walker) (methods : List Method) (kept failed last : Walker) :
    Prop where
  succeeded : w.Stage r kept
  filled : FilledSince r w kept
  named : ∀ method ∈ methods, ∀ t ∈ method.types, kept.graph.Nameable (kept.regime r) t
  broken : kept.Stage r failed
  last_eq : last = failed.discardSince kept.created.length

theorem discardSince_length (w : Walker) : w.discardSince w.created.length = w := by
  rw [discardSince, List.drop_length, List.take_length, List.foldl_nil]

/-- A decode splits into what was kept and what failed. -/
theorem methods_decoded (image : ProxyImage) (names : NameLookup) (slots : List (UInt16 × Nat))
    (sound : w.Sound r) :
    ∃ kept failed, Decoded r w (methods image names slots w).1.1 kept failed
      (methods image names slots w).2 := by
  induction slots generalizing w with
  | nil =>
    exact ⟨w, w, .refl sound, .of_same rfl, fun _ member => absurd member List.not_mem_nil, .refl sound,
      (discardSince_length w).symm⟩
  | cons entry rest ih =>
    obtain ⟨offset, slot⟩ := entry
    unfold methods
    by_cases skipped : offset = Procedure.inherited
    · rw [if_pos skipped]
      exact ih sound
    · rw [if_neg skipped]
      have stage := procedure_stage sound image names offset.toNat
      cases run : procedure image names offset.toNat w with
      | error fault after =>
        rw [run] at stage
        exact ⟨w, after, .refl sound, .of_same rfl, fun _ member => absurd member List.not_mem_nil,
          stage, rfl⟩
      | ok method after =>
        rw [run] at stage
        obtain ⟨first, named, filled⟩ := stage
        obtain ⟨kept, failed, decoded⟩ := ih first.sound
        refine ⟨kept, failed, first.trans decoded.succeeded,
          filled.trans decoded.filled first.sound decoded.succeeded, fun m member t inside => ?_,
          decoded.broken, decoded.last_eq⟩
        rcases List.mem_cons.mp member with rfl | later
        · exact Nameable.lasting (named t inside) first.sound decoded.succeeded
        · exact decoded.named m later t inside

end ComTypes.Walk

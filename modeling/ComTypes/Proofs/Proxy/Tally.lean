import ComTypes.Proofs.Graph.Unfolding
import ComTypes.Proofs.Proxy.Extent
import ComTypes.Proofs.Proxy.Legible

/-!
# What a walk keeps

Beyond being a stage, a walk through a type format keeps its records in order: the `k`-th one is named
after its place, every record stands where a structure of its size is described, and an array node that
was made since the walk began has as many elements as fill the array that the format describes
(`Walker.Kept`). The recursion is that of `Walk.type` again (`type_keeps`); here it also says that the size
which comes with a node is that of the description at the offset.
-/

namespace ComTypes

/-- The size of the element of an array. -/
inductive ArrayElement.HasSize (format : Bytes) : ArrayElement → Nat → Prop
  | base (primitive : Primitive) (size : Nat) : HasSize format (.base primitive size) size
  | described {target : Nat} {form : TypeForm} : TypeForm.parse format target = .ok form →
      HasSize format (.described target) form.size

/-- The elements have a size, and as many of them as the bound says fill the total. -/
def ArrayBound.Fills (format : Bytes) (total : Nat) (element : ArrayElement) (bound : ArrayBound) :
    Prop :=
  ∃ (size : Nat) (count : UInt32), element.HasSize format size ∧ 0 < size ∧
    count.toNat * size = total ∧ bound = .fixed [⟨count, 0⟩]

/-- The format describes an array that its elements fill with this bound. -/
def ArrayBound.Tiles (format : Bytes) (bound : ArrayBound) : Prop :=
  ∃ offset total element elementAt,
    TypeForm.parse format offset = .ok (.fixedArray total element elementAt) ∧
    bound.Fills format total element

/-- The number of elements does not overflow, as the total is a number of two bytes. -/
theorem ArrayBound.Fills.of_divides {format : Bytes} {total size : Nat} {element : ArrayElement}
    (small : total < 65536) (sized : element.HasSize format size)
    (even : ¬ (size = 0 ∨ total % size ≠ 0)) :
    ArrayBound.Fills format total element (.fixed [⟨UInt32.ofNat (total / size), 0⟩]) := by
  rw [not_or, not_not] at even
  have count : (UInt32.ofNat (total / size)).toNat = total / size := by
    have smaller := Nat.div_le_self total size
    exact UInt32.toNat_ofNat_of_lt' (by simp [UInt32.size]; omega)
  refine ⟨size, _, sized, Nat.pos_of_ne_zero even.1, ?_, rfl⟩
  rw [count]
  exact Nat.div_mul_cancel (Nat.dvd_of_mod_eq_zero even.2)

/-! ### New nodes -/

namespace Graph

variable {g : Graph} {id : TypeId} {node : Node}

/-- A node found after interning stood there before or is the one asked for. -/
theorem of_node?_intern {s : Structural} (found : (g.intern s).2.node? id = some node) :
    g.node? id = some node ∨ node.body = .structural s := by
  cases known : g.byStructure.get? s with
  | some other =>
    rw [intern_of_found known] at found
    exact .inl found
  | none =>
    rcases WellFormed.of_appends (appends_intern known) found with ⟨_, rfl⟩ | ⟨_, old⟩
    · exact .inr rfl
    · exact .inl old

/-- A node found after looking up an interface stood there before or is one. -/
theorem of_node?_externalInterface {iid : Guid}
    (found : (g.externalInterface iid none).2.node? id = some node) :
    g.node? id = some node ∨ node.body = .interface {} := by
  cases known : g.findGuid? iid with
  | some other =>
    rw [externalInterface_of_found known] at found
    exact .inl found
  | none =>
    rcases WellFormed.of_appends (appends_external "" (.interface {}) known) found with
      ⟨_, rfl⟩ | ⟨_, old⟩
    · exact .inr rfl
    · exact .inl old

end Graph

namespace Walker

variable {r : Regime} {format : Bytes} {first : Nat} {w w' : Walker}

/-- The records are named in order and have the sizes of structures, and the arrays among the nodes from
`first` on are filled by their elements. -/
structure Kept (format : Bytes) (first : Nat) (w : Walker) : Prop where
  named : w.Named
  sized : w.Sized format
  tiled : ∀ {id node element bound}, first ≤ id → w.graph.node? id = some node →
    node.body = .structural (.array element bound) → bound.Tiles format

/-- A step on the graph that keeps its nodes and makes no other arrays. -/
theorem Kept.withGraph (kept : w.Kept format first) {g : Graph} (keeps : w.graph.Keeps g)
    (tiled : ∀ id node element bound, g.node? id = some node →
      node.body = .structural (.array element bound) →
      w.graph.node? id = some node ∨ bound.Tiles format) :
    Kept format first { w with graph := g } where
  named k offset met := by
    obtain ⟨id, node, known, found, name⟩ := kept.named k offset met
    exact ⟨id, node, known, keeps.node found, name⟩
  sized := kept.sized
  tiled late found body :=
    (tiled _ _ _ _ found body).elim (fun old => kept.tiled late old body) fun fits => fits

/-- The walk has gone on, and the records are still in order. -/
def Proceeds (r : Regime) (format : Bytes) (first : Nat) (w w' : Walker) : Prop :=
  w.Stage r w' ∧ w'.Kept format first

theorem proceeds_progress (r : Regime) (format : Bytes) (first : Nat) :
    Progress (Proceeds r format first) where
  trans before after := ⟨before.1.trans after.1, after.2⟩
  here h := ⟨.refl h.1.sound, h.2⟩

theorem Proceeds.refl (sound : w.Sound r) (kept : w.Kept format first) :
    w.Proceeds r format first w := ⟨.refl sound, kept⟩

end Walker

namespace Walk

open Walker

variable {r : Regime} {format : Bytes} {first : Nat} {w w' : Walker}

/-- Interning keeps the tally if an array is one that the format bounds. -/
theorem intern_keeps (sound : w.Sound r) (kept : w.Kept format first) {s : Structural}
    (targets : ∀ t ∈ s.targets, w.graph.Nameable (w.regime r) t)
    (tiled : ∀ element bound, s = .array element bound → bound.Tiles format) :
    Outcome (w.Proceeds r format first) (Built r w) (onGraph (·.intern s) w) := by
  obtain ⟨stage, built⟩ := intern_stage sound targets
  refine ⟨⟨stage, kept.withGraph (Graph.intern_keeps s) fun id node element bound found body => ?_⟩,
    built⟩
  refine (Graph.of_node?_intern found).imp_right fun same => tiled element bound ?_
  exact Body.structural.inj (same.symm.trans body)

theorem primitive_keeps (sound : w.Sound r) (kept : w.Kept format first) (p : Primitive) :
    Outcome (w.Proceeds r format first) (Built r w) (primitive p w) := by
  refine intern_keeps sound kept (fun _ member => nomatch member) ?_
  rintro element bound ⟨⟩

theorem pointerTo_keeps (sound : w.Sound r) (kept : w.Kept format first) {target : TypeId}
    (named : w.graph.Nameable (w.regime r) target) :
    Outcome (w.Proceeds r format first) (Built r w) (pointerTo target w) := by
  refine intern_keeps sound kept (fun t member => ?_) ?_
  · rwa [List.mem_singleton.mp member]
  · rintro element bound ⟨⟩

theorem interface_keeps (sound : w.Sound r) (kept : w.Kept format first) (iid : Guid) :
    Outcome (w.Proceeds r format first) (Built r w) (onGraph (·.externalInterface iid none) w) := by
  obtain ⟨stage, built⟩ := interface_stage sound iid
  refine ⟨⟨stage, kept.withGraph (Graph.externalInterface_keeps iid)
    fun id node element bound found body => ?_⟩, built⟩
  exact (Graph.of_node?_externalInterface found).imp_right fun same => nomatch same.symm.trans body

/-- The elements of an array fill it. -/
theorem fixedArray_keeps (sound : w.Sound r) (kept : w.Kept format first)
    {offset total elementAt : Nat} {described : ArrayElement} {element : TypeId × Nat}
    (parsed : TypeForm.parse format offset = .ok (.fixedArray total described elementAt))
    (named : w.graph.Nameable (w.regime r) element.1) (sized : described.HasSize format element.2) :
    Outcome (w.Proceeds r format first) (Built r w) (fixedArray total element elementAt w) := by
  unfold fixedArray
  by_cases uneven : element.2 = 0 ∨ total % element.2 ≠ 0
  · rw [if_pos uneven]
    exact Outcome.of_throw (.refl sound kept)
  · rw [if_neg uneven]
    refine intern_keeps sound kept (fun t member => ?_) fun _ bound same => ?_
    · rwa [List.mem_singleton.mp member]
    · cases same
      exact ⟨offset, total, described, elementAt, parsed,
        .of_divides (TypeForm.parse_fits parsed).2 sized uneven⟩

/-! ### Records -/

/-- The record that is opened is named after the number of those before it. -/
theorem openRecord_keeps {offset size : Nat} {members : Listing StructMember} (sound : w.Sound r)
    (kept : w.Kept format first) (unmet : w.memo.get? offset = none)
    (parsed : TypeForm.parse format offset = .ok (.struct size members)) :
    Outcome (w.Proceeds r format first) (Opened w) (openRecord offset size w) := by
  have stage : Outcome (w.Stage r) (Opened w) (openRecord offset size w) :=
    openRecord_stage sound unmet
  obtain ⟨id, graph, previous, run⟩ := openRecord_enters offset size w
  have inside : w.Inside := fun id member => (sound.isRecord id member).lt_size
  have opens := openRecord_opens inside unmet run
  obtain ⟨opened, found, same⟩ := opens.opened
  rw [run] at stage ⊢
  refine ⟨⟨stage.1, fun k other met => ?_, kept.sized.enter parsed id,
    fun {other node element bound} late found' body => ?_⟩, stage.2⟩
  · show ∃ j node, (w.current.insert offset id).get? other = some j ∧ _
    rw [Table.get?_insert]
    have listed : (w.created ++ [offset])[k]? = some other := met
    rw [List.getElem?_append] at listed
    split at listed
    next earlier =>
      obtain ⟨j, node, known, old, name⟩ := kept.named k other listed
      have before := List.mem_of_getElem? listed
      obtain ⟨_, among, known'⟩ := sound.agree.exists_current before
      cases known.symm.trans known'
      have apart : other ≠ offset := fun here =>
        Table.get?_eq_none_iff.mp unmet (sound.agree.mem_created.mp (here ▸ before))
      rw [if_neg apart]
      exact ⟨j, node, known, stage.1.untouched old fun _ => among, name⟩
    next late =>
      obtain ⟨last, rfl⟩ : k - w.created.length = 0 ∧ other = offset := by
        simpa [List.getElem?_singleton, eq_comm] using listed
      have place : k = w.created.length := by omega
      rw [if_pos rfl]
      refine ⟨id, opened, rfl, found, ?_⟩
      rw [← same, place]
      rfl
  · by_cases here : other = id
    · subst here
      cases found'.symm.trans found
      rw [← same] at body
      cases body
    · exact kept.tiled late ((opens.others here).symm.trans found') body

/-- Filling a record changes no name and makes no array. -/
theorem Kept.close (kept : w.Kept format first) (id : TypeId) (types : List TypeId) :
    Kept format first { w with graph := w.graph.modify id (closed types) } where
  named k offset met := by
    obtain ⟨record, node, known, found, name⟩ := kept.named k offset met
    by_cases here : id = record
    · rw [here]
      exact ⟨record, _, known, Graph.node?_modify_self _ found, name⟩
    · exact ⟨record, node, known, (Graph.node?_modify_of_ne _ here).trans found, name⟩
  sized := kept.sized
  tiled late found body := by
    rcases Graph.of_node?_modify found with ⟨_, old⟩ | ⟨_, node, _, rfl⟩
    · exact kept.tiled late old body
    · cases body

/-! ### Types -/

/-- What building the type at any offset keeps. -/
def TypeKeeps (r : Regime) (format : Bytes) (first : Nat) (inner : Nat → Walk (TypeId × Nat)) : Prop :=
  ∀ (w : Walker) (offset : Nat), w.Sound r → w.Kept format first →
    Outcome (w.Proceeds r format first) (fun found t => Built r w found.1 t ∧
      ∃ form, TypeForm.parse format offset = .ok form ∧ form.size = found.2) (inner offset w)

section

variable {inner : Nat → Walk (TypeId × Nat)} {offset : Nat} (keeps : TypeKeeps r format first inner)

include keeps

theorem memberType_keeps (sound : w.Sound r) (kept : w.Kept format first) (member : StructMember) :
    Outcome (w.Proceeds r format first) (Built r w) (memberType inner member w) := by
  cases member with
  | base p => exact primitive_keeps sound kept p
  | described target => exact (keeps w target sound kept).map fun _ _ _ built => built.1

theorem elementType_keeps (sound : w.Sound r) (kept : w.Kept format first) (element : ArrayElement) :
    Outcome (w.Proceeds r format first)
      (fun found t => Built r w found.1 t ∧ element.HasSize format found.2)
      (elementType inner element w) := by
  cases element with
  | base p size =>
    refine (proceeds_progress r format first).bind (primitive_keeps sound kept p)
      fun id t stage built => ?_
    exact Outcome.of_pure (.refl stage.1.sound stage.2) ⟨built, .base p size⟩
  | described target =>
    refine (keeps w target sound kept).imp (fun _ h => h) ?_
    rintro found t - ⟨built, form, parsed, size⟩
    exact ⟨built, size ▸ .described parsed⟩

/-- A structure has the size that was read. -/
theorem structType_keeps {size : Nat} {members : Listing StructMember} (sound : w.Sound r)
    (kept : w.Kept format first) (unmet : w.memo.get? offset = none)
    (parsed : TypeForm.parse format offset = .ok (.struct size members)) :
    Outcome (w.Proceeds r format first) (fun found _ => found.2 = size)
      (formType inner offset (.struct size members) w) := by
  have progress := proceeds_progress r format first
  refine Outcome.bind (openRecord_keeps sound kept unmet parsed) fun id w₁ before opened => ?_
  have named : Outcome (w₁.Proceeds r format first)
      (fun types t => ∀ type ∈ types, t.Sound r ∧ t.graph.Nameable (t.regime r) type)
      (members.items.mapM (memberType inner) w₁) := by
    refine progress.mapM (.refl before.1.sound before.2) (fun member _ t after => ?_) ?_
    · refine (memberType_keeps keeps after.1.sound after.2 member).imp (fun _ h => h) ?_
      exact fun type u later built => ⟨later.1.sound, built.1⟩
    · rintro type t u ⟨sound, named⟩ later
      exact ⟨later.1.sound, Nameable.lasting named sound later.1⟩
  have since := named.imp (fun _ after => progress.trans before after)
    fun types t after named => And.intro after.1 named
  refine Outcome.bind since fun types w₂ whole ⟨after, named⟩ => ?_
  cases members.fault with
  | some fault => exact Outcome.of_throw whole
  | none =>
    have member : id ∈ w₂.recordIds := after.recordIds_subset (by simp [opened.last])
    exact ⟨⟨Stage.close whole.1 member opened.fresh fun t inside => (named t inside).2,
      Kept.close whole.2 id types⟩, rfl⟩

/-- A description has the size that was read. -/
theorem formType_keeps {form : TypeForm} (sound : w.Sound r) (kept : w.Kept format first)
    (unmet : w.memo.get? offset = none) (parsed : TypeForm.parse format offset = .ok form) :
    Outcome (w.Proceeds r format first) (fun found _ => found.2 = form.size)
      (formType inner offset form w) := by
  have progress := proceeds_progress r format first
  have pointer : ∀ {t : Walker} {target : TypeId}, w.Proceeds r format first t →
      t.graph.Nameable (t.regime r) target → Outcome (t.Proceeds r format first)
        (fun found _ => found.2 = FormatChar.pointerSize)
        ((do return (← pointerTo target, FormatChar.pointerSize) : Walk (TypeId × Nat)) t) := by
    intro t target before named
    refine progress.bind (pointerTo_keeps before.1.sound before.2 named) fun id u after _ => ?_
    exact Outcome.of_pure (.refl after.1.sound after.2) rfl
  cases form with
  | base p size =>
    refine progress.bind (primitive_keeps sound kept p) fun id t after _ => ?_
    exact Outcome.of_pure (.refl after.1.sound after.2) rfl
  | interfacePointer iid =>
    refine progress.bind (interface_keeps sound kept iid) fun target t before built => ?_
    exact pointer before built.1
  | simplePointer p =>
    refine progress.bind (primitive_keeps sound kept p) fun target t before built => ?_
    exact pointer before built.1
  | pointer target =>
    refine progress.bind (keeps w target sound kept) fun target t before built => ?_
    exact pointer before built.1.1
  | struct size members => exact structType_keeps keeps sound kept unmet parsed
  | fixedArray total element elementAt =>
    refine progress.bind (elementType_keeps keeps sound kept element)
      fun found t before ⟨built, sized⟩ => ?_
    refine progress.bind (fixedArray_keeps before.1.sound before.2 parsed built.1 sized)
      fun id u after _ => ?_
    exact Outcome.of_pure (.refl after.1.sound after.2) rfl

theorem paramType_keeps (sound : w.Sound r) (kept : w.Kept format first) (type : ParamType) :
    Outcome (w.Proceeds r format first) (fun _ _ => True) (paramType inner type w) := by
  cases type with
  | base p byReference =>
    refine (proceeds_progress r format first).bind (primitive_keeps sound kept p)
      fun id t before built => ?_
    cases byReference with
    | false => exact Outcome.of_pure (.refl before.1.sound before.2) trivial
    | true =>
      exact (pointerTo_keeps before.1.sound before.2 built.1).imp (fun _ h => h)
        fun _ _ _ _ => trivial
  | described offset => exact (keeps w offset sound kept).map fun _ _ _ _ => trivial

theorem entryType_keeps (sound : w.Sound r) (kept : w.Kept format first) (entry : ParamEntry) :
    Outcome (w.Proceeds r format first) (fun _ _ => True) (entryType inner entry w) := by
  refine (proceeds_progress r format first).bind (paramType_keeps keeps sound kept entry.type)
    fun id t after _ => ?_
  exact Outcome.of_pure (.refl after.1.sound after.2) trivial

end

variable {levels offset : Nat}

/-- Building a type keeps the records in order, and comes with the size of the description. -/
theorem type_keeps (format : Bytes) (first levels : Nat) :
    TypeKeeps r format first (type format levels) := by
  induction levels with
  | zero => exact fun w offset sound kept => Outcome.of_throw (.refl sound kept)
  | succ levels ih =>
    intro w offset sound kept
    have built := type_stage format (levels + 1) w offset sound
    have sized : Outcome (w.Proceeds r format first) (fun found _ =>
        ∃ form, TypeForm.parse format offset = .ok form ∧ form.size = found.2)
        (type format (levels + 1) offset w) := by
      rw [type]
      refine Outcome.of_get ?_
      cases met : w.memo.get? offset with
      | some known =>
        obtain ⟨members, parsed⟩ := kept.sized offset known met
        exact Outcome.of_pure (.refl sound kept) ⟨_, parsed, rfl⟩
      | none =>
        cases parsed : TypeForm.parse format offset with
        | error fault => exact Outcome.of_throw (.refl sound kept)
        | ok form =>
          refine (formType_keeps ih sound kept met parsed).imp (fun _ h => h) ?_
          exact fun found _ _ size => ⟨form, rfl, size.symm⟩
    exact (built.and sized).imp (fun _ h => h.2) fun _ _ _ h => h

/-- The node that is built for an array has as many elements as fill it. -/
theorem type_fills {id : TypeId} {size total elementAt : Nat} {element : ArrayElement}
    (sound : w.Sound r) (kept : w.Kept format first)
    (parsed : TypeForm.parse format offset = .ok (.fixedArray total element elementAt))
    (run : type format levels offset w = .ok (id, size) w') :
    size = total ∧ ∃ target bound,
      w'.graph.body? id = some (.structural (.array target bound)) ∧
      bound.Fills format total element := by
  cases levels with
  | zero => cases run
  | succ levels =>
    -- A record stands where a structure is described.
    have unmet : w.memo.get? offset = none := by
      cases met : w.memo.get? offset with
      | none => rfl
      | some known =>
        obtain ⟨members, other⟩ := kept.sized offset known met
        cases parsed.symm.trans other
    rw [type, get_bind, unmet, parsed] at run
    obtain ⟨_, _, lifted, run⟩ := exists_of_bind_ok run
    cases lifted
    obtain ⟨found, t, built, run⟩ := exists_of_bind_ok run
    obtain ⟨made, u, interned, run⟩ := exists_of_bind_ok run
    cases run
    have elements := elementType_keeps (type_keeps format first levels) sound kept element
    rw [built] at elements
    unfold fixedArray at interned
    split at interned
    next => cases interned
    next even =>
      cases interned
      obtain ⟨node, here, same⟩ := elements.1.1.sound.graph.node?_intern
        (.array found.1 (.fixed [⟨UInt32.ofNat (size / found.2), 0⟩]))
      refine ⟨rfl, found.1, _, ?_,
        .of_divides (TypeForm.parse_fits parsed).2 elements.2.2 even⟩
      rw [Graph.body?]
      exact Option.map_eq_some_iff.mpr ⟨node, here, (Node.interned?_eq_some.mp same).2⟩

/-! ### Procedures -/

/-- Decoding a procedure keeps the tally. -/
theorem procedure_keeps {image : ProxyImage} (sound : w.Sound r)
    (kept : w.Kept image.typeFormat first) (names : NameLookup) (offset : Nat) :
    Outcome (w.Proceeds r image.typeFormat first) (fun _ _ => True)
      (procedure image names offset w) := by
  have progress := proceeds_progress r image.typeFormat first
  unfold procedure
  cases Procedure.parse image.procFormat offset with
  | error fault => exact Outcome.of_throw (.refl sound kept)
  | ok parsed =>
    show Outcome _ _ (method (typeAt image.typeFormat) names parsed w)
    refine progress.bind (progress.mapM_reached (.refl sound kept) fun entry _ t before =>
      entryType_keeps (type_keeps _ _ _) before.1.sound before.2 entry) fun entries t before _ => ?_
    cases parsed.entries.fault with
    | some fault => exact Outcome.of_throw (.refl before.1.sound before.2)
    | none =>
      show Outcome _ _ ((resultType entries >>= fun returnType =>
        pure (typedMethod names parsed.number entries returnType)) t)
      have result : Outcome (t.Proceeds r image.typeFormat first) (fun _ _ => True)
          (resultType entries t) := by
        unfold resultType
        cases (entries.filter (·.1.isReturn)).getLast? with
        | some entry => exact Outcome.of_pure (.refl before.1.sound before.2) trivial
        | none =>
          exact (primitive_keeps before.1.sound before.2 .void).imp (fun _ h => h)
            fun _ _ _ _ => trivial
      refine progress.bind result fun returnType u after _ => ?_
      exact Outcome.of_pure (.refl after.1.sound after.2) trivial

end Walk

end ComTypes

import ComTypes.Proofs.Assembly.Rebuild
import ComTypes.Proofs.Proxy.Walk

/-!
# Walking the formats of a proxy again

When a proxy is decoded again right away, every step of the second walk finds what the first has left: a
structure is interned, an interface is known by its IID, and each record stands under its offset among
the records of the previous decode. `Retraceable` says this of a step. It compares the walker `w` of the
first walk with the walker `v` of the second (`Retraces`). Both have met the same records, and with the
same contents. All other nodes of `v` are as they were at the start of the second walk, and its indexes
are those of the first walk in its end; so the second walk adds nothing.

Interfaces are found again by their IIDs only if these are not zero (`ProxyImage.NamesInterfaces`).
-/

namespace ComTypes

/-! ### Walkers of one walk -/

namespace Walker

/-- The records that the walker knows of are nodes of its graph. -/
def Inside (w : Walker) : Prop := ∀ id ∈ w.previousIds ++ w.recordIds, id < w.graph.size

/-- `w'` comes later than `w` in a walk without faults. Only records that it has met have changed. -/
structure Later (w w' : Walker) : Prop where
  inside : w'.Inside
  known : ∀ {offset found}, w.memo.get? offset = some found → w'.memo.get? offset = some found
  recordIds_subset : w.recordIds ⊆ w'.recordIds
  indexed : w.graph.Indexed w'.graph
  untouched : ∀ {id node}, w.graph.node? id = some node → id ∉ w'.recordIds →
    w'.graph.node? id = some node

variable {w w' w'' : Walker}

theorem Later.refl (inside : w.Inside) : w.Later w where
  inside := inside
  known found := found
  recordIds_subset := List.Subset.refl _
  indexed := .refl _
  untouched found _ := found

theorem Later.trans (first : w.Later w') (second : w'.Later w'') : w.Later w'' where
  inside := second.inside
  known found := second.known (first.known found)
  recordIds_subset := List.Subset.trans first.recordIds_subset second.recordIds_subset
  indexed := first.indexed.trans second.indexed
  untouched found other := by
    apply second.untouched _ other
    exact first.untouched found fun met => other (second.recordIds_subset met)

/-- A step on the graph alone that changes no node. -/
theorem Later.withGraph (inside : w.Inside) {g : Graph} (keeps : w.graph.Keeps g) :
    w.Later { w with graph := g } where
  inside id member := by
    obtain ⟨node, found⟩ := Graph.exists_node_of_lt (inside id member)
    exact Graph.lt_size_of_node? (keeps.node found)
  known found := found
  recordIds_subset := List.Subset.refl _
  indexed := keeps.toIndexed
  untouched found _ := keeps.node found

end Walker

/-! ### Two walks side by side -/

/-- The node with the contents of another. -/
def Node.refilled (frame node : Node) : Node :=
  { frame with name := node.name, body := node.body, retired := node.retired, state := node.state }

/-- The walker `v` of a second walk that began with the graph `g` stands where `w` stood in the first
walk, which ended with `last`. -/
structure Retraces (last : Walker) (g : Graph) (w v : Walker) : Prop where
  created : v.created = w.created
  memo : v.memo = w.memo
  /-- What will be met is left over from the first walk. -/
  previous : ∀ offset, v.previous.get? offset =
    if (w.memo.get? offset).isSome then none else (last.memo.get? offset).map (·.1)
  byGuid : v.graph.byGuid = last.graph.byGuid
  byStructure : v.graph.byStructure = last.graph.byStructure
  /-- Steps do not look at the rest of a node, so it need not be the same in between. -/
  met : ∀ {id node}, id ∈ w.recordIds → w.graph.node? id = some node →
    v.graph.node? id = (g.node? id).map (·.refilled node)
  others : ∀ {id}, id ∉ w.recordIds → v.graph.node? id = g.node? id

theorem Retraces.indexed {last w v : Walker} {g : Graph} (h : Retraces last g w v) :
    last.graph.Indexed v.graph where
  guid known := by rwa [Graph.findGuid?, h.byGuid]
  structural known := by rwa [h.byStructure]

/-- If the step succeeds, it can be taken again in a second walk, with the same value. -/
def Retraceable {α : Type} (step : Walk α) (w : Walker) : Prop :=
  w.Inside → ∀ {value w'}, step w = .ok value w' → w.Later w' ∧
    ∀ {last g v}, w'.Later last → Retraces last g w v →
      ∃ v', step v = .ok value v' ∧ Retraces last g w' v'

namespace Retraceable

open Walker Walk

variable {α β : Type} {w : Walker}

theorem pure (value : α) : Retraceable (pure value) w := by
  intro inside value' w' run
  cases run
  exact ⟨.refl inside, fun _ retraces => ⟨_, rfl, retraces⟩⟩

theorem throw (fault : Fault) : Retraceable (throw fault : Walk α) w := by
  intro inside value w' run
  cases run

theorem bind {step : Walk α} {next : α → Walk β} (first : Retraceable step w)
    (rest : ∀ {value w'}, step w = .ok value w' → w.Later w' → Retraceable (next value) w') :
    Retraceable (step >>= next) w := by
  intro inside result w'' run
  obtain ⟨value, w', ran, ran'⟩ := exists_of_bind_ok run
  obtain ⟨later, again⟩ := first inside ran
  obtain ⟨later', again'⟩ := rest ran later later.inside ran'
  refine ⟨later.trans later', fun {last g v} after retraces => ?_⟩
  obtain ⟨v', run', retraces'⟩ := again (later'.trans after) retraces
  obtain ⟨v'', run'', retraces''⟩ := again' after retraces'
  exact ⟨v'', (ok_bind run' next).trans run'', retraces''⟩

/-- Looking at something that both walkers have in common. -/
theorem get {next : Walker → Walk α} (h : Retraceable (next w) w)
    (same : ∀ {last g v}, Retraces last g w v → next v = next w) : Retraceable (get >>= next) w := by
  intro inside value w' run
  obtain ⟨later, again⟩ := h inside run
  refine ⟨later, fun {last g v} after retraces => ?_⟩
  rw [get_bind, same retraces]
  exact again after retraces

theorem map {step : Walk α} (f : α → β) (h : Retraceable step w) : Retraceable (f <$> step) w := by
  rw [map_eq_pure_bind]
  exact h.bind fun _ _ => pure _

theorem mapM {γ : Type} {step : γ → Walk α} {items : List γ}
    (each : ∀ item ∈ items, ∀ t, Retraceable (step item) t) : Retraceable (items.mapM step) w := by
  induction items generalizing w with
  | nil => exact pure []
  | cons item rest ih =>
    rw [List.mapM_cons]
    apply bind (each item List.mem_cons_self w)
    intro value t _ _
    have others := fun other member => each other (List.mem_cons_of_mem item member)
    exact (ih others).bind fun _ _ => pure _

theorem check (fault : Option Fault) : Retraceable (check fault) w := by
  cases fault with
  | some fault => exact throw fault
  | none => exact pure ()

/-! ### Steps on the graph alone -/

/-- An operation that finds in a second walk what it has left in the first. -/
theorem onGraph {operation : Graph → α × Graph} (keeps : w.graph.Keeps (operation w.graph).2)
    (again : ∀ {g}, (operation w.graph).2.Indexed g → operation g = ((operation w.graph).1, g)) :
    Retraceable (onGraph operation) w := by
  intro inside value w' run
  cases run
  refine ⟨.withGraph inside keeps, fun {last g v} after retraces => ⟨v, ?_, ?_⟩⟩
  · have found := again (after.indexed.trans retraces.indexed)
    simp only [Walk.onGraph, found]
  · refine { retraces with met := fun {id node} member found => ?_ }
    obtain ⟨old, before⟩ := Graph.exists_node_of_lt (inside id (List.mem_append_right _ member))
    have same : old = node := by
      have kept := keeps.node before
      rw [found] at kept
      exact (Option.some.inj kept).symm
    subst same
    exact retraces.met member before

theorem intern (s : Structural) : Retraceable (Walk.onGraph (·.intern s)) w :=
  onGraph (Graph.intern_keeps s) Graph.intern_again

theorem primitive (p : Primitive) : Retraceable (primitive p) w := intern _

theorem pointerTo (target : TypeId) : Retraceable (pointerTo target) w := intern _

theorem interface {iid : Guid} (nonzero : iid.isZero = false) :
    Retraceable (Walk.onGraph (·.externalInterface iid none)) w :=
  onGraph (Graph.externalInterface_keeps iid) (Graph.externalInterface_again nonzero)

theorem fixedArray (total elementAt : Nat) (element : TypeId × Nat) :
    Retraceable (fixedArray total element elementAt) w := by
  unfold Walk.fixedArray
  split
  · exact throw _
  · exact intern _

end Retraceable

/-! ### Records -/

namespace Walk

open Walker

variable {w w' : Walker} {offset size : Nat} {id : TypeId}

/-- A record has been opened: a node of the previous decode or a new one. -/
structure Opens (w : Walker) (offset size : Nat) (id : TypeId) (w' : Walker) : Prop where
  created : w'.created = w.created ++ [offset]
  memo : w'.memo = w.memo.insert offset (id, size)
  recordIds_eq : w'.recordIds = id :: w.recordIds
  indexed : w.graph.Indexed w'.graph
  opened : ∃ node, w'.graph.node? id = some node ∧ reopened (nextName w) node = node
  others : ∀ {j}, j ≠ id → w'.graph.node? j = w.graph.node? j
  inside : w'.Inside

/-- Opening a record that has not been met gives its offset a place in the memo. -/
theorem openRecord_opens (inside : w.Inside) (unmet : w.memo.get? offset = none)
    (run : openRecord offset size w = .ok id w') : Opens w offset size id w' := by
  cases known : w.previous.get? offset with
  | some found =>
    rw [openRecord_of_known known] at run
    cases run
    have member : id ∈ w.previousIds := Table.mem_values_of_get? known
    obtain ⟨node, found⟩ := Graph.exists_node_of_lt (inside id (List.mem_append_left _ member))
    have last : (reopen w offset size id).recordIds = id :: w.recordIds := recordIds_enter unmet
    refine ⟨rfl, rfl, last, ⟨fun known => known, fun known => known⟩,
      ⟨_, Graph.node?_modify_self _ found, rfl⟩, fun other => Graph.node?_modify_of_ne _ other.symm, ?_⟩
    intro j among
    have size_eq : (reopen w offset size id).graph.size = w.graph.size := Graph.size_modify ..
    rw [size_eq]
    apply inside
    rw [last] at among
    rcases List.mem_cons.mp (List.perm_middle.mem_iff.mp among) with rfl | among
    · exact List.mem_append_left _ member
    · refine (List.mem_append.mp among).elim (fun previous => ?_) (List.mem_append_right _)
      exact List.mem_append_left _ (Table.values_erase_sublist.subset previous)
  | none =>
    rw [openRecord_of_unknown known] at run
    cases run
    have declares : (Body.record .struct []).isDeclaration = true := rfl
    have h : w.graph.Appends _ (openNew w offset size).graph :=
      w.graph.appends_add none (nextName w) declares
    have keeps : w.graph.Keeps (openNew w offset size).graph := by
      apply Graph.Keeps.of_appends h
      · intro guid own
        cases own
      · rintro s _ ⟨⟩
    have last : (openNew w offset size).recordIds = w.graph.size :: w.recordIds :=
      recordIds_enter unmet
    refine ⟨rfl, rfl, last, keeps.toIndexed, ⟨_, Graph.WellFormed.appended h, rfl⟩, fun other => ?_, ?_⟩
    · rw [h.node_eq, if_neg other]
    · intro j among
      rw [h.size_eq]
      rw [last] at among
      rcases List.mem_cons.mp (List.perm_middle.mem_iff.mp among) with rfl | among
      · exact Nat.lt_succ_self _
      · exact Nat.lt_succ_of_lt (inside j among)

theorem Opens.later (opens : Opens w offset size id w') (unmet : w.memo.get? offset = none) :
    w.Later w' where
  inside := opens.inside
  known {other found} known := by
    have apart : other ≠ offset := by
      rintro rfl
      cases unmet.symm.trans known
    rw [opens.memo, Table.get?_insert, if_neg apart, known]
  recordIds_subset := by simp [opens.recordIds_eq]
  indexed := opens.indexed
  untouched {j node} found unmet := by
    have other : j ≠ id := by
      rintro rfl
      exact unmet (by simp [opens.recordIds_eq])
    exact (opens.others other).trans found

end Walk

namespace Retraces

open Walker Walk

variable {last w w' v : Walker} {g : Graph} {id : TypeId}

/-- Whatever the record held before, it is now open in both walks. -/
theorem reopened_eq (retraces : Retraces last g w v) (inside : w.Inside) (name : String)
    (opened : Node) :
    (v.graph.node? id).map (reopened name) = (g.node? id).map (·.refilled (reopened name opened)) := by
  by_cases met : id ∈ w.recordIds
  · obtain ⟨node, found⟩ := Graph.exists_node_of_lt (inside id (List.mem_append_right _ met))
    rw [retraces.met met found, Option.map_map]
    rfl
  · rw [retraces.others met]
    rfl

/-- The record that was opened in the first walk is opened again. -/
theorem opened {offset size : Nat} {opened : TypeId} (retraces : Retraces last g w v)
    (inside : w.Inside) (opens : Opens w offset size opened w') :
    Retraces last g w' (reopen v offset size opened) where
  created := by rw [opens.created, ← retraces.created]; rfl
  memo := by rw [opens.memo, ← retraces.memo]; rfl
  previous other := by
    show (v.previous.erase offset).get? other = _
    rw [Table.get?_erase, retraces.previous, opens.memo, Table.get?_insert]
    by_cases here : other = offset <;> simp [here]
  byGuid := retraces.byGuid
  byStructure := retraces.byStructure
  met {id node} member found := by
    show (v.graph.modify opened (reopened (nextName v))).node? id = _
    have name : nextName v = nextName w := by rw [nextName, nextName, retraces.created]
    rw [Graph.node?_modify, name]
    by_cases here : opened = id
    · subst here
      obtain ⟨node', found', same⟩ := opens.opened
      cases found'.symm.trans found
      rw [if_pos rfl, ← same]
      exact retraces.reopened_eq inside (nextName w) node
    · rw [if_neg here]
      rw [opens.others (Ne.symm here)] at found
      rw [opens.recordIds_eq] at member
      exact retraces.met ((List.mem_cons.mp member).resolve_left (Ne.symm here)) found
  others {id} other := by
    rw [opens.recordIds_eq, List.mem_cons, not_or] at other
    exact (Graph.node?_modify_of_ne _ (Ne.symm other.1)).trans (retraces.others other.2)

/-- A record that both walks have met is filled with the same types. -/
theorem closed (retraces : Retraces last g w v) (member : id ∈ w.recordIds) (types : List TypeId) :
    Retraces last g { w with graph := w.graph.modify id (closed types) }
      { v with graph := v.graph.modify id (closed types) } where
  created := retraces.created
  memo := retraces.memo
  previous := retraces.previous
  byGuid := retraces.byGuid
  byStructure := retraces.byStructure
  met {j node} met found := by
    show (v.graph.modify id (Walk.closed types)).node? j = _
    rcases Graph.of_node?_modify found with ⟨apart, old⟩ | ⟨rfl, old, found_old, rfl⟩
    · rw [Graph.node?_modify_of_ne _ apart]
      exact retraces.met met old
    · rw [Graph.node?_modify, if_pos rfl, retraces.met met found_old, Option.map_map]
      rfl
  others {j} other := by
    have apart : id ≠ j := by
      rintro rfl
      exact other member
    exact (Graph.node?_modify_of_ne _ apart).trans (retraces.others other)

end Retraces

namespace Retraceable

open Walker Walk

variable {w : Walker}

/-- Opening a record that has not been met can be retraced. -/
theorem openRecord {offset : Nat} (size : Nat) (unmet : w.memo.get? offset = none) :
    Retraceable (openRecord offset size) w := by
  intro inside id w' run
  have opens := openRecord_opens inside unmet run
  refine ⟨opens.later unmet, fun {last g v} after retraces => ?_⟩
  -- Whether the first walk found a record or made one, the second finds that one left over.
  have known : v.previous.get? offset = some id := by
    have found : last.memo.get? offset = some (id, size) :=
      after.known (by rw [opens.memo, Table.get?_insert_self])
    rw [retraces.previous, unmet, found]
    rfl
  exact ⟨_, openRecord_of_known known, retraces.opened inside opens⟩

/-- Closing a record that was met can be retraced. -/
theorem closeRecord {id : TypeId} (member : id ∈ w.recordIds) (types : List TypeId) :
    Retraceable (closeRecord id types) w := by
  intro inside value w' run
  cases run
  constructor
  · refine ⟨fun j among => ?_, fun known => known, List.Subset.refl _,
      ⟨fun known => known, fun known => known⟩, fun {j node} found other => ?_⟩
    · show j < (w.graph.modify id (closed types)).size
      rw [Graph.size_modify]
      exact inside j among
    · have apart : id ≠ j := by
        rintro rfl
        exact other member
      exact (Graph.node?_modify_of_ne _ apart).trans found
  · intro last g v _ retraces
    exact ⟨_, rfl, retraces.closed member types⟩

end Retraceable

/-! ### Types -/

/-- The offsets of type descriptions that the procedures of an image refer to, directly or through other
descriptions. -/
inductive ProxyImage.Refers (image : ProxyImage) : Nat → Prop
  | parameter {slot : UInt16} {procedure : Procedure} {entry : ParamEntry} {offset : Nat} :
      slot ∈ image.procOffsets → slot ≠ Procedure.inherited →
      Procedure.parse image.procFormat slot.toNat = .ok procedure →
      entry ∈ procedure.entries.items → entry.type = .described offset → Refers image offset
  | pointer {offset target : Nat} : Refers image offset →
      TypeForm.parse image.typeFormat offset = .ok (.pointer target) → Refers image target
  | member {offset size target : Nat} {members : Listing StructMember} : Refers image offset →
      TypeForm.parse image.typeFormat offset = .ok (.struct size members) →
      .described target ∈ members.items → Refers image target
  | element {offset total target elementAt : Nat} : Refers image offset →
      TypeForm.parse image.typeFormat offset =
        .ok (.fixedArray total (.described target) elementAt) → Refers image target

/-- The interface pointers of an image carry IIDs other than zero. -/
def ProxyImage.NamesInterfaces (image : ProxyImage) : Prop :=
  ∀ offset iid, image.Refers offset →
    TypeForm.parse image.typeFormat offset = .ok (.interfacePointer iid) → iid.isZero = false

namespace Retraceable

open Walker Walk

variable {w : Walker} {image : ProxyImage} {offset : Nat} {inner : Nat → Walk (TypeId × Nat)}

theorem memberType {member : StructMember}
    (again : ∀ target, member = .described target → ∀ t, Retraceable (inner target) t) :
    Retraceable (memberType inner member) w := by
  cases member with
  | base p => exact primitive p
  | described target => exact (again target rfl w).map _

theorem elementType {element : ArrayElement}
    (again : ∀ target, element = .described target → ∀ t, Retraceable (inner target) t) :
    Retraceable (elementType inner element) w := by
  cases element with
  | base p size => exact (primitive p).bind fun _ _ => pure _
  | described target => exact again target rfl w

/-- A structure: its record is opened and closed in both walks, and the members in between are built as
before. -/
theorem structType {size : Nat} {members : Listing StructMember} (unmet : w.memo.get? offset = none)
    (again : ∀ target, .described target ∈ members.items → ∀ t, Retraceable (inner target) t) :
    Retraceable (formType inner offset (.struct size members)) w := by
  -- Opening needs to know where the walk stands, so the record is opened inside its walker.
  intro inside
  refine bind (openRecord size unmet) (fun {id w₁} opened _ => ?_) inside
  have opens := openRecord_opens inside unmet opened
  have each : ∀ member ∈ members.items, ∀ t, Retraceable (Walk.memberType inner member) t := by
    intro member among t
    apply memberType
    rintro target rfl
    exact again target among
  apply (mapM each).bind
  intro types w₂ _ later
  apply (check members.fault).bind
  intro _ w₃ _ later'
  have met : id ∈ w₃.recordIds := by
    apply later'.recordIds_subset
    apply later.recordIds_subset
    simp [opens.recordIds_eq]
  exact (closeRecord met types).bind fun _ _ => pure _

/-- A description can be retraced if whatever it refers to can. -/
theorem formType {form : TypeForm} (named : image.NamesInterfaces) (refers : image.Refers offset)
    (parsed : TypeForm.parse image.typeFormat offset = .ok form) (unmet : w.memo.get? offset = none)
    (again : ∀ target, image.Refers target → ∀ t, Retraceable (inner target) t) :
    Retraceable (formType inner offset form) w := by
  cases form with
  | base p size => exact (primitive p).bind fun _ _ => pure _
  | interfacePointer iid =>
    apply (interface (named offset iid refers parsed)).bind
    intro target _ _ _
    exact (pointerTo target).bind fun _ _ => pure _
  | simplePointer p =>
    apply (primitive p).bind
    intro target _ _ _
    exact (pointerTo target).bind fun _ _ => pure _
  | pointer target =>
    apply (again target (.pointer refers parsed) w).bind
    intro target _ _ _
    exact (pointerTo target.1).bind fun _ _ => pure _
  | struct size members =>
    apply structType unmet
    intro target among
    exact again target (.member refers parsed among)
  | fixedArray total element elementAt =>
    have elements : Retraceable (Walk.elementType inner element) w := by
      apply elementType
      rintro target rfl
      exact again target (.element refers parsed)
    apply elements.bind
    intro element _ _ _
    exact (fixedArray total elementAt element).bind fun _ _ => pure _

/-- Both walks have met the same records, so they stop at the same places. -/
theorem type (named : image.NamesInterfaces) (levels : Nat) {offset : Nat}
    (refers : image.Refers offset) : Retraceable (type image.typeFormat levels offset) w := by
  induction levels generalizing w offset with
  | zero => exact throw _
  | succ levels ih =>
    rw [Walk.type]
    apply get
    · cases met : w.memo.get? offset with
      | some known => exact pure _
      | none =>
        cases parsed : TypeForm.parse image.typeFormat offset with
        | error fault => exact throw fault
        | ok form => exact formType named refers parsed met fun target refers t => ih refers
    · intro last g v retraces
      rw [retraces.memo]

/-! ### Methods -/

theorem paramType {type : ParamType} (named : image.NamesInterfaces)
    (refers : ∀ offset, type = .described offset → image.Refers offset) :
    Retraceable (paramType (typeAt image.typeFormat) type) w := by
  cases type with
  | base p byReference =>
    apply (primitive p).bind
    intro target _ _ _
    cases byReference with
    | true => exact pointerTo target
    | false => exact pure target
  | described offset => exact (Retraceable.type named _ (refers offset rfl)).map _

theorem resultType (entries : List (ParamEntry × TypeId)) : Retraceable (resultType entries) w := by
  unfold Walk.resultType
  cases (entries.filter (·.1.isReturn)).getLast? with
  | some entry => exact pure entry.2
  | none => exact primitive .void

/-- A procedure can be retraced. -/
theorem procedure {slot : UInt16} (named : image.NamesInterfaces) (names : NameLookup)
    (among : slot ∈ image.procOffsets) (own : slot ≠ Procedure.inherited) :
    Retraceable (procedure image names slot.toNat) w := by
  unfold Walk.procedure
  cases parsed : Procedure.parse image.procFormat slot.toNat with
  | error fault => exact throw fault
  | ok procedure =>
    show Retraceable (method (typeAt image.typeFormat) names procedure) w
    have each : ∀ entry ∈ procedure.entries.items, ∀ t,
        Retraceable (entryType (typeAt image.typeFormat) entry) t := by
      intro entry listed t
      apply (paramType named fun offset described => ?_).bind fun _ _ => pure _
      exact .parameter among own parsed listed described
    apply (mapM each).bind
    intro entries _ _ _
    apply (check _).bind
    intro _ _ _ _
    exact (resultType entries).bind fun _ _ => pure _

end Retraceable

namespace Walk

variable {image : ProxyImage} {names : NameLookup}

/-- Decoding ends without a fault if the first procedure does so, unless its slot is inherited, and then
the others. -/
theorem methods_cons_iff {offset : UInt16} {slot : Nat} {rest : List (UInt16 × Nat)} {w w' : Walker}
    {found : List Method} :
    methods image names ((offset, slot) :: rest) w = ((found, []), w') ↔
      (offset = Procedure.inherited ∧ methods image names rest w = ((found, []), w')) ∨
      (offset ≠ Procedure.inherited ∧ ∃ method after others,
        procedure image names offset.toNat w = .ok method after ∧
        methods image names rest after = ((others, []), w') ∧ found = method :: others) := by
  rw [methods]
  by_cases skipped : offset = Procedure.inherited
  · simp [skipped]
  rw [if_neg skipped]
  cases ran : procedure image names offset.toNat w with
  | error fault after => simp [skipped]
  | ok method after =>
    generalize methods image names rest after = ended
    obtain ⟨⟨others, issues⟩, last⟩ := ended
    simp only [skipped, Prod.mk.injEq]
    grind

/-- Procedures that have all been decoded are decoded again in a second walk. -/
theorem methods_retraced (named : image.NamesInterfaces) {slots : List (UInt16 × Nat)}
    (among : ∀ slot ∈ slots, slot.1 ∈ image.procOffsets) {w w' : Walker} {found : List Method}
    (inside : w.Inside) (run : methods image names slots w = ((found, []), w')) :
    w.Later w' ∧ ∀ {last g v}, w'.Later last → Retraces last g w v →
      ∃ v', methods image names slots v = ((found, []), v') ∧ Retraces last g w' v' := by
  induction slots generalizing w found with
  | nil =>
    cases run
    exact ⟨.refl inside, fun _ retraces => ⟨_, rfl, retraces⟩⟩
  | cons entry rest ih =>
    have others : ∀ slot ∈ rest, slot.1 ∈ image.procOffsets :=
      fun slot member => among slot (List.mem_cons_of_mem _ member)
    rcases methods_cons_iff.mp run with
      ⟨skipped, rest_run⟩ | ⟨own, method, after, found, ran, rest_run, rfl⟩
    · obtain ⟨later, again⟩ := ih others inside rest_run
      refine ⟨later, fun {last g v} ended retraces => ?_⟩
      obtain ⟨v', run', retraces'⟩ := again ended retraces
      exact ⟨v', methods_cons_iff.mpr (.inl ⟨skipped, run'⟩), retraces'⟩
    · have listed := among entry List.mem_cons_self
      obtain ⟨later, again⟩ := Retraceable.procedure named names listed own inside ran
      obtain ⟨later', again'⟩ := ih others later.inside rest_run
      refine ⟨later.trans later', fun {last g v} ended retraces => ?_⟩
      obtain ⟨v', run', retraces'⟩ := again (later'.trans ended) retraces
      obtain ⟨v'', run'', retraces''⟩ := again' ended retraces'
      exact ⟨v'', methods_cons_iff.mpr (.inr ⟨own, method, v', found, run', run'', rfl⟩),
        retraces''⟩

end Walk

end ComTypes

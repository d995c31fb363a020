import ComTypes.Proxy.Decode
import ComTypes.Proofs.Assembly.Advance
import ComTypes.Proofs.Graph.Keeps
import ComTypes.Proofs.Proxy.Accounts

/-!
# Stages of decoding a proxy

While a proxy is decoded, the records that it has met are open to it: they are no longer closed, and
the types it builds may lead to them. `Walker.Stage` says what any number of steps can do. Records are
only added, each from the previous decode or as a new node; nodes that are not among the added records
are unchanged; and every other new node is structural or declares an interface without contents. `Walker.FilledSince` says that the records added since some earlier stage are all complete.

The steps that make up the traversal of a type format are shown to be stages one by one: interning a
type (`intern_stage`), referring to an interface (`interface_stage`), opening a record (`openRecord_stage`)
and closing it (`Stage.close`).
-/

namespace ComTypes

/-! ### Opening closed nodes -/

/-- The regime in which the given nodes are not closed. -/
def Regime.opening (r : Regime) (ids : List TypeId) : Regime :=
  { r with closed := fun id => r.closed id ∧ id ∉ ids }

namespace Graph

variable {g g' : Graph} {r : Regime} {ids ids' : List TypeId} {id : TypeId}

theorem opening_fewer (more : ids ⊆ ids') (id : TypeId) :
    (r.opening ids').closed id → (r.opening ids).closed id :=
  fun still => ⟨still.1, fun member => still.2 (more member)⟩

theorem Nameable.opening (h : g.Nameable (r.opening ids) id) (more : ids ⊆ ids') :
    g.Nameable (r.opening ids') id :=
  h.loosen (opening_fewer more)

theorem WellFormed.opening (wf : g.WellFormed (r.opening ids)) (more : ids ⊆ ids') :
    g.WellFormed (r.opening ids') :=
  wf.loosen (opening_fewer more)

theorem Advance.opening (h : g.Advance (r.opening ids) g') (more : ids ⊆ ids') :
    g.Advance (r.opening ids') g' :=
  h.loosen (opening_fewer more)

/-! ### Extending a graph -/

end Graph

/-- The two nodes say the same to those who refer to them. -/
structure Node.Alike (node node' : Node) : Prop where
  body : node'.body = node.body
  state : node'.state = node.state
  retired : node'.retired = node.retired

theorem Node.Alike.refl (node : Node) : node.Alike node := ⟨rfl, rfl, rfl⟩

theorem Node.Alike.trans {a b c : Node} (first : a.Alike b) (second : b.Alike c) : a.Alike c :=
  ⟨second.body.trans first.body, second.state.trans first.state,
    second.retired.trans first.retired⟩

/-- The node declares something without contents, or it is a structural node of its own. -/
def Node.Plain (node : Node) (id : TypeId) : Prop :=
  (node.body.isDeclaration = true ∧ node.body.targets = []) ∨
    (node.body.isDeclaration = false ∧ node.identity = .index id)

/-- Old nodes are as before but for their names, and new ones are plain. -/
structure Graph.Extends (g g' : Graph) : Prop where
  alike : ∀ {id node}, g.node? id = some node → ∃ node', g'.node? id = some node' ∧ node.Alike node'
  plain : ∀ {id node'}, g.size ≤ id → g'.node? id = some node' → node'.Plain id

namespace Graph

variable {g g' : Graph}

theorem Extends.refl (g : Graph) : g.Extends g where
  alike found := ⟨_, found, .refl _⟩
  plain outside found := absurd (lt_size_of_node? found) (Nat.not_lt.mpr outside)

theorem Extends.of_appends {node : Node} (h : g.Appends node g') (plain : node.Plain g.size) :
    g.Extends g' where
  alike {id old} found := by
    refine ⟨old, ?_, .refl old⟩
    rw [h.node_eq, if_neg (Nat.ne_of_lt (lt_size_of_node? found)), found]
  plain {id node'} outside found := by
    rcases WellFormed.of_appends h found with ⟨rfl, rfl⟩ | ⟨inside, _⟩
    · exact plain
    · exact absurd inside (Nat.not_lt.mpr outside)

/-- Interning appends at most one node, and a plain one. -/
theorem intern_extends (s : Structural) : g.Extends (g.intern s).2 := by
  cases known : g.byStructure.get? s with
  | some id =>
    rw [intern_of_found known]
    exact .refl g
  | none => exact .of_appends (appends_intern known) (.inr ⟨rfl, rfl⟩)

/-- Looking up an external declaration appends at most one blank node. -/
theorem external_extends (guid : Guid) (name : String) {body : Body}
    (declares : body.isDeclaration = true) (blank : body.targets = []) :
    g.Extends (g.external guid name body).2 := by
  cases known : g.findGuid? guid with
  | some id =>
    rw [external_of_found name body known]
    refine ⟨fun {j node} found => ?_, fun {j node'} outside found => ?_⟩
    · by_cases same : id = j
      · subst same
        refine ⟨_, node?_modify_self _ found, ?_⟩
        split
        · exact ⟨rfl, rfl, rfl⟩
        · exact .refl node
      · exact ⟨node, (node?_modify_of_ne _ same).trans found, .refl node⟩
    · have inside := lt_size_of_node? found
      rw [size_modify] at inside
      exact absurd inside (Nat.not_lt.mpr outside)
  | none => exact .of_appends (appends_external name body known) (.inl ⟨declares, blank⟩)

end Graph

/-! ### Stages -/

namespace Walker

/-- The records met so far are open. -/
def regime (w : Walker) (r : Regime) : Regime := r.opening w.recordIds

/-- The walker is in order: its records are different nodes, and its accounts agree on them. -/
structure Sound (r : Regime) (w : Walker) : Prop where
  graph : w.graph.WellFormed (w.regime r)
  isRecord : ∀ id ∈ w.previousIds ++ w.recordIds, w.graph.IsRecord id
  ids : (w.previousIds ++ w.recordIds).Nodup
  keys : w.previous.keys.Nodup
  agree : w.Agree

/-- Steps have led from `w` to `w'`. -/
structure Stage (r : Regime) (w w' : Walker) : Prop where
  sound : w'.Sound r
  graph : w.graph.Advance (w'.regime r) w'.graph
  memo : w.memo.entries <:+ w'.memo.entries
  previous : w'.previousIds ⊆ w.previousIds
  /-- A record of the previous decode is not lost. -/
  covered : ∀ id ∈ w.previousIds, id ∈ w'.previousIds ∨ id ∈ w'.recordIds
  origin : ∀ id ∈ w'.recordIds, id ∈ w.recordIds ∨ id ∈ w.previousIds ∨ w.graph.size ≤ id
  /-- Only records that were added are changed. -/
  untouched : ∀ {id node}, w.graph.node? id = some node → (id ∈ w'.recordIds → id ∈ w.recordIds) →
    w'.graph.node? id = some node
  plain : ∀ {id node'}, w.graph.size ≤ id → w'.graph.node? id = some node' →
    id ∉ w'.recordIds → node'.Plain id
  /-- Records that were added have the body of one. -/
  shaped : ∀ id ∈ w'.recordIds, id ∉ w.recordIds →
    ∃ node fields, w'.graph.node? id = some node ∧ node.body = .record .struct fields

/-- The record is complete, in use, and leads to open nodes only. -/
structure Filled (r : Regime) (w : Walker) (id : TypeId) : Prop where
  filled : ∃ node, w.graph.node? id = some node ∧ node.retired = false ∧ node.state = .complete ∧
    ∀ t ∈ node.body.targets, w.graph.Nameable (w.regime r) t

/-- The records added since `w` are complete. -/
def FilledSince (r : Regime) (w w' : Walker) : Prop :=
  ∀ id ∈ w'.recordIds, id ∉ w.recordIds → w'.Filled r id

variable {r : Regime} {w w' w'' : Walker} {id : TypeId}

theorem Stage.recordIds_subset (h : w.Stage r w') : w.recordIds ⊆ w'.recordIds :=
  ((h.memo.map _).map _).subset

/-- A stage leaves every node alike, the records that it adds apart. -/
theorem Stage.alike (h : w.Stage r w') {node : Node} (found : w.graph.node? id = some node)
    (known : id ∈ w'.recordIds → id ∈ w.recordIds) :
    ∃ node', w'.graph.node? id = some node' ∧ node.Alike node' :=
  ⟨node, h.untouched found known, .refl node⟩

theorem Stage.refl (sound : w.Sound r) : w.Stage r w where
  sound := sound
  graph := .refl sound.graph
  memo := List.suffix_refl _
  previous := List.Subset.refl _
  covered _ member := .inl member
  origin _ member := .inl member
  untouched found _ := found
  plain outside found := absurd (Graph.lt_size_of_node? found) (Nat.not_lt.mpr outside)
  shaped _ member other := absurd member other

theorem Stage.trans (first : w.Stage r w') (second : w'.Stage r w'') : w.Stage r w'' where
  sound := second.sound
  graph := (Graph.advance_progress _).trans (first.graph.opening second.recordIds_subset)
    second.graph
  memo := first.memo.trans second.memo
  previous := List.Subset.trans second.previous first.previous
  covered id member := by
    rcases first.covered id member with still | met
    · exact second.covered id still
    · exact .inr (second.recordIds_subset met)
  origin id member := by
    rcases second.origin id member with old | reused | new
    · exact first.origin id old
    · exact .inr (.inl (first.previous reused))
    · exact .inr (.inr (Nat.le_trans first.graph.grows.size_le new))
  untouched {id node} found known := by
    have found' := first.untouched found fun member => known (second.recordIds_subset member)
    exact second.untouched found' fun member => first.recordIds_subset (known member)
  plain {id node''} outside found'' other := by
    by_cases inside : id < w'.graph.size
    · obtain ⟨node', found'⟩ := Graph.exists_node_of_lt inside
      have plain := first.plain outside found' fun member => other (second.recordIds_subset member)
      have found := second.untouched found' fun member => absurd member other
      rw [found''] at found
      cases found
      exact plain
    · exact second.plain (Nat.le_of_not_lt inside) found'' other
  shaped id member other := by
    by_cases known : id ∈ w'.recordIds
    · obtain ⟨node, fields, found, body⟩ := first.shaped id known other
      obtain ⟨node', found', alike⟩ := second.alike found fun _ => known
      exact ⟨node', fields, found', alike.body.trans body⟩
    · exact second.shaped id member known

theorem stage_progress (r : Regime) : Progress (Stage r) where
  trans := Stage.trans
  here h := .refl h.sound

/-- What may be named may be named after a stage. -/
theorem Nameable.lasting (h : w.graph.Nameable (w.regime r) id) (sound : w.Sound r)
    (stage : w.Stage r w') : w'.graph.Nameable (w'.regime r) id :=
  (h.grows sound.graph stage.graph.grows).opening stage.recordIds_subset

/-- A record that is filled stays so. -/
theorem Filled.lasting (h : w.Filled r id) (sound : w.Sound r) (stage : w.Stage r w')
    (member : id ∈ w.recordIds) : w'.Filled r id := by
  obtain ⟨node, found, used, complete, targets⟩ := h.filled
  obtain ⟨node', found', alike⟩ := stage.alike found fun _ => member
  refine ⟨node', found', alike.retired.trans used, alike.state.trans complete, fun t named => ?_⟩
  rw [alike.body] at named
  exact Nameable.lasting (targets t named) sound stage

theorem FilledSince.of_same (same : w'.recordIds = w.recordIds) : FilledSince r w w' := by
  intro id member other
  rw [same] at member
  exact absurd member other

/-- Records filled in one stage and in the next are filled over both. -/
theorem FilledSince.trans (first : FilledSince r w w') (second : FilledSince r w' w'')
    (sound : w'.Sound r) (stage : w'.Stage r w'') : FilledSince r w w'' := by
  intro id member other
  by_cases known : id ∈ w'.recordIds
  · exact (first id known other).lasting sound stage known
  · exact second id member known

/-- Records met are declarations that may be named. -/
theorem Sound.nameable_record (sound : w.Sound r) (member : id ∈ w.recordIds) :
    w.graph.Nameable (w.regime r) id := by
  obtain ⟨node, found, _, declares⟩ := sound.isRecord id (List.mem_append_right _ member)
  exact Graph.nameable_of_declaration found declares fun closed => closed.2 member

/-! ### Steps on the graph alone -/

theorem Stage.withGraph (sound : w.Sound r) {g : Graph}
    (advance : w.graph.Advance (w.regime r) g) (extended : w.graph.Extends g)
    (keeps : w.graph.Keeps g) :
    w.Stage r { w with graph := g } where
  sound :=
    { graph := advance.wellFormed
      isRecord := fun id member => (sound.isRecord id member).grows advance.grows
      ids := sound.ids
      keys := sound.keys
      agree := ⟨sound.agree.created, sound.agree.current, sound.agree.keys⟩ }
  graph := advance
  memo := List.suffix_refl _
  previous := List.Subset.refl _
  covered _ member := .inl member
  origin _ member := .inl member
  untouched found _ := keeps.node found
  plain outside found _ := extended.plain outside found
  shaped _ member other := absurd member other

end Walker

namespace Walk

open Walker

variable {r : Regime} {w : Walker}

/-- A type can be named, and records added on the way are complete. -/
def Built (r : Regime) (w : Walker) (id : TypeId) (w' : Walker) : Prop :=
  w'.graph.Nameable (w'.regime r) id ∧ FilledSince r w w'

/-- Interning a structure over types that may be named gives such a type. -/
theorem intern_stage (sound : w.Sound r) {s : Structural}
    (targets : ∀ t ∈ s.targets, w.graph.Nameable (w.regime r) t) :
    Outcome (w.Stage r) (Built r w) (onGraph (·.intern s) w) := by
  obtain ⟨advance, named⟩ := Graph.intern_advance sound.graph targets
  exact ⟨.withGraph sound advance (Graph.intern_extends s) (Graph.intern_keeps s), named,
    .of_same rfl⟩

theorem primitive_stage (sound : w.Sound r) (p : Primitive) :
    Outcome (w.Stage r) (Built r w) (primitive p w) :=
  intern_stage sound fun _ member => nomatch member

/-- A pointer to a type that may be named may be named. -/
theorem pointerTo_stage (sound : w.Sound r) {target : TypeId}
    (named : w.graph.Nameable (w.regime r) target) :
    Outcome (w.Stage r) (Built r w) (pointerTo target w) := by
  refine intern_stage sound fun t member => ?_
  rwa [List.mem_singleton.mp member]

theorem interface_stage (sound : w.Sound r) (iid : Guid) :
    Outcome (w.Stage r) (Built r w) (onGraph (·.externalInterface iid none) w) := by
  have declares : (Body.interface {}).isDeclaration = true := rfl
  obtain ⟨advance, named⟩ := Graph.external_blank_advance iid "" sound.graph declares rfl
  exact ⟨.withGraph sound advance (Graph.external_extends iid "" declares rfl)
    (Graph.externalInterface_keeps iid), named, .of_same rfl⟩

theorem lift_stage {α : Type} (sound : w.Sound r) (result : Except Fault α) :
    Outcome (w.Stage r) (fun v w' => w' = w ∧ result = .ok v) (lift result w) := by
  cases result with
  | ok v => exact ⟨.refl sound, rfl, rfl⟩
  | error fault => exact .refl sound

/-! ### Opening and closing records -/

/-- The record just opened: the last one, in use, with nothing else added. -/
structure Opened (w : Walker) (id : TypeId) (w' : Walker) : Prop where
  last : w'.recordIds = id :: w.recordIds
  fresh : id ∉ w.recordIds
  used : ∃ node, w'.graph.node? id = some node ∧ node.retired = false

/-- Opening a record that the previous decode left is a stage. -/
theorem reopen_stage {offset size : Nat} {id : TypeId} (sound : w.Sound r)
    (unmet : w.memo.get? offset = none) (known : w.previous.get? offset = some id) :
    w.Stage r (reopen w offset size id) ∧ Opened w id (reopen w offset size id) := by
  have split : w.previousIds.Perm (id :: (w.previous.erase offset).values) :=
    Table.values_perm_erase sound.keys known
  have member : id ∈ w.previousIds := split.mem_iff.mpr List.mem_cons_self
  have isRecord := sound.isRecord id (List.mem_append_left _ member)
  have last : (reopen w offset size id).recordIds = id :: w.recordIds := recordIds_enter unmet
  have memo : w.memo.entries <:+ (reopen w offset size id).memo.entries :=
    ⟨[_], (entries_enter unmet).symm⟩
  have agree := sound.agree.enter unmet size id
  have fewer : (reopen w offset size id).previousIds ⊆ w.previousIds :=
    Table.values_erase_sublist.subset
  have order : (w.previousIds ++ w.recordIds).Perm
      ((reopen w offset size id).previousIds ++ (reopen w offset size id).recordIds) := by
    rw [last]
    exact (split.append_right _).trans List.perm_middle.symm
  have apart : id ∉ w.recordIds := fun met =>
    (List.nodup_append.mp sound.ids).2.2 id member id met rfl
  have more : w.recordIds ⊆ (reopen w offset size id).recordIds := by simp [last]
  have advance : w.graph.Advance ((reopen w offset size id).regime r)
      (reopen w offset size id).graph := by
    refine .of_define (sound.graph.opening more) ?_ isRecord.editable (fun _ => rfl)
      (fun _ => rfl) (fun _ t named => nomatch named) (fun _ gone => nomatch gone)
    exact fun closed => closed.2 (by simp [last])
  obtain ⟨node, found, _⟩ := isRecord
  refine ⟨?_, last, apart, reopened (nextName w) node, Graph.node?_modify_self _ found, rfl⟩
  refine
    { sound := ⟨advance.wellFormed, fun j met => ?_, order.nodup sound.ids, ?_,
        ⟨agree.created, agree.current, agree.keys⟩⟩
      graph := advance
      memo := memo
      previous := fewer
      covered := fun j before => ?_
      origin := fun j met => ?_
      untouched := fun {j node} found known => ?_
      plain := fun {j node'} outside found _ => ?_
      shaped := fun j met other => ?_ }
  · exact (sound.isRecord j (order.mem_iff.mpr met)).grows advance.grows
  · rw [reopen, Table.keys_erase]
    exact sound.keys.filter _
  · rcases List.mem_cons.mp (split.mem_iff.mp before) with rfl | other
    · exact .inr (by simp [last])
    · exact .inl other
  · rcases List.mem_cons.mp (last ▸ met) with rfl | old
    · exact .inr (.inl member)
    · exact .inl old
  · have other : id ≠ j := by
      rintro rfl
      exact apart (known (by simp [last]))
    exact (Graph.node?_modify_of_ne _ other).trans found
  · have inside : j < (w.graph.modify id (reopened (nextName w))).size :=
      Graph.lt_size_of_node? found
    rw [Graph.size_modify] at inside
    exact absurd inside (Nat.not_lt.mpr outside)
  · obtain rfl := (List.mem_cons.mp (last ▸ met)).resolve_right other
    exact ⟨_, [], Graph.node?_modify_self _ found, rfl⟩

/-- Opening a new record is a stage. -/
theorem openNew_stage {offset size : Nat} (sound : w.Sound r) (unmet : w.memo.get? offset = none) :
    w.Stage r (openNew w offset size) ∧ Opened w w.graph.size (openNew w offset size) := by
  have declares : (Body.record .struct []).isDeclaration = true := rfl
  have h : w.graph.Appends _ (openNew w offset size).graph :=
    w.graph.appends_add none (nextName w) declares
  have last : (openNew w offset size).recordIds = w.graph.size :: w.recordIds :=
    recordIds_enter unmet
  have memo : w.memo.entries <:+ (openNew w offset size).memo.entries :=
    ⟨[_], (entries_enter unmet).symm⟩
  have agree := sound.agree.enter unmet size w.graph.size
  have more : w.recordIds ⊆ (openNew w offset size).recordIds := by simp [last]
  have outside : w.graph.size ∉ w.previousIds ++ w.recordIds := fun member =>
    Nat.lt_irrefl _ (sound.isRecord _ member).lt_size
  have advance : w.graph.Advance ((openNew w offset size).regime r)
      (openNew w offset size).graph := by
    refine Graph.add_advance (sound.graph.opening more) ?_ declares ?_
    · intro guid same
      cases same
    · intro t named
      cases named
  have appended := Graph.WellFormed.appended h
  refine ⟨?_, last, fun met => outside (List.mem_append_right _ met), _, appended, rfl⟩
  refine
    { sound := ⟨advance.wellFormed, fun j met => ?_, ?_, sound.keys,
        ⟨agree.created, agree.current, agree.keys⟩⟩
      graph := advance
      memo := memo
      previous := List.Subset.refl _
      covered := fun j before => .inl before
      origin := fun j met => ?_
      untouched := fun {j node} found _ => ?_
      plain := fun {j node'} beyond found other => ?_
      shaped := fun j met other => ?_ }
  · rw [last] at met
    rcases List.mem_cons.mp (List.perm_middle.mem_iff.mp met) with rfl | old
    · exact ⟨_, appended, rfl, rfl⟩
    · exact (sound.isRecord j old).grows advance.grows
  · rw [last]
    exact List.perm_middle.nodup_iff.mpr (List.nodup_cons.mpr ⟨outside, sound.ids⟩)
  · rcases List.mem_cons.mp (last ▸ met) with rfl | old
    · exact .inr (.inr (Nat.le_refl _))
    · exact .inl old
  · rw [h.node_eq, if_neg (Nat.ne_of_lt (Graph.lt_size_of_node? found)), found]
  · rcases Graph.WellFormed.of_appends h found with ⟨rfl, _⟩ | ⟨inside, _⟩
    · exact absurd (by simp [last]) other
    · exact absurd inside (Nat.not_lt.mpr beyond)
  · obtain rfl := (List.mem_cons.mp (last ▸ met)).resolve_right other
    exact ⟨_, [], appended, rfl⟩

/-- Opening a record is a stage if its offset has not been met. -/
theorem openRecord_stage {offset size : Nat} (sound : w.Sound r)
    (unmet : w.memo.get? offset = none) :
    Outcome (w.Stage r) (Opened w) (openRecord offset size w) := by
  cases known : w.previous.get? offset with
  | some id =>
    rw [openRecord_of_known known]
    exact reopen_stage sound unmet known
  | none =>
    rw [openRecord_of_unknown known]
    exact openNew_stage sound unmet

/-- A record that is filled with the given types. -/
def closed (types : List TypeId) (node : Node) : Node :=
  { node with body := .record .struct (fields types), state := .complete }

/-- A structure names the types of its fields. -/
theorem targets_fields (types : List TypeId) :
    (Body.record .struct (fields types)).targets = types := by
  simp [Body.targets, Body.references, fields, List.map_map, Function.comp_def]

/-- Closing a record that was opened since. -/
theorem Stage.close {w₁ : Walker} {id : TypeId} {types : List TypeId} (stage : w.Stage r w₁)
    (member : id ∈ w₁.recordIds) (fresh : id ∉ w.recordIds)
    (named : ∀ t ∈ types, w₁.graph.Nameable (w₁.regime r) t) :
    w.Stage r { w₁ with graph := w₁.graph.modify id (closed types) } := by
  have isRecord := stage.sound.isRecord id (List.mem_append_right _ member)
  have advance : w₁.graph.Advance (w₁.regime r) (w₁.graph.modify id (closed types)) := by
    refine .of_define stage.sound.graph (fun still => still.2 member) isRecord.editable
      (fun _ => rfl) (fun _ => rfl) (fun _ t inside => ?_) (fun _ gone => gone)
    rw [closed, targets_fields] at inside
    exact named t inside
  refine
    { sound := ⟨advance.wellFormed, fun j met => ?_, stage.sound.ids, stage.sound.keys,
        ⟨stage.sound.agree.created, stage.sound.agree.current, stage.sound.agree.keys⟩⟩
      graph := (Graph.advance_progress _).trans stage.graph advance
      memo := stage.memo
      previous := stage.previous
      covered := stage.covered
      origin := stage.origin
      untouched := fun {j node} found known => ?_
      plain := fun {j node'} outside found other => ?_
      shaped := fun j met other => ?_ }
  · exact (stage.sound.isRecord j met).grows advance.grows
  · have apart : id ≠ j := by
      rintro rfl
      exact fresh (known member)
    exact (Graph.node?_modify_of_ne _ apart).trans (stage.untouched found known)
  · rcases Graph.of_node?_modify found with ⟨_, old⟩ | ⟨rfl, _⟩
    · exact stage.plain outside old other
    · exact absurd member other
  · obtain ⟨node, before, found, body⟩ := stage.shaped j met other
    by_cases same : id = j
    · subst same
      exact ⟨_, _, Graph.node?_modify_self _ found, rfl⟩
    · exact ⟨node, before, (Graph.node?_modify_of_ne _ same).trans found, body⟩

end Walk

end ComTypes

import ComTypes.Proofs.Assembly.Rebuild

/-!
# Declaring a type info again

When a library is added again, the first pass finds the node that it has declared before, by its GUID
or by library and position, and resets it. `Redoes` is for the first pass what `Replays` is for the
second. It asks less of the states in between, since nodes are not built yet, but all steps have to
succeed.
-/

namespace ComTypes

open Assembler Assemble

variable {α : Type} {s t u : Assembler} {id : TypeId}

/-- Nodes that can be found in `s` can be found in `t`, and are the same as far as that matters. -/
structure Assembler.Carries (s t : Assembler) : Prop where
  library : t.library = s.library
  anonymous : ∀ {key id}, s.anonymous.get? key = some id → t.anonymous.get? key = some id
  guid : ∀ {guid id}, s.graph.findGuid? guid = some id → t.graph.findGuid? guid = some id
  nodes : ∀ {id node}, s.graph.node? id = some node →
    ∃ node', t.graph.node? id = some node' ∧ node'.identity = node.identity ∧
      ∀ guid, node.identity = .guid guid → node'.retired = node.retired

theorem Assembler.Later.carries (later : s.Later t) : s.Carries t where
  library := later.library
  anonymous := later.anonymous
  guid := later.guid
  nodes {id node} found := by
    obtain ⟨node', found', kept⟩ := later.nodes found
    exact ⟨node', found', kept.identity, kept.retired⟩

theorem Assembler.Carries.trans (first : s.Carries t) (second : t.Carries u) : s.Carries u where
  library := second.library.trans first.library
  anonymous known := second.anonymous (first.anonymous known)
  guid known := second.guid (first.guid known)
  nodes {id node} found := by
    obtain ⟨node', found', identity', retired'⟩ := first.nodes found
    obtain ⟨node'', found'', identity'', retired''⟩ := second.nodes found'
    refine ⟨node'', found'', identity''.trans identity', fun guid own => ?_⟩
    rw [retired'' guid (identity'.trans own), retired' guid own]

theorem Known.carries {guid : Guid} {index : Nat} (known : Known guid index id s)
    (carries : s.Carries t) : Known guid index id t where
  indexed nonzero := carries.guid (known.indexed nonzero)
  anonymous zero := by
    rw [carries.library]
    exact carries.anonymous (known.anonymous zero)

/-- What declaring a type info does, whether its node was known or is new. -/
structure Declares (guid : Guid) (index : Nat) (name : String) (body : Body) (s : Assembler)
    (id : TypeId) (t : Assembler) : Prop where
  run : declareTypeInfo guid index name body s = .ok id t
  steady : t.Steady
  carries : s.Carries t
  known : Known guid index id t
  slots : t.slots = s.slots
  strict : t.strict = s.strict
  node : ∃ old, t.graph.node? id = some (reset guid name body old)
  others : ∀ {j}, j ≠ id → t.graph.node? j = s.graph.node? j

/-- A known node is reset. -/
theorem Known.declares {guid : Guid} {index : Nat} (known : Known guid index id s)
    (steady : s.Steady) (name : String) (body : Body) :
    ∃ t, Declares guid index name body s id t := by
  obtain ⟨changed, run⟩ := declareTypeInfo_known known name body
  have tame := reset_tame steady known name body
  obtain ⟨node, found⟩ : ∃ node, s.graph.node? id = some node := by
    cases zero : guid.isZero with
    | false =>
      obtain ⟨node, found, _⟩ := steady.guid (known.indexed zero)
      exact ⟨node, found⟩
    | true =>
      obtain ⟨node, found, _⟩ := steady.anonymous (known.anonymous zero)
      exact ⟨node, found⟩
  have carries : s.Carries
      { s with graph := s.graph.modify id (reset guid name body), changed } := by
    refine ⟨rfl, fun known => known, fun known => known, fun {j old} found => ?_⟩
    by_cases same : id = j
    · subst same
      exact ⟨_, Graph.node?_modify_self _ found, tame.identity old, fun guid => tame.retired found⟩
    · exact ⟨old, (Graph.node?_modify_of_ne _ same).trans found, rfl, fun _ _ => rfl⟩
  exact ⟨_, run, tame.steady steady changed, carries, known.carries carries, rfl, rfl,
    ⟨node, Graph.node?_modify_self _ found⟩, fun other => Graph.node?_modify_of_ne _ other.symm⟩

/-- A new node is as if it had been reset. -/
theorem reset_new (guid : Guid) (identity : Identity) (name : String) (body : Body) :
    reset guid name body { identity, name, body } = { identity, name, body } := by
  unfold reset
  split <;> rfl

/-- A type info with a GUID that is not known gets a new node. -/
theorem declares_of_new_guid (steady : s.Steady) {guid : Guid} (nonzero : guid.isZero = false)
    (unknown : s.graph.findGuid? guid = none) (index : Nat) (name : String) {body : Body}
    (declaration : body.isDeclaration = true) :
    ∃ t, Declares guid index name body s s.graph.size t := by
  have h := s.graph.appends_add (some guid) name declaration
  have own := Graph.nextIdentity_of_nonzero (g := s.graph) nonzero
  have later : s.Later { s with graph := (s.graph.add (some guid) name body).2 } := by
    refine .of_appends h ?_ ?_
    · intro guid' same
      cases own.symm.trans same
      exact unknown
    · intro structural _ same
      exact absurd same (Body.isDeclaration_iff.mp declaration structural)
  refine ⟨_, ?_, steady.of_appends h, later.carries, ⟨fun _ => ?_, fun zero => ?_⟩, rfl, rfl, ?_,
    fun {j} other => ?_⟩
  · rw [declareTypeInfo_of_nonzero nonzero, declare_of_unknown name body unknown]
  · show (s.graph.add (some guid) name body).2.findGuid? guid = _
    rw [h.guid_eq]
    exact if_pos own
  · rw [nonzero] at zero
    cases zero
  · refine ⟨{ identity := s.graph.nextIdentity (some guid), name, body }, ?_⟩
    rw [reset_new]
    exact Graph.WellFormed.appended h
  · exact (h.node_eq j).trans (if_neg other)

/-- So does one without a GUID whose library and position are not known. -/
theorem declares_of_new_position (steady : s.Steady) {guid : Guid} (zero : guid.isZero = true)
    {index : Nat} (unknown : s.anonymous.get? (s.library, index) = none) (name : String)
    {body : Body} (declaration : body.isDeclaration = true) :
    ∃ t, Declares guid index name body s s.graph.size t := by
  have h := s.graph.appends_add none name declaration
  have later : s.Later { s with graph := (s.graph.add none name body).2 } := by
    refine .of_appends h ?_ ?_
    · intro guid' same
      cases same
    · intro structural _ same
      exact absurd same (Body.isDeclaration_iff.mp declaration structural)
  have carries := later.carries
  have steady' := steady.of_appends h
  refine ⟨_, declareTypeInfo_of_unknown name body zero unknown, ?_, ?_, ⟨fun nonzero => ?_, fun _ => ?_⟩,
    rfl, rfl, ?_, fun {j} other => ?_⟩
  · refine ⟨steady'.lenient, steady'.guid, fun {key id} known => ?_, steady'.slotted⟩
    rw [Table.get?_insert] at known
    split at known
    · cases known
      exact ⟨_, Graph.WellFormed.appended h, rfl⟩
    · exact steady'.anonymous known
  · refine ⟨rfl, fun {key id} known => ?_, carries.guid, carries.nodes⟩
    rw [Table.get?_insert, if_neg]
    · exact known
    · rintro rfl
      rw [unknown] at known
      cases known
  · rw [zero] at nonzero
    cases nonzero
  · simp
  · refine ⟨{ identity := s.graph.nextIdentity none, name, body }, ?_⟩
    rw [reset_new]
    exact Graph.WellFormed.appended h
  · exact (h.node_eq j).trans (if_neg other)

/-- Declaring a type info finds a node or makes one. -/
theorem exists_declares (steady : s.Steady) (guid : Guid) (index : Nat) (name : String) {body : Body}
    (declaration : body.isDeclaration = true) :
    ∃ id t, Declares guid index name body s id t := by
  cases zero : guid.isZero with
  | false =>
    cases known : s.graph.findGuid? guid with
    | some id =>
      have place : Known guid index id s := ⟨fun _ => known, fun zero' => by simp [zero] at zero'⟩
      exact ⟨id, place.declares steady name body⟩
    | none => exact ⟨_, declares_of_new_guid steady zero known index name declaration⟩
  | true =>
    cases known : s.anonymous.get? (s.library, index) with
    | some id =>
      have place : Known guid index id s := ⟨fun nonzero => by simp [zero] at nonzero, fun _ => known⟩
      exact ⟨id, place.declares steady name body⟩
    | none => exact ⟨_, declares_of_new_position steady zero known name declaration⟩

/-- The step ends with a value, and does so again in states that echo `s`. -/
structure Redoes (step : Assemble α) (s : Assembler) (value : α) (t : Assembler) : Prop where
  run : step s = .ok value t
  steady : t.Steady
  carries : s.Carries t
  again : ∀ {f s'}, t.Carries f → Echoes f s s' → ∃ t', step s' = .ok value t' ∧ Echoes f t t'

/-- A node that is reset keeps its identity. -/
theorem identity_reset (guid : Guid) (name : String) (body : Body) (node : Node) :
    (reset guid name body node).identity = node.identity := by
  unfold reset
  split <;> rfl

/-- Nodes that are reset alike agree, if they agree in what a reset leaves alone. -/
theorem reset_agree {guid : Guid} (name : String) (body : Body) {node node' : Node}
    (identity : node'.identity = node.identity)
    (used : guid.isZero = false → node'.retired = node.retired) :
    (reset guid name body node).Agree (reset guid name body node') := by
  cases zero : guid.isZero with
  | true =>
    simp only [reset, zero, if_true]
    exact ⟨identity, rfl, rfl, rfl, rfl, rfl⟩
  | false =>
    simp only [reset, zero]
    exact ⟨identity, rfl, rfl, used zero, rfl, rfl⟩

/-- A node is written down at a free position. -/
theorem slotted_insert {index : Nat} {j : TypeId} (same : t.slots = s.slots)
    (fresh : s.slots.get? index = none) :
    Slotted { t with slots := t.slots.insert index id } j ↔ j = id ∨ s.Slotted j := by
  constructor
  · rintro ⟨position, slot⟩
    rw [Table.get?_insert, same] at slot
    split at slot
    · cases slot
      exact .inl rfl
    · exact .inr ⟨position, slot⟩
  · rintro (rfl | ⟨position, slot⟩)
    · exact ⟨index, by simp⟩
    · refine ⟨position, ?_⟩
      rw [Table.get?_insert, same, if_neg]
      · exact slot
      · rintro rfl
        rw [fresh] at slot
        cases slot

/-- The second run resets the node that the first run has declared. -/
theorem Declares.echoes {guid : Guid} {index : Nat} {name : String} {body : Body} {f s' : Assembler}
    (h : Declares guid index name body s id t) (fresh : s.slots.get? index = none)
    (carries : t.Carries f) (echoes : Echoes f s s') (changed : List Guid) :
    Echoes f { t with slots := t.slots.insert index id }
      { s' with
        graph := s'.graph.modify id (reset guid name body)
        slots := s'.slots.insert index id
        changed } := by
  obtain ⟨old, found⟩ := h.node
  obtain ⟨final, found_final, identity, retired⟩ := carries.nodes found
  obtain ⟨old', found'⟩ : ∃ node, s'.graph.node? id = some node := by
    apply Graph.exists_node_of_lt
    rw [echoes.size]
    exact Graph.lt_size_of_node? found_final
  -- The two nodes may differ before they are reset, but not in what a reset leaves alone.
  obtain ⟨final', same_final, identity', retired'⟩ := echoes.marks found'
  cases found_final.symm.trans same_final
  have agree : (reset guid name body old).Agree (reset guid name body old') := by
    apply reset_agree
    · rw [identity', identity, identity_reset]
    · intro nonzero
      obtain ⟨node, found_node, own⟩ := h.steady.guid (h.known.indexed nonzero)
      cases found.symm.trans found_node
      have used := (retired' guid (identity.trans own)).trans (retired guid own)
      simpa [reset, nonzero, redeclared] using used
  refine
    { slots := by rw [h.slots, echoes.slots]
      library := echoes.library.trans h.carries.library.symm
      strict := echoes.strict.trans h.strict.symm
      anonymous := echoes.anonymous
      byGuid := echoes.byGuid
      byStructure := echoes.byStructure
      size := by simpa using echoes.size
      others := fun {j} other => ?_
      agree := fun {j node} slotted at_j => ?_
      marks := fun {j node'} at_j => ?_ }
  · rw [slotted_insert h.slots fresh, not_or] at other
    exact (Graph.node?_modify_of_ne _ (Ne.symm other.1)).trans (echoes.others other.2)
  · by_cases same : j = id
    · subst same
      cases found.symm.trans at_j
      exact ⟨_, Graph.node?_modify_self _ found', agree⟩
    · rw [h.others same] at at_j
      obtain ⟨node', found_j, agree_j⟩ := echoes.agree
        (((slotted_insert h.slots fresh).mp slotted).resolve_left same) at_j
      exact ⟨node', (Graph.node?_modify_of_ne _ (Ne.symm same)).trans found_j, agree_j⟩
  · rcases Graph.of_node?_modify at_j with ⟨_, old⟩ | ⟨rfl, node, found_node, rfl⟩
    · exact echoes.marks old
    · cases found'.symm.trans found_node
      refine ⟨final, found_final, (identity_reset ..).trans identity', fun guid' guid_own => ?_⟩
      rw [agree.retired]
      exact (retired guid' (identity.symm.trans guid_own)).symm

/-- A type info is placed at a free position. -/
theorem exists_place (steady : s.Steady) (guid : Guid) {index : Nat}
    (fresh : s.slots.get? index = none) (name : String) {body : Body}
    (declaration : body.isDeclaration = true) :
    ∃ id t, Redoes (place guid index name body) s id t ∧ Placed guid index id t ∧
      t.slots = s.slots.insert index id := by
  obtain ⟨id, t, h⟩ := exists_declares steady guid index name declaration
  have run : place guid index name body s = .ok id { t with slots := t.slots.insert index id } := by
    unfold place
    rw [ok_bind h.run, modify_bind]
    rfl
  have slot : (t.slots.insert index id).get? index = some id := by simp
  refine ⟨id, _, ⟨run, ?_, ?_, fun {f s'} carries echoes => ?_⟩, ⟨⟨h.known.indexed, h.known.anonymous⟩,
    slot⟩, by rw [h.slots]⟩
  · refine ⟨h.steady.lenient, h.steady.guid, h.steady.anonymous, fun {j} slotted => ?_⟩
    obtain ⟨position, stored⟩ := slotted
    rw [Table.get?_insert] at stored
    split at stored
    · cases stored
      obtain ⟨old, found⟩ := h.node
      refine ⟨_, found, fun position own => ?_⟩
      cases zero : guid.isZero with
      | true => simp [reset, zero]
      | false =>
        obtain ⟨node, found_node, guid_own⟩ := h.steady.guid (h.known.indexed zero)
        cases found.symm.trans found_node
        rw [own] at guid_own
        cases guid_own
    · exact h.steady.slotted ⟨position, stored⟩
  · exact ⟨h.carries.library, h.carries.anonymous, h.carries.guid, h.carries.nodes⟩
  · have carries' : t.Carries f := ⟨carries.library, carries.anonymous, carries.guid, carries.nodes⟩
    have known := h.known.carries carries'
    have known' : Known guid index id s' := by
      constructor
      · intro nonzero
        rw [Graph.findGuid?, echoes.byGuid]
        exact known.indexed nonzero
      · intro zero
        rw [echoes.anonymous, echoes.library, ← h.carries.library, ← carries'.library]
        exact known.anonymous zero
    obtain ⟨changed, run'⟩ := place_known known' name body
    exact ⟨_, run', h.echoes fresh carries' echoes changed⟩

end ComTypes

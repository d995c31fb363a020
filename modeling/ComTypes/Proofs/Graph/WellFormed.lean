import ComTypes.Proofs.Graph.Arena

/-!
# Well-formed graphs

A graph is well-formed if its two indexes say what its nodes say, every node without a GUID is
identified by its own position, structural nodes are made from earlier nodes, and bodies name
existing nodes only.

Callers can hand in bodies of their own for types defined elsewhere, and some nodes may be closed to
everybody but their owner. A `Regime` says how much of this is in force, so that one set of lemmas
serves every run: `WellFormed.appends` and `WellFormed.modify` say that the two kinds of changes keep
a graph well-formed, and the operations on graphs are instances of them.
-/

namespace ComTypes

/-- What a run may assume and has to respect. -/
structure Regime where
  /-- The bodies that callers hand in for types defined elsewhere. -/
  handed : Body → Prop
  /-- Whether bodies that are handed in name only nodes that exist and lead to no closed node. -/
  bounded : Prop
  /-- The nodes that bodies are not to lead to. -/
  closed : TypeId → Prop

namespace Graph

/-- The node is a declaration that its position identifies. -/
def IsRecord (g : Graph) (id : TypeId) : Prop :=
  ∃ node, g.node? id = some node ∧ node.identity = .index id ∧ node.body.isDeclaration = true

/-- A body may name this type: it exists, and it does not lead to a closed node. -/
def Nameable (g : Graph) (r : Regime) (id : TypeId) : Prop :=
  r.bounded → id < g.size ∧ ∀ last, g.Reaches id last → ¬ r.closed last

/-- The graph is in order. -/
structure WellFormed (r : Regime) (g : Graph) : Prop where
  /-- Bodies name nodes of the graph. -/
  targets_lt : r.bounded → ∀ {id node}, g.node? id = some node →
    ∀ t ∈ node.body.targets, t < g.size
  /-- A structural type is made from earlier nodes. -/
  earlier : r.bounded → ∀ {id node s}, g.node? id = some node → node.body = .structural s →
    ∀ t ∈ s.targets, t < id
  /-- The GUID index holds exactly the nodes that a GUID identifies. -/
  findGuid_iff : ∀ guid id, g.findGuid? guid = some id ↔
    guid.isZero = false ∧ ∃ node, g.node? id = some node ∧ node.identity = .guid guid
  nonzero : ∀ {id node guid}, g.node? id = some node → node.identity = .guid guid →
    guid.isZero = false
  index_eq : ∀ {id node position}, g.node? id = some node → node.identity = .index position →
    position = id
  /-- The index of structures holds exactly the structural nodes that are not external. -/
  interned_iff : ∀ s id, g.byStructure.get? s = some id ↔
    ∃ node, g.node? id = some node ∧ node.external = false ∧ node.body = .structural s
  interned_index : ∀ {id node s}, g.node? id = some node → node.external = false →
    node.body = .structural s → node.identity = .index id
  /-- An external structural node was handed in. -/
  handed : ∀ {id node s}, g.node? id = some node → node.external = true →
    node.body = .structural s → r.handed node.body
  /-- Nodes with a GUID do not lead to closed nodes. -/
  guid_nameable : ∀ {id node guid}, g.node? id = some node → node.identity = .guid guid →
    g.Nameable r id
  /-- Closed nodes are declarations without a GUID. -/
  closed_node : ∀ {id}, r.closed id → g.IsRecord id

/-- The node may be given another body: it is not one of the interned nodes. -/
def Editable (g : Graph) (id : TypeId) : Prop :=
  ∃ node, g.node? id = some node ∧ ∀ s, node.body = .structural s → node.external = true

variable {g g' : Graph} {r : Regime} {id : TypeId} {node : Node}

/-- What may be named may still be named in a graph that has grown. -/
theorem Nameable.grows (h : g.Nameable r id) (wf : g.WellFormed r) (grows : g.Grows g') :
    g'.Nameable r id := by
  intro bounded
  obtain ⟨inside, apart⟩ := h bounded
  exact ⟨Nat.lt_of_lt_of_le inside grows.size_le, fun last reached =>
    apart last (grows.reaches (wf.targets_lt bounded) reached inside)⟩

theorem Nameable.loosen (h : g.Nameable r id) {closed : TypeId → Prop}
    (fewer : ∀ id, closed id → r.closed id) : g.Nameable { r with closed } id := fun bounded =>
  ⟨(h bounded).1, fun last reached still => (h bounded).2 last reached (fewer last still)⟩

theorem IsRecord.lt_size (h : g.IsRecord id) : id < g.size :=
  let ⟨_, found, _⟩ := h
  lt_size_of_node? found

theorem IsRecord.grows (h : g.IsRecord id) (grows : g.Grows g') : g'.IsRecord id := by
  obtain ⟨node, found, index, declares⟩ := h
  obtain ⟨node', found', identity, body⟩ := grows.kept found
  refine ⟨node', found', identity.trans index, Body.isDeclaration_iff.mpr fun s same => ?_⟩
  exact Body.isDeclaration_iff.mp declares s (body s same).1

/-- The body of a record may be replaced. -/
theorem IsRecord.editable (h : g.IsRecord id) : g.Editable id := by
  obtain ⟨node, found, _, declares⟩ := h
  exact ⟨node, found, fun s same => absurd same (Body.isDeclaration_iff.mp declares s)⟩

theorem Editable.grows (h : g.Editable id) (grows : g.Grows g') : g'.Editable id := by
  obtain ⟨node, found, structural⟩ := h
  obtain ⟨node', found', _, body⟩ := grows.kept found
  refine ⟨node', found', fun s same => ?_⟩
  obtain ⟨before, external⟩ := body s same
  exact external.trans (structural s before)

theorem Editable.lt_size (h : g.Editable id) : id < g.size :=
  let ⟨_, found, _⟩ := h
  lt_size_of_node? found

/-- A declaration may be named unless it is closed. -/
theorem nameable_of_declaration (found : g.node? id = some node)
    (declares : node.body.isDeclaration = true) (free : ¬ r.closed id) : g.Nameable r id := by
  refine fun _ => ⟨lt_size_of_node? found, fun last reached => ?_⟩
  rwa [reached.eq_of_declaration found declares]

namespace WellFormed

/-- A node with a GUID is never interned, so it may be given another body. -/
theorem editable_of_guid (wf : g.WellFormed r) {guid : Guid} (found : g.node? id = some node)
    (identity : node.identity = .guid guid) : g.Editable id := by
  refine ⟨node, found, fun s structural => ?_⟩
  cases external : node.external with
  | true => rfl
  | false =>
    have index := wf.interned_index found external structural
    rw [identity] at index
    cases index

/-- Closed nodes are in the graph. -/
theorem closed_lt (wf : g.WellFormed r) (h : r.closed id) : id < g.size :=
  (wf.closed_node h).lt_size

/-- Other nodes are closed instead: declarations without a GUID that no node with a GUID leads to. -/
theorem reclose (wf : g.WellFormed r) {closed : TypeId → Prop}
    (records : ∀ {id}, closed id → g.IsRecord id)
    (apart : r.bounded → ∀ {id node guid}, g.node? id = some node → node.identity = .guid guid →
      ∀ last, g.Reaches id last → ¬ closed last) :
    g.WellFormed { r with closed } where
  targets_lt := wf.targets_lt
  earlier := wf.earlier
  findGuid_iff := wf.findGuid_iff
  nonzero := wf.nonzero
  index_eq := wf.index_eq
  interned_iff := wf.interned_iff
  interned_index := wf.interned_index
  handed := wf.handed
  guid_nameable found identity bounded := ⟨lt_size_of_node? found, apart bounded found identity⟩
  closed_node := records

/-- Fewer nodes are closed. -/
theorem loosen (wf : g.WellFormed r) {closed : TypeId → Prop}
    (fewer : ∀ id, closed id → r.closed id) : g.WellFormed { r with closed } :=
  wf.reclose (fun still => wf.closed_node (fewer _ still)) fun bounded _ _ _ found identity last
    reached still => (wf.guid_nameable found identity bounded).2 last reached (fewer last still)

/-- The graph without nodes, when nothing is closed. -/
theorem empty (r : Regime) (records : ∀ {id}, r.closed id → IsRecord {} id) :
    WellFormed r {} where
  targets_lt _ _ _ found := absurd found (by simp [node?])
  earlier _ _ _ _ found := absurd found (by simp [node?])
  findGuid_iff guid id := by simp [findGuid?, Table.get?, node?]
  nonzero found := absurd found (by simp [node?])
  index_eq found := absurd found (by simp [node?])
  interned_iff s id := by simp [Table.get?, node?]
  interned_index found := absurd found (by simp [node?])
  handed found := absurd found (by simp [node?])
  guid_nameable found := absurd found (by simp [node?])
  closed_node := records

/-- A GUID identifies one node, since the index has one entry for it. -/
theorem identity_unique (wf : g.WellFormed r) {id' : TypeId} {node' : Node}
    (found : g.node? id = some node) (found' : g.node? id' = some node')
    (same : node.identity = node'.identity) : id = id' := by
  cases identity : node.identity with
  | guid guid =>
    have nonzero := wf.nonzero found identity
    have indexed := (wf.findGuid_iff guid id).mpr ⟨nonzero, node, found, identity⟩
    have indexed' := (wf.findGuid_iff guid id').mpr
      ⟨nonzero, node', found', same.symm.trans identity⟩
    exact Option.some.inj (indexed.symm.trans indexed')
  | index position =>
    rw [← wf.index_eq found identity]
    exact wf.index_eq found' (same.symm.trans identity)

/-! ### Appending a node -/

section Appends

variable (wf : g.WellFormed r) (h : g.Appends node g')

include h in
/-- A node afterwards is the new one or an old one. -/
theorem of_appends {j : TypeId} {found : Node} (at_j : g'.node? j = some found) :
    (j = g.size ∧ found = node) ∨ (j < g.size ∧ g.node? j = some found) := by
  rw [h.node_eq] at at_j
  split at at_j
  next last => exact .inl ⟨last, (Option.some.inj at_j).symm⟩
  next => exact .inr ⟨lt_size_of_node? at_j, at_j⟩

include h in
theorem appended : g'.node? g.size = some node := by
  rw [h.node_eq, if_pos rfl]

include wf h in
/-- What the new node names may be named, so it may be named itself. -/
theorem nameable_appended (targets : ∀ t ∈ node.body.targets, g.Nameable r t) :
    g'.Nameable r g.size := by
  refine fun bounded => ⟨by simp [h.size_eq], fun last reached => ?_⟩
  cases reached with
  | here => exact fun closed => Nat.lt_irrefl _ (wf.closed_lt closed)
  | @step _ next _ leads further =>
    simp only [body?, appended h, Option.map_some, Option.bind_some] at leads
    obtain ⟨s, structural, member⟩ := throughStructure_eq_some.mp leads
    have named : next ∈ node.body.targets := by rwa [structural]
    obtain ⟨inside, apart⟩ := targets next named bounded
    exact apart last ((Grows.of_appends h).reaches (wf.targets_lt bounded) further inside)

/-- A GUID of the new node is one that was not known. -/
theorem unknown_of_fresh {guid : Guid}
    (identity : node.identity = .index g.size ∨ ∃ guid : Guid, guid.isZero = false ∧
      node.identity = .guid guid ∧ g.findGuid? guid = none)
    (same : node.identity = .guid guid) : guid.isZero = false ∧ g.findGuid? guid = none := by
  rcases identity with index | ⟨guid', nonzero, own, unknown⟩
  · rw [index] at same
    cases same
  · rw [own] at same
    cases same
    exact ⟨nonzero, unknown⟩

include wf h in
/-- The GUID of the new node, if it has one, is the only one that comes into the index. -/
theorem findGuid_iff_appended {guid : Guid} {j : TypeId}
    (fresh : node.identity = .guid guid → guid.isZero = false ∧ g.findGuid? guid = none) :
    g'.findGuid? guid = some j ↔
      guid.isZero = false ∧ ∃ found, g'.node? j = some found ∧ found.identity = .guid guid := by
  rw [h.guid_eq]
  constructor
  · intro indexed
    split at indexed
    next own =>
      cases indexed
      exact ⟨(fresh own).1, node, appended h, own⟩
    next =>
      obtain ⟨nonzero, found, old, same⟩ := (wf.findGuid_iff guid j).mp indexed
      obtain ⟨found', new, kept, _⟩ := (Grows.of_appends h).kept old
      exact ⟨nonzero, found', new, kept.trans same⟩
  · rintro ⟨nonzero, found, at_j, same⟩
    rcases of_appends h at_j with ⟨rfl, rfl⟩ | ⟨inside, old⟩
    · rw [if_pos same]
    · have indexed := (wf.findGuid_iff guid j).mpr ⟨nonzero, found, old, same⟩
      split
      next own =>
        -- The GUID would be known already, so the new node could not have it.
        rw [(fresh own).2] at indexed
        cases indexed
      next => exact indexed

include wf h in
/-- The structure of the new node, if it is interned, is the only one that comes into the index. -/
theorem interned_iff_appended {s : Structural} {j : TypeId}
    (fresh : node.external = false → node.body = .structural s → g.byStructure.get? s = none) :
    g'.byStructure.get? s = some j ↔
      ∃ found, g'.node? j = some found ∧ found.external = false ∧ found.body = .structural s := by
  rw [h.structure_eq]
  constructor
  · intro indexed
    split at indexed
    next own =>
      cases indexed
      exact ⟨node, appended h, own.1, own.2⟩
    next =>
      obtain ⟨found, old, internal, same⟩ := (wf.interned_iff s j).mp indexed
      exact ⟨found, by rw [h.node_eq, if_neg (Nat.ne_of_lt (lt_size_of_node? old)), old],
        internal, same⟩
  · rintro ⟨found, at_j, internal, same⟩
    rcases of_appends h at_j with ⟨rfl, rfl⟩ | ⟨_, old⟩
    · rw [if_pos ⟨internal, same⟩]
    · have indexed := (wf.interned_iff s j).mpr ⟨found, old, internal, same⟩
      split
      next own =>
        rw [fresh own.1 own.2] at indexed
        cases indexed
      next => exact indexed

include wf h in
/-- Appending a node keeps the graph well-formed, if the node has an identity of its own and, being
structural, is either handed in from outside or new. -/
theorem appends
    (identity : node.identity = .index g.size ∨ ∃ guid : Guid, guid.isZero = false ∧
      node.identity = .guid guid ∧ g.findGuid? guid = none)
    (structural : ∀ s, node.body = .structural s →
      (node.external = true ∧ r.handed node.body) ∨
        (node.external = false ∧ node.identity = .index g.size ∧ g.byStructure.get? s = none))
    (targets : ∀ t ∈ node.body.targets, g.Nameable r t) : g'.WellFormed r := by
  have grows : g.Grows g' := .of_appends h
  have larger : g.size < g'.size := by simp [h.size_eq]
  have interned : ∀ s, node.external = false → node.body = .structural s →
      node.identity = .index g.size ∧ g.byStructure.get? s = none := by
    intro s internal same
    rcases structural s same with ⟨external, _⟩ | ⟨_, fresh⟩
    · rw [internal] at external
      cases external
    · exact fresh
  refine
    { targets_lt := fun bounded j found at_j t member => ?_
      earlier := fun bounded j found s at_j same t member => ?_
      findGuid_iff := fun guid j => findGuid_iff_appended wf h (unknown_of_fresh identity)
      nonzero := fun {j found guid} at_j same => ?_
      index_eq := fun {j found position} at_j same => ?_
      interned_iff := fun s j =>
        interned_iff_appended wf h fun internal same => (interned s internal same).2
      interned_index := fun {j found s} at_j internal same => ?_
      handed := fun {j found s} at_j external same => ?_
      guid_nameable := fun {j found guid} at_j same => ?_
      closed_node := fun {j} closed => (wf.closed_node closed).grows grows }
  · rcases of_appends h at_j with ⟨rfl, rfl⟩ | ⟨_, old⟩
    · exact Nat.lt_trans (targets t member bounded).1 larger
    · exact Nat.lt_trans (wf.targets_lt bounded old t member) larger
  · rcases of_appends h at_j with ⟨rfl, rfl⟩ | ⟨_, old⟩
    · have named : t ∈ found.body.targets := by rwa [same]
      exact (targets t named bounded).1
    · exact wf.earlier bounded old same t member
  · rcases of_appends h at_j with ⟨rfl, rfl⟩ | ⟨_, old⟩
    · exact (unknown_of_fresh identity same).1
    · exact wf.nonzero old same
  · rcases of_appends h at_j with ⟨rfl, rfl⟩ | ⟨_, old⟩
    · rcases identity with index | ⟨guid, _, own, _⟩
      · rw [index] at same
        cases same
        rfl
      · rw [own] at same
        cases same
    · exact wf.index_eq old same
  · rcases of_appends h at_j with ⟨rfl, rfl⟩ | ⟨_, old⟩
    · exact (interned s internal same).1
    · exact wf.interned_index old internal same
  · rcases of_appends h at_j with ⟨rfl, rfl⟩ | ⟨_, old⟩
    · rcases structural s same with ⟨_, handed⟩ | ⟨internal, _, _⟩
      · exact handed
      · rw [external] at internal
        cases internal
    · exact wf.handed old external same
  · rcases of_appends h at_j with ⟨rfl, rfl⟩ | ⟨_, old⟩
    · exact nameable_appended wf h targets
    · exact (wf.guid_nameable old same).grows wf grows

end Appends

/-! ### Changing a node -/

section Modify

variable {f : Node → Node} (identity : ∀ node, (f node).identity = node.identity)

include identity in
theorem exists_of_modified {j : TypeId} {found : Node} (at_j : (g.modify id f).node? j = some found) :
    ∃ node, g.node? j = some node ∧ node.identity = found.identity := by
  rcases of_node?_modify at_j with ⟨_, old⟩ | ⟨rfl, node, old, rfl⟩
  · exact ⟨found, old, rfl⟩
  · exact ⟨node, old, (identity node).symm⟩

include identity in
/-- A structural node has not been changed, but for what has no bearing on the graph. -/
theorem structural_of_modified
    (body : ∀ node, g.node? id = some node →
      ((f node).body = node.body ∧ (f node).external = node.external) ∨
        (f node).body.isDeclaration = true) {j : TypeId} {found : Node} {s : Structural}
    (at_j : (g.modify id f).node? j = some found) (same : found.body = .structural s) :
    ∃ node, g.node? j = some node ∧ node.body = found.body ∧ node.external = found.external ∧
      node.identity = found.identity := by
  rcases of_node?_modify at_j with ⟨_, old⟩ | ⟨rfl, node, old, rfl⟩
  · exact ⟨found, old, rfl, rfl, rfl⟩
  · rcases body node old with ⟨unchanged, external⟩ | declares
    · exact ⟨node, old, unchanged.symm, external.symm, (identity node).symm⟩
    · exact absurd same (Body.isDeclaration_iff.mp declares s)

/-- An interned node keeps its structure. -/
theorem interned_modified
    (body : ∀ node, g.node? id = some node →
      ((f node).body = node.body ∧ (f node).external = node.external) ∨ g.Editable id)
    {j : TypeId} {s : Structural} (old : g.node? j = some node) (internal : node.external = false)
    (same : node.body = .structural s) :
    ∃ found, (g.modify id f).node? j = some found ∧ found.external = false ∧
      found.body = .structural s := by
  by_cases here : id = j
  · subst here
    rcases body node old with ⟨unchanged, external⟩ | ⟨node', old', editable⟩
    · exact ⟨f node, node?_modify_self f old, external.trans internal, unchanged.trans same⟩
    · rw [old] at old'
      cases old'
      have external := editable s same
      rw [internal] at external
      cases external
  · exact ⟨node, (node?_modify_of_ne f here).trans old, internal, same⟩

include identity in
/-- Changing a node keeps the graph well-formed, if the node keeps its identity and either its body
or, where it may be given another one, gets the body of a declaration. -/
theorem modify (wf : g.WellFormed r)
    (body : ∀ node, g.node? id = some node →
      ((f node).body = node.body ∧ (f node).external = node.external) ∨
        (g.Editable id ∧ (f node).body.isDeclaration = true ∧
          (r.bounded → ∀ t ∈ (f node).body.targets, t < g.size))) :
    (g.modify id f).WellFormed r := by
  have declares : ∀ node, g.node? id = some node →
      ((f node).body = node.body ∧ (f node).external = node.external) ∨
        (f node).body.isDeclaration = true := fun node found => (body node found).imp_right (·.2.1)
  have editable : ∀ node, g.node? id = some node →
      ((f node).body = node.body ∧ (f node).external = node.external) ∨ g.Editable id :=
    fun node found => (body node found).imp_right (·.1)
  have grows : g.Grows (g.modify id f) := .of_modify identity declares
  refine
    { targets_lt := fun bounded j found at_j t member => ?_
      earlier := fun bounded j found s at_j same t member => ?_
      findGuid_iff := fun guid j => ?_
      nonzero := fun {j found guid} at_j same => ?_
      index_eq := fun {j found position} at_j same => ?_
      interned_iff := fun s j => ?_
      interned_index := fun {j found s} at_j internal same => ?_
      handed := fun {j found s} at_j external same => ?_
      guid_nameable := fun {j found guid} at_j same => ?_
      closed_node := fun {j} closed => (wf.closed_node closed).grows grows }
  · rw [size_modify]
    rcases of_node?_modify at_j with ⟨_, old⟩ | ⟨rfl, node, old, rfl⟩
    · exact wf.targets_lt bounded old t member
    · rcases body node old with ⟨unchanged, _⟩ | ⟨_, _, targets⟩
      · rw [unchanged] at member
        exact wf.targets_lt bounded old t member
      · exact targets bounded t member
  · obtain ⟨node, old, unchanged, _⟩ := structural_of_modified identity declares at_j same
    exact wf.earlier bounded old (unchanged.trans same) t member
  · rw [findGuid?_modify, wf.findGuid_iff]
    refine and_congr_right fun _ => ⟨?_, ?_⟩
    · rintro ⟨node, old, same⟩
      obtain ⟨node', new, kept, _⟩ := grows.kept old
      exact ⟨node', new, kept.trans same⟩
    · rintro ⟨node', at_j, same⟩
      obtain ⟨node, old, kept⟩ := exists_of_modified identity at_j
      exact ⟨node, old, kept.trans same⟩
  · obtain ⟨node, old, kept⟩ := exists_of_modified identity at_j
    exact wf.nonzero old (kept.trans same)
  · obtain ⟨node, old, kept⟩ := exists_of_modified identity at_j
    exact wf.index_eq old (kept.trans same)
  · rw [byStructure_modify, wf.interned_iff]
    constructor
    · rintro ⟨node, old, internal, same⟩
      exact interned_modified editable old internal same
    · rintro ⟨node', at_j, internal, same⟩
      obtain ⟨node, old, unchanged, unmoved, _⟩ := structural_of_modified identity declares at_j same
      exact ⟨node, old, unmoved.trans internal, unchanged.trans same⟩
  · obtain ⟨node, old, unchanged, unmoved, kept⟩ := structural_of_modified identity declares at_j same
    exact kept.symm.trans (wf.interned_index old (unmoved.trans internal) (unchanged.trans same))
  · obtain ⟨node, old, unchanged, unmoved, _⟩ := structural_of_modified identity declares at_j same
    rw [← unchanged]
    exact wf.handed old (unmoved.trans external) (unchanged.trans same)
  · obtain ⟨node, old, kept⟩ := exists_of_modified identity at_j
    exact (wf.guid_nameable old (kept.trans same)).grows wf grows

end Modify

end WellFormed

/-- What is indexed under a GUID stays so. -/
theorem Grows.findGuid {r r' : Regime} (grows : g.Grows g') (wf : g.WellFormed r)
    (wf' : g'.WellFormed r') {guid : Guid} (h : g.findGuid? guid = some id) :
    g'.findGuid? guid = some id := by
  obtain ⟨nonzero, node, found, identity⟩ := (wf.findGuid_iff guid id).mp h
  obtain ⟨node', found', kept, _⟩ := grows.kept found
  exact (wf'.findGuid_iff guid id).mpr ⟨nonzero, node', found', kept.trans identity⟩

end Graph

end ComTypes

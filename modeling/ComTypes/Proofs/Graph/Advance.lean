import ComTypes.Proofs.Graph.WellFormed
import ComTypes.Proofs.Outcome

/-!
# Advancing a graph

An advance leads from one well-formed graph to another. It leaves closed nodes alone, takes nothing
out of use, and gives a node a new body only if that body may name what it names. Interning a type,
referring to a type defined elsewhere, declaring a node and filling it are advances, and so is any
number of them in a row (`Graph.advance_progress`).
-/

namespace ComTypes.Graph

/-- `g'` comes from `g` by steps that respect the closed nodes. -/
structure Advance (r : Regime) (g g' : Graph) : Prop where
  wellFormed : g'.WellFormed r
  grows : g.Grows g'
  closed_eq : ∀ {id}, r.closed id → g'.node? id = g.node? id
  /-- A body is an old one of its node, or may name what it names. -/
  bodies : ∀ {id node'}, g'.node? id = some node' →
    (∃ node, g.node? id = some node ∧ node'.body = node.body) ∨
      ∀ t ∈ node'.body.targets, g'.Nameable r t
  retired : ∀ {id node'}, g'.node? id = some node' → node'.retired = true →
    ∃ node, g.node? id = some node ∧ node.retired = true

variable {g g' : Graph} {r : Regime} {id : TypeId} {node : Node}

theorem Advance.refl (wf : g.WellFormed r) : g.Advance r g where
  wellFormed := wf
  grows := .refl g
  closed_eq _ := rfl
  bodies found := .inl ⟨_, found, rfl⟩
  retired found gone := ⟨_, found, gone⟩

/-- Fewer nodes are closed. -/
theorem Advance.loosen (h : g.Advance r g') {closed : TypeId → Prop}
    (fewer : ∀ id, closed id → r.closed id) : g.Advance { r with closed } g' where
  wellFormed := h.wellFormed.loosen fewer
  grows := h.grows
  closed_eq still := h.closed_eq (fewer _ still)
  bodies found := (h.bodies found).imp id fun named t member => (named t member).loosen fewer
  retired := h.retired

theorem advance_progress (r : Regime) : Progress (Advance r) where
  trans {g g' g''} first second :=
    { wellFormed := second.wellFormed
      grows := first.grows.trans second.grows
      closed_eq := fun closed => (second.closed_eq closed).trans (first.closed_eq closed)
      bodies := by
        intro id node'' found''
        rcases second.bodies found'' with ⟨node', found', same'⟩ | named
        · rcases first.bodies found' with ⟨node, found, same⟩ | named
          · exact .inl ⟨node, found, same'.trans same⟩
          · refine .inr fun t member => ?_
            rw [same'] at member
            exact (named t member).grows first.wellFormed second.grows
        · exact .inr named
      retired := by
        intro id node'' found'' gone
        obtain ⟨node', found', gone'⟩ := second.retired found'' gone
        exact first.retired found' gone' }
  here advance := .refl advance.wellFormed

/-! ### Appending and changing nodes -/

theorem Advance.of_appends (wf : g.WellFormed r) (h : g.Appends node g')
    (identity : node.identity = .index g.size ∨ ∃ guid : Guid, guid.isZero = false ∧
      node.identity = .guid guid ∧ g.findGuid? guid = none)
    (structural : ∀ s, node.body = .structural s →
      (node.external = true ∧ r.handed node.body) ∨
        (node.external = false ∧ node.identity = .index g.size ∧ g.byStructure.get? s = none))
    (targets : ∀ t ∈ node.body.targets, g.Nameable r t) (used : node.retired = false) :
    g.Advance r g' := by
  have grows := Grows.of_appends h
  refine
    { wellFormed := wf.appends h identity structural targets
      grows := grows
      closed_eq := fun closed => ?_
      bodies := fun found => ?_
      retired := fun found gone => ?_ }
  · rw [h.node_eq, if_neg (Nat.ne_of_lt (wf.closed_lt closed))]
  · rcases WellFormed.of_appends h found with ⟨rfl, rfl⟩ | ⟨_, old⟩
    · exact .inr fun t member => (targets t member).grows wf grows
    · exact .inl ⟨_, old, rfl⟩
  · rcases WellFormed.of_appends h found with ⟨rfl, rfl⟩ | ⟨_, old⟩
    · rw [used] at gone
      cases gone
    · exact ⟨_, old, gone⟩

/-- A change that keeps the body. -/
theorem Advance.of_touch (wf : g.WellFormed r) (free : ¬ r.closed id) {f : Node → Node}
    (identity : ∀ node, (f node).identity = node.identity)
    (body : ∀ node, (f node).body = node.body)
    (external : ∀ node, (f node).external = node.external)
    (retired : ∀ node, (f node).retired = node.retired) : g.Advance r (g.modify id f) := by
  refine
    { wellFormed := wf.modify identity fun node _ => .inl ⟨body node, external node⟩
      grows := .of_modify identity fun node _ => .inl ⟨body node, external node⟩
      closed_eq := fun closed => node?_modify_of_ne f fun same => free (same ▸ closed)
      bodies := fun found => ?_
      retired := fun found gone => ?_ }
  · rcases of_node?_modify found with ⟨_, old⟩ | ⟨rfl, node, old, rfl⟩
    · exact .inl ⟨_, old, rfl⟩
    · exact .inl ⟨node, old, body node⟩
  · rcases of_node?_modify found with ⟨_, old⟩ | ⟨rfl, node, old, rfl⟩
    · exact ⟨_, old, gone⟩
    · exact ⟨node, old, (retired node).symm.trans gone⟩

/-- A change that defines a declaration anew. -/
theorem Advance.of_define (wf : g.WellFormed r) (free : ¬ r.closed id) (editable : g.Editable id)
    {f : Node → Node} (identity : ∀ node, (f node).identity = node.identity)
    (body : ∀ node, (f node).body.isDeclaration = true)
    (targets : ∀ node, ∀ t ∈ (f node).body.targets, g.Nameable r t)
    (retired : ∀ node, (f node).retired = true → node.retired = true) :
    g.Advance r (g.modify id f) := by
  have grows : g.Grows (g.modify id f) := .of_modify identity fun node _ => .inr (body node)
  refine
    { wellFormed := wf.modify identity fun node _ =>
        .inr ⟨editable, body node, fun bounded t member => (targets node t member bounded).1⟩
      grows := grows
      closed_eq := fun closed => node?_modify_of_ne f fun same => free (same ▸ closed)
      bodies := fun found => ?_
      retired := fun found gone => ?_ }
  · rcases of_node?_modify found with ⟨_, old⟩ | ⟨rfl, node, old, rfl⟩
    · exact .inl ⟨_, old, rfl⟩
    · exact .inr fun t member => (targets node t member).grows wf grows
  · rcases of_node?_modify found with ⟨_, old⟩ | ⟨rfl, node, old, rfl⟩
    · exact ⟨_, old, gone⟩
    · exact ⟨node, old, retired node gone⟩

/-! ### The operations -/

/-- A node is identified by its GUID or else by its position. -/
theorem nextIdentity_cases (guid : Option Guid) :
    g.nextIdentity guid = .index g.size ∨ ∃ guid' : Guid, guid = some guid' ∧
      guid'.isZero = false ∧ g.nextIdentity guid = .guid guid' := by
  unfold nextIdentity
  split
  next guid' chosen =>
    obtain ⟨same, nonzero⟩ := Option.filter_eq_some_iff.mp chosen
    exact .inr ⟨guid', same, by simpa using nonzero, rfl⟩
  next => exact .inl rfl

/-- Nodes with a GUID are not closed. -/
theorem WellFormed.not_closed_of_guid (wf : g.WellFormed r) {guid : Guid}
    (found : g.node? id = some node) (identity : node.identity = .guid guid) :
    ¬ r.closed id := by
  intro closed
  obtain ⟨node', found', index, _⟩ := wf.closed_node closed
  rw [found] at found'
  cases found'
  rw [identity] at index
  cases index

/-- A structural type made of types that may be named may be named itself. -/
theorem intern_advance (wf : g.WellFormed r) {s : Structural}
    (targets : ∀ t ∈ s.targets, g.Nameable r t) :
    g.Advance r (g.intern s).2 ∧ (g.intern s).2.Nameable r (g.intern s).1 := by
  cases known : g.byStructure.get? s with
  | some id =>
    rw [intern_of_found known]
    obtain ⟨node, found, internal, structural⟩ := (wf.interned_iff s id).mp known
    refine ⟨.refl wf, fun bounded => ⟨lt_size_of_node? found, fun last reached => ?_⟩⟩
    cases reached with
    | here =>
      intro closed
      obtain ⟨node', found', _, declares⟩ := wf.closed_node closed
      rw [found] at found'
      cases found'
      exact Body.isDeclaration_iff.mp declares s structural
    | @step _ next _ leads further =>
      simp only [body?, found, Option.map_some, Option.bind_some] at leads
      obtain ⟨s', structural', member⟩ := throughStructure_eq_some.mp leads
      rw [structural] at structural'
      cases structural'
      exact (targets next member bounded).2 last further
  | none =>
    have h := appends_intern known
    rw [intern_fst_of_new known]
    refine ⟨.of_appends wf h (.inl rfl) (fun s' same => .inr ⟨rfl, rfl, ?_⟩) targets rfl,
      wf.nameable_appended h targets⟩
    cases same
    exact known

/-- The body counts only if the GUID is new. -/
theorem external_advance (guid : Guid) (name : String) {body : Body} (wf : g.WellFormed r)
    (handed : g.findGuid? guid = none → ∀ s, body = .structural s → r.handed body)
    (targets : g.findGuid? guid = none → ∀ t ∈ body.targets, g.Nameable r t) :
    g.Advance r (g.external guid name body).2 ∧
      (g.external guid name body).2.Nameable r (g.external guid name body).1 := by
  cases known : g.findGuid? guid with
  | some id =>
    rw [external_of_found name body known]
    obtain ⟨_, node, found, identity⟩ := (wf.findGuid_iff guid id).mp known
    have advance : g.Advance r
        (g.modify id fun node => if node.name = "" then { node with name } else node) := by
      refine .of_touch wf (wf.not_closed_of_guid found identity) ?_ ?_ ?_ ?_
      all_goals
        intro node
        split <;> rfl
    exact ⟨advance, (wf.guid_nameable found identity).grows wf advance.grows⟩
  | none =>
    have h := appends_external name body known
    rw [external_fst_of_new name body known]
    refine ⟨.of_appends wf h ?_ (fun s same => .inl ⟨rfl, handed known s same⟩) (targets known) rfl,
      wf.nameable_appended h (targets known)⟩
    rcases nextIdentity_cases (g := g) (some guid) with index | ⟨guid', same, nonzero, own⟩
    · exact .inl index
    · cases same
      exact .inr ⟨guid, nonzero, own, known⟩

/-- A reference to a declaration without contents. -/
theorem external_blank_advance (guid : Guid) (name : String) {body : Body} (wf : g.WellFormed r)
    (declares : body.isDeclaration = true) (blank : body.targets = []) :
    g.Advance r (g.external guid name body).2 ∧
      (g.external guid name body).2.Nameable r (g.external guid name body).1 := by
  refine external_advance guid name wf (fun _ s same => ?_) fun _ t member => ?_
  · exact absurd same (Body.isDeclaration_iff.mp declares s)
  · rw [blank] at member
    cases member

/-- A new declaration. Its GUID must not be known yet. -/
theorem add_advance (wf : g.WellFormed r) {guid : Option Guid} {name : String} {body : Body}
    (unknown : ∀ guid', guid = some guid' → g.findGuid? guid' = none)
    (declares : body.isDeclaration = true) (targets : ∀ t ∈ body.targets, g.Nameable r t) :
    g.Advance r (g.add guid name body).2 := by
  refine .of_appends wf (appends_add guid name declares) ?_
    (fun s same => absurd same (Body.isDeclaration_iff.mp declares s)) targets rfl
  rcases nextIdentity_cases (g := g) guid with index | ⟨guid', same, nonzero, own⟩
  · exact .inl index
  · exact .inr ⟨guid', nonzero, own, unknown guid' same⟩

end ComTypes.Graph

import ComTypes.Proofs.Graph.Advance

/-!
# Graphs that keep what they hold

Interning a structure, and referring to an interface without giving it a name, add a node or find one, and
change none (`Graph.Keeps`). What has been asked for once is found where it is known (`Graph.Indexed`), so
asking again adds nothing.
-/

namespace ComTypes.Graph

/-- What the indexes of `g` hold is held by those of `g'`. -/
structure Indexed (g g' : Graph) : Prop where
  guid : ∀ {guid id}, g.findGuid? guid = some id → g'.findGuid? guid = some id
  structural : ∀ {s id}, g.byStructure.get? s = some id → g'.byStructure.get? s = some id

/-- What is in `g` is in `g'` unchanged. -/
structure Keeps (g g' : Graph) : Prop extends g.Indexed g' where
  node : ∀ {id node}, g.node? id = some node → g'.node? id = some node

variable {g g' g'' : Graph}

theorem Indexed.refl (g : Graph) : g.Indexed g where
  guid known := known
  structural known := known

theorem Indexed.trans (first : g.Indexed g') (second : g'.Indexed g'') : g.Indexed g'' where
  guid known := second.guid (first.guid known)
  structural known := second.structural (first.structural known)

theorem Keeps.refl (g : Graph) : g.Keeps g where
  toIndexed := .refl g
  node found := found

theorem Keeps.of_appends {node : Node} (h : g.Appends node g')
    (guid : ∀ guid, node.identity = .guid guid → g.findGuid? guid = none)
    (structural : ∀ s, node.external = false → node.body = .structural s →
      g.byStructure.get? s = none) : g.Keeps g' where
  guid {other id} known := by
    rw [h.guid_eq, if_neg]
    · exact known
    · intro own
      rw [guid other own] at known
      cases known
  structural {s id} known := by
    rw [h.structure_eq, if_neg]
    · exact known
    · rintro ⟨internal, own⟩
      rw [structural s internal own] at known
      cases known
  node {id old} found := by
    rw [h.node_eq, if_neg (Nat.ne_of_lt (lt_size_of_node? found))]
    exact found

/-- Interning keeps every node and both indexes. -/
theorem intern_keeps (s : Structural) : g.Keeps (g.intern s).2 := by
  cases known : g.byStructure.get? s with
  | some id =>
    rw [intern_of_found known]
    exact .refl g
  | none =>
    apply Keeps.of_appends (appends_intern known)
    · intro guid own
      cases own
    · rintro other _ ⟨⟩
      exact known

/-- A structure that has been interned is found where it is known. -/
theorem intern_again {s : Structural} (known : (g.intern s).2.Indexed g') :
    g'.intern s = ((g.intern s).1, g') := by
  apply intern_of_found
  apply known.structural
  cases found : g.byStructure.get? s with
  | some id =>
    rw [intern_of_found found]
    exact found
  | none =>
    rw [intern_fst_of_new found, (appends_intern found).structure_eq]
    exact if_pos ⟨rfl, rfl⟩

/-- Without a name there is nothing to fill in. -/
theorem externalInterface_of_found {iid : Guid} {id : TypeId} (known : g.findGuid? iid = some id) :
    g.externalInterface iid none = (id, g) := by
  have same : g.modify id (fun node => if node.name = "" then { node with name := "" } else node) =
      g := by
    apply modify_eq_self
    intro node _
    split
    next empty => rw [← empty]
    next => rfl
  calc
    g.externalInterface iid none = (id, g.modify id _) :=
      external_of_found "" (.interface {}) known
    _ = (id, g) := by rw [same]

theorem externalInterface_keeps (iid : Guid) : g.Keeps (g.externalInterface iid none).2 := by
  cases known : g.findGuid? iid with
  | some id =>
    rw [externalInterface_of_found known]
    exact .refl g
  | none =>
    apply Keeps.of_appends (appends_external "" (.interface {}) known)
    · intro guid own
      have identity : g.nextIdentity (some iid) = .guid guid := own
      rcases g.nextIdentity_cases (some iid) with index | ⟨other, same, _, named⟩
      · cases index.symm.trans identity
      · cases same
        cases named.symm.trans identity
        exact known
    · rintro s ⟨⟩

/-- An interface that was made before is found again, and nothing changes. -/
theorem externalInterface_again {iid : Guid} (nonzero : iid.isZero = false)
    (known : (g.externalInterface iid none).2.Indexed g') :
    g'.externalInterface iid none = ((g.externalInterface iid none).1, g') := by
  apply externalInterface_of_found
  apply known.guid
  cases found : g.findGuid? iid with
  | some id =>
    rw [externalInterface_of_found found]
    exact found
  | none =>
    have new : (g.externalInterface iid none).1 = g.size := external_fst_of_new _ _ found
    have named : (g.externalNode iid "" (.interface {})).identity = .guid iid :=
      nextIdentity_of_nonzero nonzero
    rw [new]
    exact ((appends_external "" (.interface {}) found).guid_eq iid).trans (if_pos named)

end ComTypes.Graph

import ComTypes.Proofs.Graph.Keeps

/-!
# What a type unfolds to

Built-in types, pointers and arrays are nodes like all others. Following them down from a node gives a tree, in
which the types with an identity of their own are leaves (`Graph.Unfolds`). A node unfolds to one tree at most
(`Graph.Unfolds.unique`). Since structures are interned, it is the only node that does
(`Graph.Unfolds.injective`), and as graphs only grow, it goes on to do so (`Graph.Unfolds.lasts`).
-/

namespace ComTypes

/-- A type with its built-in types, pointers and arrays spelled out. Other types are named by their
nodes. -/
inductive Unfolding where
  | primitive (primitive : Primitive)
  | pointer (target : Unfolding)
  | array (element : Unfolding) (bound : ArrayBound)
  | named (id : TypeId)
deriving DecidableEq, Repr

namespace Node

/-- The structure of a structural node. -/
def structure? (node : Node) : Option Structural :=
  match node.body with
  | .structural s => some s
  | _ => none

/-- The structure that a node is interned for. A type defined elsewhere is not interned, also where a
structural body was handed in for it. -/
def interned? (node : Node) : Option Structural :=
  if node.external then none else node.structure?

variable {node : Node} {s : Structural}

theorem structure?_eq_some : node.structure? = some s ↔ node.body = .structural s := by
  unfold structure?
  cases node.body <;> simp

theorem interned?_eq_some :
    node.interned? = some s ↔ node.external = false ∧ node.body = .structural s := by
  unfold interned?
  cases node.external <;> simp [structure?_eq_some]

theorem interned?_eq_none :
    node.interned? = none ↔ ∀ s, node.body = .structural s → node.external = true := by
  constructor
  · intro none s same
    cases external : node.external with
    | true => rfl
    | false => cases none.symm.trans (interned?_eq_some.mpr ⟨external, same⟩)
  · intro handed
    refine Option.eq_none_iff_forall_ne_some.mpr fun s interned => ?_
    obtain ⟨internal, same⟩ := interned?_eq_some.mp interned
    cases internal.symm.trans (handed s same)

end Node

namespace Graph

/-- The node unfolds to the tree, where `shape` says which nodes are opened. -/
inductive Unfolds (g : Graph) (shape : Node → Option Structural) : TypeId → Unfolding → Prop
  | named {id : TypeId} {node : Node} :
      g.node? id = some node → shape node = none → Unfolds g shape id (.named id)
  | primitive {id : TypeId} {node : Node} {primitive : Primitive} :
      g.node? id = some node → shape node = some (.primitive primitive) →
      Unfolds g shape id (.primitive primitive)
  | pointer {id target : TypeId} {node : Node} {inner : Unfolding} :
      g.node? id = some node → shape node = some (.pointer target) →
      Unfolds g shape target inner → Unfolds g shape id (.pointer inner)
  | array {id element : TypeId} {node : Node} {bound : ArrayBound} {inner : Unfolding} :
      g.node? id = some node → shape node = some (.array element bound) →
      Unfolds g shape element inner → Unfolds g shape id (.array inner bound)

/-- `g'` comes later than `g`: nodes stay where they are, and what is interned stays so. -/
structure Lasts (g g' : Graph) : Prop where
  grows : g.Grows g'
  interned : ∀ {id node s}, g.node? id = some node → node.interned? = some s →
    ∃ node', g'.node? id = some node' ∧ node'.interned? = some s

variable {g g' g'' : Graph} {r : Regime} {shape : Node → Option Structural} {id id' : TypeId}
  {node node' : Node} {s : Structural} {u u' : Unfolding}

/-! ### Interned nodes -/

theorem Editable.interned? (editable : g.Editable id) (found : g.node? id = some node) :
    node.interned? = none := by
  obtain ⟨_, same, handed⟩ := editable
  cases found.symm.trans same
  exact Node.interned?_eq_none.mpr handed

/-- There is one node for a structure. -/
theorem WellFormed.interned_unique (wf : g.WellFormed r) (found : g.node? id = some node)
    (found' : g.node? id' = some node') (interned : node.interned? = some s)
    (interned' : node'.interned? = some s) : id = id' := by
  have indexed := (wf.interned_iff s id).mpr ⟨node, found, Node.interned?_eq_some.mp interned⟩
  have indexed' := (wf.interned_iff s id').mpr ⟨node', found', Node.interned?_eq_some.mp interned'⟩
  exact Option.some.inj (indexed.symm.trans indexed')

/-- Interning gives a node with the structure asked for. -/
theorem WellFormed.node?_intern (wf : g.WellFormed r) (s : Structural) :
    ∃ node, (g.intern s).2.node? (g.intern s).1 = some node ∧ node.interned? = some s := by
  cases known : g.byStructure.get? s with
  | some id =>
    rw [intern_of_found known]
    obtain ⟨node, found, structural⟩ := (wf.interned_iff s id).mp known
    exact ⟨node, found, Node.interned?_eq_some.mpr structural⟩
  | none =>
    rw [intern_fst_of_new known]
    exact ⟨_, WellFormed.appended (appends_intern known), rfl⟩

/-! ### Later graphs -/

protected theorem Lasts.refl (g : Graph) : g.Lasts g where
  grows := .refl g
  interned found interned := ⟨_, found, interned⟩

protected theorem Lasts.trans (first : g.Lasts g') (second : g'.Lasts g'') : g.Lasts g'' where
  grows := first.grows.trans second.grows
  interned found interned := by
    obtain ⟨_, found', interned'⟩ := first.interned found interned
    exact second.interned found' interned'

theorem Lasts.of_keeps (keeps : g.Keeps g') : g.Lasts g' where
  grows := by
    refine ⟨Nat.le_of_not_lt fun smaller => ?_, fun {id node} found => ?_⟩
    · obtain ⟨node, found⟩ := exists_node_of_lt smaller
      exact Nat.lt_irrefl _ (lt_size_of_node? (keeps.node found))
    · exact ⟨node, keeps.node found, rfl, fun _ same => ⟨same, rfl⟩⟩
  interned found interned := ⟨_, keeps.node found, interned⟩

/-- Only nodes that may be edited get another body. -/
theorem Lasts.of_spared (grows : g.Grows g')
    (spared : ∀ {id node}, g.node? id = some node → ¬ g.Editable id →
      ∃ node', g'.node? id = some node' ∧ node'.body = node.body) : g.Lasts g' where
  grows := grows
  interned {id node s} found interned := by
    have fixed : ¬ g.Editable id := fun editable => by
      cases (editable.interned? found).symm.trans interned
    obtain ⟨internal, structural⟩ := Node.interned?_eq_some.mp interned
    obtain ⟨node', found', body⟩ := spared found fixed
    obtain ⟨again, same, _, kept⟩ := grows.kept found
    cases found'.symm.trans same
    -- A node that is still structural is external only if it was.
    have external := (kept s (body.trans structural)).2
    exact ⟨node', found', Node.interned?_eq_some.mpr
      ⟨external.trans internal, body.trans structural⟩⟩

/-- What is not interned is not interned later either. -/
theorem Lasts.not_interned (lasts : g.Lasts g') (found : g.node? id = some node)
    (apart : node.interned? = none) :
    ∃ node', g'.node? id = some node' ∧ node'.interned? = none := by
  obtain ⟨node', found', _, kept⟩ := lasts.grows.kept found
  refine ⟨node', found', Node.interned?_eq_none.mpr fun s same => ?_⟩
  obtain ⟨before, external⟩ := kept s same
  exact external.trans (Node.interned?_eq_none.mp apart s before)

/-! ### Unfolding -/

namespace Unfolds

/-- A type unfolds in one way. -/
theorem unique (unfolds : g.Unfolds shape id u) (other : g.Unfolds shape id u') : u' = u := by
  induction unfolds generalizing u' with
  | named found shut =>
    cases other with
    | named => rfl
    | primitive found' opened | pointer found' opened | array found' opened =>
      cases found.symm.trans found'
      cases shut.symm.trans opened
  | primitive found opened =>
    cases other with
    | primitive found' opened' =>
      cases found.symm.trans found'
      cases opened.symm.trans opened'
      rfl
    | named found' opened' | pointer found' opened' | array found' opened' =>
      cases found.symm.trans found'
      cases opened.symm.trans opened'
  | pointer found opened _ ih =>
    cases other with
    | pointer found' opened' inner =>
      cases found.symm.trans found'
      cases opened.symm.trans opened'
      rw [ih inner]
    | named found' opened' | primitive found' opened' | array found' opened' =>
      cases found.symm.trans found'
      cases opened.symm.trans opened'
  | array found opened _ ih =>
    cases other with
    | array found' opened' inner =>
      cases found.symm.trans found'
      cases opened.symm.trans opened'
      rw [ih inner]
    | named found' opened' | primitive found' opened' | pointer found' opened' =>
      cases found.symm.trans found'
      cases opened.symm.trans opened'

/-- Two nodes that unfold to the same tree are the same: their parts are, and so the structures that they
are interned for. -/
theorem injective (wf : g.WellFormed r) (unfolds : g.Unfolds Node.interned? id u)
    (other : g.Unfolds Node.interned? id' u) : id' = id := by
  induction unfolds generalizing id' with
  | named =>
    cases other
    rfl
  | primitive found interned =>
    cases other with
    | primitive found' interned' => exact wf.interned_unique found' found interned' interned
  | pointer found interned _ ih =>
    cases other with
    | pointer found' interned' inner =>
      cases ih inner
      exact wf.interned_unique found' found interned' interned
  | array found interned _ ih =>
    cases other with
    | array found' interned' inner =>
      cases ih inner
      exact wf.interned_unique found' found interned' interned

/-- What a type unfolds to lasts when the graph grows. -/
theorem lasts (unfolds : g.Unfolds Node.interned? id u) (lasts : g.Lasts g') :
    g'.Unfolds Node.interned? id u := by
  induction unfolds with
  | named found apart =>
    obtain ⟨_, found', apart'⟩ := lasts.not_interned found apart
    exact .named found' apart'
  | primitive found interned =>
    obtain ⟨_, found', interned'⟩ := lasts.interned found interned
    exact .primitive found' interned'
  | pointer found interned _ ih =>
    obtain ⟨_, found', interned'⟩ := lasts.interned found interned
    exact .pointer found' interned' ih
  | array found interned _ ih =>
    obtain ⟨_, found', interned'⟩ := lasts.interned found interned
    exact .array found' interned' ih

end Unfolds

end Graph

end ComTypes

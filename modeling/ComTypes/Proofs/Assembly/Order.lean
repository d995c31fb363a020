import ComTypes.Proofs.Assembly.Advance

/-!
# Assemblers in order

A `Policy` says how far callers can be trusted with the bodies they hand in. Under every policy an
assembler in order is sound. If the callers also keep away from the nodes that are reserved for
proxies, it is tidy: the records of proxies are complete and in use, and a declaration in use leads to
a reserved node only if that is a record of the proxy that the declaration belongs to.

Steps that advance the assembler keep it in order (`Ordered.advance`).
-/

namespace ComTypes

/-- What callers keep to when they hand in a body for a type defined elsewhere. -/
structure Policy where
  /-- The bodies they hand in. -/
  handed : Body → Prop
  /-- The bodies name existing nodes. -/
  bounded : Prop
  /-- The bodies do not lead to nodes that are reserved for proxies. -/
  guarded : Prop
  bounded_of_guarded : guarded → bounded

namespace Assembler

/-- The node is out of use, or it is a record that a proxy keeps. -/
def Reserved (a : Assembler) (id : TypeId) : Prop :=
  (∃ node, a.graph.node? id = some node ∧ node.retired = true) ∨
    ∃ iid, id ∈ (recordsOf a.proxyRecords iid).values

/-- The records of proxies are complete, and only their own interface and records refer to them. -/
structure Tidy (a : Assembler) : Prop where
  complete : ∀ iid, ∀ id ∈ (recordsOf a.proxyRecords iid).values,
    ∃ node, a.graph.node? id = some node ∧ node.retired = false ∧ node.state = .complete
  owned : ∀ {id node}, a.graph.node? id = some node → node.isDeclaration = true →
    ∀ t ∈ node.body.targets, ∀ last, a.graph.Reaches t last → a.Reserved last →
      ∃ iid, last ∈ (recordsOf a.proxyRecords iid).values ∧
        (a.graph.findGuid? iid = some id ∨ id ∈ (recordsOf a.proxyRecords iid).values)

end Assembler

/-- The regime that a policy means in a given state. -/
def Policy.regime (p : Policy) (a : Assembler) : Regime where
  handed := p.handed
  bounded := p.bounded
  closed id := p.guarded ∧ a.Reserved id

namespace Assembler

/-- The assembler is sound and, as far as the policy allows, tidy. -/
structure Ordered (p : Policy) (a : Assembler) : Prop where
  sound : a.Sound (p.regime a)
  tidy : p.guarded → a.Tidy

variable {p : Policy} {a b : Assembler} {r : Regime}

/-- Fewer nodes are closed. -/
theorem Sound.loosen (sound : a.Sound r) {closed : TypeId → Prop}
    (fewer : ∀ id, closed id → r.closed id) : a.Sound { r with closed } where
  graph := sound.graph.loosen fewer
  slots known := (sound.slots known).loosen fewer
  anonymous known := (sound.anonymous known).loosen fewer
  unnamed := sound.unnamed
  records := sound.records

/-- An advance reserves nothing. -/
theorem Advance.reserved (advance : a.Advance r b) {id : TypeId} (h : b.Reserved id) :
    a.Reserved id := by
  rcases h with ⟨node, found, gone⟩ | ⟨iid, member⟩
  · exact .inl (advance.graph.retired found gone)
  · rw [advance.records_eq] at member
    exact .inr ⟨iid, member⟩

theorem start_ordered (p : Policy) (strict : Bool) : Ordered p { strict } where
  sound :=
    { graph := .empty _ fun {id} closed => by
        rcases closed.2 with ⟨node, found, _⟩ | ⟨iid, member⟩
        · exact absurd found (by simp [Graph.node?])
        · exact absurd member (by simp [recordsOf, Table.get?, Table.values, Table.empty])
      slots := fun {_ _} known => by simp [Table.get?] at known
      anonymous := fun {_ _} known => by simp [Table.get?] at known
      unnamed := fun {_ _} known => by simp [Table.get?] at known
      records := .empty _ }
  tidy _ :=
    { complete := fun iid id member => absurd member (by simp [recordsOf, Table.get?, Table.values,
        Table.empty])
      owned := fun {id node} found => absurd found (by simp [Graph.node?]) }

/-- Steps that advance the assembler keep it in order. -/
theorem Ordered.advance (ordered : a.Ordered p) (advance : a.Advance (p.regime a) b) :
    b.Ordered p := by
  have grows := advance.graph.grows
  refine ⟨advance.sound.loosen fun id closed => ⟨closed.1, advance.reserved closed.2⟩,
    fun guarded => ?_⟩
  have bounded := p.bounded_of_guarded guarded
  have tidy := ordered.tidy guarded
  have unchanged : ∀ {id}, a.Reserved id → b.graph.node? id = a.graph.node? id :=
    fun reserved => advance.graph.closed_eq ⟨guarded, reserved⟩
  refine ⟨fun iid id member => ?_, fun {id node'} found' declares t named last reached reserved => ?_⟩
  · rw [advance.records_eq] at member
    rw [unchanged (.inr ⟨iid, member⟩)]
    exact tidy.complete iid id member
  · rcases advance.graph.bodies found' with ⟨node, found, same⟩ | nameable
    · -- An old body: whatever it leads to was there before, and belonged to the same proxy.
      have used : node.retired = false := by
        cases gone : node.retired with
        | false => rfl
        | true =>
          have still := unchanged (.inl ⟨node, found, gone⟩)
          rw [found', found] at still
          cases still
          simp [Node.isDeclaration, gone] at declares
      have declared : node.isDeclaration = true := by
        simp only [Node.isDeclaration, Bool.and_eq_true, Bool.not_eq_true'] at declares ⊢
        exact ⟨used, same ▸ declares.2⟩
      rw [same] at named
      have inside := ordered.sound.graph.targets_lt bounded found t named
      have before := grows.reaches (ordered.sound.graph.targets_lt bounded) reached inside
      obtain ⟨iid, member, owner⟩ := tidy.owned found declared t named last before
        (advance.reserved reserved)
      refine ⟨iid, by rwa [advance.records_eq], owner.imp (fun indexed => ?_) fun own => ?_⟩
      · exact grows.findGuid ordered.sound.graph advance.graph.wellFormed indexed
      · rwa [advance.records_eq]
    · exact absurd ⟨guarded, advance.reserved reserved⟩ ((nameable t named bounded).2 last reached)

end Assembler

end ComTypes

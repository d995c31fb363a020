import ComTypes.Proofs.Graph.Arena
import Mathlib.Data.List.Nodup
import Mathlib.Data.List.Perm.Subperm

/-!
# Where chains of references end

Pointers, arrays and type definitions lead to one type each, so a chain is fixed by where it starts
(`Graph.Ends.unique`). A chain that ends visits no node twice before it does, so it takes no more steps than
there are nodes (`Graph.Ends.steps_le`), and following references for that long finds the end of every chain
that has one (`Graph.chainEnd?_eq_some_iff`), cyclic ones left aside. This tells what a body leads to: records
and interfaces through pointers, arrays and type definitions (`Graph.mem_reachedByBody`), and the types it
names through pointers and arrays only (`Graph.mem_namedByBody`).
-/

namespace ComTypes

namespace Graph

/-- Following references from the first type leads to the second. -/
inductive Leads (g : Graph) (step : Body → Option TypeId) : TypeId → TypeId → Prop
  | here (id : TypeId) : Leads g step id id
  | next {id next last : TypeId} :
      (g.body? id).bind step = some next → Leads g step next last → Leads g step id last

/-- After some steps the chain from the first type ends with the second. -/
inductive Ends (g : Graph) (step : Body → Option TypeId) : TypeId → Nat → TypeId → Prop
  | here {id : TypeId} : (g.body? id).bind step = none → Ends g step id 0 id
  | next {id next last : TypeId} {steps : Nat} :
      (g.body? id).bind step = some next → Ends g step next steps last →
        Ends g step id (steps + 1) last

variable {g : Graph} {step : Body → Option TypeId} {id last : TypeId} {steps : Nat}

theorem reaches_iff_leads : g.Reaches id last ↔ g.Leads throughStructure id last := by
  constructor
  · intro reaches
    induction reaches with
    | here id => exact .here id
    | step next _ ih => exact .next next ih
  · intro leads
    induction leads with
    | here id => exact .here id
    | next next _ ih => exact .step next ih

theorem lt_size_of_leads {next : TypeId} (leads : (g.body? id).bind step = some next) : id < g.size := by
  obtain ⟨body, found, _⟩ := Option.bind_eq_some_iff.mp leads
  obtain ⟨node, found, _⟩ := Option.map_eq_some_iff.mp found
  exact lt_size_of_node? found

/-- There are no more different types than the graph has nodes. -/
theorem length_le_size {path : List TypeId} (nodup : path.Nodup) (inside : ∀ j ∈ path, j < g.size) :
    path.length ≤ g.size := by
  have among : path ⊆ List.range g.size := fun j member => List.mem_range.mpr (inside j member)
  have fits := (nodup.subperm among).length_le
  rwa [List.length_range] at fits

/-! ### Chains that end -/

/-- A chain ends with a type that it leads to and that leads no further. -/
theorem exists_ends_iff :
    (∃ steps, g.Ends step id steps last) ↔
      g.Leads step id last ∧ (g.body? last).bind step = none := by
  constructor
  · rintro ⟨steps, ends⟩
    induction ends with
    | here stops => exact ⟨.here _, stops⟩
    | next next _ ih => exact ⟨.next next ih.1, ih.2⟩
  · rintro ⟨leads, stops⟩
    induction leads with
    | here => exact ⟨0, .here stops⟩
    | next next _ ih =>
      obtain ⟨steps, ends⟩ := ih stops
      exact ⟨steps + 1, .next next ends⟩

namespace Ends

/-- A chain has one end, after one number of steps. -/
theorem unique (ends : g.Ends step id steps last) {steps' : Nat} {last' : TypeId}
    (other : g.Ends step id steps' last') : steps' = steps ∧ last' = last := by
  induction ends generalizing steps' with
  | here stops =>
    cases other with
    | here => exact ⟨rfl, rfl⟩
    | next next => cases stops.symm.trans next
  | next next _ ih =>
    cases other with
    | here stops => cases stops.symm.trans next
    | next again inner =>
      cases next.symm.trans again
      obtain ⟨rfl, rfl⟩ := ih inner
      exact ⟨rfl, rfl⟩

/-- The nodes on the way to the end are different ones of the graph: from each of them fewer steps are
left than from those before it. -/
theorem exists_path (ends : g.Ends step id steps last) :
    ∃ path : List TypeId, path.length = steps ∧ path.Nodup ∧
      ∀ j ∈ path, j < g.size ∧ ∃ left ≤ steps, g.Ends step j left last := by
  induction ends with
  | here => exact ⟨[], rfl, List.nodup_nil, fun _ member => absurd member List.not_mem_nil⟩
  | @next id next last steps leads ends ih =>
    obtain ⟨path, length, nodup, inside⟩ := ih
    have whole : g.Ends step id (steps + 1) last := .next leads ends
    refine ⟨id :: path, by rw [List.length_cons, length], List.nodup_cons.mpr ⟨fun member => ?_, nodup⟩,
      fun j member => ?_⟩
    · obtain ⟨_, left, fewer, again⟩ := inside id member
      obtain ⟨rfl, _⟩ := whole.unique again
      exact Nat.not_succ_le_self _ fewer
    · rcases List.mem_cons.mp member with rfl | member
      · exact ⟨lt_size_of_leads leads, steps + 1, Nat.le_refl _, whole⟩
      · obtain ⟨small, left, fewer, again⟩ := inside j member
        exact ⟨small, left, Nat.le_succ_of_le fewer, again⟩

/-- A chain that ends has no more steps than the graph has nodes. -/
theorem steps_le (ends : g.Ends step id steps last) : steps ≤ g.size := by
  obtain ⟨path, length, nodup, inside⟩ := ends.exists_path
  rw [← length]
  exact length_le_size nodup fun j member => (inside j member).1

end Ends

theorem chainEnd?_eq_some_iff_within {hops : Nat} :
    g.chainEnd? step hops id = some last ↔ ∃ steps < hops, g.Ends step id steps last := by
  induction hops generalizing id with
  | zero => simp [chainEnd?]
  | succ hops ih =>
    unfold chainEnd?
    cases leads : (g.body? id).bind step with
    | none =>
      constructor
      · rintro ⟨⟩
        exact ⟨0, Nat.succ_pos hops, .here leads⟩
      · rintro ⟨steps, _, ends⟩
        rw [((Ends.here leads).unique ends).2]
    | some next =>
      dsimp only
      rw [ih]
      constructor
      · rintro ⟨steps, fewer, ends⟩
        exact ⟨steps + 1, Nat.succ_lt_succ fewer, .next leads ends⟩
      · rintro ⟨steps, fewer, ends⟩
        cases ends with
        | here stops => cases stops.symm.trans leads
        | @next _ _ _ steps again inner =>
          cases leads.symm.trans again
          exact ⟨steps, Nat.lt_of_succ_lt_succ fewer, inner⟩

/-- Enough steps find the end of a chain, if it has one. -/
theorem chainEnd?_eq_some_iff :
    g.chainEnd? step (g.size + 1) id = some last ↔
      g.Leads step id last ∧ (g.body? last).bind step = none := by
  rw [chainEnd?_eq_some_iff_within, ← exists_ends_iff]
  constructor
  · rintro ⟨steps, _, ends⟩
    exact ⟨steps, ends⟩
  · rintro ⟨steps, ends⟩
    exact ⟨steps, Nat.lt_succ_of_le ends.steps_le, ends⟩

end Graph

/-! ### What a body leads to -/

/-- Records and interfaces can be declared ahead of their bodies. -/
def Body.isForwardable : Body → Bool
  | .record _ _ | .interface _ => true
  | .typedef _ | .enumeration _ | .structural _ => false

/-- Records, type definitions and enumerations: the declarations that are looked into for what an interface
needs. -/
def Body.isData : Body → Bool
  | .record _ _ | .typedef _ | .enumeration _ => true
  | .interface _ | .structural _ => false

theorem Body.isDeclaration_of_isForwardable {body : Body} (forwardable : body.isForwardable) :
    body.isDeclaration := by
  cases body with
  | record | interface => rfl
  | typedef | enumeration | structural => cases forwardable

theorem Body.isDeclaration_of_isData {body : Body} (data : body.isData) : body.isDeclaration := by
  cases body with
  | record | typedef | enumeration => rfl
  | interface | structural => cases data

theorem Body.isDeclaration_of_isInterface {body : Body} (interface : body.isInterface) :
    body.isDeclaration := by
  cases body with
  | interface => rfl
  | record | typedef | enumeration | structural => cases interface

namespace Graph

variable {g : Graph} {step : Body → Option TypeId} {id target : TypeId}

/-- A node with a body of one kind has one of any wider kind. -/
theorem any_body?_mono {narrow wide : Body → Bool} (mono : ∀ {body}, narrow body → wide body)
    (holds : (g.body? id).any narrow) : (g.body? id).any wide := by
  obtain ⟨body, found, holds⟩ := (Option.any_eq_true _ _).mp holds
  exact (Option.any_eq_true _ _).mpr ⟨body, found, mono holds⟩

/-- Through pointers, arrays and type definitions, the body of a declaration leads to a record or an
interface. -/
def BodyLeads (g : Graph) (id target : TypeId) : Prop :=
  (∃ t ∈ g.bodyReferences id, g.Leads throughTypedef t target) ∧ (g.body? target).any Body.isForwardable

/-- Through pointers and arrays, the body of a declaration leads to a record, a type definition or an
enumeration. -/
def BodyNames (g : Graph) (id target : TypeId) : Prop :=
  (∃ t ∈ g.bodyReferences id, g.Leads throughStructure t target) ∧ (g.body? target).any Body.isData

/-- A type that is looked for at the end of a chain is one that leads no further. -/
theorem filter_chainEnd?_eq_some_iff {wanted : Body → Bool}
    (stops : ∀ body, wanted body = true → step body = none) :
    (g.chainEnd? step (g.size + 1) id).filter (fun last => (g.body? last).any wanted) = some target ↔
      g.Leads step id target ∧ (g.body? target).any wanted := by
  rw [Option.filter_eq_some_iff, chainEnd?_eq_some_iff]
  constructor
  · rintro ⟨⟨leads, _⟩, found⟩
    exact ⟨leads, found⟩
  · rintro ⟨leads, found⟩
    obtain ⟨body, here, holds⟩ := (Option.any_eq_true _ _).mp found
    refine ⟨⟨leads, ?_⟩, found⟩
    rw [here, Option.bind_some, stops body holds]

theorem throughTypedef_of_isForwardable {body : Body} (forwardable : body.isForwardable) :
    throughTypedef body = none := by
  cases body with
  | record | interface => rfl
  | typedef | enumeration | structural => cases forwardable

/-- A type leads to a record or an interface through pointers, arrays and type definitions. -/
theorem referencedDeclaration?_eq_some_iff :
    g.referencedDeclaration? id = some target ↔
      g.Leads throughTypedef id target ∧ (g.body? target).any Body.isForwardable := by
  rw [← filter_chainEnd?_eq_some_iff]
  · unfold referencedDeclaration?
    congr! 3 with last
    cases g.body? last with
    | none => rfl
    | some body => cases body <;> rfl
  · intro body forwardable
    exact throughTypedef_of_isForwardable forwardable

/-- A type names a record, type definition or enumeration through pointers and arrays. -/
theorem namedType?_eq_some_iff :
    g.namedType? id = some target ↔
      g.Leads throughStructure id target ∧ (g.body? target).any Body.isData := by
  rw [← filter_chainEnd?_eq_some_iff]
  · unfold namedType?
    congr! 3 with last
    cases g.body? last with
    | none => rfl
    | some body => cases body <;> rfl
  · intro body data
    cases body with
    | record | typedef | enumeration => rfl
    | interface | structural => cases data

/-- The target of a type is put behind those found before. -/
theorem mem_referencedDeclarations {found : List TypeId} :
    target ∈ g.referencedDeclarations found id ↔
      target ∈ found ∨ g.referencedDeclaration? id = some target := by
  unfold referencedDeclarations
  cases g.referencedDeclaration? id with
  | none => simp
  | some other =>
    dsimp only
    split
    next known =>
      constructor
      · exact .inl
      · rintro (before | same)
        · exact before
        · cases same
          exact known
    next => simp [eq_comm]

theorem mem_foldl_referencedDeclarations {ids found : List TypeId} :
    target ∈ ids.foldl g.referencedDeclarations found ↔
      target ∈ found ∨ ∃ id ∈ ids, g.referencedDeclaration? id = some target := by
  induction ids generalizing found with
  | nil => simp
  | cons id rest ih =>
    rw [List.foldl_cons, ih, mem_referencedDeclarations]
    simp [or_assoc]

theorem nodup_foldl_referencedDeclarations {ids found : List TypeId} (nodup : found.Nodup) :
    (ids.foldl g.referencedDeclarations found).Nodup := by
  induction ids generalizing found with
  | nil => exact nodup
  | cons id rest ih =>
    rw [List.foldl_cons]
    apply ih
    unfold referencedDeclarations
    split
    · split
      · exact nodup
      next target _ new =>
        exact nodup.append (List.nodup_singleton target) (List.disjoint_singleton.mpr new)
    · exact nodup

/-- The records and interfaces reached are those that the body leads to. -/
theorem mem_reachedByBody : target ∈ g.reachedByBody id ↔ g.BodyLeads id target := by
  unfold reachedByBody BodyLeads
  rw [mem_foldl_referencedDeclarations]
  simp only [List.not_mem_nil, false_or, referencedDeclaration?_eq_some_iff, ← and_assoc,
    exists_and_right]

theorem nodup_reachedByBody (g : Graph) (id : TypeId) : (g.reachedByBody id).Nodup :=
  nodup_foldl_referencedDeclarations List.nodup_nil

/-- The types named are those that the body names. -/
theorem mem_namedByBody : target ∈ g.namedByBody id ↔ g.BodyNames id target := by
  unfold namedByBody BodyNames
  rw [List.mem_filterMap]
  simp only [namedType?_eq_some_iff, ← and_assoc, exists_and_right]

end Graph

end ComTypes

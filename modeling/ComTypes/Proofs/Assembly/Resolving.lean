import ComTypes.Proofs.Assembly.Replay
import ComTypes.Proofs.Proxy.Stage

/-!
# What building a body can do

A body is built from members and these from descriptors. All of this is `Resolving`: it does not look at
the mode of the assembler, and it changes nothing but the graph, where it appends nodes that have no base
and fills in names (`Resolving.body`). So a type that was declared, built or checked before is still what
it was.
-/

namespace ComTypes

/-- The base, if this is an interface that has one. -/
def Body.base? : Body → Option TypeId
  | interface definition => definition.base
  | _ => none

/-- A plain node has no base. -/
theorem Node.Plain.base? {node : Node} {id : TypeId} (plain : node.Plain id) :
    node.body.base? = none := by
  rcases plain with ⟨_, blank⟩ | ⟨structural, _⟩
  · cases shape : node.body with
    | interface definition =>
      rw [shape] at blank
      cases base : definition.base with
      | none => exact base
      | some b =>
        have member : b ∈ (Body.interface definition).targets :=
          mem_targets_interface.mpr (.inl base)
        rw [blank] at member
        cases member
    | typedef | enumeration | record | structural => rfl
  · cases shape : node.body with
    | interface definition =>
      rw [shape] at structural
      cases structural
    | typedef | enumeration | record | structural => rfl

namespace Graph

variable {g : Graph} {other : Guid} {id : TypeId}

theorem findGuid?_intern_of_known {structural : Structural} (known : g.findGuid? other = some id) :
    (g.intern structural).2.findGuid? other = some id := by
  cases found : g.byStructure.get? structural with
  | some _ =>
    rw [intern_of_found found]
    exact known
  | none =>
    rw [(appends_intern found).guid_eq, if_neg]
    · exact known
    · intro own
      cases own

theorem findGuid?_external_of_known {guid : Guid} {name : String} {body : Body}
    (known : g.findGuid? other = some id) :
    (g.external guid name body).2.findGuid? other = some id := by
  cases found : g.findGuid? guid with
  | some _ =>
    rw [external_of_found name body found]
    exact known
  | none =>
    rw [(appends_external name body found).guid_eq, if_neg]
    · exact known
    · intro own
      cases zero : guid.isZero with
      | true => simp [externalNode, nextIdentity, Option.filter, zero] at own
      | false =>
        cases (nextIdentity_of_nonzero zero).symm.trans own
        rw [found] at known
        cases known

/-- The graph comes from `g` by fetching nodes for types: structures are interned, and types that are
defined elsewhere are referred to by their GUIDs. -/
inductive Fetches (g : Graph) : Graph → Prop
  | refl : g.Fetches g
  | intern {h : Graph} (structural : Structural) : g.Fetches h → g.Fetches (h.intern structural).2
  | external {h : Graph} (guid : Guid) (name : String) {body : Body} :
      body.isDeclaration = true → body.targets = [] → g.Fetches h →
      g.Fetches (h.external guid name body).2

/-- What was fetched stays known. -/
theorem Fetches.trans {h k : Graph} (first : g.Fetches h) (second : h.Fetches k) : g.Fetches k := by
  induction second with
  | refl => exact first
  | intern structural _ ih => exact .intern structural ih
  | external guid name declares blank _ ih => exact .external guid name declares blank ih

end Graph

namespace Assembler

/-- The assembler in strict mode or outside it. -/
def inMode (a : Assembler) (strict : Bool) : Assembler := { a with strict }

@[simp] theorem inMode_strict (a : Assembler) (strict : Bool) : (a.inMode strict).strict = strict :=
  rfl

@[simp] theorem inMode_graph (a : Assembler) (strict : Bool) :
    (a.inMode strict).graph = a.graph := rfl

@[simp] theorem inMode_inMode (a : Assembler) (first second : Bool) :
    (a.inMode first).inMode second = a.inMode second := rfl

theorem inMode_self {a : Assembler} {strict : Bool} (same : a.strict = strict) :
    a.inMode strict = a := by
  subst same
  rfl

/-- Only nodes were appended, none with a base, and names filled in. -/
structure Resolved (s t : Assembler) : Prop where
  rest : t = { s with graph := t.graph }
  guid : ∀ {guid id}, s.graph.findGuid? guid = some id → t.graph.findGuid? guid = some id
  alike : ∀ {id node}, s.graph.node? id = some node →
    ∃ node', t.graph.node? id = some node' ∧ node.Alike node'
  fresh : ∀ {id node'}, s.graph.size ≤ id → t.graph.node? id = some node' → node'.body.base? = none

variable {s t u : Assembler}

theorem Resolved.refl (s : Assembler) : s.Resolved s where
  rest := rfl
  guid known := known
  alike found := ⟨_, found, .refl _⟩
  fresh outside found := absurd (Graph.lt_size_of_node? found) (Nat.not_lt.mpr outside)

theorem Resolved.trans (first : s.Resolved t) (second : t.Resolved u) : s.Resolved u where
  rest := by rw [second.rest, first.rest]
  guid known := second.guid (first.guid known)
  alike found := by
    obtain ⟨node', found', alike'⟩ := first.alike found
    obtain ⟨node'', found'', alike''⟩ := second.alike found'
    exact ⟨node'', found'', alike'.trans alike''⟩
  fresh {id node''} outside found := by
    by_cases inside : id < t.graph.size
    · obtain ⟨node', found'⟩ := Graph.exists_node_of_lt inside
      obtain ⟨_, same, alike⟩ := second.alike found'
      cases same.symm.trans found
      rw [alike.body]
      exact first.fresh outside found'
    · exact second.fresh (Nat.le_of_not_lt inside) found

theorem Resolved.of_extends {g : Graph} (extends' : s.graph.Extends g)
    (guid : ∀ {guid id}, s.graph.findGuid? guid = some id → g.findGuid? guid = some id) :
    s.Resolved { s with graph := g } where
  rest := rfl
  guid := guid
  alike := extends'.alike
  fresh outside found := (extends'.plain outside found).base?

end Assembler

open Assembler

section Steps

variable {α β : Type}

/-- The step gives the same in both modes. -/
def Indifferent (step : Assemble α) : Prop :=
  ∀ a strict, step (a.inMode strict) = moved (step a) ((left (step a)).inMode strict)

namespace Indifferent

theorem pure (value : α) : Indifferent (pure value : Assemble α) := fun _ _ => rfl

theorem throw (fault : Fault) : Indifferent (throw fault : Assemble α) := fun _ _ => rfl

theorem onGraph (operation : Graph → α × Graph) : Indifferent (Assemble.onGraph operation) :=
  fun _ _ => rfl

theorem modify {change : Assembler → Assembler}
    (blind : ∀ a strict, change (a.inMode strict) = (change a).inMode strict) :
    Indifferent (modify change : Assemble Unit) := by
  intro a strict
  show EStateM.Result.ok () (change (a.inMode strict)) = .ok () ((change a).inMode strict)
  rw [blind]

theorem modifyNode (id : TypeId) (f : Node → Node) : Indifferent (Assemble.modifyNode id f) :=
  .modify fun _ _ => rfl

/-- A step that fails fails in both modes, and else the next one follows. -/
theorem bind {step : Assemble α} {next : α → Assemble β} (first : Indifferent step)
    (rest : ∀ value, Indifferent (next value)) : Indifferent (step >>= next) := by
  intro a strict
  have here := first a strict
  cases run : step a with
  | ok value b =>
    rw [run] at here
    rw [ok_bind here, ok_bind run]
    exact rest value b strict
  | error fault b =>
    rw [run] at here
    rw [error_bind here, error_bind run]
    rfl

/-- Looking at the state, but not at the mode. -/
theorem get {next : Assembler → Assemble α}
    (blind : ∀ a strict, next (a.inMode strict) = next a) (each : ∀ a, Indifferent (next a)) :
    Indifferent (get >>= next) := by
  intro a strict
  rw [get_bind, get_bind, blind]
  exact each a a strict

theorem attempt {step : Assemble α} (h : Indifferent step) :
    Indifferent (Assemble.attempt step) := by
  intro a strict
  unfold Assemble.attempt
  rw [h a strict]
  cases step a <;> rfl

end Indifferent

/-- The step does not look at the mode. It only fetches nodes, and so appends some and fills in names. -/
structure Resolving (step : Assemble α) : Prop where
  indifferent : Indifferent step
  resolved : ∀ a : Assembler, a.Resolved (left (step a))
  fetches : ∀ a : Assembler, a.graph.Fetches (left (step a)).graph

namespace Resolving

theorem pure (value : α) : Resolving (pure value : Assemble α) :=
  ⟨.pure value, .refl, fun _ => .refl⟩

theorem throw (fault : Fault) : Resolving (throw fault : Assemble α) :=
  ⟨.throw fault, .refl, fun _ => .refl⟩

theorem lift (result : Except Fault α) : Resolving (Assemble.lift result) := by
  cases result with
  | ok value => exact .pure value
  | error fault => exact .throw fault

theorem bind {step : Assemble α} {next : α → Assemble β} (first : Resolving step)
    (rest : ∀ value, Resolving (next value)) : Resolving (step >>= next) := by
  have both : ∀ a : Assembler, a.Resolved (left ((step >>= next) a)) ∧
      a.graph.Fetches (left ((step >>= next) a)).graph := by
    intro a
    have here := first.resolved a
    have fetched := first.fetches a
    cases run : step a with
    | ok value b =>
      rw [run] at here fetched
      rw [ok_bind run]
      exact ⟨here.trans ((rest value).resolved b), fetched.trans ((rest value).fetches b)⟩
    | error fault b =>
      rw [run] at here fetched
      rw [error_bind run]
      exact ⟨here, fetched⟩
  exact ⟨first.indifferent.bind fun value => (rest value).indifferent, fun a => (both a).1,
    fun a => (both a).2⟩

theorem get {next : Assembler → Assemble α}
    (blind : ∀ a strict, next (a.inMode strict) = next a) (each : ∀ a, Resolving (next a)) :
    Resolving (get >>= next) :=
  ⟨.get blind fun a => (each a).indifferent, fun a => (each a).resolved a,
    fun a => (each a).fetches a⟩

theorem attempt {step : Assemble α} (h : Resolving step) : Resolving (Assemble.attempt step) := by
  have same : ∀ a, left (Assemble.attempt step a) = left (step a) := by
    intro a
    unfold Assemble.attempt
    cases step a <;> rfl
  refine ⟨h.indifferent.attempt, fun a => ?_, fun a => ?_⟩
  · rw [same]
    exact h.resolved a
  · rw [same]
    exact h.fetches a

theorem mapM {γ : Type} {step : γ → Assemble α} (each : ∀ item, Resolving (step item))
    (items : List γ) : Resolving (items.mapM step) := by
  induction items with
  | nil => exact .pure []
  | cons item rest ih =>
    rw [List.mapM_cons]
    exact .bind (each item) fun value => .bind ih fun values => .pure _

theorem foldlM {γ : Type} {step : α → γ → Assemble α} (each : ∀ value item, Resolving (step value item))
    (items : List γ) (initial : α) : Resolving (items.foldlM step initial) := by
  induction items generalizing initial with
  | nil => exact .pure initial
  | cons item rest ih =>
    rw [List.foldlM_cons]
    exact .bind (each initial item) fun value => ih value

/-! ### Along the definitions -/

theorem intern (structural : Structural) : Resolving (Assemble.onGraph (·.intern structural)) :=
  ⟨.onGraph _, fun _ => .of_extends (Graph.intern_extends structural) Graph.findGuid?_intern_of_known,
    fun _ => .intern structural .refl⟩

theorem external (guid : Guid) (name : String) {body : Body} (declares : body.isDeclaration = true)
    (blank : body.targets = []) : Resolving (Assemble.onGraph (·.external guid name body)) :=
  ⟨.onGraph _, fun _ => .of_extends (Graph.external_extends guid name declares blank)
    Graph.findGuid?_external_of_known, fun _ => .external guid name declares blank .refl⟩

theorem resolveHref (info : TypeInfo) (href : UInt32) : Resolving (Assemble.resolveHref info href) := by
  unfold Assemble.resolveHref
  cases info.references.get? href with
  | none => exact .throw _
  | some target =>
    cases target with
    | within index =>
      refine .get (fun _ _ => rfl) fun a => ?_
      cases a.slots.get? index.toNat with
      | some id => exact .pure id
      | none => exact .throw _
    | external guid name kind =>
      dsimp only
      cases blank : Body.blank? kind with
      | some body =>
        obtain ⟨targets, declares⟩ := Assemble.Body.targets_blank blank
        exact .external guid name declares targets
      | none => exact .throw _

theorem resolve (info : TypeInfo) (desc : TypeDesc) : Resolving (Assemble.resolve info desc) := by
  induction desc with
  | base primitive => exact .intern _
  | pointer target ih | safeArray target ih | fixedArray dims target ih =>
    exact .bind ih fun id => .intern _
  | userDefined href => exact .resolveHref info href

theorem collect (count : Nat) {build : Nat → Assemble α} (each : ∀ index, Resolving (build index)) :
    Resolving (Assemble.collect count build) := by
  refine .bind (.foldlM (fun kept index => ?_) _ _) fun result => .pure _
  refine .bind (.attempt (each index)) fun outcome => ?_
  cases outcome with
  | ok member => exact .pure _
  | error fault => exact .pure _

theorem contained {step : Assemble α} (h : Resolving step) : Resolving (Assemble.contained step) := by
  refine .bind (.attempt h) fun outcome => ?_
  cases outcome with
  | ok value => exact .pure _
  | error fault => exact .pure _

theorem field (info : TypeInfo) (names : NameLookup) (index : Nat) :
    Resolving (Assemble.field info names index) :=
  .bind (.lift _) fun _ => .bind (.resolve info _) fun _ => .pure _

theorem method (info : TypeInfo) (names : NameLookup) (dispatch : Bool) (index : Nat) :
    Resolving (Assemble.method info names dispatch index) := by
  refine .bind (.lift _) fun func => .bind (.mapM (fun item => ?_) _) fun parameters => ?_
  · exact .bind (.resolve info _) fun type => .pure _
  · exact .bind (.resolve info _) fun result => .pure _

theorem base (info : TypeInfo) (href : UInt32) : Resolving (Assemble.base info href) := by
  refine .bind (.resolveHref info href) fun id => .get (fun _ _ => rfl) fun a => ?_
  by_cases interface : (a.graph.body? id).any Body.isInterface = true
  · rw [if_pos interface]
    exact .pure id
  · rw [if_neg interface]
    exact .throw _

theorem declaredBase (info : TypeInfo) : Resolving (Assemble.declaredBase info) := by
  unfold Assemble.declaredBase
  cases info.implTypes.head? with
  | some implemented => exact .contained (.base info _)
  | none => exact .pure _

theorem body (info : TypeInfo) (names : NameLookup) (attr : TypeAttr) (definition : Definition) :
    Resolving (Assemble.body info names attr definition) := by
  cases definition with
  | enumeration => exact .bind (.collect _ fun index => .lift _) fun result => .pure _
  | record layout => exact .bind (.collect _ fun index => .field info names index) fun result => .pure _
  | interface dispatch =>
    rw [Assemble.body_interface]
    exact .bind (.declaredBase info) fun base =>
      .bind (.collect _ fun index => .method info names dispatch index) fun result => .pure _
  | typedef target => exact .bind (.contained (.resolve info target)) fun result => .pure _

end Resolving

end Steps

end ComTypes

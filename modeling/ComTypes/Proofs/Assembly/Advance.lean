import ComTypes.Assembly.Library
import ComTypes.Proofs.Graph.Advance
import ComTypes.Proofs.Table

/-!
# Adding libraries advances the assembler

`Assembler.Sound` says that the graph of an assembler is well-formed and that its tables point to
nodes they may point to. Every step of adding a type info or a library keeps it, whether the step
ends with a value or a fault, and advances the graph: this is shown step by step along the
definitions, from resolving a descriptor up to `addLibrary_advance`.
-/

namespace ComTypes

/-- The node stands for a type info: it can be built again, and others may name it. -/
structure Graph.IsSlot (g : Graph) (r : Regime) (id : TypeId) : Prop where
  editable : g.Editable id
  free : ¬ r.closed id
  nameable : g.Nameable r id

/-- The records that the last decode of a proxy made. -/
def recordsOf (records : Table Guid (Table Nat TypeId)) (iid : Guid) : Table Nat TypeId :=
  (records.get? iid).getD .empty

/-- Each record of a proxy has a node of its own, which no other proxy uses. -/
structure Graph.KeepsApart (g : Graph) (records : Table Guid (Table Nat TypeId)) : Prop where
  isRecord : ∀ iid, ∀ id ∈ (recordsOf records iid).values, g.IsRecord id
  keys : ∀ iid, (recordsOf records iid).keys.Nodup
  values : ∀ iid, (recordsOf records iid).values.Nodup
  apart : ∀ {iid iid' id}, id ∈ (recordsOf records iid).values →
    id ∈ (recordsOf records iid').values → iid = iid'

/-- The assembler is in order. -/
structure Assembler.Sound (r : Regime) (a : Assembler) : Prop where
  graph : a.graph.WellFormed r
  slots : ∀ {index id}, a.slots.get? index = some id → a.graph.IsSlot r id
  anonymous : ∀ {key id}, a.anonymous.get? key = some id → a.graph.IsSlot r id
  unnamed : ∀ {key id}, a.anonymous.get? key = some id →
    ∃ node, a.graph.node? id = some node ∧ node.identity = .index id
  records : a.graph.KeepsApart a.proxyRecords

/-- `b` comes from `a` by steps that respect the closed nodes and leave the records of proxies to
themselves. -/
structure Assembler.Advance (r : Regime) (a b : Assembler) : Prop where
  sound : b.Sound r
  graph : a.graph.Advance r b.graph
  records_eq : b.proxyRecords = a.proxyRecords
  strict_eq : b.strict = a.strict

variable {r : Regime} {g g' : Graph} {id : TypeId}

theorem Graph.KeepsApart.grows {records : Table Guid (Table Nat TypeId)}
    (h : g.KeepsApart records) (grows : g.Grows g') : g'.KeepsApart records :=
  ⟨fun iid id member => (h.isRecord iid id member).grows grows, h.keys, h.values, h.apart⟩

theorem Graph.KeepsApart.empty (g : Graph) : g.KeepsApart {} where
  isRecord _ _ member := absurd member List.not_mem_nil
  keys _ := List.nodup_nil
  values _ := List.nodup_nil
  apart member := absurd member List.not_mem_nil

theorem Graph.IsSlot.loosen (h : g.IsSlot r id) {closed : TypeId → Prop}
    (fewer : ∀ id, closed id → r.closed id) : g.IsSlot { r with closed } id :=
  ⟨h.editable, fun still => h.free (fewer id still), h.nameable.loosen fewer⟩

theorem Graph.IsSlot.grows (h : g.IsSlot r id) (wf : g.WellFormed r) (grows : g.Grows g') :
    g'.IsSlot r id :=
  ⟨h.editable.grows grows, h.free, h.nameable.grows wf grows⟩

/-- The node of a GUID may be built into. -/
theorem Graph.WellFormed.isSlot_of_guid (wf : g.WellFormed r) {guid : Guid}
    (known : g.findGuid? guid = some id) : g.IsSlot r id := by
  obtain ⟨_, node, found, identity⟩ := (wf.findGuid_iff guid id).mp known
  exact ⟨wf.editable_of_guid found identity, wf.not_closed_of_guid found identity,
    wf.guid_nameable found identity⟩

namespace Assembler

variable {a : Assembler}

/-- Exchanging the graph for a later one. -/
theorem Sound.withGraph (sound : a.Sound r) {g : Graph} (advance : a.graph.Advance r g) :
    Sound r { a with graph := g } where
  graph := advance.wellFormed
  slots known := (sound.slots known).grows sound.graph advance.grows
  anonymous known := (sound.anonymous known).grows sound.graph advance.grows
  unnamed known := advance.grows.index_kept (sound.unnamed known)
  records := sound.records.grows advance.grows

theorem Advance.refl (sound : a.Sound r) : a.Advance r a :=
  ⟨sound, .refl sound.graph, rfl, rfl⟩

theorem advance_progress (r : Regime) : Progress (Advance r) where
  trans first second :=
    { sound := second.sound
      graph := (Graph.advance_progress r).trans first.graph second.graph
      records_eq := second.records_eq.trans first.records_eq
      strict_eq := second.strict_eq.trans first.strict_eq }
  here advance := .refl advance.sound

/-- Steps on the graph alone advance the assembler. -/
theorem Advance.withGraph (sound : a.Sound r) {g : Graph} (advance : a.graph.Advance r g) :
    a.Advance r { a with graph := g } :=
  ⟨sound.withGraph advance, advance, rfl, rfl⟩

end Assembler

namespace Assemble

open Assembler

variable {a : Assembler} {α : Type} {post : α → Assembler → Prop}

/-- What may be named stays so. -/
theorem nameable_lasting {a b : Assembler} (sound : a.Sound r) (advance : a.Advance r b)
    (h : a.graph.Nameable r id) : b.graph.Nameable r id :=
  h.grows sound.graph advance.graph.grows

/-! ### Building blocks -/

theorem onGraph_advance (sound : a.Sound r) {operation : Graph → α × Graph}
    (advance : a.graph.Advance r (operation a.graph).2)
    (value : post (operation a.graph).1 { a with graph := (operation a.graph).2 }) :
    Outcome (a.Advance r) post (onGraph operation a) :=
  ⟨.withGraph sound advance, value⟩

theorem lift_advance (sound : a.Sound r) (result : Except Fault α) :
    Outcome (a.Advance r) (fun v _ => result = .ok v) (lift result a) := by
  cases result with
  | ok v => exact ⟨.refl sound, rfl⟩
  | error fault => exact .refl sound

/-- A failure becomes a value; the state is the same. -/
theorem attempt_outcome {reached : Assembler → Prop} {step : Assemble α}
    (h : Outcome reached post (step a)) :
    Outcome reached (fun result b => ∀ v, result = .ok v → post v b) (attempt step a) := by
  unfold attempt
  cases run : step a with
  | ok v b =>
    rw [run] at h
    refine ⟨h.1, fun w same => ?_⟩
    cases same
    exact h.2
  | error fault b =>
    rw [run] at h
    exact ⟨h, fun w same => nomatch same⟩

/-- A contained step keeps what it did before its failure. -/
theorem contained_advance {step : Assemble α} (h : Outcome (a.Advance r) post (step a)) :
    Outcome (a.Advance r) (fun result b => ∀ v, result.1 = some v → post v b)
      (contained step a) := by
  refine (advance_progress r).bind (attempt_outcome h) fun result b advance value => ?_
  cases result with
  | ok v =>
    refine Outcome.of_pure (.refl advance.sound) fun w same => ?_
    cases same
    exact value v rfl
  | error fault => exact Outcome.of_pure (.refl advance.sound) fun w same => nomatch same

/-- Build one more member, behind those that were built or failed before. -/
def collectNext (build : Nat → Assemble α) (kept : Array α × Array Issue) (index : Nat) :
    Assemble (Array α × Array Issue) := do
  match ← attempt (build index) with
  | .ok member => return (kept.1.push member, kept.2)
  | .error fault => return (kept.1, kept.2.push ⟨some index, fault⟩)

theorem collect_eq_foldlM (count : Nat) (build : Nat → Assemble α) :
    collect count build = (List.range count).foldlM (collectNext build) (#[], #[]) >>= fun kept =>
      pure (kept.1.toList, kept.2.toList) := rfl

/-- Members that can be built have the property that building one ensures. -/
theorem collect_advance (sound : a.Sound r) (count : Nat) {build : Nat → Assemble α}
    (each : ∀ index b, b.Sound r → Outcome (b.Advance r) post (build index b))
    (lasting : ∀ v b c, b.Sound r → post v b → b.Advance r c → post v c) :
    Outcome (a.Advance r) (fun result b => ∀ v ∈ result.1, post v b) (collect count build a) := by
  let kept : Array α × Array Issue → Assembler → Prop := fun kept b =>
    b.Sound r ∧ ∀ v ∈ kept.1, post v b
  have next : ∀ index ∈ List.range count, ∀ v b, a.Advance r b → kept v b →
      Outcome (b.Advance r) kept (collectNext build v index b) := by
    intro index _ v b _ ⟨sound, members⟩
    refine (advance_progress r).bind (attempt_outcome (each index b sound))
      fun result c advance value => ?_
    cases result with
    | ok member =>
      refine Outcome.of_pure (.refl advance.sound) ⟨advance.sound, fun w mem => ?_⟩
      rcases Array.mem_push.mp mem with old | rfl
      · exact lasting w b c sound (members w old) advance
      · exact value w rfl
    | error fault =>
      exact Outcome.of_pure (.refl advance.sound) ⟨advance.sound, fun w mem =>
        lasting w b c sound (members w mem) advance⟩
  rw [collect_eq_foldlM]
  refine (advance_progress r).bind
    ((advance_progress r).foldlM (.refl sound) ⟨sound, fun v mem => by simp at mem⟩ next)
    fun result b advance members => ?_
  exact Outcome.of_pure (.refl advance.sound) fun v mem =>
    members.2 v (Array.mem_toList_iff.mp mem)

/-! ### Resolving -/

theorem Body.targets_blank {kind : TypeKind} {body : Body} (h : Body.blank? kind = some body) :
    body.targets = [] ∧ body.isDeclaration = true := by
  cases kind <;> cases h <;> exact ⟨rfl, rfl⟩

theorem resolveHref_advance (sound : a.Sound r) (info : TypeInfo) (href : UInt32) :
    Outcome (a.Advance r) (fun id b => b.graph.Nameable r id) (resolveHref info href a) := by
  unfold resolveHref
  cases reference : info.references.get? href with
  | none => exact Outcome.of_throw (.refl sound)
  | some target =>
    cases target with
    | within index =>
      refine Outcome.of_get ?_
      cases known : a.slots.get? index.toNat with
      | some id => exact Outcome.of_pure (.refl sound) (sound.slots known).nameable
      | none => exact Outcome.of_throw (.refl sound)
    | external guid name kind =>
      dsimp only
      cases blank : Body.blank? kind with
      | some body =>
        obtain ⟨targets, declares⟩ := Body.targets_blank blank
        have advance := Graph.external_blank_advance guid name sound.graph declares targets
        exact onGraph_advance sound advance.1 advance.2
      | none => exact Outcome.of_throw (.refl sound)

theorem intern_outcome (sound : a.Sound r) {s : Structural}
    (targets : ∀ t ∈ s.targets, a.graph.Nameable r t) :
    Outcome (a.Advance r) (fun id b => b.graph.Nameable r id) (onGraph (·.intern s) a) :=
  have advance := Graph.intern_advance sound.graph targets
  onGraph_advance sound advance.1 advance.2

/-- What a descriptor resolves to may be named by a body. -/
theorem resolve_advance (info : TypeInfo) (desc : TypeDesc) (sound : a.Sound r) :
    Outcome (a.Advance r) (fun id b => b.graph.Nameable r id) (resolve info desc a) := by
  induction desc with
  | base primitive => exact intern_outcome sound (fun t member => nomatch member)
  | pointer target ih | safeArray target ih | fixedArray dims target ih =>
    refine (advance_progress r).bind ih fun id b advance named => ?_
    refine intern_outcome advance.sound fun t member => ?_
    rwa [List.mem_singleton.mp member]
  | userDefined href => exact resolveHref_advance sound info href

/-! ### Members -/

theorem field_advance (sound : a.Sound r) (info : TypeInfo) (names : NameLookup) (index : Nat) :
    Outcome (a.Advance r) (fun field b => b.graph.Nameable r field.type)
      (field info names index a) := by
  refine (advance_progress r).bind (lift_advance sound _)
    fun var b advance _ => ?_
  refine (advance_progress r).bind (resolve_advance info var.elem.type advance.sound)
    fun type c advance named => ?_
  exact Outcome.of_pure (.refl advance.sound) named

/-- Every type that the method names may be named. -/
def MethodNameable (r : Regime) (method : Method) (a : Assembler) : Prop :=
  ∀ t ∈ method.types, a.graph.Nameable r t

theorem method_advance (sound : a.Sound r) (info : TypeInfo) (names : NameLookup)
    (dispatch : Bool) (index : Nat) :
    Outcome (a.Advance r) (MethodNameable r) (method info names dispatch index a) := by
  have progress := advance_progress r
  refine progress.bind (lift_advance sound _)
    fun func b advance _ => ?_
  have parameters : Outcome (b.Advance r)
      (fun parameters c => c.Sound r ∧ ∀ p ∈ parameters, c.graph.Nameable r p.type)
      ((func.params.zipIdx.mapM fun item =>
        parameter info names index func.memberId item.1 item.2 : Assemble (List Parameter)) b) := by
    have lasting : ∀ (p : Parameter) (c d : Assembler), c.Sound r ∧ c.graph.Nameable r p.type →
        c.Advance r d → d.Sound r ∧ d.graph.Nameable r p.type :=
      fun p c d held further => ⟨further.sound, nameable_lasting held.1 further held.2⟩
    refine Outcome.imp (progress.mapM (.refl advance.sound) ?_ lasting) (fun _ h => h)
      fun v c after each => ⟨after.sound, fun p member => (each p member).2⟩
    intro item _ c after
    refine progress.bind (resolve_advance info item.1.type after.sound)
      fun type d further named => ?_
    exact Outcome.of_pure (.refl further.sound) ⟨further.sound, named⟩
  refine progress.bind parameters fun parameters c after held => ?_
  obtain ⟨sound, named⟩ := held
  refine progress.bind (resolve_advance info func.result.type sound)
    fun result d further namedResult => ?_
  refine Outcome.of_pure (.refl further.sound) fun t member => ?_
  rcases List.mem_cons.mp member with rfl | member
  · exact namedResult
  · obtain ⟨p, inside, rfl⟩ := List.mem_map.mp member
    exact nameable_lasting sound further (named p inside)

theorem base_advance (sound : a.Sound r) (info : TypeInfo) (href : UInt32) :
    Outcome (a.Advance r) (fun id b => b.graph.Nameable r id) (base info href a) := by
  refine (advance_progress r).bind (resolveHref_advance sound info href)
    fun id b advance named => ?_
  refine Outcome.of_get ?_
  by_cases interface : (b.graph.body? id).any Body.isInterface = true
  · rw [if_pos interface]
    exact Outcome.of_pure (.refl advance.sound) named
  · rw [if_neg interface]
    exact Outcome.of_throw (.refl advance.sound)

/-! ### Bodies -/

/-- The body declares something and may name what it names. -/
structure BodyNameable (r : Regime) (body : Body) (a : Assembler) : Prop where
  declares : body.isDeclaration = true
  targets : ∀ t ∈ body.targets, a.graph.Nameable r t

theorem BodyNameable.of_no_targets {body : Body} (declares : body.isDeclaration = true)
    (none : body.targets = []) : BodyNameable r body a :=
  ⟨declares, fun t member => by rw [none] at member; cases member⟩

theorem blank_nameable (definition : Definition) : BodyNameable r definition.blank a := by
  cases definition <;> exact .of_no_targets rfl rfl

/-- The base that a type info names, with the issue that naming it met. -/
def declaredBase (info : TypeInfo) : Assemble (Option TypeId × List Issue) :=
  match info.implTypes.head? with
  | some implemented => contained (base info implemented.href)
  | none => pure (none, [])

theorem body_interface (info : TypeInfo) (names : NameLookup) (attr : TypeAttr)
    (dispatch : Bool) :
    body info names attr (.interface dispatch) = do
      let (base, baseIssues) ← declaredBase info
      let (methods, issues) ← collect attr.funcs.toNat (method info names dispatch)
      return (.interface { methods, base, dispatch }, baseIssues ++ issues) := by
  unfold body declaredBase
  cases info.implTypes.head? <;> rfl

theorem declaredBase_advance (sound : a.Sound r) (info : TypeInfo) :
    Outcome (a.Advance r)
      (fun result b => b.Sound r ∧ ∀ id, result.1 = some id → b.graph.Nameable r id)
      (declaredBase info a) := by
  unfold declaredBase
  cases info.implTypes.head? with
  | none => exact Outcome.of_pure (.refl sound) ⟨sound, fun id same => nomatch same⟩
  | some implemented =>
    exact (contained_advance (base_advance sound info implemented.href)).imp (fun _ h => h)
      fun _ _ after named => ⟨after.sound, named⟩

/-- The body that was built names only what may be named, whatever issues were met. -/
theorem body_advance (sound : a.Sound r) (info : TypeInfo) (names : NameLookup) (attr : TypeAttr)
    (definition : Definition) :
    Outcome (a.Advance r) (fun result b => BodyNameable r result.1 b)
      (body info names attr definition a) := by
  have progress := advance_progress r
  cases definition with
  | enumeration =>
    have each : ∀ index b, b.Sound r → Outcome (b.Advance r) (fun _ _ => True)
        (lift (enumMember info names index) b) := fun index b sound =>
      (lift_advance sound _).imp (fun _ h => h) fun _ _ _ _ => trivial
    refine progress.bind (collect_advance sound attr.vars.toNat each (fun _ _ _ _ h _ => h))
      fun result b advance _ => ?_
    exact Outcome.of_pure (.refl advance.sound) (.of_no_targets rfl rfl)
  | record layout =>
    refine progress.bind (collect_advance sound attr.vars.toNat
      (fun index b sound => field_advance sound info names index)
      (fun field b c sound named advance => nameable_lasting sound advance named))
      fun result b advance fields => ?_
    refine Outcome.of_pure (.refl advance.sound) ⟨rfl, fun t member => ?_⟩
    obtain ⟨field, inside, rfl⟩ := List.mem_map.mp member
    exact fields field inside
  | interface dispatch =>
    rw [body_interface]
    refine progress.bind (declaredBase_advance sound info)
      fun base b advance ⟨soundBase, namedBase⟩ => ?_
    refine progress.bind (collect_advance advance.sound attr.funcs.toNat
      (fun index b sound => method_advance sound info names dispatch index)
      (fun method b c sound named advance t member =>
        nameable_lasting sound advance (named t member)))
      fun result c after methods => ?_
    refine Outcome.of_pure (.refl after.sound) ⟨rfl, fun t member => ?_⟩
    rcases mem_targets_interface.mp member with same | ⟨method, inside, named⟩
    · exact nameable_lasting soundBase after (namedBase t same)
    · exact methods method inside t named
  | typedef target =>
    refine progress.bind (contained_advance (resolve_advance info target sound))
      fun result b advance named => ?_
    refine Outcome.of_pure (.refl advance.sound) ⟨rfl, fun t member => ?_⟩
    exact named t (Option.mem_toList.mp member)

/-! ### Declaring nodes -/

/-- A declaration that starts over. -/
def redeclared (name : String) (body : Body) (node : Node) : Node :=
  { node with name, body, external := false, state := .pending }

/-- A declaration under a known GUID is reset in place. -/
theorem declare_of_known {guid : Guid} (name : String) (body : Body)
    (known : a.graph.findGuid? guid = some id) :
    ∃ changed, declare guid name body a =
      .ok id { a with graph := a.graph.modify id (redeclared name body), changed } := by
  unfold declare
  rw [get_bind, known]
  dsimp only
  split
  · exact ⟨a.changed ++ [guid], rfl⟩
  · exact ⟨a.changed, rfl⟩

/-- A declaration under a new GUID is appended. -/
theorem declare_of_unknown {guid : Guid} (name : String) (body : Body)
    (unknown : a.graph.findGuid? guid = none) :
    declare guid name body a =
      .ok a.graph.size { a with graph := (a.graph.add (some guid) name body).2 } := by
  unfold declare
  rw [get_bind, unknown]
  simp only [onGraph, Graph.add_fst]

/-- The graph after a declaration under a GUID or none. -/
theorem isSlot_added (sound : a.Sound r) (guid : Option Guid) (name : String) {body : Body}
    (nameable : BodyNameable r body a) :
    (a.graph.add guid name body).2.IsSlot r a.graph.size := by
  have h := a.graph.appends_add guid name nameable.declares
  refine ⟨⟨_, Graph.WellFormed.appended h, fun s same => ?_⟩, fun closed => ?_,
    sound.graph.nameable_appended h nameable.targets⟩
  · exact absurd same (Body.isDeclaration_iff.mp nameable.declares s)
  · exact Nat.lt_irrefl _ (sound.graph.closed_lt closed)

theorem redeclared_advance (sound : a.Sound r) (name : String) {body : Body}
    (nameable : BodyNameable r body a) (slot : a.graph.IsSlot r id) :
    a.graph.Advance r (a.graph.modify id (redeclared name body)) :=
  .of_define sound.graph slot.free slot.editable (fun _ => rfl) (fun _ => nameable.declares)
    (fun _ => nameable.targets) (fun _ gone => gone)

/-- The node that a declaration has found or made. -/
structure Declared (r : Regime) (guid : Guid) (body : Body) (id : TypeId) (a : Assembler) :
    Prop where
  slot : a.graph.IsSlot r id
  indexed : guid.isZero = false → a.graph.findGuid? guid = some id
  body_eq : ∀ {node}, a.graph.node? id = some node → node.body = body

theorem declare_advance (sound : a.Sound r) {guid : Guid} {name : String} {body : Body}
    (nameable : BodyNameable r body a) :
    Outcome (a.Advance r) (Declared r guid body) (declare guid name body a) := by
  cases known : a.graph.findGuid? guid with
  | some id =>
    obtain ⟨changed, run⟩ := declare_of_known name body known
    have slot := sound.graph.isSlot_of_guid known
    have advance := redeclared_advance sound name nameable slot
    have later := sound.withGraph advance
    rw [run]
    refine ⟨⟨⟨later.graph, later.slots, later.anonymous, later.unnamed, later.records⟩, advance, rfl, rfl⟩,
      slot.grows sound.graph advance.grows, fun _ => known, fun {node} found => ?_⟩
    rcases Graph.of_node?_modify found with ⟨other, _⟩ | ⟨_, old, _, rfl⟩
    · exact absurd rfl other
    · rfl
  | none =>
    rw [declare_of_unknown name body known]
    have advance : a.graph.Advance r (a.graph.add (some guid) name body).2 := by
      refine Graph.add_advance sound.graph ?_ nameable.declares nameable.targets
      rintro guid' ⟨⟩
      exact known
    have h := a.graph.appends_add (some guid) name nameable.declares
    refine ⟨.withGraph sound advance, isSlot_added sound _ _ nameable, fun nonzero => ?_,
      fun {node} found => ?_⟩
    · rw [h.guid_eq, if_pos (Graph.nextIdentity_of_nonzero nonzero)]
    · have same := found.symm.trans (Graph.WellFormed.appended h)
      cases same
      rfl

/-- Without a GUID, a type info that was seen before is found by its library and position. -/
theorem declareTypeInfo_of_known {guid : Guid} {index : Nat} (name : String) (body : Body)
    (zero : guid.isZero = true) (known : a.anonymous.get? (a.library, index) = some id) :
    declareTypeInfo guid index name body a = .ok id { a with graph := a.graph.modify id fun node =>
      { redeclared name body node with retired := false } } := by
  simp only [declareTypeInfo, zero, Bool.not_true, Bool.false_eq_true, if_false]
  rw [get_bind, known]
  rfl

theorem declareTypeInfo_of_unknown {guid : Guid} {index : Nat} (name : String) (body : Body)
    (zero : guid.isZero = true) (unknown : a.anonymous.get? (a.library, index) = none) :
    declareTypeInfo guid index name body a = .ok a.graph.size
      { a with
        graph := (a.graph.add none name body).2
        anonymous := a.anonymous.insert (a.library, index) a.graph.size } := by
  simp only [declareTypeInfo, zero, Bool.not_true, Bool.false_eq_true, if_false]
  rw [get_bind, unknown]
  rfl

/-- With a GUID of its own, a type info is declared under that. -/
theorem declareTypeInfo_of_nonzero {guid : Guid} {index : Nat} {name : String} {body : Body}
    (nonzero : guid.isZero = false) :
    declareTypeInfo guid index name body = declare guid name body := by
  simp [declareTypeInfo, nonzero]

theorem declareTypeInfo_advance (sound : a.Sound r) {guid : Guid} {index : Nat} {name : String}
    {body : Body} (nameable : BodyNameable r body a) :
    Outcome (a.Advance r) (fun id b => b.graph.IsSlot r id)
      (declareTypeInfo guid index name body a) := by
  cases zero : guid.isZero with
  | false =>
    rw [declareTypeInfo_of_nonzero zero]
    exact (declare_advance sound nameable).imp (fun _ h => h) fun _ _ _ declared => declared.slot
  | true =>
    cases known : a.anonymous.get? (a.library, index) with
    | some id =>
      have slot := sound.anonymous known
      have advance : a.graph.Advance r (a.graph.modify id fun node =>
          { redeclared name body node with retired := false }) :=
        .of_define sound.graph slot.free slot.editable (fun _ => rfl)
          (fun _ => nameable.declares) (fun _ => nameable.targets) (fun _ gone => nomatch gone)
      rw [declareTypeInfo_of_known name body zero known]
      exact ⟨.withGraph sound advance, slot.grows sound.graph advance.grows⟩
    | none =>
      have advance : a.graph.Advance r (a.graph.add none name body).2 :=
        Graph.add_advance sound.graph (fun _ same => nomatch same) nameable.declares
          nameable.targets
      have slot := isSlot_added sound none name nameable
      rw [declareTypeInfo_of_unknown name body zero known]
      refine ⟨⟨?_, advance, rfl, rfl⟩, slot⟩
      have later := sound.withGraph advance
      refine ⟨later.graph, later.slots, fun {key id} stored => ?_, fun {key id} stored => ?_,
        later.records⟩
      · rw [Table.get?_insert] at stored
        split at stored
        · cases stored
          exact slot
        · exact later.anonymous stored
      · rw [Table.get?_insert] at stored
        split at stored
        · cases stored
          have appended := Graph.WellFormed.appended (a.graph.appends_add none name nameable.declares)
          exact ⟨_, appended, rfl⟩
        · exact later.unnamed stored

/-! ### Building types -/

theorem insertSlot_advance (sound : a.Sound r) (index : Nat) (slot : a.graph.IsSlot r id) :
    a.Advance r { a with slots := a.slots.insert index id } := by
  refine ⟨⟨sound.graph, fun {j id} stored => ?_, sound.anonymous, sound.unnamed, sound.records⟩,
    .refl sound.graph, rfl, rfl⟩
  rw [Table.get?_insert] at stored
  split at stored
  · cases stored
    exact slot
  · exact sound.slots stored

theorem slot_advance (sound : a.Sound r) (info : TypeInfo) (index : Nat) (attr : TypeAttr)
    (definition : Definition) :
    Outcome (a.Advance r) (fun id b => b.graph.IsSlot r id) (slot info index attr definition a) := by
  refine Outcome.of_get ?_
  cases waiting : (a.slots.get? index).filter fun id =>
      (a.graph.node? id).any fun node => node.state = .pending with
  | some id =>
    exact Outcome.of_pure (.refl sound) (sound.slots (Option.filter_eq_some_iff.mp waiting).1)
  | none =>
    refine (advance_progress r).bind (declareTypeInfo_advance sound (blank_nameable definition))
      fun id b advance isSlot => ?_
    exact ⟨insertSlot_advance advance.sound index isSlot, isSlot⟩

/-- Fail with the first issue in strict mode. -/
def reportFirst (issues : List Issue) : Assemble Unit := do
  if (← get).strict then
    if let some first := issues.head? then
      throw first.fault

theorem reportFirst_advance (sound : a.Sound r) (issues : List Issue) :
    Outcome (a.Advance r) (fun _ _ => True) (reportFirst issues a) := by
  refine Outcome.of_get ?_
  cases a.strict with
  | false => exact Outcome.of_pure (.refl sound) trivial
  | true =>
    cases issues with
    | nil => exact Outcome.of_pure (.refl sound) trivial
    | cons first rest => exact Outcome.of_throw (.refl sound)

theorem settle_advance (sound : a.Sound r) (isSlot : a.graph.IsSlot r id) (issues : List Issue) :
    Outcome (a.Advance r) (fun _ _ => True) (settle id issues a) := by
  have advance : a.graph.Advance r (a.graph.modify id fun node =>
      { node with state := .ofIssues issues }) :=
    .of_touch sound.graph isSlot.free (fun _ => rfl) (fun _ => rfl) (fun _ => rfl) (fun _ => rfl)
  exact (advance_progress r).bind_modify (.withGraph sound advance)
    (reportFirst_advance (sound.withGraph advance) issues)

/-- Settling fails only in strict mode, with the first issue. -/
theorem settle_cases (id : TypeId) (issues : List Issue) (a : Assembler) :
    let settled := { a with
      graph := a.graph.modify id fun node => { node with state := .ofIssues issues } }
    settle id issues a = .ok () settled ∨
      ∃ first rest, issues = first :: rest ∧ settle id issues a = .error first.fault settled := by
  unfold settle modifyNode
  rw [modify_bind, get_bind]
  cases a.strict with
  | false => exact .inl rfl
  | true =>
    cases issues with
    | nil => exact .inl rfl
    | cons first rest => exact .inr ⟨first, rest, rfl, rfl⟩

/-- Build a type and record how that ended in its node. -/
def settling (work : Assemble (TypeId × List Issue)) : Assemble TypeId := do
  let (id, issues) ← work
  settle id issues
  return id

theorem settling_advance {work : Assemble (TypeId × List Issue)}
    (h : Outcome (a.Advance r) (fun result b => b.graph.IsSlot r result.1) (work a)) :
    Outcome (a.Advance r) (fun _ _ => True) (settling work a) := by
  have progress := advance_progress r
  refine progress.bind h fun result b advance isSlot => ?_
  refine progress.bind (settle_advance advance.sound isSlot result.2) fun _ c finished _ => ?_
  exact Outcome.of_pure (.refl finished.sound) trivial

/-- What a type info says about its node, apart from the state. -/
def described (info : TypeInfo) (attr : TypeAttr) (body : Body) (node : Node) : Node :=
  { node with
    name := info.name
    doc := info.documentation
    flags := attr.flags
    version := (attr.majorVersion, attr.minorVersion)
    customData := info.customDataFor .type
    external := false
    body }

/-- Fill the node of a type info. Returns the node with the issues met on the way. -/
def filled (info : TypeInfo) (index : Nat) (attr : TypeAttr) (definition : Definition)
    (names : NameLookup) : Assemble (TypeId × List Issue) := do
  let id ← slot info index attr definition
  let (body, issues) ← body info names attr definition
  modifyNode id (described info attr body)
  return (id, issues)

/-- Building ends by recording the issues that were met. -/
theorem build_eq_settling (info : TypeInfo) (index : Nat) (attr : TypeAttr) (definition : Definition)
    (names : NameLookup) :
    build info index attr definition names = settling (filled info index attr definition names) := by
  simp only [build, settling, filled, bind_assoc, pure_bind]
  rfl

/-- A body is built and stored, as far as it could be built. -/
theorem filled_advance (sound : a.Sound r) (info : TypeInfo) (index : Nat) (attr : TypeAttr)
    (definition : Definition) (names : NameLookup) :
    Outcome (a.Advance r) (fun result b => b.graph.IsSlot r result.1)
      (filled info index attr definition names a) := by
  have progress := advance_progress r
  refine progress.bind (slot_advance sound info index attr definition)
    fun id b before isSlot => ?_
  refine progress.bind (body_advance before.sound info names attr definition)
    fun result c during nameable => ?_
  have isSlot' := isSlot.grows before.sound.graph during.graph.grows
  have advance : c.graph.Advance r (c.graph.modify id (described info attr result.1)) :=
    .of_define during.sound.graph isSlot'.free isSlot'.editable (fun _ => rfl)
      (fun _ => nameable.declares) (fun _ => nameable.targets) (fun _ gone => gone)
  have after := Assembler.Advance.withGraph during.sound advance
  refine progress.bind_modify after ?_
  exact Outcome.of_pure (.refl after.sound) (isSlot'.grows during.sound.graph advance.grows)

theorem build_advance (sound : a.Sound r) (info : TypeInfo) (index : Nat) (attr : TypeAttr)
    (definition : Definition) (names : NameLookup) :
    Outcome (a.Advance r) (fun _ _ => True) (build info index attr definition names a) := by
  rw [build_eq_settling]
  exact settling_advance (filled_advance sound info index attr definition names)

theorem addTypeInfo_advance (sound : a.Sound r) (info : TypeInfo) (index : Nat)
    (names : NameLookup) :
    Outcome (a.Advance r) (fun _ _ => True) (addTypeInfo info index names a) := by
  refine (advance_progress r).bind (lift_advance sound _)
    fun header b advance _ => ?_
  exact build_advance advance.sound info index header.1 header.2 names

theorem enlist_advance (sound : a.Sound r) (info : TypeInfo) (index : Nat) :
    Outcome (a.Advance r) (fun _ _ => True) (enlist info index a) := by
  have progress := advance_progress r
  unfold enlist
  cases info.header with
  | ok header =>
    refine progress.bind (declareTypeInfo_advance sound (blank_nameable header.2))
      fun id b advance isSlot => ?_
    have after := insertSlot_advance advance.sound index isSlot
    exact progress.bind_modify after (Outcome.of_pure (.refl after.sound) trivial)
  | error fault =>
    refine Outcome.of_get ?_
    dsimp only
    cases a.strict with
    | false => exact Outcome.of_pure (.refl sound) trivial
    | true => exact Outcome.of_throw (.refl sound)

/-- Adding a library advances the assembler, whether it succeeds or fails. -/
theorem addLibrary_advance (sound : a.Sound r) (library : Library) :
    Outcome (a.Advance r) (fun _ _ => True) (addLibrary library a) := by
  have progress := advance_progress r
  have cleared : Assembler.Sound r
      { a with slots := .empty, library := (library.libid, library.name) } :=
    ⟨sound.graph, fun {_ _} stored => by simp at stored, sound.anonymous, sound.unnamed,
      sound.records⟩
  have start : a.Advance r { a with slots := .empty, library := (library.libid, library.name) } :=
    ⟨cleared, .refl sound.graph, rfl, rfl⟩
  refine progress.bind_modify start ?_
  refine progress.bind (progress.mapM_reached (.refl cleared)
    fun entry _ b before => enlist_advance before.sound entry.1 entry.2) fun enlisted b before _ => ?_
  exact progress.mapM_reached (.refl before.sound) fun entry _ c during =>
    build_advance during.sound entry.1 entry.2.1 entry.2.2.1 entry.2.2.2 entry.1.lookup

end Assemble

end ComTypes

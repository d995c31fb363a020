import ComTypes.Proofs.Assembly.Replay

/-!
# Building a type info is replayed

The steps of `Assemble.build`, from resolving a descriptor on, can all be replayed. The one condition is
that types defined elsewhere are referred to by a GUID other than zero, because a node without a GUID
cannot be found again.
-/

namespace ComTypes

open Assembler Assemble

variable {α : Type} {s : Assembler} {id : TypeId}

/-! ### Types defined elsewhere -/

/-- Fill in a name. -/
def Node.fill (name : String) (node : Node) : Node :=
  if node.name = "" then { node with name } else node

theorem Node.fill_cases (name : String) (node : Node) :
    (node.name = "" ∧ node.fill name = { node with name }) ∨
      (node.name ≠ "" ∧ node.fill name = node) := by
  unfold Node.fill
  split
  next empty => exact .inl ⟨empty, rfl⟩
  next given => exact .inr ⟨given, rfl⟩

/-- Filling in a name changes an empty name only. -/
theorem Node.named_fill (name : String) (node : Node) : node.Named (node.fill name) := by
  rcases node.fill_cases name with ⟨empty, eq⟩ | ⟨_, eq⟩
  · rw [eq]
    exact ⟨rfl, fun given => absurd empty given⟩
  · rw [eq]
    exact .refl node

/-- A name is not filled in twice. -/
theorem Node.fill_of_named {name : String} {node node' : Node} (h : (node.fill name).Named node') :
    node'.fill name = node' := by
  rcases node'.fill_cases name with ⟨empty, eq⟩ | ⟨_, eq⟩
  · have without : (node.fill name).name = "" := by
      by_contra given
      exact given ((h.name given).symm.trans empty)
    have nothing : name = "" := by
      rcases node.fill_cases name with ⟨_, filled⟩ | ⟨given, filled⟩
      · rw [filled] at without
        exact without
      · rw [filled] at without
        exact absurd without given
    rw [eq, nothing, ← empty]
  · exact eq

theorem fill_tame (name : String) : Tame s id (Node.fill name) := by
  have fields : ∀ node : Node, (node.fill name).identity = node.identity ∧
      (node.fill name).retired = node.retired := by
    intro node
    rcases node.fill_cases name with ⟨_, eq⟩ | ⟨_, eq⟩ <;> simp [eq]
  refine ⟨fun node => (fields node).1, fun {node node'} agree => ?_,
    fun _ used => (fields _).2.trans used, fun _ _ => (fields _).2⟩
  unfold Node.fill
  rw [agree.name]
  split
  · exact ⟨agree.identity, rfl, agree.external, agree.retired, agree.state, agree.body⟩
  · exact agree

/-- In the second run the type is known and has its name, unless it stands for a type info. -/
theorem Echoes.external_eq {f s' : Assembler} {guid : Guid} {name : String} {body : Body}
    {node : Node} (echoes : Echoes f s s') (other : ¬ s.Slotted id)
    (known : f.graph.findGuid? guid = some id) (found : f.graph.node? id = some node)
    (full : node.fill name = node) :
    onGraph (·.external guid name body) s' = .ok id s' := by
  have known' : s'.graph.findGuid? guid = some id := by
    rw [Graph.findGuid?, echoes.byGuid]
    exact known
  have same : s'.graph.modify id (Node.fill name) = s'.graph := by
    refine Graph.modify_eq_self fun {node'} found' => ?_
    rw [echoes.others other, found] at found'
    cases found'
    exact full
  simp only [onGraph, Graph.external_of_found name body known']
  show EStateM.Result.ok id { s' with graph := s'.graph.modify id (Node.fill name) } = _
  rw [same]

theorem later_of_fill (id : TypeId) (name : String) :
    s.Later { s with graph := s.graph.modify id (Node.fill name) } where
  library := rfl
  slots _ := rfl
  anonymous known := known
  guid known := known
  interned known := known
  nodes {j node} found := by
    have tame : Tame s j (Node.fill name) := fill_tame name
    by_cases same : id = j
    · subst same
      exact ⟨_, Graph.node?_modify_self _ found, tame.identity node, tame.used found,
        fun _ => tame.retired found, fun _ => node.named_fill name⟩
    · exact ⟨node, (Graph.node?_modify_of_ne _ same).trans found, .refl _ _⟩

theorem Repeats.of_fill {step : Assemble α} {value : α} {name : String} (steady : s.Steady)
    (other : ¬ s.Slotted id)
    (here : step s = .ok value { s with graph := s.graph.modify id (Node.fill name) })
    (there : ∀ {f s'}, Later { s with graph := s.graph.modify id (Node.fill name) } f →
      Echoes f s s' → step s' = .ok value s') : Repeats step s := by
  have apart : ∀ {j}, s.Slotted j → id ≠ j := by
    rintro j slotted rfl
    exact other slotted
  refine ⟨?_, ?_, fun {f s'} later echoes => ?_⟩
  · rw [here]
    exact later_of_fill id name
  · rw [here]
    exact (fill_tame name).steady steady s.changed
  rw [here] at later ⊢
  refine ⟨s', there later echoes, ?_, fun j slotted before => ?_⟩
  · refine { echoes with agree := fun {j node} slotted found => ?_ }
    rcases Graph.of_node?_modify found with ⟨_, old⟩ | ⟨same, _⟩
    · exact echoes.agree slotted old
    · exact absurd same (apart slotted)
  · rw [before.resolve_left fun gain => gain.1]
    exact (Graph.node?_modify_of_ne _ (apart slotted)).symm

/-- A name that is there already fills in for nothing. -/
theorem Node.fill_self {name : String} {node : Node} (same : node.name = name) :
    node.fill name = node := by
  rcases node.fill_cases name with ⟨_, eq⟩ | ⟨_, eq⟩
  · rw [eq, ← same]
  · exact eq

/-- Referring to a type defined elsewhere is repeated, since its GUID finds it again. -/
theorem Repeats.external (steady : s.Steady) {guid : Guid} (nonzero : guid.isZero = false)
    (name : String) {body : Body} : Repeats (onGraph (·.external guid name body)) s := by
  cases known : s.graph.findGuid? guid with
  | some id =>
    have run : onGraph (·.external guid name body) s =
        .ok id { s with graph := s.graph.modify id (Node.fill name) } := by
      simp only [onGraph, Graph.external_of_found name body known]
      rfl
    by_cases slotted : s.Slotted id
    · refine Replays.of_change steady slotted (fill_tame name) (fun _ gain => gain.elim) run
        fun {f s'} later echoes => ⟨s'.changed, ?_⟩
      have known' : s'.graph.findGuid? guid = some id := by
        rw [Graph.findGuid?, echoes.byGuid]
        exact later.guid known
      simp only [onGraph, Graph.external_of_found name body known']
      rfl
    · refine .of_fill steady slotted run fun {f s'} later echoes => ?_
      obtain ⟨node, found, _⟩ := steady.guid known
      obtain ⟨node', found', kept⟩ := later.nodes (Graph.node?_modify_self (Node.fill name) found)
      exact echoes.external_eq slotted (later.guid known) found'
        (Node.fill_of_named (kept.named slotted))
  | none =>
    have h := Graph.appends_external name body known
    have own := Graph.nextIdentity_of_nonzero (g := s.graph) nonzero
    have run : onGraph (·.external guid name body) s =
        .ok s.graph.size { s with graph := (s.graph.external guid name body).2 } := by
      rw [← Graph.external_fst_of_new name body known]
      rfl
    have outside : ¬ s.Slotted s.graph.size := by
      intro slotted
      obtain ⟨node, found, _⟩ := steady.slotted slotted
      exact Nat.lt_irrefl _ (Graph.lt_size_of_node? found)
    refine .of_appends steady h ?_ ?_ run fun {f s'} later echoes => ?_
    · intro guid' same
      cases own.symm.trans same
      exact known
    · intro structural internal
      cases internal
    · have indexed : f.graph.findGuid? guid = some s.graph.size := by
        refine later.guid ?_
        show (s.graph.external guid name body).2.findGuid? guid = _
        rw [h.guid_eq]
        exact if_pos own
      obtain ⟨node', found', kept⟩ := later.nodes (Graph.WellFormed.appended h)
      have named := kept.named outside
      have filled : (s.graph.externalNode guid name body).fill name = _ := Node.fill_self rfl
      rw [← filled] at named
      exact echoes.external_eq outside indexed found' (Node.fill_of_named named)

/-! ### Resolving -/

/-- The type info refers to types defined elsewhere by GUIDs other than zero. -/
def TypeInfo.NamesExternals (info : TypeInfo) : Prop :=
  ∀ href guid name kind, info.references.get? href = some (.external guid name kind) →
    guid.isZero = false

/-- Resolving a reference again finds the node it found or made the first time. -/
theorem Repeats.resolveHref (steady : s.Steady) {info : TypeInfo} (named : info.NamesExternals)
    (href : UInt32) : Repeats (resolveHref info href) s := by
  unfold Assemble.resolveHref
  cases reference : info.references.get? href with
  | none => exact .throw steady _
  | some target =>
    cases target with
    | within index =>
      dsimp only
      cases known : s.slots.get? index.toNat with
      | some id =>
        refine .of_lift steady (.ok id) ?_ fun {f s'} _ echoes => ?_
        · rw [get_bind, known]
          rfl
        · rw [get_bind, echoes.slots, known]
          rfl
      | none =>
        refine .of_lift steady (.error (.dangling (.missingLocal href info.name index.toNat))) ?_
          fun {f s'} _ echoes => ?_
        · rw [get_bind, known]
          rfl
        · rw [get_bind, echoes.slots, known]
          rfl
    | external guid name kind =>
      dsimp only
      cases blank : Body.blank? kind with
      | some body =>
        exact .external steady (named href guid name kind reference) name
      | none => exact .throw steady _

theorem Repeats.resolve {info : TypeInfo} (named : info.NamesExternals) (desc : TypeDesc)
    (steady : s.Steady) : Repeats (resolve info desc) s := by
  induction desc generalizing s with
  | base primitive => exact .intern steady _
  | pointer target ih | safeArray target ih | fixedArray dims target ih =>
    refine .bind (ih steady) fun id t _ steady _ => ?_
    exact .intern steady _
  | userDefined href => exact .resolveHref steady named href

/-! ### Members -/

theorem Repeats.collect (steady : s.Steady) (count : Nat) {build : Nat → Assemble α}
    (each : ∀ index t, t.Steady → Repeats (build index) t) : Repeats (collect count build) s := by
  refine .bind (.foldlM steady fun index _ kept t steady _ => ?_) fun result t _ steady _ => ?_
  · refine .bind (.attempt (each index t steady)) fun outcome u _ steady _ => ?_
    cases outcome with
    | ok member => exact .pure steady _
    | error fault => exact .pure steady _
  · exact .pure steady _

theorem Repeats.field (steady : s.Steady) {info : TypeInfo} (named : info.NamesExternals)
    (names : NameLookup) (index : Nat) : Repeats (field info names index) s := by
  refine .bind (.lift steady _) fun var t _ steady _ => ?_
  refine .bind (.resolve named _ steady) fun type u _ steady _ => ?_
  exact .pure steady _

theorem Repeats.method (steady : s.Steady) {info : TypeInfo} (named : info.NamesExternals)
    (names : NameLookup) (dispatch : Bool) (index : Nat) :
    Repeats (method info names dispatch index) s := by
  refine .bind (.lift steady _) fun func t _ steady _ => ?_
  refine .bind (.mapM steady fun param _ u steady _ => ?_) fun params u _ steady _ => ?_
  · refine .bind (.resolve named _ steady) fun type v _ steady _ => ?_
    exact .pure steady _
  · refine .bind (.resolve named _ steady) fun result v _ steady _ => ?_
    exact .pure steady _

/-- A reference that is resolved leads to a node. -/
theorem resolveHref_node (steady : s.Steady) (info : TypeInfo) (href : UInt32) :
    Outcome (fun _ => True) (fun id t => ∃ node, t.graph.node? id = some node)
      (Assemble.resolveHref info href s) := by
  unfold Assemble.resolveHref
  cases info.references.get? href with
  | none => exact trivial
  | some target =>
    cases target with
    | within index =>
      refine Outcome.of_get ?_
      cases known : s.slots.get? index.toNat with
      | some id =>
        obtain ⟨node, found, _⟩ := steady.slotted ⟨index.toNat, known⟩
        exact ⟨trivial, node, found⟩
      | none => exact trivial
    | external guid name kind =>
      dsimp only
      cases Body.blank? kind with
      | none => exact trivial
      | some body =>
        refine ⟨trivial, ?_⟩
        show ∃ node, (s.graph.external guid name body).2.node? (s.graph.external guid name body).1 =
          some node
        cases known : s.graph.findGuid? guid with
        | some id =>
          obtain ⟨node, found, _⟩ := steady.guid known
          rw [Graph.external_of_found name body known]
          exact ⟨_, Graph.node?_modify_self _ found⟩
        | none =>
          rw [Graph.external_fst_of_new name body known]
          exact ⟨_, Graph.WellFormed.appended (Graph.appends_external name body known)⟩

/-- Both runs see the same body. -/
theorem Echoes.body_eq {f s' : Assembler} (echoes : Echoes f s s') (later : s.Later f) {node : Node}
    (found : s.graph.node? id = some node) : s'.graph.body? id = s.graph.body? id := by
  by_cases slotted : s.Slotted id
  · obtain ⟨node', found', agree⟩ := echoes.agree slotted found
    simp [Graph.body?, found, found', agree.body]
  · obtain ⟨node', found', kept⟩ := later.nodes found
    have same : node'.body = node.body := by rw [(kept.named slotted).rest]
    simp [Graph.body?, found, echoes.others slotted, found', same]

theorem Repeats.base (steady : s.Steady) {info : TypeInfo} (named : info.NamesExternals)
    (href : UInt32) : Repeats (base info href) s := by
  refine .bind (.resolveHref steady named href) fun id t run steady' _ => ?_
  have found := resolveHref_node steady info href
  rw [run] at found
  obtain ⟨_, node, found⟩ := found
  by_cases interface : (t.graph.body? id).any Body.isInterface = true
  · refine .of_lift steady' (.ok id) ?_ fun {f s'} later echoes => ?_
    · rw [get_bind, if_pos interface]
      rfl
    · rw [get_bind, echoes.body_eq later found, if_pos interface]
      rfl
  · refine .of_lift steady' (.error (.dangling (.baseNotInterface info.name))) ?_
      fun {f s'} later echoes => ?_
    · rw [get_bind, if_neg interface]
      rfl
    · rw [get_bind, echoes.body_eq later found, if_neg interface]
      rfl

theorem Repeats.contained {step : Assemble α} (h : Repeats step s) : Repeats (contained step) s := by
  refine .bind (.attempt h) fun outcome t _ steady _ => ?_
  cases outcome with
  | ok value => exact .pure steady _
  | error fault => exact .pure steady _

/-- Building a body again gives the same body and issues. -/
theorem Repeats.body (steady : s.Steady) {info : TypeInfo} (named : info.NamesExternals)
    (names : NameLookup) (attr : TypeAttr) (definition : Definition) :
    Repeats (body info names attr definition) s := by
  cases definition with
  | enumeration =>
    refine .bind (.collect steady _ fun index t steady => .lift steady _) fun result t _ steady _ => ?_
    exact .pure steady _
  | record layout =>
    refine .bind (.collect steady _ fun index t steady => .field steady named names index)
      fun result t _ steady _ => ?_
    exact .pure steady _
  | interface dispatch =>
    rw [body_interface]
    have bases : Repeats (declaredBase info) s := by
      unfold declaredBase
      cases info.implTypes.head? with
      | some implemented => exact .contained (.base steady named _)
      | none => exact .pure steady _
    refine .bind bases fun base t _ steady _ => ?_
    refine .bind (.collect steady _ fun index t steady => .method steady named names dispatch index)
      fun result u _ steady _ => ?_
    exact .pure steady _
  | typedef target =>
    refine .bind (.contained (.resolve named target steady)) fun result t _ steady _ => ?_
    exact .pure steady _

/-! ### Building -/

/-- The identity of a type info leads to a node: its GUID, or else its library and position. -/
structure Known (guid : Guid) (index : Nat) (id : TypeId) (s : Assembler) : Prop where
  indexed : guid.isZero = false → s.graph.findGuid? guid = some id
  anonymous : guid.isZero = true → s.anonymous.get? (s.library, index) = some id

/-- The slot of a type info and its identity both lead to its node. -/
structure Placed (guid : Guid) (index : Nat) (id : TypeId) (s : Assembler) : Prop
    extends Known guid index id s where
  slot : s.slots.get? index = some id

theorem Placed.slotted {guid : Guid} {index : Nat} (placed : Placed guid index id s) :
    s.Slotted id := ⟨index, placed.slot⟩

theorem Placed.later {guid : Guid} {index : Nat} {t : Assembler} (placed : Placed guid index id s)
    (later : s.Later t) : Placed guid index id t where
  slot := (later.slots index).trans placed.slot
  indexed nonzero := later.guid (placed.indexed nonzero)
  anonymous zero := by
    rw [later.library]
    exact later.anonymous (placed.anonymous zero)

/-- A type info that is declared again starts over. Without a GUID it is also put back to use. -/
def reset (guid : Guid) (name : String) (body : Body) (node : Node) : Node :=
  if guid.isZero then { redeclared name body node with retired := false }
  else redeclared name body node

/-- A type info that is known is declared by resetting its node. -/
theorem declareTypeInfo_known {guid : Guid} {index : Nat} (known : Known guid index id s)
    (name : String) (body : Body) :
    ∃ changed, declareTypeInfo guid index name body s =
      .ok id { s with graph := s.graph.modify id (reset guid name body), changed } := by
  unfold reset
  cases zero : guid.isZero with
  | false =>
    rw [declareTypeInfo_of_nonzero zero]
    exact declare_of_known name body (known.indexed zero)
  | true => exact ⟨s.changed, declareTypeInfo_of_known name body zero (known.anonymous zero)⟩

/-- A node that is found without a GUID has none. -/
theorem reset_tame (steady : s.Steady) {guid : Guid} {index : Nat} (known : Known guid index id s)
    (name : String) (body : Body) : Tame s id (reset guid name body) := by
  unfold reset
  cases zero : guid.isZero with
  | false =>
    exact ⟨fun _ => rfl, fun agree => ⟨agree.identity, rfl, rfl, agree.retired, rfl, rfl⟩,
      fun _ used => used, fun _ _ => rfl⟩
  | true =>
    refine ⟨fun _ => rfl, fun agree => ⟨agree.identity, rfl, rfl, rfl, rfl, rfl⟩, fun _ _ => rfl, ?_⟩
    intro node guid found guid_own
    obtain ⟨own, found_own, index_own⟩ := steady.anonymous (known.anonymous zero)
    cases found_own.symm.trans found
    rw [index_own] at guid_own
    cases guid_own

/-- Steps that agree here and in every later state replay alike. -/
theorem Replays.congr {step step' : Assemble α} {gained : TypeId → Prop} (h : Replays gained step' s)
    (here : step s = step' s)
    (there : ∀ {f s'}, s.Later f → Echoes f s s' → step s' = step' s') : Replays gained step s := by
  refine ⟨by rw [here]; exact h.later, by rw [here]; exact h.steady, fun {f s'} later echoes => ?_⟩
  rw [here] at later ⊢
  obtain ⟨t', run, rest⟩ := h.again later echoes
  exact ⟨t', (there (h.later.trans later) echoes).trans run, rest⟩

/-- Declaring a type info again resets its node in both runs. -/
theorem Repeats.declareTypeInfo (steady : s.Steady) {guid : Guid} {index : Nat}
    (placed : Placed guid index id s) (name : String) (body : Body) :
    Repeats (declareTypeInfo guid index name body) s := by
  obtain ⟨changed, run⟩ := declareTypeInfo_known placed.toKnown name body
  refine Replays.of_change steady placed.slotted (reset_tame steady placed.toKnown name body)
    (fun _ gain => gain.elim) run fun {f s'} later echoes => declareTypeInfo_known ⟨?_, ?_⟩ name body
  · intro nonzero
    rw [Graph.findGuid?, echoes.byGuid]
    exact later.guid (placed.indexed nonzero)
  · intro zero
    rw [echoes.library, echoes.anonymous]
    exact later.anonymous (placed.anonymous zero)

/-- Writing down again which node a type info has. -/
theorem Repeats.insertSlot (steady : s.Steady) {index : Nat} (known : s.slots.get? index = some id) :
    Repeats (modify fun a => { a with slots := a.slots.insert index id }) s := by
  have slots : ∀ j, (s.slots.insert index id).get? j = s.slots.get? j := by
    intro j
    rw [Table.get?_insert]
    split
    next same => rw [same, known]
    next => rfl
  have slotted : ∀ {j}, Slotted { s with slots := s.slots.insert index id } j ↔ s.Slotted j := by
    intro j
    simp only [Slotted, slots]
  refine ⟨?_, ?_, fun {f s'} later echoes => ?_⟩
  · exact ⟨rfl, slots, fun known => known, fun known => known, fun known => known,
      fun found => ⟨_, found, .refl _ _⟩⟩
  · exact ⟨steady.lenient, steady.guid, steady.anonymous,
      fun among => steady.slotted (slotted.mp among)⟩
  · refine ⟨{ s' with slots := s'.slots.insert index id }, rfl, ?_,
      fun j _ same => same.resolve_left fun gain => gain.1⟩
    exact { echoes with
      slots := by rw [echoes.slots]; rfl
      others := fun other => echoes.others fun among => other (slotted.mpr among)
      agree := fun among => echoes.agree (slotted.mp among) }

/-- Declare a type info and write down which node it has. -/
def place (guid : Guid) (index : Nat) (name : String) (body : Body) : Assemble TypeId := do
  let id ← declareTypeInfo guid index name body
  modify fun a => { a with slots := a.slots.insert index id }
  return id

theorem place_known {guid : Guid} {index : Nat} (known : Known guid index id s) (name : String)
    (body : Body) :
    ∃ changed, place guid index name body s = .ok id { s with
      graph := s.graph.modify id (reset guid name body)
      slots := s.slots.insert index id
      changed } := by
  obtain ⟨changed, run⟩ := declareTypeInfo_known known name body
  refine ⟨changed, ?_⟩
  unfold place
  rw [ok_bind run]
  rfl

theorem Repeats.place (steady : s.Steady) {guid : Guid} {index : Nat}
    (placed : Placed guid index id s) (name : String) (body : Body) :
    Repeats (place guid index name body) s := by
  obtain ⟨changed, run⟩ := declareTypeInfo_known placed.toKnown name body
  refine .bind (.declareTypeInfo steady placed name body) fun value t run' steady later => ?_
  cases run.symm.trans run'
  refine .bind (.insertSlot steady (placed.later later).slot) fun _ u _ steady _ => ?_
  exact .pure steady _

/-- While the node waits for its body it is used as it is, and else declared again. -/
theorem slot_eq {info : TypeInfo} {index : Nat} {attr : TypeAttr} {definition : Definition}
    {node : Node} (slot : s.slots.get? index = some id) (found : s.graph.node? id = some node) :
    Assemble.slot info index attr definition s =
      if node.state = .pending then .ok id s
      else place attr.guid index info.name definition.blank s := by
  unfold Assemble.slot
  rw [get_bind, slot]
  by_cases pending : node.state = .pending
  · simp [Option.filter, found, pending]
    rfl
  · simp [Option.filter, found, pending]
    rfl

theorem Repeats.slot (steady : s.Steady) {info : TypeInfo} {index : Nat} {attr : TypeAttr}
    (placed : Placed attr.guid index id s) (definition : Definition) :
    Repeats (slot info index attr definition) s := by
  obtain ⟨node, found, _⟩ := steady.slotted placed.slotted
  by_cases pending : node.state = .pending
  · refine .of_lift steady (.ok id) ?_ fun {f s'} later echoes => ?_
    · rw [slot_eq placed.slot found, if_pos pending]
      rfl
    · obtain ⟨node', found', agree⟩ := echoes.agree placed.slotted found
      have slot' : s'.slots.get? index = some id := by rw [echoes.slots, placed.slot]
      rw [slot_eq slot' found', agree.state, if_pos pending]
      rfl
  · refine (Repeats.place steady placed info.name definition.blank).congr ?_
      fun {f s'} later echoes => ?_
    · rw [slot_eq placed.slot found, if_neg pending]
    · obtain ⟨node', found', agree⟩ := echoes.agree placed.slotted found
      have slot' : s'.slots.get? index = some id := by rw [echoes.slots, placed.slot]
      rw [slot_eq slot' found', agree.state, if_neg pending]

/-- A placed type info is built into its node. -/
theorem slot_placed (steady : s.Steady) {info : TypeInfo} {index : Nat} {attr : TypeAttr}
    (placed : Placed attr.guid index id s) (definition : Definition) :
    ∃ t, Assemble.slot info index attr definition s = .ok id t := by
  obtain ⟨node, found, _⟩ := steady.slotted placed.slotted
  rw [slot_eq placed.slot found]
  split
  · exact ⟨s, rfl⟩
  · obtain ⟨changed, run⟩ := place_known placed.toKnown info.name definition.blank
    exact ⟨_, run⟩

theorem Repeats.settle (steady : s.Steady) (slotted : s.Slotted id) (issues : List Issue) :
    Repeats (settle id issues) s := by
  have tame : Tame s id fun node => { node with state := .ofIssues issues } :=
    ⟨fun _ => rfl, fun agree => ⟨agree.identity, agree.name, agree.external, agree.retired, rfl,
      agree.body⟩, fun _ used => used, fun _ _ => rfl⟩
  have first : Repeats (modifyNode id fun node => { node with state := .ofIssues issues }) s :=
    Replays.of_change steady slotted tame (fun _ gain => gain.elim) rfl
      fun {_ s'} _ _ => ⟨s'.changed, rfl⟩
  refine .bind first fun _ t _ steady _ => ?_
  refine .of_lift steady (.ok ()) ?_ fun {f s'} _ echoes => ?_
  · rw [get_bind, steady.lenient]
    rfl
  · rw [get_bind, echoes.strict, steady.lenient]
    rfl

/-- Building a type info is replayed, and afterwards its node is the same in both runs. -/
theorem Replays.build (steady : s.Steady) {info : TypeInfo} (named : info.NamesExternals)
    {index : Nat} {attr : TypeAttr} (placed : Placed attr.guid index id s) (definition : Definition)
    (names : NameLookup) : Replays (· = id) (build info index attr definition names) s := by
  have first : Repeats (Assemble.slot info index attr definition) s := .slot steady placed definition
  obtain ⟨t, run⟩ : ∃ t, Assemble.slot info index attr definition s = .ok id t :=
    slot_placed steady placed definition
  refine (Replays.bind first fun value u run' steady later => ?_).mono fun j same => .inr same
  cases run.symm.trans run'
  have second : Repeats (Assemble.body info names attr definition) t :=
    .body steady named names attr definition
  refine (Replays.bind second fun result u _ steady later' => ?_).mono fun j same => .inr same
  have slotted := (later.trans later').slotted_iff.mpr placed.slotted
  let change : Node → Node := fun node => { node with
    name := info.name
    doc := info.documentation
    flags := attr.flags
    version := (attr.majorVersion, attr.minorVersion)
    customData := info.customDataFor .type
    external := false
    body := result.1 }
  have tame : Tame u id change :=
    ⟨fun _ => rfl, fun agree => ⟨agree.identity, rfl, rfl, agree.retired, agree.state, rfl⟩,
      fun _ used => used, fun _ _ => rfl⟩
  have filled : Replays (· = id) (modifyNode id change) u := by
    refine .of_change steady slotted tame (fun j same => ⟨same, fun {node node'} agree => ?_⟩) rfl
      fun {_ s'} _ _ => ⟨s'.changed, rfl⟩
    simp only [change, agree.identity, agree.retired, agree.state]
  have last : ∀ v, v.Steady → u.Later v → Repeats (do
      Assemble.settle id result.2
      return id : Assemble TypeId) v := by
    intro v steady later''
    refine .bind (.settle steady (later''.slotted_iff.mpr slotted) result.2) fun _ x _ steady _ => ?_
    exact .pure steady _
  exact (Replays.bind filled fun _ v _ steady later'' => last v steady later'').mono
    fun j same => .inl same

end ComTypes

import ComTypes.Proofs.Assembly.Advance

/-!
# Replaying the second pass

When a library is added again, every step of its second pass finds what the first run has left: a
structure is interned already, a type defined elsewhere is known, and the nodes of the type infos have
been declared again. `Replays` says that a step can be replayed. It compares a state `s` of the first
run with a state `s'` of the second. What the two have in common (`Echoes`) is the nodes of the library's
own type infos, as far as they can influence the build; everything else in `s'` is as in the final state
`f` of the first run. The step gives the same value in both, and keeps the likeness.

A node that is the same in both runs stays so, and building a type info makes its node the same; so in
the end all are.
-/

namespace ComTypes

/-! ### States of one run -/

/-- The node stands for a type info of the current library. -/
def Assembler.Slotted (a : Assembler) (id : TypeId) : Prop :=
  ∃ index, a.slots.get? index = some id

/-- `node'` is `node`, with a name filled in if it had none. -/
structure Node.Named (node node' : Node) : Prop where
  rest : node' = { node with name := node'.name }
  name : node.name ≠ "" → node'.name = node.name

theorem Node.Named.refl (node : Node) : node.Named node := ⟨rfl, fun _ => rfl⟩

theorem Node.Named.trans {a b c : Node} (first : a.Named b) (second : b.Named c) : a.Named c where
  rest := by
    have := second.rest
    rw [first.rest] at this
    exact this
  name := by
    intro named
    have same := first.name named
    rw [← same]
    exact second.name (by rwa [same])

namespace Assembler

/-- A node may have been given a new definition if it stands for a type info, and else at most a
name. -/
structure Kept (s : Assembler) (id : TypeId) (node node' : Node) : Prop where
  identity : node'.identity = node.identity
  used : node.retired = false → node'.retired = false
  retired : ∀ guid, node.identity = .guid guid → node'.retired = node.retired
  named : ¬ s.Slotted id → node.Named node'

/-- `t` comes later than `s` in the second pass. -/
structure Later (s t : Assembler) : Prop where
  library : t.library = s.library
  slots : ∀ index, t.slots.get? index = s.slots.get? index
  anonymous : ∀ {key id}, s.anonymous.get? key = some id → t.anonymous.get? key = some id
  guid : ∀ {guid id}, s.graph.findGuid? guid = some id → t.graph.findGuid? guid = some id
  interned : ∀ {structural id}, s.graph.byStructure.get? structural = some id →
    t.graph.byStructure.get? structural = some id
  nodes : ∀ {id node}, s.graph.node? id = some node →
    ∃ node', t.graph.node? id = some node' ∧ s.Kept id node node'

/-- Outside strict mode, with indexes and slots that point to fitting nodes. -/
structure Steady (s : Assembler) : Prop where
  lenient : s.strict = false
  guid : ∀ {guid id}, s.graph.findGuid? guid = some id →
    ∃ node, s.graph.node? id = some node ∧ node.identity = .guid guid
  anonymous : ∀ {key id}, s.anonymous.get? key = some id →
    ∃ node, s.graph.node? id = some node ∧ node.identity = .index id
  slotted : ∀ {id}, s.Slotted id → ∃ node, s.graph.node? id = some node ∧
    ∀ position, node.identity = .index position → node.retired = false

variable {s t u : Assembler} {id : TypeId}

theorem Kept.refl (id : TypeId) (node : Node) : s.Kept id node node :=
  ⟨rfl, fun used => used, fun _ _ => rfl, fun _ => .refl node⟩

theorem Later.refl (s : Assembler) : s.Later s where
  library := rfl
  slots _ := rfl
  anonymous known := known
  guid known := known
  interned known := known
  nodes found := ⟨_, found, .refl _ _⟩

/-- Slots do not change. -/
theorem Later.slotted_iff (h : s.Later t) : t.Slotted id ↔ s.Slotted id := by
  simp only [Slotted, h.slots]

theorem Later.trans (first : s.Later t) (second : t.Later u) : s.Later u where
  library := second.library.trans first.library
  slots index := (second.slots index).trans (first.slots index)
  anonymous known := second.anonymous (first.anonymous known)
  guid known := second.guid (first.guid known)
  interned known := second.interned (first.interned known)
  nodes {id node} found := by
    obtain ⟨node', found', kept'⟩ := first.nodes found
    obtain ⟨node'', found'', kept''⟩ := second.nodes found'
    refine ⟨node'', found'', ?_, fun used => kept''.used (kept'.used used), fun guid own => ?_,
      fun other => ?_⟩
    · rw [kept''.identity, kept'.identity]
    · rw [kept''.retired guid (kept'.identity.trans own), kept'.retired guid own]
    · exact (kept'.named other).trans (kept''.named fun slotted => other (first.slotted_iff.mp slotted))

end Assembler

/-! ### Two runs side by side -/

/-- The two nodes agree in what a build can see or leave alone. -/
structure Node.Agree (node node' : Node) : Prop where
  identity : node'.identity = node.identity
  name : node'.name = node.name
  external : node'.external = node.external
  retired : node'.retired = node.retired
  state : node'.state = node.state
  body : node'.body = node.body

/-- The state `s'` of a second run echoes the state `s` of the first run, which ended in `f`. -/
structure Echoes (f s s' : Assembler) : Prop where
  slots : s'.slots = s.slots
  library : s'.library = s.library
  strict : s'.strict = s.strict
  anonymous : s'.anonymous = f.anonymous
  byGuid : s'.graph.byGuid = f.graph.byGuid
  byStructure : s'.graph.byStructure = f.graph.byStructure
  size : s'.graph.size = f.graph.size
  /-- Nodes that do not stand for type infos are as they were in the end. -/
  others : ∀ {id}, ¬ s.Slotted id → s'.graph.node? id = f.graph.node? id
  agree : ∀ {id node}, s.Slotted id → s.graph.node? id = some node →
    ∃ node', s'.graph.node? id = some node' ∧ node.Agree node'
  marks : ∀ {id node'}, s'.graph.node? id = some node' →
    ∃ node, f.graph.node? id = some node ∧ node'.identity = node.identity ∧
      ∀ guid, node.identity = .guid guid → node'.retired = node.retired

/-- The result with another state. -/
def moved {ε σ α : Type} : EStateM.Result ε σ α → σ → EStateM.Result ε σ α
  | .ok value _, state => .ok value state
  | .error fault _, state => .error fault state

/-- Whether there is a value. -/
def succeeded {ε σ α : Type} : EStateM.Result ε σ α → Prop
  | .ok _ _ => True
  | .error _ _ => False

/-- The step can be replayed from states that echo `s`. Nodes of type infos that were the same stay so,
and those that are `gained` become so if the step succeeds. -/
structure Replays {α : Type} (gained : TypeId → Prop) (step : Assemble α) (s : Assembler) :
    Prop where
  later : s.Later (left (step s))
  steady : (left (step s)).Steady
  again : ∀ {f s'}, (left (step s)).Later f → Echoes f s s' →
    ∃ t', step s' = moved (step s) t' ∧ Echoes f (left (step s)) t' ∧
      ∀ id, s.Slotted id → gained id ∧ succeeded (step s) ∨ s'.graph.node? id = s.graph.node? id →
        t'.graph.node? id = (left (step s)).graph.node? id

/-- The step can be replayed. -/
abbrev Repeats {α : Type} (step : Assemble α) (s : Assembler) : Prop :=
  Replays (fun _ => False) step s

section Steps

variable {α β : Type} {s : Assembler} {gained gained' : TypeId → Prop}

theorem Replays.mono {step : Assemble α} (h : Replays gained step s)
    (fewer : ∀ id, gained' id → gained id) : Replays gained' step s := by
  refine ⟨h.later, h.steady, fun {f s'} later echoes => ?_⟩
  obtain ⟨t', run, echoes', same⟩ := h.again later echoes
  exact ⟨t', run, echoes', fun id slotted before =>
    same id slotted (before.imp_left fun gain => ⟨fewer id gain.1, gain.2⟩)⟩

/-- The state that a step with a value leaves. -/
theorem Replays.ended {step : Assemble α} {value : α} {t : Assembler} (h : Replays gained step s)
    (run : step s = .ok value t) : t.Steady ∧ s.Later t := by
  have later := h.later
  have steady := h.steady
  rw [run] at later steady
  exact ⟨steady, later⟩

/-- A step that changes nothing and gives the same result in both runs. -/
theorem Repeats.of_lift {step : Assemble α} (steady : s.Steady) (result : Except Fault α)
    (here : step s = Assemble.lift result s)
    (there : ∀ {f s'}, s.Later f → Echoes f s s' → step s' = Assemble.lift result s') :
    Repeats step s := by
  have stays : left (step s) = s := by
    rw [here]
    cases result <;> rfl
  refine ⟨by rw [stays]; exact .refl s, by rwa [stays], fun {f s'} later echoes => ?_⟩
  rw [stays] at later ⊢
  refine ⟨s', ?_, echoes, fun id _ same => same.resolve_left fun gain => gain.1⟩
  rw [there later echoes, here]
  cases result <;> rfl

theorem Repeats.lift (steady : s.Steady) (result : Except Fault α) :
    Repeats (Assemble.lift result) s :=
  .of_lift steady result rfl fun _ _ => rfl

theorem Repeats.pure (steady : s.Steady) (value : α) : Repeats (pure value) s :=
  .of_lift steady (.ok value) rfl fun _ _ => rfl

theorem Repeats.throw (steady : s.Steady) (fault : Fault) : Repeats (throw fault : Assemble α) s :=
  .of_lift steady (.error fault) rfl fun _ _ => rfl

/-- Two steps replay one after the other, each from the state that it met first. -/
theorem Replays.bind {step : Assemble α} {next : α → Assemble β} (first : Replays gained step s)
    (rest : ∀ value t, step s = .ok value t → t.Steady → s.Later t →
      Replays gained' (next value) t) :
    Replays (fun id => gained id ∨ gained' id) (step >>= next) s := by
  obtain ⟨later, steady, again⟩ := first
  cases run : step s with
  | error fault t =>
    have whole : (step >>= next) s = .error fault t := error_bind run next
    rw [run] at later steady again
    refine ⟨by rwa [whole], by rwa [whole], fun {f s'} after echoes => ?_⟩
    rw [whole] at after ⊢
    obtain ⟨t', run', echoes', same⟩ := again after echoes
    refine ⟨t', error_bind run' next, echoes', fun id slotted before => ?_⟩
    exact same id slotted (.inr (before.resolve_left fun gain => gain.2))
  | ok value t =>
    have whole : (step >>= next) s = next value t := ok_bind run next
    rw [run] at later steady again
    obtain ⟨later', steady', again'⟩ := rest value t run steady later
    refine ⟨by rw [whole]; exact later.trans later', by rwa [whole], fun {f s'} after echoes => ?_⟩
    rw [whole] at after ⊢
    obtain ⟨t', run', echoes', same⟩ := again (later'.trans after) echoes
    obtain ⟨u', run'', echoes'', same'⟩ := again' after echoes'
    refine ⟨u', (ok_bind run' next).trans run'', echoes'', fun id slotted before => ?_⟩
    have slotted' := later.slotted_iff.mpr slotted
    rcases before with ⟨first | second, ended⟩ | unchanged
    · exact same' id slotted' (.inr (same id slotted (.inl ⟨first, trivial⟩)))
    · exact same' id slotted' (.inl ⟨second, ended⟩)
    · exact same' id slotted' (.inr (same id slotted (.inr unchanged)))

theorem Repeats.bind {step : Assemble α} {next : α → Assemble β} (first : Repeats step s)
    (rest : ∀ value t, step s = .ok value t → t.Steady → s.Later t → Repeats (next value) t) :
    Repeats (step >>= next) s :=
  (Replays.bind first rest).mono fun _ gain => gain.elim

/-- The values of a list in turn. What each step needs must last. -/
theorem Repeats.mapM {γ : Type} {step : γ → Assemble α} {items : List γ} (steady : s.Steady)
    (each : ∀ item ∈ items, ∀ t, t.Steady → s.Later t → Repeats (step item) t) :
    Repeats (items.mapM step) s := by
  induction items generalizing s with
  | nil => exact .pure steady []
  | cons item rest ih =>
    rw [List.mapM_cons]
    refine .bind (each item List.mem_cons_self s steady (.refl s)) fun value t _ steady later => ?_
    refine .bind (ih steady fun other member u steady' later' => ?_) fun values u _ steady _ => ?_
    · exact each other (List.mem_cons_of_mem _ member) u steady' (later.trans later')
    · exact .pure steady _

theorem Repeats.foldlM {γ : Type} {step : α → γ → Assemble α} {items : List γ} {initial : α}
    (steady : s.Steady)
    (each : ∀ item ∈ items, ∀ value t, t.Steady → s.Later t → Repeats (step value item) t) :
    Repeats (items.foldlM step initial) s := by
  induction items generalizing s initial with
  | nil => exact .pure steady initial
  | cons item rest ih =>
    rw [List.foldlM_cons]
    refine .bind (each item List.mem_cons_self initial s steady (.refl s))
      fun value t _ steady later => ?_
    exact ih steady fun other member v u steady' later' =>
      each other (List.mem_cons_of_mem _ member) v u steady' (later.trans later')

/-- A failure as a value. -/
theorem Repeats.attempt {step : Assemble α} (h : Repeats step s) :
    Repeats (Assemble.attempt step) s := by
  have state : ∀ a, left (Assemble.attempt step a) = left (step a) := by
    intro a
    unfold Assemble.attempt
    cases step a <;> rfl
  refine ⟨by rw [state]; exact h.later, by rw [state]; exact h.steady, fun {f s'} later echoes => ?_⟩
  rw [state] at later ⊢
  obtain ⟨t', run, echoes', same⟩ := h.again later echoes
  refine ⟨t', ?_, echoes', fun id slotted before => ?_⟩
  · unfold Assemble.attempt
    rw [run]
    cases step s <;> rfl
  · exact same id slotted (.inr (before.resolve_left fun gain => gain.1))

end Steps

/-! ### Appending a node -/

section Graphs

variable {α : Type} {s : Assembler} {id : TypeId}

theorem Assembler.Later.of_appends {node : Node} {g : Graph} (h : s.graph.Appends node g)
    (guid : ∀ guid, node.identity = .guid guid → s.graph.findGuid? guid = none)
    (structural : ∀ structural, node.external = false → node.body = .structural structural →
      s.graph.byStructure.get? structural = none) :
    s.Later { s with graph := g } where
  library := rfl
  slots _ := rfl
  anonymous known := known
  guid {g' id} known := by
    rw [h.guid_eq, if_neg]
    · exact known
    · intro own
      rw [guid g' own] at known
      cases known
  interned {structure' id} known := by
    rw [h.structure_eq, if_neg]
    · exact known
    · rintro ⟨internal, own⟩
      rw [structural structure' internal own] at known
      cases known
  nodes {id node'} found := by
    refine ⟨node', ?_, .refl _ _⟩
    rw [h.node_eq, if_neg (Nat.ne_of_lt (Graph.lt_size_of_node? found))]
    exact found

theorem Assembler.Steady.of_appends (steady : s.Steady) {node : Node} {g : Graph}
    (h : s.graph.Appends node g) : Assembler.Steady { s with graph := g } := by
  have old : ∀ {j node'}, s.graph.node? j = some node' → g.node? j = some node' := by
    intro j node' found
    rw [h.node_eq, if_neg (Nat.ne_of_lt (Graph.lt_size_of_node? found))]
    exact found
  refine ⟨steady.lenient, fun {guid id} known => ?_, fun {key id} known => ?_, fun {id} slotted => ?_⟩
  · rw [h.guid_eq] at known
    split at known
    next own =>
      cases known
      exact ⟨node, Graph.WellFormed.appended h, own⟩
    next =>
      obtain ⟨node', found, identity⟩ := steady.guid known
      exact ⟨node', old found, identity⟩
  · obtain ⟨node', found, identity⟩ := steady.anonymous known
    exact ⟨node', old found, identity⟩
  · obtain ⟨node', found, used⟩ := steady.slotted slotted
    exact ⟨node', old found, used⟩

/-- A step that appends a node in the first run, and finds it in the second. -/
theorem Repeats.of_appends {step : Assemble α} {value : α} {node : Node} {g : Graph}
    (steady : s.Steady) (h : s.graph.Appends node g)
    (guid : ∀ guid, node.identity = .guid guid → s.graph.findGuid? guid = none)
    (structural : ∀ structural, node.external = false → node.body = .structural structural →
      s.graph.byStructure.get? structural = none)
    (here : step s = .ok value { s with graph := g })
    (there : ∀ {f s'}, Assembler.Later { s with graph := g } f → Echoes f s s' →
      step s' = .ok value s') : Repeats step s := by
  refine ⟨?_, ?_, fun {f s'} later echoes => ?_⟩
  · rw [here]
    exact .of_appends h guid structural
  · rw [here]
    exact steady.of_appends h
  rw [here] at later ⊢
  refine ⟨s', there later echoes, ?_, fun id slotted before => ?_⟩
  · refine { echoes with agree := fun {id node'} slotted found => ?_ }
    obtain ⟨old, found_old, _⟩ := steady.slotted slotted
    have same : g.node? id = some old := by
      rw [h.node_eq, if_neg (Nat.ne_of_lt (Graph.lt_size_of_node? found_old))]
      exact found_old
    cases same.symm.trans found
    exact echoes.agree slotted found_old
  · obtain ⟨old, found_old, _⟩ := steady.slotted slotted
    rw [before.resolve_left fun gain => gain.1]
    show _ = g.node? id
    rw [h.node_eq, if_neg (Nat.ne_of_lt (Graph.lt_size_of_node? found_old))]

/-- Interning is repeated: the second time the structure is known. -/
theorem Repeats.intern (steady : s.Steady) (structural : Structural) :
    Repeats (Assemble.onGraph (·.intern structural)) s := by
  have known_step : ∀ {a : Assembler} {id}, a.graph.byStructure.get? structural = some id →
      Assemble.onGraph (·.intern structural) a = .ok id a := by
    intro a id known
    simp only [Assemble.onGraph, Graph.intern_of_found known]
  cases known : s.graph.byStructure.get? structural with
  | some id =>
    refine .of_lift steady (.ok id) (known_step known) fun {f s'} later echoes => known_step ?_
    rw [echoes.byStructure]
    exact later.interned known
  | none =>
    have h := Graph.appends_intern known
    have run : Assemble.onGraph (·.intern structural) s =
        .ok s.graph.size { s with graph := (s.graph.intern structural).2 } := by
      rw [← Graph.intern_fst_of_new known]
      rfl
    refine .of_appends steady h ?_ ?_ run fun {f s'} later echoes => ?_
    · intro guid own
      cases own
    · rintro structure' _ ⟨⟩
      exact known
    · refine known_step ?_
      rw [echoes.byStructure]
      refine later.interned ?_
      show (s.graph.intern structural).2.byStructure.get? structural = _
      rw [h.structure_eq, if_pos ⟨rfl, rfl⟩]

/-! ### Changing the node of a type info -/

/-- A change that the nodes of type infos can take: identities stay, nothing goes out of use, and
nodes that agree still do so. -/
structure Tame (s : Assembler) (id : TypeId) (change : Node → Node) : Prop where
  identity : ∀ node, (change node).identity = node.identity
  agree : ∀ {node node'}, node.Agree node' → (change node).Agree (change node')
  used : ∀ {node}, s.graph.node? id = some node → node.retired = false →
    (change node).retired = false
  retired : ∀ {node guid}, s.graph.node? id = some node → node.identity = .guid guid →
    (change node).retired = node.retired

/-- A tame change of a slotted node leads to a later state. -/
theorem Tame.later {change : Node → Node} (tame : Tame s id change) (slotted : s.Slotted id)
    (changed : List Guid) :
    s.Later { s with graph := s.graph.modify id change, changed } where
  library := rfl
  slots _ := rfl
  anonymous known := known
  guid known := known
  interned known := known
  nodes {j node} found := by
    by_cases same : id = j
    · subst same
      refine ⟨change node, Graph.node?_modify_self change found, tame.identity node,
        tame.used found, fun guid => tame.retired found, fun other => absurd slotted other⟩
    · exact ⟨node, (Graph.node?_modify_of_ne change same).trans found, .refl _ _⟩

theorem Tame.steady {change : Node → Node} (tame : Tame s id change) (steady : s.Steady)
    (changed : List Guid) :
    Assembler.Steady { s with graph := s.graph.modify id change, changed } := by
  have kept : ∀ {j node}, s.graph.node? j = some node →
      ∃ node', (s.graph.modify id change).node? j = some node' ∧
        node'.identity = node.identity ∧ (node.retired = false → node'.retired = false) := by
    intro j node found
    by_cases same : id = j
    · subst same
      exact ⟨change node, Graph.node?_modify_self change found, tame.identity node, tame.used found⟩
    · exact ⟨node, (Graph.node?_modify_of_ne change same).trans found, rfl, fun used => used⟩
  refine ⟨steady.lenient, fun {guid j} known => ?_, fun {key j} known => ?_, fun {j} slotted => ?_⟩
  · obtain ⟨node, found, identity⟩ := steady.guid known
    obtain ⟨node', found', same, _⟩ := kept found
    exact ⟨node', found', same.trans identity⟩
  · obtain ⟨node, found, identity⟩ := steady.anonymous known
    obtain ⟨node', found', same, _⟩ := kept found
    exact ⟨node', found', same.trans identity⟩
  · obtain ⟨node, found, used⟩ := steady.slotted slotted
    obtain ⟨node', found', same, stays⟩ := kept found
    exact ⟨node', found', fun position index => stays (used position (same.symm.trans index))⟩

theorem Tame.echoes {f s' : Assembler} {change : Node → Node} (tame : Tame s id change)
    (steady : s.Steady) (slotted : s.Slotted id) (echoes : Echoes f s s')
    (changed changed' : List Guid) :
    Echoes f { s with graph := s.graph.modify id change, changed }
      { s' with graph := s'.graph.modify id change, changed := changed' } := by
  obtain ⟨own, found_own, _⟩ := steady.slotted slotted
  obtain ⟨own', found_own', agree_own⟩ := echoes.agree slotted found_own
  refine
    { echoes with
      size := by simpa using echoes.size
      others := fun {j} other => ?_
      agree := fun {j node} among found => ?_
      marks := fun {j node'} found' => ?_ }
  · have apart : id ≠ j := by
      rintro rfl
      exact other slotted
    rw [Graph.node?_modify_of_ne change apart]
    exact echoes.others other
  · rcases Graph.of_node?_modify found with ⟨apart, old⟩ | ⟨rfl, old, found_old, rfl⟩
    · obtain ⟨node', found', agree⟩ := echoes.agree among old
      exact ⟨node', (Graph.node?_modify_of_ne change apart).trans found', agree⟩
    · cases found_own.symm.trans found_old
      exact ⟨change own', Graph.node?_modify_self change found_own', tame.agree agree_own⟩
  · rcases Graph.of_node?_modify found' with ⟨_, old⟩ | ⟨rfl, old, found_old, rfl⟩
    · exact echoes.marks old
    · cases found_own'.symm.trans found_old
      obtain ⟨final, found_final, identity, retired⟩ := echoes.marks found_own'
      refine ⟨final, found_final, (tame.identity own').trans identity, fun guid own_guid => ?_⟩
      have guid_own : own.identity = .guid guid := by
        rw [← agree_own.identity, identity, own_guid]
      rw [(tame.agree agree_own).retired, tame.retired found_own guid_own, ← agree_own.retired]
      exact retired guid own_guid

/-- Both runs change the node of a type info in the same way. -/
theorem Replays.of_change {step : Assemble α} {value : α} {change : Node → Node}
    {gained : TypeId → Prop} {changed : List Guid} (steady : s.Steady) (slotted : s.Slotted id)
    (tame : Tame s id change)
    (gain : ∀ j, gained j → j = id ∧ ∀ {node node' : Node}, node.Agree node' →
      change node' = change node)
    (here : step s = .ok value { s with graph := s.graph.modify id change, changed })
    (there : ∀ {f s'}, s.Later f → Echoes f s s' → ∃ changed',
      step s' = .ok value { s' with graph := s'.graph.modify id change, changed := changed' }) :
    Replays gained step s := by
  refine ⟨?_, ?_, fun {f s'} later echoes => ?_⟩
  · rw [here]
    exact tame.later slotted changed
  · rw [here]
    exact tame.steady steady changed
  rw [here] at later ⊢
  obtain ⟨changed', run⟩ := there ((tame.later slotted changed).trans later) echoes
  refine ⟨_, run, tame.echoes steady slotted echoes changed changed', fun j among before => ?_⟩
  show (s'.graph.modify id change).node? j = (s.graph.modify id change).node? j
  rcases before with ⟨gains, _⟩ | same
  · obtain ⟨rfl, equal⟩ := gain j gains
    obtain ⟨node, found, _⟩ := steady.slotted slotted
    obtain ⟨node', found', agree⟩ := echoes.agree slotted found
    rw [Graph.node?_modify_self change found, Graph.node?_modify_self change found', equal agree]
  · rw [Graph.node?_modify, Graph.node?_modify, same]

end Graphs

end ComTypes

import ComTypes.Proofs.Assembly.AddAgain
import ComTypes.Proofs.Assembly.Resolving

/-!
# Strict and lenient runs

The mode of an assembler is looked at in two places only: where a type info without usable attributes is
passed over, and where a type has been built and has issues. Everything else is `Indifferent`. So a
strict run does what a lenient one does, up to the first of these places where it fails
(`strict_and_lenient_agree`).
-/

namespace ComTypes

open Assembler Assemble

variable {α : Type} {s t u a b : Assembler} {id : TypeId}

/-! ### Steps that do not look at the mode -/

theorem Indifferent.declare (guid : Guid) (name : String) (body : Body) :
    Indifferent (declare guid name body) := by
  refine .get (fun _ _ => rfl) fun a => ?_
  cases a.graph.findGuid? guid with
  | none => exact .onGraph _
  | some id =>
    dsimp only
    split
    · exact .bind (.modify fun _ _ => rfl) fun _ => .bind (.modifyNode _ _) fun _ => .pure id
    · exact .bind (.modifyNode _ _) fun _ => .pure id

theorem Indifferent.declareTypeInfo (guid : Guid) (index : Nat) (name : String) (body : Body) :
    Indifferent (declareTypeInfo guid index name body) := by
  cases zero : guid.isZero with
  | false =>
    rw [declareTypeInfo_of_nonzero zero]
    exact .declare guid name body
  | true =>
    simp only [Assemble.declareTypeInfo, zero, Bool.not_true, Bool.false_eq_true, if_false]
    refine .get (fun _ _ => rfl) fun a => ?_
    cases a.anonymous.get? (a.library, index) with
    | some id => exact .bind (.modifyNode _ _) fun _ => .pure id
    | none =>
      exact .bind (.onGraph _) fun id => .bind (.modify fun _ _ => rfl) fun _ => .pure id

theorem Indifferent.place (guid : Guid) (index : Nat) (name : String) (body : Body) :
    Indifferent (place guid index name body) :=
  .bind (.declareTypeInfo guid index name body) fun id =>
    .bind (.modify fun _ _ => rfl) fun _ => .pure id

theorem Indifferent.slot (info : TypeInfo) (index : Nat) (attr : TypeAttr) (definition : Definition) :
    Indifferent (slot info index attr definition) := by
  refine .get (fun _ _ => rfl) fun a => ?_
  dsimp only
  split
  · exact .pure _
  · exact .place attr.guid index info.name definition.blank

theorem Indifferent.filled (info : TypeInfo) (index : Nat) (attr : TypeAttr) (definition : Definition)
    (names : NameLookup) : Indifferent (filled info index attr definition names) :=
  .bind (.slot info index attr definition) fun _ =>
    .bind (Resolving.body info names attr definition).indifferent fun _ =>
      .bind (.modifyNode _ _) fun _ => .pure _

theorem Indifferent.drawn (image : ProxyImage) (iid : Guid) (name : Option String)
    (names : NameLookup) : Indifferent (drawn image iid name names) := by
  refine .get (fun _ _ => rfl) fun a => .bind (.declare _ _ _) fun id => .bind ?_ fun base =>
    .bind (fun _ _ => rfl) fun result => .bind (.modifyNode _ _) fun _ => .pure _
  unfold imageBase
  split
  · exact .pure none
  · exact fun _ _ => rfl

/-- A step that does not look at the mode does not change it. -/
theorem Indifferent.strict_eq {step : Assemble α} (h : Indifferent step) (a : Assembler) :
    (left (step a)).strict = a.strict := by
  have here := h a a.strict
  rw [inMode_self rfl] at here
  have same := congrArg (fun result => (left result).strict) here
  cases run : step a <;> simpa [run, moved, left] using same

theorem Indifferent.mapM {γ : Type} {step : γ → Assemble α} {items : List γ}
    (each : ∀ item ∈ items, Indifferent (step item)) : Indifferent (items.mapM step) := by
  induction items with
  | nil => exact .pure []
  | cons item rest ih =>
    rw [List.mapM_cons]
    refine .bind (each item List.mem_cons_self) fun value => .bind (ih ?_) fun values => .pure _
    exact fun other member => each other (List.mem_cons_of_mem _ member)

/-! ### Reporting issues -/

/-- The first issue that is recorded at a node. -/
def Assembler.firstIssue? (a : Assembler) (id : TypeId) : Option Issue :=
  (a.graph.node? id).bind fun node => node.state.issues.head?

/-- The result in strict mode of a build that led to a node: its first issue is a failure. -/
def reported (id : TypeId) (a : Assembler) : EStateM.Result Fault Assembler TypeId :=
  match a.firstIssue? id with
  | none => .ok id (a.inMode true)
  | some issue => .error issue.fault (a.inMode true)

/-- The assembler after a build that ended with issues. -/
def Assembler.settled (a : Assembler) (id : TypeId) (issues : List Issue) : Assembler :=
  { a with graph := a.graph.modify id fun node => { node with state := .ofIssues issues } }

theorem issues_ofIssues (issues : List Issue) : (BuildState.ofIssues issues).issues = issues := by
  cases issues <;> rfl

/-- A node that has been built is no longer pending, and complete if there was no issue. -/
def Assembler.Ended (a : Assembler) (id : TypeId) : Prop :=
  ∃ node, a.graph.node? id = some node ∧ node.state ≠ .pending ∧
    (node.state = .complete ↔ a.firstIssue? id = none)

section Settling

variable {issues : List Issue}

theorem node?_settled {node : Node} (found : a.graph.node? id = some node) :
    (a.settled id issues).graph.node? id = some { node with state := .ofIssues issues } :=
  Graph.node?_modify_self _ found

theorem firstIssue?_settled {node : Node} (found : a.graph.node? id = some node) :
    (a.settled id issues).firstIssue? id = issues.head? := by
  unfold firstIssue?
  rw [node?_settled found]
  simp only [Option.bind_some, issues_ofIssues]

theorem ended_settled {node : Node} (found : a.graph.node? id = some node) :
    (a.settled id issues).Ended id := by
  refine ⟨_, node?_settled found, ?_, ?_⟩
  · cases issues <;> simp [BuildState.ofIssues]
  · rw [firstIssue?_settled found]
    cases issues <;> simp [BuildState.ofIssues]

/-- The end of a build is recorded in the same way whether it is reported as a success or as a failure. -/
theorem settling_cases {work : Assemble (TypeId × List Issue)} {c : Assembler}
    (run : work a = .ok (id, issues) c) :
    settling work a = .ok id (c.settled id issues) ∨
      ∃ fault, settling work a = .error fault (c.settled id issues) := by
  unfold settling
  rw [ok_bind run]
  rcases settle_cases id issues c with settled | ⟨first, _, _, settled⟩
  · exact .inl (ok_bind settled _)
  · exact .inr ⟨first.fault, error_bind settled _⟩

/-- A build that succeeded outside strict mode leaves the same in strict mode, and fails if there was
an issue. -/
theorem settling_modes {work : Assemble (TypeId × List Issue)} (indifferent : Indifferent work)
    {c : Assembler} {node : Node} (lenient : a.strict = false) (run : work a = .ok (id, issues) c)
    (kept : c.strict = a.strict) (found : c.graph.node? id = some node) :
    settling work a = .ok id (c.settled id issues) ∧
      settling work (a.inMode true) = reported id (c.settled id issues) := by
  have strict_run : work (a.inMode true) = .ok (id, issues) (c.inMode true) := by
    rw [indifferent a true, run]
    rfl
  constructor
  · unfold settling
    rw [ok_bind run]
    exact ok_bind (settle_lenient (kept.trans lenient) issues) _
  · unfold settling reported
    rw [ok_bind strict_run, firstIssue?_settled found]
    cases issues with
    | nil => rfl
    | cons first rest => rfl

end Settling

/-! ### Building one type info -/

/-- One node was built again, others kept their states, and all can be found as before. -/
structure Assembler.Rebuilt (id : TypeId) (s t : Assembler) : Prop where
  library : t.library = s.library
  slots : ∀ index, t.slots.get? index = s.slots.get? index
  anonymous : t.anonymous = s.anonymous
  guid : ∀ {guid j}, s.graph.findGuid? guid = some j → t.graph.findGuid? guid = some j
  nodes : ∀ {j node}, s.graph.node? j = some node →
    ∃ node', t.graph.node? j = some node' ∧ (j ≠ id → node'.state = node.state)

theorem Assembler.Rebuilt.trans (first : s.Rebuilt id t) (second : t.Rebuilt id u) :
    s.Rebuilt id u where
  library := second.library.trans first.library
  slots index := (second.slots index).trans (first.slots index)
  anonymous := second.anonymous.trans first.anonymous
  guid known := second.guid (first.guid known)
  nodes found := by
    obtain ⟨node', found', same'⟩ := first.nodes found
    obtain ⟨node'', found'', same''⟩ := second.nodes found'
    exact ⟨node'', found'', fun other => (same'' other).trans (same' other)⟩

theorem Assembler.Resolved.rebuilt (resolved : s.Resolved t) (id : TypeId) : s.Rebuilt id t where
  library := by rw [resolved.rest]
  slots index := by rw [resolved.rest]
  anonymous := by rw [resolved.rest]
  guid := resolved.guid
  nodes found := by
    obtain ⟨node', found', alike⟩ := resolved.alike found
    exact ⟨node', found', fun _ => alike.state⟩

/-- A node was changed, and written down where it stood before. -/
theorem Assembler.Rebuilt.of_modify {slots : Table Nat TypeId}
    (same : ∀ index, slots.get? index = s.slots.get? index) (change : Node → Node)
    (changed : List Guid) :
    s.Rebuilt id { s with graph := s.graph.modify id change, slots, changed } where
  library := rfl
  slots := same
  anonymous := rfl
  guid known := known
  nodes {j node} found := by
    by_cases here : id = j
    · subst here
      exact ⟨change node, Graph.node?_modify_self change found, fun other => absurd rfl other⟩
    · exact ⟨node, (Graph.node?_modify_of_ne change here).trans found, fun _ => rfl⟩

theorem Placed.rebuilt {guid : Guid} {index : Nat} {j : TypeId} (placed : Placed guid index j s)
    (rebuilt : s.Rebuilt id t) : Placed guid index j t where
  slot := (rebuilt.slots index).trans placed.slot
  indexed nonzero := rebuilt.guid (placed.indexed nonzero)
  anonymous zero := by
    rw [rebuilt.library, rebuilt.anonymous]
    exact placed.anonymous zero

theorem slot_rebuilt (info : TypeInfo) {index : Nat} {attr : TypeAttr} (definition : Definition)
    {node : Node} (placed : Placed attr.guid index id s) (found : s.graph.node? id = some node) :
    ∃ t, slot info index attr definition s = .ok id t ∧ s.Rebuilt id t := by
  have slots : ∀ j, (s.slots.insert index id).get? j = s.slots.get? j := by
    intro j
    rw [Table.get?_insert]
    split
    next same => rw [same, placed.slot]
    next => rfl
  rw [slot_eq placed.slot found]
  split
  · exact ⟨s, rfl, (Resolved.refl s).rebuilt id⟩
  · obtain ⟨changed, run⟩ := place_known placed.toKnown info.name definition.blank
    exact ⟨_, run, .of_modify slots _ changed⟩

theorem filled_eq {info : TypeInfo} {index : Nat} {attr : TypeAttr} {definition : Definition}
    {names : NameLookup} {body : Body} {issues : List Issue}
    (placed : slot info index attr definition s = .ok id t)
    (built : Assemble.body info names attr definition t = .ok (body, issues) u) :
    filled info index attr definition names s =
      .ok (id, issues) { u with graph := u.graph.modify id (described info attr body) } := by
  unfold filled modifyNode
  rw [ok_bind placed, ok_bind built]
  rfl

theorem filled_rebuilt (info : TypeInfo) {index : Nat} {attr : TypeAttr} (definition : Definition)
    (names : NameLookup) {node : Node} (placed : Placed attr.guid index id s)
    (found : s.graph.node? id = some node) :
    ∃ issues t, filled info index attr definition names s = .ok (id, issues) t ∧ s.Rebuilt id t := by
  obtain ⟨t, declared, first⟩ := slot_rebuilt info definition placed found
  obtain ⟨result, u, built⟩ := Succeeds.body info names attr definition t
  have second := (Resolving.body info names attr definition).resolved t
  rw [built] at second
  exact ⟨result.2, _, filled_eq declared built,
    (first.trans (second.rebuilt id)).trans (.of_modify (fun _ => rfl) _ u.changed)⟩

/-- What building a type info that has its node does, in both modes. -/
structure BuiltInto (info : TypeInfo) (index : Nat) (names : NameLookup) (s : Assembler) (id : TypeId)
    (t : Assembler) : Prop where
  lenient : addTypeInfo info index names s = .ok id t
  strict : addTypeInfo info index names (s.inMode true) = reported id t
  mode : t.strict = s.strict
  rebuilt : s.Rebuilt id t
  ended : t.Ended id

/-- A type info that has been placed is built into its node. -/
theorem exists_builtInto {info : TypeInfo} {header : TypeAttr × Definition} {index : Nat}
    (names : NameLookup) {node : Node} (lenient : s.strict = false) (usable : info.header = .ok header)
    (placed : Placed header.1.guid index id s) (found : s.graph.node? id = some node) :
    ∃ t, BuiltInto info index names s id t := by
  obtain ⟨issues, t, run, rebuilt⟩ := filled_rebuilt info header.2 names placed found
  obtain ⟨node', found', _⟩ := rebuilt.nodes found
  have indifferent := Indifferent.filled info index header.1 header.2 names
  have mode : t.strict = s.strict := by
    have same := indifferent.strict_eq s
    rwa [run] at same
  obtain ⟨here, there⟩ := settling_modes indifferent lenient run mode found'
  have step : addTypeInfo info index names =
      settling (filled info index header.1 header.2 names) := by
    rw [← build_eq_settling]
    unfold addTypeInfo
    rw [usable]
    rfl
  refine ⟨t.settled id issues, by rw [step, here], by rw [step, there], mode, ?_,
    ended_settled found'⟩
  exact rebuilt.trans (.of_modify (fun _ => rfl) _ t.changed)

/-! ### The second pass -/

/-- Successful calls of `addTypeInfo` for type infos at their positions, one after the other: the nodes
they return and the states they leave. -/
inductive Calls : List (TypeInfo × Nat) → Assembler → List (TypeId × Assembler) → Assembler → Prop
  | done (s : Assembler) : Calls [] s [] s
  | next {info : TypeInfo} {index : Nat} {rest : List (TypeInfo × Nat)} {s t u : Assembler}
      {id : TypeId} {calls : List (TypeId × Assembler)} :
      addTypeInfo info index info.lookup s = .ok id t → Calls rest t calls u →
      Calls ((info, index) :: rest) s ((id, t) :: calls) u

/-- The first issue of the first call that left one. -/
def reportedIssue? (calls : List (TypeId × Assembler)) : Option Issue :=
  calls.findSome? fun call => call.2.firstIssue? call.1

/-- The node has been built. -/
def Assembler.Settled (a : Assembler) (id : TypeId) : Prop :=
  ∃ node, a.graph.node? id = some node ∧ node.state ≠ .pending

/-- Building one node leaves others settled. -/
theorem BuiltInto.settled {info : TypeInfo} {index : Nat} {names : NameLookup} {j : TypeId}
    (built : BuiltInto info index names s id t) (before : s.Settled j) : t.Settled j := by
  by_cases same : j = id
  · obtain ⟨node, found, settled, _⟩ := built.ended
    exact ⟨node, same ▸ found, settled⟩
  · obtain ⟨node, found, settled⟩ := before
    obtain ⟨node', found', kept⟩ := built.rebuilt.nodes found
    exact ⟨node', found', by rwa [kept same]⟩

/-- The type info of an entry has its node. -/
def Seated (entry : Enlisted) (s : Assembler) : Prop :=
  entry.1.header = .ok entry.2.2 ∧
    ∃ id node, Placed entry.2.2.1.guid entry.2.1 id s ∧ s.graph.node? id = some node

theorem Seated.rebuilt {entry : Enlisted} (seated : Seated entry s) (rebuilt : s.Rebuilt id t) :
    Seated entry t := by
  obtain ⟨usable, j, node, placed, found⟩ := seated
  obtain ⟨node', found', _⟩ := rebuilt.nodes found
  exact ⟨usable, j, node', placed.rebuilt rebuilt, found'⟩

/-- What the second pass does, in both modes. -/
structure BuildsAll (entries : List Enlisted) (s : Assembler) (calls : List (TypeId × Assembler))
    (t : Assembler) : Prop where
  made : Calls (entries.map fun entry => (entry.1, entry.2.1)) s calls t
  lenient : buildAll entries s = .ok (calls.map Prod.fst) t
  strict : reportedIssue? calls = none →
    buildAll entries (s.inMode true) = .ok (calls.map Prod.fst) (t.inMode true)
  failed : ∀ issue, reportedIssue? calls = some issue →
    ∃ u, buildAll entries (s.inMode true) = .error issue.fault u
  placed : ∀ {guid index id}, Placed guid index id s → Placed guid index id t
  seats : List.Forall₂ (fun entry call => entry.1.header = .ok entry.2.2 ∧
    Placed entry.2.2.1.guid entry.2.1 call.1 t) entries calls
  kept : ∀ {id}, s.Settled id → t.Settled id
  settled : ∀ call ∈ calls, t.Settled call.1
  ended : ∀ call ∈ calls, call.2.Ended call.1

theorem BuildsAll.nil (s : Assembler) : BuildsAll [] s [] s where
  made := .done s
  lenient := rfl
  strict _ := rfl
  failed _ none := nomatch none
  placed placed := placed
  seats := .nil
  kept before := before
  settled _ member := nomatch member
  ended _ member := nomatch member

/-- Outside strict mode all enlisted type infos are built. -/
theorem exists_buildsAll {entries : List Enlisted} (lenient : s.strict = false)
    (seated : ∀ entry ∈ entries, Seated entry s) : ∃ calls t, BuildsAll entries s calls t := by
  induction entries generalizing s with
  | nil => exact ⟨[], s, .nil s⟩
  | cons entry rest ih =>
    obtain ⟨usable, id, node, placed, found⟩ := seated entry List.mem_cons_self
    obtain ⟨t, built⟩ := exists_builtInto entry.1.lookup lenient usable placed found
    have step : build entry.1 entry.2.1 entry.2.2.1 entry.2.2.2 entry.1.lookup =
        addTypeInfo entry.1 entry.2.1 entry.1.lookup := by
      unfold addTypeInfo
      rw [usable]
      rfl
    have whole : ∀ a, buildAll (entry :: rest) a =
        (addTypeInfo entry.1 entry.2.1 entry.1.lookup >>= fun id =>
          buildAll rest >>= fun ids => pure (id :: ids)) a := by
      intro a
      unfold buildAll
      rw [List.mapM_cons, ← step]
    obtain ⟨calls, u, others⟩ := ih (built.mode.trans lenient) fun other member =>
      (seated other (List.mem_cons_of_mem _ member)).rebuilt built.rebuilt
    have here := built.strict
    unfold reported at here
    refine ⟨(id, t) :: calls, u, .next built.lenient others.made, ?_, fun none => ?_,
      fun issue first => ?_, fun placed => others.placed (placed.rebuilt built.rebuilt),
      .cons ⟨usable, others.placed (placed.rebuilt built.rebuilt)⟩ others.seats,
      fun before => others.kept (built.settled before), fun call member => ?_, fun call member => ?_⟩
    · rw [whole, ok_bind built.lenient]
      exact ok_bind others.lenient _
    · simp only [reportedIssue?, List.findSome?_cons] at none
      split at none
      · cases none
      next clean =>
        rw [clean] at here
        rw [whole, ok_bind here]
        exact ok_bind (others.strict none) _
    · simp only [reportedIssue?, List.findSome?_cons] at first
      split at first
      next found =>
        cases first
        rw [found] at here
        exact ⟨_, (whole _).trans (error_bind here _)⟩
      next clean =>
        rw [clean] at here
        obtain ⟨v, failed⟩ := others.failed issue first
        rw [whole, ok_bind here]
        exact ⟨v, error_bind failed _⟩
    · rcases List.mem_cons.mp member with rfl | later
      · obtain ⟨node, found, settled, _⟩ := built.ended
        exact others.kept ⟨node, found, settled⟩
      · exact others.settled call later
    · rcases List.mem_cons.mp member with rfl | later
      · exact built.ended
      · exact others.ended call later

/-! ### The first pass -/

/-- The fault for which a type info is passed over or fails. -/
def TypeInfo.attributeFault? (info : TypeInfo) : Option Fault :=
  match info.header with
  | .ok _ => none
  | .error fault => some fault

/-- A type info with usable attributes is enlisted with them. -/
def enlisted? (entry : TypeInfo × Nat) : Option Enlisted :=
  match entry.1.header with
  | .ok header => some (entry.1, entry.2, header)
  | .error _ => none

theorem enlist_eq {info : TypeInfo} {header : TypeAttr × Definition} (index : Nat)
    (usable : info.header = .ok header) :
    enlist info index = (place header.1.guid index info.name header.2.blank >>= fun _ =>
      pure (some (info, index, header))) := by
  unfold enlist place
  rw [usable]
  simp only [bind_assoc, pure_bind]

theorem Succeeds.declare (guid : Guid) (name : String) (body : Body) :
    Succeeds (declare guid name body) := by
  intro s
  cases known : s.graph.findGuid? guid with
  | some id =>
    obtain ⟨changed, run⟩ := declare_of_known name body known
    exact ⟨id, _, run⟩
  | none => exact ⟨_, _, declare_of_unknown name body known⟩

theorem Succeeds.place (guid : Guid) (index : Nat) (name : String) (body : Body) :
    Succeeds (place guid index name body) := by
  have declared : Succeeds (declareTypeInfo guid index name body) := by
    intro s
    cases zero : guid.isZero with
    | false =>
      rw [declareTypeInfo_of_nonzero zero]
      exact Succeeds.declare guid name body s
    | true =>
      cases known : s.anonymous.get? (s.library, index) with
      | some id => exact ⟨id, _, declareTypeInfo_of_known name body zero known⟩
      | none => exact ⟨_, _, declareTypeInfo_of_unknown name body zero known⟩
  exact .bind declared fun id s => ⟨id, _, rfl⟩

/-- In strict mode, enlisting ends with the first fault. -/
theorem enlistAll_error {infos : List TypeInfo} {fault : Fault} (first : Nat)
    (strict : s.strict = true) (skips : infos.findSome? TypeInfo.attributeFault? = some fault) :
    ∃ t, enlistAll infos first s = .error fault t := by
  induction infos generalizing s first with
  | nil => cases skips
  | cons info rest ih =>
    have whole : enlistAll (info :: rest) first s = (enlist info first >>= fun outcome =>
        enlistAll rest (first + 1) >>= fun outcomes => pure (outcome :: outcomes)) s := by
      unfold enlistAll
      rw [List.zipIdx_cons, List.mapM_cons]
    rw [whole]
    rw [List.findSome?_cons] at skips
    cases header : info.header with
    | error other =>
      simp only [TypeInfo.attributeFault?, header, Option.some.injEq] at skips
      subst skips
      refine ⟨s, error_bind ?_ _⟩
      unfold enlist
      rw [header]
      dsimp only
      rw [get_bind, strict]
      rfl
    | ok found =>
      simp only [TypeInfo.attributeFault?, header] at skips
      obtain ⟨id, t, run⟩ := Succeeds.place found.1.guid first info.name found.2.blank s
      have mode : t.strict = s.strict := by
        have same := (Indifferent.place found.1.guid first info.name found.2.blank).strict_eq s
        rwa [run] at same
      obtain ⟨u, failed⟩ := ih (first + 1) (mode.trans strict) skips
      have enlisted : enlist info first s = .ok (some (info, first, found)) t := by
        rw [enlist_eq first header]
        exact ok_bind run _
      rw [ok_bind enlisted]
      exact ⟨u, error_bind failed _⟩

theorem Indifferent.enlistAll {infos : List TypeInfo} (first : Nat)
    (usable : ∀ info ∈ infos, info.attributeFault? = none) : Indifferent (enlistAll infos first) := by
  refine .mapM fun entry member => ?_
  have among : entry.1 ∈ infos := List.fst_mem_of_mem_zipIdx member
  have fine := usable entry.1 among
  cases header : entry.1.header with
  | error fault => simp [TypeInfo.attributeFault?, header] at fine
  | ok found =>
    show Indifferent (enlist entry.1 entry.2)
    rw [enlist_eq entry.2 header]
    exact .bind (.place _ _ _ _) fun _ => .pure _

/-- Which type infos are enlisted does not depend on the state. -/
theorem enlistAll_outcomes {infos : List TypeInfo} {first : Nat} {outcomes : List (Option Enlisted)}
    (run : enlistAll infos first s = .ok outcomes t) :
    outcomes = (infos.zipIdx first).map enlisted? := by
  induction infos generalizing s first outcomes with
  | nil =>
    cases run
    rfl
  | cons info rest ih =>
    unfold enlistAll at run
    rw [List.zipIdx_cons, List.mapM_cons] at run
    obtain ⟨outcome, u, here, run⟩ := exists_of_bind_ok run
    obtain ⟨later, v, there, ended⟩ := exists_of_bind_ok run
    have here : enlist info first s = .ok outcome u := here
    cases ended
    rw [List.zipIdx_cons, List.map_cons, ← ih there]
    congr 1
    cases header : info.header with
    | ok found =>
      rw [enlist_eq first header] at here
      obtain ⟨_, _, _, ended⟩ := exists_of_bind_ok here
      cases ended
      simp [enlisted?, header]
    | error fault =>
      unfold enlist at here
      simp only [header, get_bind] at here
      split at here
      · cases here
      · cases here
        simp [enlisted?, header]

/-! ### Both passes, in both modes -/

/-- The type infos of a library whose attributes can be decoded to a kind that a graph can hold, with
their positions. -/
def Library.supported (library : Library) : List (TypeInfo × Nat) :=
  library.types.zipIdx.filter fun entry => entry.1.attributeFault?.isNone

/-- The type infos that are enlisted are those that are supported. -/
theorem Library.map_enlisted (library : Library) :
    (library.types.zipIdx.filterMap enlisted?).map (fun entry => (entry.1, entry.2.1)) =
      library.supported := by
  unfold supported
  induction library.types.zipIdx with
  | nil => rfl
  | cons entry rest ih =>
    cases header : entry.1.header with
    | ok found =>
      rw [List.filterMap_cons_some (b := (entry.1, entry.2, found)) (by simp [enlisted?, header]),
        List.filter_cons_of_pos (by simp [TypeInfo.attributeFault?, header]), List.map_cons, ih]
    | error fault =>
      rw [List.filterMap_cons_none (by simp [enlisted?, header]),
        List.filter_cons_of_neg (by simp [TypeInfo.attributeFault?, header]), ih]

/-- How a strict and a lenient run of `addLibrary` from the same state compare, where the lenient run
makes the given calls of `addTypeInfo` and ends in the given state. -/
structure LibraryModes (a : Assembler) (library : Library) (calls : List (TypeId × Assembler))
    (b : Assembler) : Prop where
  /-- The lenient run declares the nodes of all type infos that it does not pass over, and then makes
  the calls, which all succeed. -/
  made : ∃ outcomes declared,
    enlistAll library.types 0 ((a.inMode false).begun library) = .ok outcomes declared ∧
      Calls library.supported declared calls b
  lenient : addLibrary library (a.inMode false) = .ok (calls.map Prod.fst) b
  /-- The nodes returned are those of the supported type infos, in library order. -/
  seats : List.Forall₂ (fun entry call =>
    ∃ header, entry.1.header = .ok header ∧ Placed header.1.guid entry.2 call.1 b)
    library.supported calls
  /-- None of them is pending. -/
  settled : ∀ call ∈ calls, ∃ node, b.graph.node? call.1 = some node ∧ node.state ≠ .pending
  /-- The strict run succeeds if nothing is passed over and every call leaves its node complete. -/
  strict : (∃ ids c, addLibrary library (a.inMode true) = .ok ids c) ↔
    (∀ info ∈ library.types, info.attributeFault? = none) ∧
      ∀ call ∈ calls, ∃ node, call.2.graph.node? call.1 = some node ∧ node.state = .complete
  /-- Then both give the same. -/
  same : ∀ ids c, addLibrary library (a.inMode true) = .ok ids c →
    ids = calls.map Prod.fst ∧ c = b.inMode true
  /-- Else it fails with the first fault of attributes, or without one with the first issue of the
  first call that left one. -/
  failed : ∀ fault c, addLibrary library (a.inMode true) = .error fault c →
    some fault = (library.types.findSome? TypeInfo.attributeFault?).or
      ((reportedIssue? calls).map (·.fault))

theorem enlisted?_eq_some {entry : TypeInfo × Nat} {enlisted : Enlisted}
    (h : enlisted? entry = some enlisted) : enlisted.1.header = .ok enlisted.2.2 := by
  unfold enlisted? at h
  split at h
  next header usable =>
    cases h
    exact usable
  next => cases h

theorem Assembler.Sound.inMode {r : Regime} (sound : a.Sound r) (strict : Bool) :
    (a.inMode strict).Sound r :=
  ⟨sound.graph, sound.slots, sound.anonymous, sound.unnamed, sound.records⟩

/-- The first pass outside strict mode gives every type info that it does not pass over its node. -/
theorem exists_enlisted {r : Regime} (sound : a.Sound r) (library : Library) :
    ∃ outcomes t, enlistAll library.types 0 ((a.inMode false).begun library) = .ok outcomes t ∧
      t.strict = false ∧ outcomes.reduceOption = library.types.zipIdx.filterMap enlisted? ∧
      ∀ entry ∈ outcomes.reduceOption, Seated entry t := by
  have start : ((a.inMode false).begun library).Steady := (sound.inMode false).steady rfl library
  obtain ⟨outcomes, t, enlists⟩ := exists_enlistsAll start library.types 0 fun {j} _ => by
    simp [begun]
  have steady := enlists.redoes.steady
  have entries : outcomes.reduceOption = library.types.zipIdx.filterMap enlisted? := by
    rw [enlistAll_outcomes enlists.redoes.run, List.reduceOption, List.filterMap_map]
    rfl
  refine ⟨outcomes, t, enlists.redoes.run, steady.lenient, entries, fun entry member => ?_⟩
  obtain ⟨id, placed⟩ := (enlists.placed (List.reduceOption_mem_iff.mp member)).2
  obtain ⟨node, found, _⟩ := steady.slotted placed.slotted
  rw [entries] at member
  obtain ⟨item, _, same⟩ := List.mem_filterMap.mp member
  exact ⟨enlisted?_eq_some same, id, node, placed, found⟩

/-- Every call left its node complete, or one of them left an issue. -/
theorem reportedIssue?_eq_none {calls : List (TypeId × Assembler)}
    (ended : ∀ call ∈ calls, call.2.Ended call.1) :
    reportedIssue? calls = none ↔
      ∀ call ∈ calls, ∃ node, call.2.graph.node? call.1 = some node ∧ node.state = .complete := by
  unfold reportedIssue?
  rw [List.findSome?_eq_none_iff]
  refine forall₂_congr fun call member => ?_
  obtain ⟨node, found, _, complete⟩ := ended call member
  constructor
  · intro none
    exact ⟨node, found, complete.mpr none⟩
  · rintro ⟨other, found', state⟩
    cases found.symm.trans found'
    exact complete.mp state

theorem exists_libraryModes {r : Regime} (sound : a.Sound r) (library : Library) :
    ∃ calls b, LibraryModes a library calls b := by
  obtain ⟨outcomes, t, enlisted, lenient, entries, seated⟩ := exists_enlisted sound library
  obtain ⟨calls, b, builds⟩ := exists_buildsAll lenient seated
  have places : outcomes.reduceOption.map (fun entry => (entry.1, entry.2.1)) = library.supported := by
    rw [entries, library.map_enlisted]
  have complete := reportedIssue?_eq_none builds.ended
  -- In strict mode the first pass fails, or it ends in the same state and the second pass follows.
  have outcome :
      (∃ fault c, library.types.findSome? TypeInfo.attributeFault? = some fault ∧
        addLibrary library (a.inMode true) = .error fault c) ∨
      library.types.findSome? TypeInfo.attributeFault? = none ∧
        ((∃ issue c, reportedIssue? calls = some issue ∧
          addLibrary library (a.inMode true) = .error issue.fault c) ∨
        reportedIssue? calls = none ∧
          addLibrary library (a.inMode true) = .ok (calls.map Prod.fst) (b.inMode true)) := by
    cases skips : library.types.findSome? TypeInfo.attributeFault? with
    | some fault =>
      obtain ⟨c, failed⟩ := enlistAll_error (s := (a.inMode true).begun library) 0 rfl skips
      exact .inl ⟨fault, c, rfl, (addLibrary_eq library _).trans (error_bind failed _)⟩
    | none =>
      have run := Indifferent.enlistAll 0 (List.findSome?_eq_none_iff.mp skips)
        ((a.inMode false).begun library) true
      rw [enlisted] at run
      have second : addLibrary library (a.inMode true) =
          buildAll outcomes.reduceOption (t.inMode true) :=
        (addLibrary_eq library _).trans (ok_bind run _)
      cases issues : reportedIssue? calls with
      | some issue =>
        obtain ⟨c, failed⟩ := builds.failed issue issues
        exact .inr ⟨rfl, .inl ⟨issue, c, rfl, second.trans failed⟩⟩
      | none => exact .inr ⟨rfl, .inr ⟨rfl, second.trans (builds.strict issues)⟩⟩
  refine ⟨calls, b, ⟨outcomes, t, enlisted, places ▸ builds.made⟩, ?_, ?_, builds.settled, ?_,
    fun ids c run => ?_, fun fault c run => ?_⟩
  · rw [addLibrary_eq, ok_bind enlisted]
    exact builds.lenient
  · rw [← places, List.forall₂_map_left_iff]
    exact builds.seats.imp fun entry call seat => ⟨_, seat.1, seat.2⟩
  · rw [← complete, ← List.findSome?_eq_none_iff]
    rcases outcome with ⟨fault, c, skips, run⟩ | ⟨usable, ⟨issue, c, issues, run⟩ | ⟨clean, run⟩⟩
    · simp [run, skips]
    · simp [run, issues]
    · simp [run, usable, clean]
  · rcases outcome with ⟨_, _, _, other⟩ | ⟨_, ⟨_, _, _, other⟩ | ⟨_, other⟩⟩
    all_goals cases run.symm.trans other
    exact ⟨rfl, rfl⟩
  · rcases outcome with ⟨_, _, skips, other⟩ | ⟨usable, ⟨_, _, issues, other⟩ | ⟨_, other⟩⟩
    all_goals cases run.symm.trans other
    · rw [skips, Option.some_or]
    · rw [usable, issues, Option.none_or, Option.map_some]

/-! ### Proxies -/

/-- The interface of a proxy is drawn up with the issues that decoding its procedures meets. -/
theorem exists_drawn (image : ProxyImage) (iid : Guid) (name : Option String) (names : NameLookup)
    (s : Assembler) : ∃ id u b, drawn image iid name names s =
      .ok (id, (Walk.methods image names image.procOffsets.zipIdx (Walk.startOf u iid)).1.2) b := by
  obtain ⟨id, t, declared⟩ := Succeeds.declare iid (proxyName s iid name) (.interface {}) s
  obtain ⟨base, u, based⟩ : ∃ base u, imageBase image t = .ok base u := by
    unfold imageBase
    split <;> exact ⟨_, _, rfl⟩
  unfold drawn
  rw [get_bind, ok_bind declared, ok_bind based]
  exact ⟨id, u, _, rfl⟩

/-- A proxy that can be decoded is added in both modes alike, but for reporting its issue. -/
theorem addProxyImage_modes (ordered : a.Ordered .unrestricted) (image : ProxyImage) (iid : Guid)
    (name : Option String) (names : NameLookup) :
    ∃ id b, addProxyImage image iid name names (a.inMode false) = .ok id b ∧ b.Ended id ∧
      addProxyImage image iid name names (a.inMode true) = reported id b := by
  have start : (a.inMode false).Ordered .unrestricted :=
    ⟨ordered.sound.inMode false, fun guarded => guarded.elim⟩
  obtain ⟨id, _, b, run⟩ := exists_drawn image iid name names (a.inMode false)
  have free : Policy.unrestricted.guarded → iid.isZero = false := fun guarded => guarded.elim
  have outcome := drawn_ordered start image free name names
  rw [run] at outcome
  obtain ⟨node, found, _⟩ := outcome.2.editable
  have indifferent := Indifferent.drawn image iid name names
  have mode : b.strict = false := by
    have same := indifferent.strict_eq (a.inMode false)
    rwa [run] at same
  obtain ⟨lenient, strict⟩ := settling_modes indifferent rfl run mode found
  rw [addProxyImage_eq_settling]
  exact ⟨id, b.settled id _, lenient, ended_settled found, strict⟩

/-- Strict and lenient runs agree. A lenient run of `addLibrary` always succeeds and returns the nodes of
the supported type infos, and the strict run from the same state compares to it as `LibraryModes` says. A
proxy image that cannot be decoded fails in both modes, and else both leave the same, where the strict
run fails if there is an issue. -/
theorem strict_and_lenient_agree (run : Reachable (fun _ _ => True) a) :
    (∀ library, ∃ calls b, LibraryModes a library calls b) ∧
    ∀ bytes iid name names,
      (∃ fault, ProxyImage.decode bytes = .error fault ∧
        ∀ strict, addProxy bytes iid name names (a.inMode strict) = .error fault (a.inMode strict)) ∨
      ∃ id b, addProxy bytes iid name names (a.inMode false) = .ok id b ∧ b.Ended id ∧
        addProxy bytes iid name names (a.inMode true) = reported id b := by
  constructor
  · intro library
    exact exists_libraryModes run.in_order.sound library
  · intro bytes iid name names
    unfold addProxy
    cases decoded : ProxyImage.decode bytes with
    | error fault => exact .inl ⟨fault, rfl, fun _ => rfl⟩
    | ok image => exact .inr (addProxyImage_modes run.in_order image iid name names)

/-- The lenient run returns three nodes for the four type infos of the library, and the strict run fails
with the fault of the fourth. -/
theorem mixedLibrary_modes :
    (∃ ids b, addLibrary mixedLibrary {} = .ok ids b ∧ ids.length = 3) ∧
      ∃ c, addLibrary mixedLibrary { strict := true } = .error (.malformed 0 (.short 4 0)) c := by
  obtain ⟨calls, b, modes⟩ := (strict_and_lenient_agree (.start false)).1 mixedLibrary
  have supported : mixedLibrary.supported.length = 3 := by decide +kernel
  have skips : mixedLibrary.types.findSome? TypeInfo.attributeFault? =
      some (.malformed 0 (.short 4 0)) := by decide +kernel
  refine ⟨⟨_, b, modes.lenient, ?_⟩, ?_⟩
  · rw [List.length_map, ← modes.seats.length_eq, supported]
  · cases run : addLibrary mixedLibrary { strict := true } with
    | ok ids c =>
      have usable := (modes.strict.mp ⟨ids, c, run⟩).1
      rw [← List.findSome?_eq_none_iff, skips] at usable
      cases usable
    | error fault c =>
      have same := modes.failed fault c run
      rw [skips, Option.some_or, Option.some.injEq] at same
      exact ⟨c, by rw [same]⟩

end ComTypes

import ComTypes.Proofs.Assembly.OwnNode

/-!
# Reports of replaced definitions

A GUID is reported when a definition of its own is declared again. Adding a library visits the GUIDs of
its type infos twice. The first pass takes a definition away and the second one gives it back, and each
reports the GUIDs that it finds defined (`Visits`). So the first pass reports those that were defined
before, once each, and the second pass reports every repetition within the library
(`changes_reported_exactly`).
-/

namespace ComTypes

open Assembler Assemble

variable {r : Regime} {a s t u : Assembler} {id : TypeId} {index : Nat}

/-! ### What counts as defined -/

/-- Whether the node has a definition that was built here. -/
def Node.isDefined (node : Node) : Bool := node.state ≠ .pending && !node.external

namespace Graph

/-- Whether the graph has a definition for a GUID. -/
def defines (g : Graph) (guid : Guid) : Bool :=
  (g.findGuid? guid).any fun id => (g.node? id).any Node.isDefined

variable {g h : Graph} {guid other : Guid}

theorem defines_of_found {node : Node} (known : g.findGuid? guid = some id)
    (found : g.node? id = some node) : g.defines guid = node.isDefined := by
  simp [defines, known, found]

/-- A GUID that is not known has no definition. -/
theorem defines_of_unknown (unknown : g.findGuid? guid = none) : g.defines guid = false := by
  simp [defines, unknown]

/-- What is found by a GUID is a node of the graph. -/
def Ranged (g : Graph) : Prop := ∀ guid id, g.findGuid? guid = some id → id < g.size

theorem WellFormed.ranged (wf : g.WellFormed r) : g.Ranged := by
  intro guid id known
  obtain ⟨_, node, found, _⟩ := (wf.findGuid_iff guid id).mp known
  exact lt_size_of_node? found

/-- Changing a node that is not found by the GUID. -/
theorem defines_modify_of_ne {change : Node → Node} (other : g.findGuid? guid ≠ some id) :
    (g.modify id change).defines guid = g.defines guid := by
  unfold defines
  rw [findGuid?_modify]
  cases known : g.findGuid? guid with
  | none => rfl
  | some j =>
    have apart : id ≠ j := by
      rintro rfl
      exact other known
    simp only [Option.any_some, node?_modify_of_ne change apart]

theorem defines_modify_of_eq {change : Node → Node} {node : Node} (known : g.findGuid? guid = some id)
    (found : g.node? id = some node) :
    (g.modify id change).defines guid = (change node).isDefined :=
  defines_of_found (by rwa [findGuid?_modify]) (node?_modify_self change found)

/-- A new node that is not defined yet changes nothing. -/
theorem defines_of_appends {new : Node} (ranged : g.Ranged) (appends : g.Appends new h)
    (fresh : ∀ guid, new.identity = .guid guid → g.findGuid? guid = none ∧ new.isDefined = false) :
    h.defines guid = g.defines guid := by
  by_cases own : new.identity = .guid guid
  · obtain ⟨unknown, undefined⟩ := fresh guid own
    have known : h.findGuid? guid = some g.size := by rw [appends.guid_eq, if_pos own]
    rw [defines_of_found known (WellFormed.appended appends), undefined, defines_of_unknown unknown]
  · unfold defines
    rw [appends.guid_eq, if_neg own]
    cases known : g.findGuid? guid with
    | none => rfl
    | some j =>
      have old : j ≠ g.size := Nat.ne_of_lt (ranged guid j known)
      simp only [Option.any_some, appends.node_eq, if_neg old]

theorem Ranged.of_appends {new : Node} (ranged : g.Ranged) (appends : g.Appends new h) : h.Ranged := by
  intro guid id known
  rw [appends.guid_eq] at known
  rw [appends.size_eq]
  split at known
  · cases known
    exact Nat.lt_succ_self _
  · exact Nat.lt_succ_of_lt (ranged guid id known)

theorem Ranged.of_modify {change : Node → Node} (ranged : g.Ranged) : (g.modify id change).Ranged := by
  intro guid j known
  rw [findGuid?_modify] at known
  rw [size_modify]
  exact ranged guid j known

theorem identity_eq_of_nextIdentity {other : Guid} (own : g.nextIdentity (some guid) = .guid other) :
    other = guid := by
  rcases g.nextIdentity_cases (some guid) with index | ⟨_, ⟨⟩, _, same⟩
  · cases index.symm.trans own
  · cases same.symm.trans own
    rfl

/-- Fetching nodes for types defines nothing. -/
theorem Fetches.defines (fetches : g.Fetches h) (ranged : g.Ranged) :
    h.Ranged ∧ ∀ guid, h.defines guid = g.defines guid := by
  induction fetches with
  | refl => exact ⟨ranged, fun _ => rfl⟩
  | @intern k structural _ ih =>
    obtain ⟨ranged, same⟩ := ih
    cases found : k.byStructure.get? structural with
    | some id =>
      rw [intern_of_found found]
      exact ⟨ranged, same⟩
    | none =>
      have appends := appends_intern found
      refine ⟨ranged.of_appends appends, fun guid => ?_⟩
      rw [defines_of_appends ranged appends nofun, same]
  | @external k guid name body _ _ _ ih =>
    obtain ⟨ranged, same⟩ := ih
    cases known : k.findGuid? guid with
    | some id =>
      rw [external_of_found name body known]
      refine ⟨ranged.of_modify, fun other => ?_⟩
      rw [← same other]
      by_cases here : k.findGuid? other = some id
      · obtain ⟨node, found⟩ := exists_node_of_lt (ranged other id here)
        rw [defines_modify_of_eq here found, defines_of_found here found]
        split
        · rfl
        · rfl
      · exact defines_modify_of_ne here
    | none =>
      have appends := appends_external name body known
      refine ⟨ranged.of_appends appends, fun other => ?_⟩
      rw [defines_of_appends ranged appends fun other own => ?_, same]
      rw [identity_eq_of_nextIdentity own]
      exact ⟨known, by simp [Node.isDefined, externalNode]⟩

end Graph

/-! ### Visits -/

/-- After a visit of GUIDs all of them are defined, or none is. -/
def marked (becomes : Bool) (guids : List Guid) (defined : Guid → Bool) : Guid → Bool :=
  fun guid => if guid ∈ guids then becomes else defined guid

@[simp] theorem marked_nil (becomes : Bool) (defined : Guid → Bool) :
    marked becomes [] defined = defined := by
  funext guid
  simp [marked]

theorem marked_append (becomes : Bool) (first second : List Guid) (defined : Guid → Bool) :
    marked becomes (first ++ second) defined = marked becomes second (marked becomes first defined) := by
  funext guid
  unfold marked
  grind

/-- The later visit of the same GUIDs counts. -/
theorem marked_marked (becomes before : Bool) (guids : List Guid) (defined : Guid → Bool) :
    marked becomes guids (marked before guids defined) = marked becomes guids defined := by
  funext guid
  unfold marked
  split
  · rfl
  · rfl

/-- The reports of a visit, in order: each GUID that is defined when its turn comes. -/
def reports (becomes : Bool) : List Guid → (Guid → Bool) → List Guid
  | [], _ => []
  | guid :: rest, defined =>
    (if defined guid then [guid] else []) ++ reports becomes rest (marked becomes [guid] defined)

/-- What is reported for the second part depends on what the first part has defined. -/
theorem reports_append (becomes : Bool) (first second : List Guid) (defined : Guid → Bool) :
    reports becomes (first ++ second) defined =
      reports becomes first defined ++ reports becomes second (marked becomes first defined) := by
  induction first generalizing defined with
  | nil => simp [reports]
  | cons guid rest ih =>
    rw [List.cons_append, reports, reports, ih, ← marked_append, List.append_assoc]
    rfl

/-- A visit that takes definitions away reports each of them once. -/
theorem count_reports_false (guids : List Guid) (defined : Guid → Bool) (guid : Guid) :
    (reports false guids defined).count guid = if guid ∈ guids ∧ defined guid then 1 else 0 := by
  induction guids generalizing defined with
  | nil => simp [reports]
  | cons first rest ih =>
    rw [reports, List.count_append, ih]
    by_cases same : guid = first
    · subst same
      cases defined guid <;> simp [marked]
    · cases defined first <;> simp [marked, same, Ne.symm same]

/-- A visit that gives definitions reports each GUID whenever it comes, but for the first time if it was
not defined before. -/
theorem count_reports_true (guids : List Guid) (defined : Guid → Bool) (guid : Guid) :
    (reports true guids defined).count guid = guids.count guid - if defined guid then 0 else 1 := by
  induction guids generalizing defined with
  | nil => simp [reports]
  | cons first rest ih =>
    rw [reports, List.count_append, ih]
    by_cases same : guid = first
    · subst same
      cases defined guid <;> simp [marked, Nat.add_comm]
    · cases defined first <;> simp [marked, same, Ne.symm same]

/-- A visit that takes definitions away, and then one of the same GUIDs that gives them back. -/
theorem count_reports_both (guids : List Guid) (defined : Guid → Bool) (guid : Guid) :
    (reports false guids defined ++ reports true guids (marked false guids defined)).count guid =
      if guids.count guid = 0 then 0 else guids.count guid - 1 + if defined guid then 1 else 0 := by
  rw [List.count_append, count_reports_false, count_reports_true]
  by_cases among : guid ∈ guids
  · have some : guids.count guid ≠ 0 := Nat.ne_of_gt (List.count_pos_iff.mpr among)
    simp [marked, among, some, Nat.add_comm]
  · simp [among, List.count_eq_zero.mpr among]

/-- GUIDs were visited: those that were defined when their turn came have been reported. -/
structure Visits (becomes : Bool) (guids : List Guid) (s t : Assembler) : Prop where
  changed : t.changed = s.changed ++ reports becomes guids s.graph.defines
  defines : t.graph.defines = marked becomes guids s.graph.defines

theorem Visits.trans {becomes : Bool} {first second : List Guid} (here : Visits becomes first s t)
    (there : Visits becomes second t u) : Visits becomes (first ++ second) s u where
  changed := by
    rw [there.changed, here.changed, here.defines, reports_append, List.append_assoc]
  defines := by rw [there.defines, here.defines, marked_append]

theorem Visits.none {becomes : Bool} (changed : t.changed = s.changed)
    (defines : ∀ guid, t.graph.defines guid = s.graph.defines guid) : Visits becomes [] s t where
  changed := by rw [changed, reports, List.append_nil]
  defines := by
    funext guid
    rw [defines guid, marked_nil]

/-- The GUIDs that a type info visits. -/
def visited (guid : Guid) : List Guid := if guid.isZero then [] else [guid]

/-- One visit is reported exactly if the GUID was defined before. -/
theorem reports_visited (becomes : Bool) (guid : Guid) (defined : Guid → Bool) :
    reports becomes (visited guid) defined = (visited guid).filter defined := by
  unfold visited
  split
  · rfl
  · cases here : defined guid <;> simp [reports, here]

theorem visited_of_zero {guid : Guid} (zero : guid.isZero = true) : visited guid = [] := by
  simp [visited, zero]

theorem visited_of_nonzero {guid : Guid} (nonzero : guid.isZero = false) : visited guid = [guid] := by
  simp [visited, nonzero]

/-- The node that is found by the GUID was changed, or one that has none. -/
theorem defines_modify {becomes : Bool} {guid : Guid} {change : Node → Node} {node : Node}
    (sound : s.Sound r) (found : s.graph.node? id = some node)
    (indexed : guid.isZero = false → s.graph.findGuid? guid = some id)
    (unnamed : guid.isZero = true → ∀ other, node.identity ≠ .guid other)
    (makes : (change node).isDefined = becomes) :
    (s.graph.modify id change).defines = marked becomes (visited guid) s.graph.defines := by
  funext other
  by_cases here : s.graph.findGuid? other = some id
  · obtain ⟨_, node', found', identity⟩ := (sound.graph.findGuid_iff other id).mp here
    cases found.symm.trans found'
    cases zero : guid.isZero with
    | true => exact absurd identity (unnamed zero other)
    | false =>
      obtain ⟨_, node'', found'', identity'⟩ := (sound.graph.findGuid_iff guid id).mp (indexed zero)
      cases found.symm.trans found''
      cases identity.symm.trans identity'
      rw [Graph.defines_modify_of_eq here found, makes, visited_of_nonzero zero]
      simp [marked]
  · rw [Graph.defines_modify_of_ne here]
    unfold marked
    rw [if_neg]
    intro among
    cases zero : guid.isZero with
    | true => simp [visited_of_zero zero] at among
    | false =>
      rw [visited_of_nonzero zero, List.mem_singleton] at among
      exact here (among ▸ indexed zero)

/-- A GUID is reported if the node it names had a definition of its own. -/
theorem declare_reports {guid : Guid} (name : String) (body : Body)
    (known : s.graph.findGuid? guid = some id) :
    declare guid name body s = .ok id { s with
      graph := s.graph.modify id (redeclared name body)
      changed := s.changed ++ [guid].filter s.graph.defines } := by
  have defines : s.graph.defines guid = (s.graph.node? id).any Node.isDefined := by
    simp [Graph.defines, known]
  unfold declare
  rw [get_bind, known]
  dsimp only
  split
  next defined =>
    rw [List.filter_cons_of_pos (defines.trans defined)]
    rfl
  next undefined =>
    have undefined : ¬ (s.graph.node? id).any Node.isDefined = true := undefined
    rw [List.filter_cons_of_neg (by rwa [defines]), List.filter_nil, List.append_nil]
    rfl

/-- Where there is no definition, none is taken away. -/
theorem Visits.of_undefined {guid : Guid} (undefined : s.graph.defines guid = false)
    (changed : t.changed = s.changed) (defines : ∀ other, t.graph.defines other = s.graph.defines other) :
    Visits false (visited guid) s t := by
  cases zero : guid.isZero with
  | true =>
    rw [visited_of_zero zero]
    exact .none changed defines
  | false =>
    constructor
    · rw [reports_visited, visited_of_nonzero zero]
      simp [undefined, changed]
    · funext other
      rw [defines other, visited_of_nonzero zero]
      by_cases same : other = guid
      · simp [marked, same, undefined]
      · simp [marked, same]

/-- A new node waits for its definition. -/
theorem defines_added (sound : s.Sound r) (guid : Option Guid) (name : String) (definition : Definition)
    (unknown : ∀ own, guid = some own → s.graph.findGuid? own = none) (other : Guid) :
    (s.graph.add guid name definition.blank).2.defines other = s.graph.defines other := by
  refine Graph.defines_of_appends sound.graph.ranged
    (s.graph.appends_add guid name definition.blank_isDeclaration) fun own same => ?_
  rcases s.graph.nextIdentity_cases guid with index | ⟨guid', given, _, named⟩
  · cases index.symm.trans same
  · cases named.symm.trans same
    exact ⟨unknown own given, rfl⟩

/-- Declaring a type info takes its definition away, and reports it. -/
theorem place_visits (sound : s.Sound r) {guid : Guid} {name : String} {definition : Definition}
    (run : place guid index name definition.blank s = .ok id t) : Visits false (visited guid) s t := by
  unfold place at run
  cases zero : guid.isZero with
  | false =>
    rw [declareTypeInfo_of_nonzero zero] at run
    cases known : s.graph.findGuid? guid with
    | some j =>
      obtain ⟨_, node, found, _⟩ := (sound.graph.findGuid_iff guid j).mp known
      rw [ok_bind (declare_reports name definition.blank known)] at run
      cases run
      constructor
      · rw [reports_visited, visited_of_nonzero zero]
      · refine defines_modify sound found (fun _ => known) (fun yes => ?_) rfl
        cases zero.symm.trans yes
    | none =>
      rw [ok_bind (declare_of_unknown name definition.blank known)] at run
      cases run
      refine .of_undefined (Graph.defines_of_unknown known) rfl (defines_added sound _ _ _ ?_)
      rintro own ⟨⟩
      exact known
  | true =>
    have undefined : s.graph.defines guid = false := by
      cases known : s.graph.findGuid? guid with
      | none => exact Graph.defines_of_unknown known
      | some j => cases zero.symm.trans ((sound.graph.findGuid_iff guid j).mp known).1
    cases known : s.anonymous.get? (s.library, index) with
    | some j =>
      obtain ⟨node, found, position⟩ := sound.unnamed known
      rw [ok_bind (declareTypeInfo_of_known name definition.blank zero known)] at run
      cases run
      constructor
      · simp [visited_of_zero zero, reports]
      · refine defines_modify sound found (fun no => ?_) (fun _ other own => ?_) rfl
        · cases no.symm.trans zero
        · cases position.symm.trans own
    | none =>
      rw [ok_bind (declareTypeInfo_of_unknown name definition.blank zero known)] at run
      cases run
      exact .of_undefined undefined rfl (defines_added sound _ _ _ nofun)

/-- Before its body is built, a type info has a node that waits for it. If that was defined it has been
reported. -/
theorem slot_visits (sound : s.Sound r) {info : TypeInfo} {attr : TypeAttr} {definition : Definition}
    {node : Node} (placed : Placed attr.guid index id s) (found : s.graph.node? id = some node)
    (run : slot info index attr definition s = .ok id t) : Visits false (visited attr.guid) s t := by
  rw [slot_eq placed.slot found] at run
  split at run
  next pending =>
    cases run
    cases zero : attr.guid.isZero with
    | true =>
      rw [visited_of_zero zero]
      exact .none rfl fun _ => rfl
    | false =>
      refine .of_undefined ?_ rfl fun _ => rfl
      rw [Graph.defines_of_found (placed.indexed zero) found]
      simp [Node.isDefined, pending]
  next => exact place_visits sound run

/-- Building a type info gives its definition back. -/
theorem build_visits (sound : s.Sound r) {info : TypeInfo} {attr : TypeAttr} {definition : Definition}
    {names : NameLookup} {node : Node} (placed : Placed attr.guid index id s)
    (found : s.graph.node? id = some node)
    (run : build info index attr definition names s = .ok id t) :
    Visits true (visited attr.guid) s t := by
  obtain ⟨u, slotted, first⟩ := slot_rebuilt info definition placed found
  obtain ⟨⟨body, issues⟩, v, built⟩ := Succeeds.body info names attr definition u
  have sound_u : u.Sound r := by
    have advance := slot_advance sound info index attr definition
    rw [slotted] at advance
    exact advance.1.sound
  have sound_v : v.Sound r := by
    have advance := body_advance sound_u info names attr definition
    rw [built] at advance
    exact advance.1.sound
  have resolving := Resolving.body info names attr definition
  have resolved : u.Resolved v := by
    have resolved := resolving.resolved u
    rwa [built] at resolved
  have fetches : u.graph.Fetches v.graph := by
    have fetches := resolving.fetches u
    rwa [built] at fetches
  have fetched : v.graph.defines = u.graph.defines := funext (fetches.defines sound_u.graph.ranged).2
  have rebuilt := first.trans (resolved.rebuilt id)
  have placed_v := placed.rebuilt rebuilt
  obtain ⟨node', found', _⟩ := rebuilt.nodes found
  -- A node that is still waiting is not reported. One that an earlier entry has built is declared again.
  have declared := slot_visits sound placed found slotted
  have ended : t = Assembler.settled
      { v with graph := v.graph.modify id (described info attr body) } id issues := by
    rw [build_eq_settling] at run
    rcases settling_cases (filled_eq slotted built) with ended | ⟨fault, ended⟩
    · cases run.symm.trans ended
      rfl
    · cases run.symm.trans ended
  subst ended
  have unnamed : attr.guid.isZero = true → ∀ other, node'.identity ≠ .guid other := by
    intro zero other own
    obtain ⟨_, found'', position⟩ := sound_v.unnamed (placed_v.anonymous zero)
    cases found'.symm.trans found''
    cases position.symm.trans own
  constructor
  · have same : v.changed = u.changed := by rw [resolved.rest]
    show v.changed = _
    rw [same, declared.changed, reports_visited, reports_visited]
  · show ((v.graph.modify id _).modify id _).defines = _
    rw [Graph.modify_modify, defines_modify sound_v found' placed_v.indexed unnamed ?_]
    · rw [fetched, declared.defines, marked_marked]
    · cases issues <;> rfl

/-! ### The passes -/

/-- The GUID of a type info whose attributes can be decoded to a kind that a graph can hold. -/
def TypeInfo.guid? (info : TypeInfo) : Option Guid := info.header.toOption.map fun header => header.1.guid

/-- How many definitions for a GUID a library has. -/
def Library.definitions (library : Library) (guid : Guid) : Nat :=
  library.types.countP fun info => info.guid? = some guid

/-- The GUIDs that a pass over type infos visits. -/
def visitedAll (infos : List TypeInfo) : List Guid := infos.flatMap fun info => info.guid?.elim [] visited

/-- Declaring a type info visits its GUID and defines nothing. -/
theorem enlist_visits (sound : s.Sound r) {info : TypeInfo} {outcome : Option Enlisted}
    (run : enlist info index s = .ok outcome t) :
    Visits false (info.guid?.elim [] visited) s t := by
  cases header : info.header with
  | ok found =>
    rw [enlist_eq index header] at run
    obtain ⟨id, u, placed, ended⟩ := exists_of_bind_ok run
    cases ended
    simpa [TypeInfo.guid?, header, Except.toOption] using place_visits sound placed
  | error fault =>
    have same : t = s := by
      unfold enlist at run
      simp only [header, get_bind] at run
      split at run
      · cases run
      · cases run
        rfl
    subst same
    simpa [TypeInfo.guid?, header, Except.toOption] using Visits.none rfl fun _ => rfl

theorem enlistAll_visits {infos : List TypeInfo} {first : Nat} {outcomes : List (Option Enlisted)}
    (sound : s.Sound r) (run : enlistAll infos first s = .ok outcomes t) :
    Visits false (visitedAll infos) s t := by
  induction infos generalizing s first outcomes with
  | nil =>
    cases run
    exact .none rfl fun _ => rfl
  | cons info rest ih =>
    unfold enlistAll at run
    rw [List.zipIdx_cons, List.mapM_cons] at run
    obtain ⟨outcome, u, here, run⟩ := exists_of_bind_ok run
    obtain ⟨later, v, there, ended⟩ := exists_of_bind_ok run
    have here : enlist info first s = .ok outcome u := here
    have advance := enlist_advance sound info first
    rw [here] at advance
    cases ended
    exact (enlist_visits sound here).trans (ih advance.1.sound there)

/-- The second pass visits the GUIDs that the first one has visited. -/
theorem flatMap_enlisted (infos : List TypeInfo) (first : Nat) :
    ((infos.zipIdx first).filterMap enlisted?).flatMap (fun entry => visited entry.2.2.1.guid) =
      visitedAll infos := by
  induction infos generalizing first with
  | nil => rfl
  | cons info rest ih =>
    unfold visitedAll at ih ⊢
    rw [List.zipIdx_cons, List.flatMap_cons]
    cases header : info.header with
    | ok found =>
      rw [List.filterMap_cons_some (b := (info, first, found)) (by simp [enlisted?, header]),
        List.flatMap_cons, ih]
      simp [TypeInfo.guid?, header, Except.toOption]
    | error fault =>
      rw [List.filterMap_cons_none (by simp [enlisted?, header]), ih]
      simp [TypeInfo.guid?, header, Except.toOption]

theorem count_visited (own guid : Guid) :
    (visited own).count guid = if guid.isZero = false ∧ own = guid then 1 else 0 := by
  by_cases same : own = guid
  · subst same
    cases zero : own.isZero <;> simp [visited, zero]
  · unfold visited
    split <;> simp [same]

/-- A GUID is visited once by every type info that bears it. -/
theorem count_visitedAll (infos : List TypeInfo) (guid : Guid) :
    (visitedAll infos).count guid =
      if guid.isZero then 0 else infos.countP fun info => info.guid? = some guid := by
  unfold visitedAll
  induction infos with
  | nil => simp
  | cons info rest ih =>
    rw [List.flatMap_cons, List.count_append, ih, List.countP_cons]
    cases own : info.guid? with
    | none => simp
    | some other =>
      rw [Option.elim_some, count_visited]
      cases guid.isZero <;> simp [Nat.add_comm]

/-- Outside strict mode the second pass succeeds and gives the definitions back. -/
theorem exists_buildAll_visits {entries : List Enlisted} (sound : s.Sound r) (lenient : s.strict = false)
    (seated : ∀ entry ∈ entries, Seated entry s) :
    ∃ ids t, buildAll entries s = .ok ids t ∧
      Visits true (entries.flatMap fun entry => visited entry.2.2.1.guid) s t := by
  induction entries generalizing s with
  | nil => exact ⟨[], s, rfl, .none rfl fun _ => rfl⟩
  | cons entry rest ih =>
    obtain ⟨usable, id, node, placed, found⟩ := seated entry List.mem_cons_self
    obtain ⟨t, built⟩ := exists_builtInto entry.1.lookup lenient usable placed found
    have run : build entry.1 entry.2.1 entry.2.2.1 entry.2.2.2 entry.1.lookup s = .ok id t := by
      have added := built.lenient
      unfold addTypeInfo at added
      rw [usable] at added
      exact added
    have advance :=
      build_advance sound entry.1 entry.2.1 entry.2.2.1 entry.2.2.2 entry.1.lookup
    rw [run] at advance
    obtain ⟨ids, u, others, visits⟩ := ih advance.1.sound (built.mode.trans lenient)
      fun other member => (seated other (List.mem_cons_of_mem _ member)).rebuilt built.rebuilt
    refine ⟨id :: ids, u, ?_, ?_⟩
    · unfold buildAll
      rw [List.mapM_cons, ok_bind run]
      exact ok_bind others _
    · rw [List.flatMap_cons]
      exact (build_visits sound placed found run).trans visits

/-- Every replacement of a definition is reported, and nothing else is. Adding a library outside strict
mode reports a GUID once for each of its definitions in the library after the first, and once more if it
was defined before. The first definition of a type that was only referred to is not reported, nor is a
GUID that is only referred to. -/
theorem changes_reported_exactly (run : Reachable (fun _ _ => True) a) (library : Library)
    (before : List Guid) :
    ∃ ids b reported, addLibrary library { a with strict := false, changed := before } = .ok ids b ∧
      b.changed = before ++ reported ∧ ∀ guid, reported.count guid =
        if guid.isZero ∨ library.definitions guid = 0 then 0
        else library.definitions guid - 1 + if a.graph.defines guid then 1 else 0 := by
  have sound : ({ a with changed := before } : Assembler).Sound (Policy.unrestricted.regime a) :=
    ⟨run.sound.graph, run.sound.slots, run.sound.anonymous, run.sound.unnamed, run.sound.records⟩
  obtain ⟨outcomes, t, enlisted, lenient, entries, seated⟩ := exists_enlisted sound library
  have start := (sound.inMode false).begun library
  have first := enlistAll_visits start enlisted
  have sound_t : t.Sound (Policy.unrestricted.regime a) := by
    have advance := enlistAll_advance start library.types 0
    rw [enlisted] at advance
    exact advance.1.sound
  obtain ⟨ids, b, built, second⟩ := exists_buildAll_visits sound_t lenient seated
  rw [entries, flatMap_enlisted] at second
  refine ⟨ids, b, reports false (visitedAll library.types) a.graph.defines ++
    reports true (visitedAll library.types) t.graph.defines, ?_, ?_, ?_⟩
  · exact (addLibrary_eq library _).trans ((ok_bind enlisted _).trans built)
  · rw [second.changed, first.changed, List.append_assoc]
    rfl
  · intro guid
    have count : (visitedAll library.types).count guid =
        if guid.isZero then 0 else library.definitions guid := count_visitedAll library.types guid
    rw [first.defines]
    refine (count_reports_both _ a.graph.defines guid).trans ?_
    rw [count]
    cases guid.isZero <;> simp

/-- Two type infos of the library share a GUID. When the library is added again, the GUID is reported once
for the definition that was there and once for the repetition. -/
theorem mixedLibrary_reported_twice :
    ∃ ids b reported, addLibrary mixedLibrary
        { Call.run {} (.addLibrary mixedLibrary) with strict := false, changed := [] } = .ok ids b ∧
      b.changed = reported ∧ reported.count (.ofBytes [1]) = 2 ∧ reported.count (.ofBytes [2]) = 0 := by
  have run : Reachable (fun _ _ => True) (Call.run {} (.addLibrary mixedLibrary)) :=
    .step _ (.start false) trivial
  obtain ⟨ids, b, reported, added, changed, count⟩ := changes_reported_exactly run mixedLibrary []
  have shared : mixedLibrary.definitions (.ofBytes [1]) = 2 := by decide +kernel
  have external : mixedLibrary.definitions (.ofBytes [2]) = 0 := by decide +kernel
  have defined : (Call.run {} (.addLibrary mixedLibrary)).graph.defines (.ofBytes [1]) = true := by
    decide +kernel
  refine ⟨ids, b, reported, added, changed, ?_, ?_⟩
  · rw [count, shared, defined]
    decide
  · rw [count, external, if_pos (.inr rfl)]

end ComTypes

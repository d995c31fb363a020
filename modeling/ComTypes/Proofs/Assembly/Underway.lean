import ComTypes.Proofs.Assembly.InUse
import ComTypes.Proofs.Graph.Unfolding
import Mathlib.Logic.Relation

/-!
# States in the middle of a call

A call is made of smaller steps: a library begins, its type infos are given their nodes and are built one
after the other, and for building one, descriptors are resolved. `Assembler.Step` is one of these, and
`Assembler.Leads` any number of them, so it covers the states in which descriptors are resolved as well as
those between calls (`Call.run_leads`). In all of them the assembler is sound, the type infos of the library
have nodes that declare something, and these are in use (`Assembler.Leads.regular`). No step takes anything
from the graph that is interned (`Assembler.Leads.regular_and_lasts`).
-/

namespace ComTypes

open Assembler Assemble

variable {r : Regime} {a b s t : Assembler} {id : TypeId} {index : Nat}

/-- One step of an assembler. One that fails leaves what it did before the failure. -/
inductive Assembler.Step (a : Assembler) : Assembler → Prop
  /-- The assembler is given up, and another one goes on with the graph. -/
  | resume (strict : Bool) : a.Step (.ofGraph a.graph strict)
  /-- A library begins. -/
  | begins (library : Library) : a.Step (a.begun library)
  /-- A type info is given its node. -/
  | place (guid : Guid) (index : Nat) (name : String) (definition : Definition) :
      a.Step (left (place guid index name definition.blank a))
  | build (info : TypeInfo) (index : Nat) (attr : TypeAttr) (definition : Definition)
      (names : NameLookup) : a.Step (left (build info index attr definition names a))
  | resolve (info : TypeInfo) (desc : TypeDesc) : a.Step (left (resolve info desc a))
  | addProxy (bytes : Bytes) (iid : Guid) (name : Option String) (names : NameLookup) :
      a.Step (left (addProxy bytes iid name names a))
  | external (guid : Guid) (name : String) (body : Body) :
      a.Step (left (onGraph (·.external guid name body) a))

/-- Some number of steps leads from one state to the other. -/
def Assembler.Leads : Assembler → Assembler → Prop := Relation.ReflTransGen Step

/-! ### Calls -/

theorem Assembler.leads_progress : Progress Leads where
  trans first second := Relation.ReflTransGen.trans first second
  here _ := .refl

theorem enlist_leads (info : TypeInfo) (index : Nat) (s : Assembler) :
    Outcome s.Leads (fun _ _ => True) (enlist info index s) := by
  cases header : info.header with
  | ok found =>
    rw [enlist_eq index header]
    have placed : s.Leads (left (place found.1.guid index info.name found.2.blank s)) :=
      .single (.place ..)
    exact (Outcome.of_left placed).bind fun _ _ reached _ => Outcome.of_pure reached trivial
  | error fault =>
    unfold enlist
    rw [header]
    refine Outcome.of_get ?_
    dsimp only
    split
    · exact .refl
    · exact Outcome.of_pure .refl trivial

/-- A library is added by passing through the states that its type infos meet. -/
theorem addLibrary_leads (library : Library) (a : Assembler) :
    a.Leads (left (addLibrary library a)) := by
  have started : a.Leads (a.begun library) := .single (.begins library)
  have first : Outcome (a.begun library).Leads (fun _ _ => True)
      (enlistAll library.types 0 (a.begun library)) :=
    leads_progress.mapM_reached .refl fun item _ t _ => enlist_leads item.1 item.2 t
  have both : Outcome (a.begun library).Leads (fun _ _ => True)
      ((enlistAll library.types 0 >>= fun outcomes => buildAll outcomes.reduceOption)
        (a.begun library)) :=
    leads_progress.bind first fun outcomes t _ _ =>
      leads_progress.mapM_reached .refl fun entry _ u _ => Outcome.of_left (.single (.build ..))
  rw [addLibrary_eq]
  exact started.trans both.left

/-- A call comes down to steps. -/
theorem Call.run_leads (call : Call) (a : Assembler) : a.Leads (call.run a) := by
  cases call with
  | addLibrary library => exact addLibrary_leads library a
  | addTypeInfo info index names =>
    show a.Leads (left (Assemble.addTypeInfo info index names a))
    unfold Assemble.addTypeInfo
    cases info.header with
    | ok header => exact .single (.build info index header.1 header.2 names)
    | error fault => exact .refl
  | addProxy bytes iid name names => exact .single (.addProxy bytes iid name names)
  | external guid name body => exact .single (.external guid name body)
  | externalInterface iid name => exact .single (.external iid (name.getD "") (.interface {}))

/-- Every state of a run has been passed through from the start. -/
theorem Reachable.leads {allowed : Assembler → Call → Prop} (run : Reachable allowed a) :
    ∃ strict, Leads { strict } a := by
  induction run with
  | start strict => exact ⟨strict, .refl⟩
  | step call _ _ ih =>
    obtain ⟨strict, leads⟩ := ih
    exact ⟨strict, leads.trans (call.run_leads _)⟩

/-! ### What steps keep -/

/-- The node declares something. -/
def Graph.IsDeclared (g : Graph) (id : TypeId) : Prop :=
  ∃ node, g.node? id = some node ∧ node.body.isDeclaration = true

theorem Graph.IsDeclared.grows {g g' : Graph} (declared : g.IsDeclared id) (grows : g.Grows g') :
    g'.IsDeclared id := by
  obtain ⟨node, found, declares⟩ := declared
  obtain ⟨node', found', _, kept⟩ := grows.kept found
  refine ⟨node', found', Body.isDeclaration_iff.mpr fun s same => ?_⟩
  exact Body.isDeclaration_iff.mp declares s (kept s same).1

/-- The assembler is sound, and the type infos of the library have declarations in use. -/
structure Assembler.Regular (a : Assembler) : Prop where
  ordered : a.Ordered .unrestricted
  inUse : a.InUse
  declared : ∀ {index id}, a.slots.get? index = some id → a.graph.IsDeclared id

theorem Assembler.start_regular (strict : Bool) : Regular { strict } where
  ordered := start_ordered .unrestricted strict
  inUse := (Reachable.start strict).inUse
  declared known := by simp [Table.get?] at known

namespace Assembler.Seats

/-- A node that a type info is given may be edited, or it is a new one. -/
theorem editable (seats : s.Seats index id t) (sound : s.Sound r) :
    s.graph.Editable id ∨ id = s.graph.size := by
  rcases seats.origin with ⟨guid, known⟩ | ⟨key, known⟩ | ⟨j, known⟩ | new
  · exact .inl (sound.graph.isSlot_of_guid known).editable
  · exact .inl (sound.anonymous known).editable
  · exact .inl (sound.slots known).editable
  · exact .inr new

theorem lasts (seats : s.Seats index id t) (sound : s.Sound r) (grows : s.graph.Grows t.graph) :
    s.graph.Lasts t.graph := by
  refine .of_spared grows fun {j node} found fixed => ?_
  have other : j ≠ id := by
    rintro rfl
    rcases seats.editable sound with editable | rfl
    · exact fixed editable
    · exact Nat.lt_irrefl _ (Graph.lt_size_of_node? found)
  obtain ⟨node', found', alike⟩ := seats.spares j node other found
  exact ⟨node', found', alike.body⟩

theorem regular (seats : s.Seats index id t) (regular : s.Regular)
    (advance : s.Advance (Policy.unrestricted.regime s) t) (declared : t.graph.IsDeclared id) :
    t.Regular where
  ordered := regular.ordered.advance advance
  inUse := regular.inUse.seats regular.ordered.sound advance seats
  declared known := by
    rw [seats.slots] at known
    split at known
    · cases known
      exact declared
    · exact (regular.declared known).grows advance.graph.grows

end Assembler.Seats

theorem place_advance (sound : s.Sound r) (guid : Guid) (index : Nat) (name : String)
    (definition : Definition) :
    Outcome (s.Advance r) (fun _ _ => True) (place guid index name definition.blank s) := by
  refine (advance_progress r).bind (declareTypeInfo_advance sound (blank_nameable definition))
    fun id t advance isSlot => ?_
  exact ⟨insertSlot_advance advance.sound index isSlot, trivial⟩

/-- A node that was declared for a type info has the blank body of its definition. -/
theorem place_declares (sound : s.Sound r) {guid : Guid} {name : String} {definition : Definition}
    (run : place guid index name definition.blank s = .ok id t) : t.graph.IsDeclared id := by
  unfold place at run
  obtain ⟨own, u, declared, rest⟩ := exists_of_bind_ok run
  cases rest
  show u.graph.IsDeclared id
  cases zero : guid.isZero with
  | false =>
    rw [declareTypeInfo_of_nonzero zero] at declared
    have outcome : Outcome (s.Advance r) (Declared r guid definition.blank)
        (declare guid name definition.blank s) := declare_advance sound (blank_nameable definition)
    rw [declared] at outcome
    obtain ⟨node, found, _⟩ := outcome.2.slot.editable
    exact ⟨node, found, by rw [outcome.2.body_eq found]; exact definition.blank_isDeclaration⟩
  | true =>
    cases known : s.anonymous.get? (s.library, index) with
    | some old =>
      cases (declareTypeInfo_of_known name definition.blank zero known).symm.trans declared
      obtain ⟨node, found, _⟩ := sound.unnamed known
      exact ⟨_, Graph.node?_modify_self _ found, definition.blank_isDeclaration⟩
    | none =>
      cases (declareTypeInfo_of_unknown name definition.blank zero known).symm.trans declared
      exact ⟨_, Graph.WellFormed.appended
        (s.graph.appends_add none name definition.blank_isDeclaration), definition.blank_isDeclaration⟩

/-- A type info that was built has a node with the body that was built for it. -/
theorem build_seats (sound : s.Sound r) (info : TypeInfo) (index : Nat) (attr : TypeAttr)
    (definition : Definition) (names : NameLookup) :
    ∃ id, s.Seats index id (left (build info index attr definition names s)) ∧
      (left (build info index attr definition names s)).graph.IsDeclared id := by
  obtain ⟨id, t, placed, builtAt⟩ := slot_builtAt sound info index attr definition
  obtain ⟨⟨body, issues⟩, u, built⟩ := Succeeds.body info names attr definition t
  have declares : body.isDeclaration = true := by
    have slotted := slot_advance sound info index attr definition
    rw [placed] at slotted
    have outcome := body_advance slotted.1.sound info names attr definition
    rw [built] at outcome
    exact outcome.2.declares
  have resolved := (Resolving.body info names attr definition).resolved t
  rw [built] at resolved
  have seats := builtAt.seats.resolved resolved
  obtain ⟨node, found⟩ := seats.node
  have ended : left (build info index attr definition names s) = Assembler.settled
      { u with graph := u.graph.modify id (described info attr body) } id issues := by
    rw [build_eq_settling]
    rcases settling_cases (filled_eq placed built) with run | ⟨fault, run⟩
    · rw [run]
      rfl
    · rw [run]
      rfl
  rw [ended]
  exact ⟨id, (seats.modify _).modify _,
    _, Graph.node?_modify_self _ (Graph.node?_modify_self _ found), declares⟩

theorem Assembler.Draws.lasts {iid : Guid} (draws : s.Draws iid (s.host iid) t) (sound : s.Sound r) :
    s.graph.Lasts t.graph := by
  refine .of_spared draws.grows fun {j node} found fixed => ⟨node, ?_, rfl⟩
  refine draws.untouched found (fun own => ?_) fun among => ?_
  · cases known : s.graph.findGuid? iid with
    | some id =>
      rw [host_of_known known] at own
      exact fixed (own ▸ (sound.graph.isSlot_of_guid known).editable)
    | none =>
      rw [Assembler.host, known, Option.getD_none] at own
      exact Nat.lt_irrefl _ (own ▸ Graph.lt_size_of_node? found)
  · exact fixed (sound.records.isRecord iid j among).editable

theorem external_lasts {g : Graph} (wf : g.WellFormed (Policy.unrestricted.regime a)) (guid : Guid)
    (name : String) (body : Body) : g.Lasts (g.external guid name body).2 := by
  have grows : g.Grows (g.external guid name body).2 :=
    (Graph.external_advance guid name wf (fun _ _ _ => trivial) fun _ _ _ bounded => bounded.elim).1.grows
  refine .of_spared grows fun {j node} found fixed => ?_
  cases known : g.findGuid? guid with
  | some id =>
    have other : id ≠ j := fun same => fixed (same ▸ (wf.isSlot_of_guid known).editable)
    rw [Graph.external_of_found name body known]
    exact ⟨node, (Graph.node?_modify_of_ne _ other).trans found, rfl⟩
  | none =>
    refine ⟨node, ?_, rfl⟩
    rw [(Graph.appends_external name body known).node_eq,
      if_neg (Nat.ne_of_lt (Graph.lt_size_of_node? found)), found]

theorem resolve_lasts (sound : s.Sound r) (info : TypeInfo) (desc : TypeDesc) :
    s.graph.Lasts (left (resolve info desc s)).graph := by
  refine .of_spared (resolve_advance info desc sound).left.graph.grows fun found _ => ?_
  obtain ⟨node', found', alike⟩ := ((Resolving.resolve info desc).resolved s).alike found
  exact ⟨node', found', alike.body⟩

/-! ### Runs -/

namespace Assembler.Regular

/-- A step that only advances keeps the nodes of type infos. -/
theorem advance (regular : a.Regular) (advance : a.Advance (Policy.unrestricted.regime a) b)
    (slots : b.slots = a.slots) (anonymous : b.anonymous = a.anonymous) : b.Regular where
  ordered := regular.ordered.advance advance
  inUse := regular.inUse.passes regular.ordered.sound advance.sound advance.graph.grows
    (fun reserved => .inl (advance.reserved reserved)) slots anonymous
  declared known := by
    rw [slots] at known
    exact (regular.declared known).grows advance.graph.grows

/-- Only the graph is taken over. -/
theorem ofGraph (regular : a.Regular) (strict : Bool) : Regular (.ofGraph a.graph strict) where
  ordered := by
    refine ⟨⟨?_, ?_, ?_, ?_, .empty _⟩, fun guarded => guarded.elim⟩
    · exact regular.ordered.sound.graph.loosen fun _ closed => closed.1.elim
    all_goals
      intro _ _ known
      simp [Assembler.ofGraph, Table.get?] at known
  inUse := by
    refine ⟨fun known reserved => ?_, ?_, ?_⟩
    · rcases reserved with gone | ⟨iid, among⟩
      · exact regular.inUse.guid known (.inl gone)
      · simp [Assembler.ofGraph, recordsOf, Table.get?, Table.values, Table.empty] at among
    all_goals
      intro _ _ known
      simp [Assembler.ofGraph, Table.get?] at known
  declared known := by simp [Assembler.ofGraph, Table.get?] at known

theorem begun (regular : a.Regular) (library : Library) : (a.begun library).Regular where
  ordered := ⟨regular.ordered.sound.begun library, fun guarded => guarded.elim⟩
  inUse := ⟨regular.inUse.guid, fun known => by simp [Assembler.begun] at known, regular.inUse.anonymous⟩
  declared known := by simp [Assembler.begun] at known

/-- One step keeps the assembler regular and what is interned. -/
theorem step (regular : a.Regular) (step : a.Step b) : b.Regular ∧ a.graph.Lasts b.graph := by
  have sound := regular.ordered.sound
  cases step with
  | resume strict => exact ⟨regular.ofGraph strict, .refl _⟩
  | begins library => exact ⟨regular.begun library, .refl _⟩
  | place guid index name definition =>
    obtain ⟨id, t, run, seats, _⟩ := place_seats sound guid index name definition
    have advance := place_advance sound guid index name definition
    rw [run] at advance ⊢
    exact ⟨seats.regular regular advance.1 (place_declares sound run),
      seats.lasts sound advance.1.graph.grows⟩
  | build info index attr definition names =>
    have advance := (build_advance sound info index attr definition names).left
    obtain ⟨id, seats, declared⟩ := build_seats sound info index attr definition names
    exact ⟨seats.regular regular advance declared, seats.lasts sound advance.graph.grows⟩
  | resolve info desc =>
    have resolved := (Resolving.resolve info desc).resolved a
    exact ⟨regular.advance (resolve_advance info desc sound).left (by rw [resolved.rest])
      (by rw [resolved.rest]), resolve_lasts sound info desc⟩
  | addProxy bytes iid name names =>
    have respects := Call.respects_unrestricted (.addProxy bytes iid name names) a
    have ordered := Call.run_ordered regular.ordered _ respects
    have inUse := Call.run_inUse regular.ordered regular.inUse (.addProxy bytes iid name names)
    rcases addProxy_cases regular.ordered bytes iid name names with ⟨fault, _, run⟩ | ⟨_, _, draws, _⟩
    · rw [run]
      exact ⟨regular, .refl _⟩
    · refine ⟨⟨ordered, inUse, fun {j id} known => ?_⟩, draws.lasts sound⟩
      rw [draws.slots] at known
      exact (regular.declared known).grows draws.grows
  | external guid name body =>
    have respects := Call.respects_unrestricted (.external guid name body) a
    exact ⟨regular.advance (Call.run_advance regular.ordered respects not_false) rfl rfl,
      external_lasts sound.graph guid name body⟩

end Assembler.Regular

namespace Assembler.Leads

/-- The states passed through are regular, and what was known lasts. -/
theorem regular_and_lasts (leads : a.Leads b) (regular : a.Regular) :
    b.Regular ∧ a.graph.Lasts b.graph := by
  induction leads with
  | refl => exact ⟨regular, .refl _⟩
  | tail _ step ih =>
    obtain ⟨regular', lasts⟩ := ih
    obtain ⟨regular'', further⟩ := regular'.step step
    exact ⟨regular'', lasts.trans further⟩

theorem regular {strict : Bool} (leads : Leads { strict } a) : a.Regular :=
  (leads.regular_and_lasts (start_regular strict)).1

end Assembler.Leads

end ComTypes

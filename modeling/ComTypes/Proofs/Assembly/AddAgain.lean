import ComTypes.Proofs.Assembly.Redeclare
import ComTypes.Proofs.Assembly.Run
import Mathlib.Data.List.ReduceOption

/-!
# Adding a library again

Outside strict mode a library can be added a second time and nothing changes
(`addLibrary_again`). The first pass of the second run finds the node that the first run has declared
for each type info and resets it. From there on the second pass is replayed, and it ends with the nodes
that the first run has left.
-/

namespace ComTypes

open Assembler Assemble

variable {α β : Type} {s t u : Assembler} {id : TypeId}

/-! ### The second pass -/

/-- The step ends with a value in every state. -/
def Succeeds (step : Assemble α) : Prop := ∀ s, ∃ value t, step s = .ok value t

theorem Succeeds.pure (value : α) : Succeeds (pure value : Assemble α) := fun s => ⟨value, s, rfl⟩

theorem Succeeds.bind {step : Assemble α} {next : α → Assemble β} (first : Succeeds step)
    (rest : ∀ value, Succeeds (next value)) : Succeeds (step >>= next) := by
  intro s
  obtain ⟨value, t, run⟩ := first s
  obtain ⟨value', u, run'⟩ := rest value t
  exact ⟨value', u, (ok_bind run next).trans run'⟩

theorem Succeeds.attempt (step : Assemble α) : Succeeds (attempt step) := by
  intro s
  unfold Assemble.attempt
  cases step s with
  | ok value t => exact ⟨_, t, rfl⟩
  | error fault t => exact ⟨_, t, rfl⟩

theorem Succeeds.foldlM {γ : Type} {step : α → γ → Assemble α} {items : List γ} {initial : α}
    (each : ∀ value item, Succeeds (step value item)) : Succeeds (items.foldlM step initial) := by
  induction items generalizing initial with
  | nil => exact .pure initial
  | cons item rest ih =>
    rw [List.foldlM_cons]
    exact .bind (each initial item) fun value => ih

/-- Members that cannot be built are listed as issues, so collecting them does not fail. -/
theorem Succeeds.collect (count : Nat) (build : Nat → Assemble α) :
    Succeeds (collect count build) := by
  refine .bind (.foldlM fun kept index => ?_) fun result => .pure _
  refine .bind (.attempt (build index)) fun outcome => ?_
  cases outcome with
  | ok member => exact .pure _
  | error fault => exact .pure _

theorem Succeeds.contained (step : Assemble α) : Succeeds (contained step) := by
  refine .bind (.attempt step) fun outcome => ?_
  cases outcome with
  | ok value => exact .pure _
  | error fault => exact .pure _

/-- Whatever fails inside a body becomes an issue of the type. -/
theorem Succeeds.body (info : TypeInfo) (names : NameLookup) (attr : TypeAttr)
    (definition : Definition) : Succeeds (body info names attr definition) := by
  cases definition with
  | enumeration => exact .bind (.collect _ _) fun result => .pure _
  | record layout => exact .bind (.collect _ _) fun result => .pure _
  | interface dispatch =>
    rw [body_interface]
    have bases : Succeeds (declaredBase info) := by
      unfold declaredBase
      cases info.implTypes.head? with
      | some implemented => exact .contained _
      | none => exact .pure _
    exact .bind bases fun base => .bind (.collect _ _) fun result => .pure _
  | typedef target => exact .bind (.contained _) fun result => .pure _

/-- Outside strict mode the issues are recorded and the step goes on. -/
theorem settle_lenient (lenient : s.strict = false) (issues : List Issue) :
    settle id issues s = .ok () { s with
      graph := s.graph.modify id fun node => { node with state := .ofIssues issues } } := by
  unfold settle modifyNode
  rw [modify_bind, get_bind, lenient]
  rfl

/-- Outside strict mode a placed type info is built, whatever its members do. -/
theorem build_ok (steady : s.Steady) {info : TypeInfo} (named : info.NamesExternals) {index : Nat}
    {attr : TypeAttr} (placed : Placed attr.guid index id s) (definition : Definition)
    (names : NameLookup) : ∃ t, build info index attr definition names s = .ok id t := by
  obtain ⟨t, declared⟩ : ∃ t, slot info index attr definition s = .ok id t :=
    slot_placed steady placed definition
  have steady_t : t.Steady := (Repeats.slot steady placed definition).ended declared |>.1
  obtain ⟨result, u, built⟩ := Succeeds.body info names attr definition t
  have steady_u : u.Steady := (Repeats.body steady_t named names attr definition).ended built |>.1
  unfold build modifyNode
  rw [ok_bind declared, ok_bind built]
  dsimp only
  rw [modify_bind]
  refine ⟨_, ok_bind (settle_lenient ?_ result.2) _⟩
  exact steady_u.lenient

/-- Build the type infos that have been enlisted. -/
def buildAll (entries : List Enlisted) : Assemble (List TypeId) :=
  entries.mapM fun (info, index, attr, definition) => build info index attr definition info.lookup

/-- Each of the type infos has its node. -/
def AllPlaced (entries : List Enlisted) (s : Assembler) : Prop :=
  ∀ entry ∈ entries, ∃ id, Placed entry.2.2.1.guid entry.2.1 id s

theorem AllPlaced.later {entries : List Enlisted} (placed : AllPlaced entries s) (later : s.Later t) :
    AllPlaced entries t := by
  intro entry member
  obtain ⟨id, here⟩ := placed entry member
  exact ⟨id, here.later later⟩

/-- The second pass is replayed, and ends with the same nodes for its type infos. -/
theorem Replays.buildAll {entries : List Enlisted} (steady : s.Steady)
    (named : ∀ entry ∈ entries, entry.1.NamesExternals) (placed : AllPlaced entries s) :
    Replays (fun j => ∃ entry ∈ entries, s.slots.get? entry.2.1 = some j) (buildAll entries) s := by
  induction entries generalizing s with
  | nil =>
    refine (Repeats.pure steady []).mono fun j gain => ?_
    obtain ⟨entry, member, _⟩ := gain
    cases member
  | cons entry rest ih =>
    obtain ⟨id, here⟩ := placed entry List.mem_cons_self
    unfold ComTypes.buildAll
    rw [List.mapM_cons]
    have first : Replays (· = id)
        (Assemble.build entry.1 entry.2.1 entry.2.2.1 entry.2.2.2 entry.1.lookup) s :=
      .build steady (named entry List.mem_cons_self) here _ _
    have others : ∀ t, t.Steady → s.Later t →
        Replays (fun j => ∃ entry ∈ rest, s.slots.get? entry.2.1 = some j)
          (ComTypes.buildAll rest) t := by
      intro t steady later
      have again := ih steady (fun entry member => named entry (List.mem_cons_of_mem _ member))
        fun entry member => placed.later later entry (List.mem_cons_of_mem _ member)
      simpa only [later.slots] using again
    refine (Replays.bind first fun value t _ steady later => Replays.bind (others t steady later)
      fun values u _ steady _ => Repeats.pure steady _).mono fun j gain => ?_
    obtain ⟨other, member, slot⟩ := gain
    rcases List.mem_cons.mp member with rfl | member
    · exact .inl (Option.some.inj (slot.symm.trans here.slot))
    · exact .inr (.inl ⟨other, member, slot⟩)

/-- Each type info in turn finds its node where it was declared. -/
theorem buildAll_ok {entries : List Enlisted} (steady : s.Steady)
    (named : ∀ entry ∈ entries, entry.1.NamesExternals) (placed : AllPlaced entries s) :
    ∃ ids t, buildAll entries s = .ok ids t := by
  induction entries generalizing s with
  | nil => exact ⟨[], s, rfl⟩
  | cons entry rest ih =>
    obtain ⟨id, here⟩ := placed entry List.mem_cons_self
    have usable := named entry List.mem_cons_self
    obtain ⟨t, run⟩ := build_ok steady usable here entry.2.2.2 entry.1.lookup
    obtain ⟨steady', later⟩ := (Replays.build steady usable here entry.2.2.2 entry.1.lookup).ended run
    obtain ⟨ids, u, run'⟩ := ih steady' (fun entry member => named entry (List.mem_cons_of_mem _ member))
      fun entry member => placed.later later entry (List.mem_cons_of_mem _ member)
    refine ⟨id :: ids, u, ?_⟩
    unfold buildAll
    rw [List.mapM_cons, ok_bind run]
    exact ok_bind run' _

/-! ### The first pass -/

/-- What enlisting a type info does, in both runs. -/
structure Enlists (info : TypeInfo) (index : Nat) (s : Assembler) (outcome : Option Enlisted)
    (t : Assembler) : Prop where
  redoes : Redoes (enlist info index) s outcome t
  placed : ∀ {entry}, outcome = some entry → entry.1 = info ∧ entry.2.1 = index ∧
    ∃ id, Placed entry.2.2.1.guid index id t
  others : ∀ {j}, j ≠ index → t.slots.get? j = s.slots.get? j
  slots : ∀ {j id}, t.slots.get? j = some id →
    s.slots.get? j = some id ∨ ∃ entry, outcome = some entry ∧ entry.2.1 = j

theorem Definition.blank_isDeclaration (definition : Definition) :
    definition.blank.isDeclaration = true := by
  cases definition <;> rfl

/-- A type info that is not slotted yet is passed over or gets its node. -/
theorem exists_enlists (steady : s.Steady) (info : TypeInfo) {index : Nat}
    (fresh : s.slots.get? index = none) : ∃ outcome t, Enlists info index s outcome t := by
  cases header : info.header with
  | error fault =>
    have passed : ∀ {a : Assembler}, a.strict = false → enlist info index a = .ok none a := by
      intro a lenient
      unfold enlist
      rw [header]
      dsimp only
      rw [get_bind, lenient]
      rfl
    have redoes : Redoes (enlist info index) s none s := by
      refine ⟨passed steady.lenient, steady, (Later.refl s).carries, fun {f s'} _ echoes => ?_⟩
      exact ⟨s', passed (echoes.strict.trans steady.lenient), echoes⟩
    exact ⟨none, s, redoes, (fun {entry} same => by cases same), fun _ => rfl,
      fun known => .inl known⟩
  | ok found =>
    obtain ⟨id, t, redoes, placed, slots⟩ := exists_place steady found.1.guid fresh info.name
      found.2.blank_isDeclaration
    have through : ∀ {a b : Assembler},
        place found.1.guid index info.name found.2.blank a = .ok id b →
        enlist info index a = .ok (some (info, index, found)) b := by
      intro a b run
      unfold enlist
      rw [header]
      dsimp only
      unfold place at run
      cases declared : declareTypeInfo found.1.guid index info.name found.2.blank a with
      | ok value c =>
        rw [ok_bind declared, modify_bind] at run ⊢
        cases run
        rfl
      | error fault c =>
        simp only [bind, EStateM.bind, declared] at run
        cases run
    have again : Redoes (enlist info index) s (some (info, index, found)) t := by
      refine ⟨through redoes.run, redoes.steady, redoes.carries, fun {f s'} carries echoes => ?_⟩
      obtain ⟨t', run, echoes'⟩ := redoes.again carries echoes
      exact ⟨t', through run, echoes'⟩
    refine ⟨_, t, again, fun {entry} same => ?_, fun {j} other => ?_, fun {j id} known => ?_⟩
    · cases same
      exact ⟨rfl, rfl, id, placed⟩
    · rw [slots, Table.get?_insert, if_neg other]
    · rw [slots, Table.get?_insert] at known
      split at known
      next same => exact .inr ⟨_, rfl, same.symm⟩
      next => exact .inl known

/-- Enlist the type infos that stand from a given position on. -/
def enlistAll (infos : List TypeInfo) (first : Nat) : Assemble (List (Option Enlisted)) :=
  (infos.zipIdx first).mapM fun (info, index) => enlist info index

/-- What enlisting type infos one after the other does, in both runs. -/
structure EnlistsAll (infos : List TypeInfo) (first : Nat) (s : Assembler)
    (outcomes : List (Option Enlisted)) (t : Assembler) : Prop where
  redoes : Redoes (enlistAll infos first) s outcomes t
  placed : ∀ {entry}, some entry ∈ outcomes → entry.1 ∈ infos ∧
    ∃ id, Placed entry.2.2.1.guid entry.2.1 id t
  others : ∀ {j}, j < first → t.slots.get? j = s.slots.get? j
  slots : ∀ {j id}, t.slots.get? j = some id →
    s.slots.get? j = some id ∨ ∃ entry, some entry ∈ outcomes ∧ entry.2.1 = j

theorem exists_enlistsAll (steady : s.Steady) (infos : List TypeInfo) (first : Nat)
    (fresh : ∀ {j}, first ≤ j → s.slots.get? j = none) :
    ∃ outcomes t, EnlistsAll infos first s outcomes t := by
  induction infos generalizing s first with
  | nil =>
    have redoes : Redoes (enlistAll [] first) s [] s :=
      ⟨rfl, steady, (Later.refl s).carries, fun _ echoes => ⟨_, rfl, echoes⟩⟩
    exact ⟨[], s, redoes, (fun {entry} member => by cases member), fun _ => rfl,
      fun known => .inl known⟩
  | cons info rest ih =>
    obtain ⟨outcome, t, here⟩ := exists_enlists steady info (fresh (Nat.le_refl first))
    have fresh' : ∀ {j}, first + 1 ≤ j → t.slots.get? j = none := by
      intro j beyond
      rw [here.others (by omega)]
      exact fresh (by omega)
    obtain ⟨outcomes, u, others⟩ := ih here.redoes.steady (first + 1) fresh'
    have through : ∀ {a b c : Assembler}, enlist info first a = .ok outcome b →
        enlistAll rest (first + 1) b = .ok outcomes c →
        enlistAll (info :: rest) first a = .ok (outcome :: outcomes) c := by
      intro a b c run run'
      unfold enlistAll
      rw [List.zipIdx_cons, List.mapM_cons, ok_bind run]
      exact ok_bind run' _
    have redoes : Redoes (enlistAll (info :: rest) first) s (outcome :: outcomes) u := by
      refine ⟨through here.redoes.run others.redoes.run, others.redoes.steady,
        here.redoes.carries.trans others.redoes.carries, fun {f s'} carries echoes => ?_⟩
      obtain ⟨t', run, echoes'⟩ := here.redoes.again (others.redoes.carries.trans carries) echoes
      obtain ⟨u', run', echoes''⟩ := others.redoes.again carries echoes'
      exact ⟨u', through run run', echoes''⟩
    refine ⟨_, u, redoes, fun {entry} member => ?_, fun {j} before => ?_, fun {j id} known => ?_⟩
    · rcases List.mem_cons.mp member with same | member
      · obtain ⟨rfl, rfl, id, placed⟩ := here.placed same.symm
        refine ⟨List.mem_cons_self, id, placed.toKnown.carries others.redoes.carries, ?_⟩
        rw [others.others (Nat.lt_succ_self _)]
        exact placed.slot
      · obtain ⟨among, placed⟩ := others.placed member
        exact ⟨List.mem_cons_of_mem _ among, placed⟩
    · rw [others.others (by omega), here.others (by omega)]
    · rcases others.slots known with earlier | ⟨entry, member, same⟩
      · rcases here.slots earlier with before | ⟨entry, made, same⟩
        · exact .inl before
        · exact .inr ⟨entry, made ▸ List.mem_cons_self, same⟩
      · exact .inr ⟨entry, List.mem_cons_of_mem _ member, same⟩

/-! ### Both passes -/

/-- Callers may hand in any bodies. -/
def Policy.unrestricted : Policy where
  handed _ := True
  bounded := False
  guarded := False
  bounded_of_guarded guarded := guarded

theorem Call.respects_unrestricted (call : Call) (a : Assembler) : call.Respects .unrestricted a := by
  cases call with
  | external guid name body => exact fun _ => ⟨trivial, fun _ _ bounded => bounded.elim⟩
  | addProxy bytes iid name names => exact fun guarded => guarded.elim
  | addLibrary | addTypeInfo | externalInterface => trivial

theorem Reachable.in_order {a : Assembler} (run : Reachable (fun _ _ => True) a) :
    a.Ordered .unrestricted :=
  (run.mono fun a call _ => call.respects_unrestricted a).ordered

theorem Reachable.sound {a : Assembler} (run : Reachable (fun _ _ => True) a) :
    a.Sound (Policy.unrestricted.regime a) := run.in_order.sound

/-- The state in which a library begins. -/
def Assembler.begun (a : Assembler) (library : Library) : Assembler :=
  { a with slots := .empty, library := (library.libid, library.name) }

/-- A library starts without slots. -/
theorem Assembler.not_slotted_begun (a : Assembler) (library : Library) :
    ¬ (a.begun library).Slotted id := by
  rintro ⟨index, slot⟩
  simp [begun] at slot

theorem Assembler.Sound.begun {r : Regime} {a : Assembler} (sound : a.Sound r) (library : Library) :
    (a.begun library).Sound r where
  graph := sound.graph
  slots stored := by simp [Assembler.begun] at stored
  anonymous := sound.anonymous
  unnamed := sound.unnamed
  records := sound.records

theorem Assembler.Sound.steady {r : Regime} {a : Assembler} (sound : a.Sound r)
    (lenient : a.strict = false) (library : Library) : (a.begun library).Steady where
  lenient := lenient
  guid known := ((sound.graph.findGuid_iff _ _).mp known).2
  anonymous := sound.unnamed
  slotted slotted := absurd slotted (a.not_slotted_begun library)

/-- Adding a library first enlists its type infos and then builds those that were enlisted. -/
theorem addLibrary_eq (library : Library) (a : Assembler) :
    addLibrary library a =
      (enlistAll library.types 0 >>= fun outcomes => buildAll outcomes.reduceOption)
        (a.begun library) := rfl

/-- A state that has taken the library begins with it again. -/
theorem echoes_begun {a b : Assembler} (library : Library) (strict : b.strict = a.strict) :
    Echoes b (a.begun library) (b.begun library) where
  slots := rfl
  library := rfl
  strict := strict
  anonymous := rfl
  byGuid := rfl
  byStructure := rfl
  size := rfl
  others _ := rfl
  agree slotted := absurd slotted (a.not_slotted_begun library)
  marks found := ⟨_, found, rfl, fun _ _ => rfl⟩

/-- The second run ends with the graph of the first, if the nodes of the type infos are the same. -/
theorem Echoes.graph_eq {b c : Assembler} (echoes : Echoes b b c)
    (same : ∀ {id}, b.Slotted id → c.graph.node? id = b.graph.node? id) : c.graph = b.graph := by
  have nodes : c.graph.nodes = b.graph.nodes := by
    apply Array.ext_getElem?
    intro id
    show c.graph.node? id = b.graph.node? id
    by_cases slotted : b.Slotted id
    · exact same slotted
    · exact echoes.others slotted
  exact Graph.eq_of_fields nodes echoes.byGuid echoes.byStructure

/-- Outside strict mode, adding a library again right away gives the same ids and leaves the graph as
it is, if the types that it refers to elsewhere have GUIDs. -/
theorem addLibrary_again {a : Assembler} (run : Reachable (fun _ _ => True) a)
    (lenient : a.strict = false) (library : Library)
    (named : ∀ info ∈ library.types, info.NamesExternals) :
    ∃ ids b c, addLibrary library a = .ok ids b ∧ addLibrary library b = .ok ids c ∧
      c.graph = b.graph := by
  have start : (a.begun library).Steady := run.sound.steady lenient library
  obtain ⟨outcomes, t, enlists⟩ := exists_enlistsAll start library.types 0 fun {j} _ => by
    simp [begun]
  have member : ∀ {entry}, entry ∈ outcomes.reduceOption → some entry ∈ outcomes :=
    fun among => List.reduceOption_mem_iff.mp among
  have steady := enlists.redoes.steady
  have usable : ∀ entry ∈ outcomes.reduceOption, entry.1.NamesExternals :=
    fun entry among => named _ (enlists.placed (member among)).1
  have placed : AllPlaced outcomes.reduceOption t :=
    fun entry among => (enlists.placed (member among)).2
  obtain ⟨ids, b, built⟩ := buildAll_ok steady usable placed
  have replays := Replays.buildAll steady usable placed
  obtain ⟨steady_b, later⟩ := replays.ended built
  have ended : (left (buildAll outcomes.reduceOption t)).Later b := by
    rw [built]
    exact .refl b
  -- The second run, pass by pass.
  obtain ⟨t', enlisted, echoes⟩ := enlists.redoes.again later.carries
    (echoes_begun library (steady_b.lenient.trans lenient.symm))
  obtain ⟨c, rebuilt, echoes', same⟩ := replays.again ended echoes
  rw [built] at rebuilt echoes' same
  refine ⟨ids, b, c, ?_, ?_, Echoes.graph_eq echoes' fun {id} slotted => ?_⟩
  · rw [addLibrary_eq, ok_bind enlists.redoes.run, built]
  · rw [addLibrary_eq, ok_bind enlisted, rebuilt]
    rfl
  · have before : t.Slotted id := later.slotted_iff.mp slotted
    obtain ⟨index, slot⟩ := before
    obtain ⟨entry, among, rfl⟩ := (enlists.slots slot).resolve_left fun known => by
      simp [begun] at known
    exact same id ⟨_, slot⟩ (.inl ⟨⟨entry, List.reduceOption_mem_iff.mpr among, slot⟩, trivial⟩)

/-- A definition of a pointer to the type that is referred to. -/
def pointerInfo (guid : Guid) (target : TypeReference) : TypeInfo where
  documentation := { name := "Handle" }
  attr := TypeAttr.encode
    { guid, lcid := 0, shape := .typedef (.pointer (.userDefined 0)), flags := 0, funcs := 0, vars := 0
      implTypes := 0, sizeVft := 0, sizeInstance := 0, alignment := 0, majorVersion := 0
      minorVersion := 0 }
  funcs := []
  vars := []
  implTypes := []
  references := Dict.empty.insert 0 target
  names := .empty
  memberDocs := .empty
  customData := []

theorem pointerInfo_namesExternals (guid : Guid) {target : TypeReference}
    (named : ∀ other name kind, target = .external other name kind → other.isZero = false) :
    (pointerInfo guid target).NamesExternals := by
  intro href other name kind found
  simp [pointerInfo, Dict.get?, Dict.insert, Dict.empty, Dict.place] at found
  exact named other name kind found.2

/-- Two type infos share a GUID, with a forward and a cyclic reference. One has no GUID and refers
elsewhere, and one has no attributes. -/
def mixedLibrary : Library where
  libid := .ofBytes [9]
  version := (1, 0)
  name := "Mixed"
  docString := ""
  types :=
    [pointerInfo (.ofBytes [1]) (.within 2), pointerInfo (.ofBytes [1]) (.within 1),
      pointerInfo .zero (.external (.ofBytes [2]) "IOther" .vtable),
      { pointerInfo .zero (.within 0) with attr := [] }]

theorem mixedLibrary_again :
    ∃ ids b c, addLibrary mixedLibrary {} = .ok ids b ∧ addLibrary mixedLibrary b = .ok ids c ∧
      c.graph = b.graph := by
  apply addLibrary_again (.start false) rfl
  simp only [mixedLibrary, List.forall_mem_cons]
  refine ⟨?_, ?_, ?_, ?_, by simp⟩
  · exact pointerInfo_namesExternals _ fun _ _ _ same => by cases same
  · exact pointerInfo_namesExternals _ fun _ _ _ same => by cases same
  · apply pointerInfo_namesExternals
    rintro _ _ _ ⟨⟩
    decide
  · have named : (pointerInfo .zero (.within 0)).NamesExternals :=
      pointerInfo_namesExternals _ fun _ _ _ same => by cases same
    exact named

end ComTypes

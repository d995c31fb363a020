import ComTypes.Proofs.Proxy.Draws

/-!
# Type infos and their nodes

A type info is built into the node that was declared for its position, if that still waits for its body,
and else into the node of its own identity. So it ends up in its own node unless a node of another
identity waits at its position. Only a library that was given up in the middle leaves nodes waiting
(`Reachable.idle`), and that happens in strict mode only. Whatever node is taken, all others are left as
they are (`built_into_own_node`).
-/

namespace ComTypes

open Assembler Assemble

variable {r : Regime} {a b s t u : Assembler} {id : TypeId} {index : Nat}

/-! ### Nodes that a step leaves alone -/

/-- Nodes are as they were, but for their names and for those that may be touched. -/
def Assembler.Spares (touched : TypeId → Prop) (s t : Assembler) : Prop :=
  ∀ j node, ¬ touched j → s.graph.node? j = some node →
    ∃ node', t.graph.node? j = some node' ∧ node.Alike node'

namespace Assembler.Spares

variable {touched : TypeId → Prop}

theorem trans (first : s.Spares touched t) (second : t.Spares touched u) : s.Spares touched u := by
  intro j node spared found
  obtain ⟨node', found', alike⟩ := first j node spared found
  obtain ⟨node'', found'', alike'⟩ := second j node' spared found'
  exact ⟨node'', found'', alike.trans alike'⟩

theorem of_resolved (resolved : s.Resolved t) : s.Spares touched t :=
  fun _ _ _ found => resolved.alike found

theorem of_modify (among : touched id) {change : Node → Node}
    (graph : t.graph = s.graph.modify id change) : s.Spares touched t := by
  intro j node spared found
  have other : id ≠ j := fun same => spared (same ▸ among)
  exact ⟨node, by rw [graph, Graph.node?_modify_of_ne _ other, found], .refl node⟩

theorem of_appends {new : Node} (appends : s.graph.Appends new t.graph) : s.Spares touched t := by
  intro j node _ found
  refine ⟨node, ?_, .refl node⟩
  rw [appends.node_eq, if_neg (Nat.ne_of_lt (Graph.lt_size_of_node? found)), found]

theorem settled (spares : s.Spares touched t) {j : TypeId} (spared : ¬ touched j)
    (before : s.Settled j) : t.Settled j := by
  obtain ⟨node, found, state⟩ := before
  obtain ⟨node', found', alike⟩ := spares j node spared found
  exact ⟨node', found', by rwa [alike.state]⟩

end Assembler.Spares

/-! ### Giving a type info its node -/

/-- A type info was given a node: one that was known by its GUID, its position or its slot, or a new
one. The node was written down for the position, and others were left alone. -/
structure Assembler.Seats (index : Nat) (id : TypeId) (s t : Assembler) : Prop where
  origin : (∃ guid, s.graph.findGuid? guid = some id) ∨ (∃ key, s.anonymous.get? key = some id) ∨
    (∃ j, s.slots.get? j = some id) ∨ id = s.graph.size
  node : ∃ node, t.graph.node? id = some node
  slots : ∀ j, t.slots.get? j = if j = index then some id else s.slots.get? j
  anonymous : ∀ {key j}, t.anonymous.get? key = some j → s.anonymous.get? key = some j ∨ j = id
  records : t.proxyRecords = s.proxyRecords
  spares : s.Spares (· = id) t

theorem Assembler.Seats.resolved (seats : s.Seats index id t) (resolved : t.Resolved u) :
    s.Seats index id u where
  origin := seats.origin
  node := by
    obtain ⟨node, found⟩ := seats.node
    obtain ⟨node', found', _⟩ := resolved.alike found
    exact ⟨node', found'⟩
  slots j := by rw [resolved.rest, seats.slots]
  anonymous known := seats.anonymous (by rwa [resolved.rest] at known)
  records := by rw [resolved.rest, seats.records]
  spares := seats.spares.trans (.of_resolved resolved)

theorem Assembler.Seats.modify (seats : s.Seats index id t) (change : Node → Node) :
    s.Seats index id { t with graph := t.graph.modify id change } where
  origin := seats.origin
  node := by
    obtain ⟨node, found⟩ := seats.node
    exact ⟨_, Graph.node?_modify_self change found⟩
  slots := seats.slots
  anonymous := seats.anonymous
  records := seats.records
  spares := seats.spares.trans (.of_modify rfl rfl)

/-- The node of a type info was found again. -/
theorem seats_of_known {change : Node → Node} (changed : List Guid)
    (known : (∃ guid, s.graph.findGuid? guid = some id) ∨ ∃ key, s.anonymous.get? key = some id)
    (found : ∃ node, s.graph.node? id = some node) :
    s.Seats index id { s with
      graph := s.graph.modify id change, slots := s.slots.insert index id, changed } where
  origin := known.imp_right .inl
  node := by
    obtain ⟨node, found⟩ := found
    exact ⟨_, Graph.node?_modify_self change found⟩
  slots _ := Table.get?_insert ..
  anonymous stored := .inl stored
  records := rfl
  spares := .of_modify rfl rfl

/-- A type info got a new node. -/
theorem seats_of_new (guid : Option Guid) (name : String) (definition : Definition)
    {anonymous : Table (LibraryKey × Nat) TypeId}
    (known : ∀ {key j}, anonymous.get? key = some j →
      s.anonymous.get? key = some j ∨ j = s.graph.size) :
    s.Seats index s.graph.size { s with
      graph := (s.graph.add guid name definition.blank).2
      slots := s.slots.insert index s.graph.size
      anonymous } where
  origin := .inr (.inr (.inr rfl))
  node := ⟨_, Graph.WellFormed.appended (s.graph.appends_add guid name definition.blank_isDeclaration)⟩
  slots _ := Table.get?_insert ..
  anonymous := known
  records := rfl
  spares := .of_appends (s.graph.appends_add guid name definition.blank_isDeclaration)

theorem place_seats (sound : s.Sound r) (guid : Guid) (index : Nat) (name : String)
    (definition : Definition) :
    ∃ id t, place guid index name definition.blank s = .ok id t ∧ s.Seats index id t ∧
      (guid.isZero = false → t.graph.findGuid? guid = some id) := by
  unfold place
  cases zero : guid.isZero with
  | false =>
    rw [declareTypeInfo_of_nonzero zero]
    have declares : Outcome (s.Advance r) (Declared r guid definition.blank)
        (declare guid name definition.blank s) := declare_advance sound (blank_nameable definition)
    cases known : s.graph.findGuid? guid with
    | some id =>
      obtain ⟨changed, run⟩ := declare_of_known name definition.blank known
      obtain ⟨_, node, found, _⟩ := (sound.graph.findGuid_iff guid id).mp known
      rw [run] at declares
      rw [ok_bind run]
      exact ⟨id, _, rfl, seats_of_known changed (.inl ⟨guid, known⟩) ⟨node, found⟩,
        fun _ => declares.2.indexed zero⟩
    | none =>
      have run := declare_of_unknown name definition.blank known
      rw [run] at declares
      rw [ok_bind run]
      exact ⟨_, _, rfl, seats_of_new (some guid) name definition .inl,
        fun _ => declares.2.indexed zero⟩
  | true =>
    cases known : s.anonymous.get? (s.library, index) with
    | some id =>
      obtain ⟨node, found, _⟩ := sound.unnamed known
      rw [ok_bind (declareTypeInfo_of_known name definition.blank zero known)]
      exact ⟨id, _, rfl, seats_of_known s.changed (.inr ⟨_, known⟩) ⟨node, found⟩, nofun⟩
    | none =>
      rw [ok_bind (declareTypeInfo_of_unknown name definition.blank zero known)]
      refine ⟨_, _, rfl, seats_of_new none name definition fun {key j} stored => ?_, nofun⟩
      rw [Table.get?_insert] at stored
      split at stored
      · exact .inr (Option.some.inj stored).symm
      · exact .inl stored

/-- A node that waits at an index is slotted there, and its body has not been built. -/
theorem of_waiting (waiting : s.waiting? index = some id) :
    s.slots.get? index = some id ∧ ∃ node, s.graph.node? id = some node ∧ node.state = .pending := by
  obtain ⟨slot, pending⟩ := Option.filter_eq_some_iff.mp waiting
  cases found : s.graph.node? id with
  | none => simp [found] at pending
  | some node => exact ⟨slot, node, rfl, by simpa [found] using pending⟩

/-- What building a type info leaves. -/
structure BuiltAt (guid : Guid) (index : Nat) (s : Assembler) (id : TypeId) (t : Assembler) :
    Prop where
  seats : s.Seats index id t
  /-- A node that waited is taken. -/
  waited : ∀ {j}, s.waiting? index = some j → j = id
  /-- Without one, it is the node of the type info's own GUID. -/
  own : s.waiting? index = none → guid.isZero = false → t.graph.findGuid? guid = some id

/-- A type info is built into the node that waits at its index, or else into its own. -/
theorem slot_builtAt (sound : s.Sound r) (info : TypeInfo) (index : Nat) (attr : TypeAttr)
    (definition : Definition) :
    ∃ id t, slot info index attr definition s = .ok id t ∧ BuiltAt attr.guid index s id t := by
  unfold slot
  rw [get_bind]
  cases waiting : s.waiting? index with
  | some id =>
    obtain ⟨slotted, node, found, _⟩ := of_waiting waiting
    have seats : s.Seats index id s := by
      refine ⟨.inr (.inr (.inl ⟨index, slotted⟩)), ⟨node, found⟩, fun j => ?_, .inl, rfl,
        .of_resolved (.refl s)⟩
      split
      next same => rw [same, slotted]
      next => rfl
    refine ⟨id, s, ?_, seats, fun again => ?_, fun none => ?_⟩
    · unfold waiting? at waiting
      rw [waiting]
      rfl
    · exact Option.some.inj (again.symm.trans waiting)
    · cases waiting.symm.trans none
  | none =>
    obtain ⟨id, t, run, seats, indexed⟩ := place_seats sound attr.guid index info.name definition
    refine ⟨id, t, ?_, seats, fun some => ?_, fun _ => indexed⟩
    · unfold waiting? at waiting
      rw [waiting]
      exact run
    · cases waiting.symm.trans some

theorem build_builtAt (sound : s.Sound r) (info : TypeInfo) (index : Nat) (attr : TypeAttr)
    (definition : Definition) (names : NameLookup) :
    ∃ id t, BuiltAt attr.guid index s id t ∧ t.Settled id ∧
      (build info index attr definition names s = .ok id t ∨
        ∃ fault, build info index attr definition names s = .error fault t) := by
  obtain ⟨id, t, placed, builtAt⟩ := slot_builtAt sound info index attr definition
  obtain ⟨⟨body, issues⟩, u, built⟩ := Succeeds.body info names attr definition t
  have resolved := (Resolving.body info names attr definition).resolved t
  rw [built] at resolved
  have seats := (builtAt.seats.resolved resolved).modify (described info attr body)
  obtain ⟨node, found⟩ := seats.node
  have ended : Assembler.Ended (Assembler.settled _ id issues) id := ended_settled found
  obtain ⟨last, found_last, state, _⟩ := ended
  refine ⟨id, _, ⟨seats.modify _, builtAt.waited, fun none nonzero => ?_⟩,
    ⟨last, found_last, state⟩, ?_⟩
  · exact resolved.guid (builtAt.own none nonzero)
  · rw [build_eq_settling]
    exact settling_cases (filled_eq placed built)

/-! ### Type infos and records of proxies -/

/-- No type info has the node of a record of a proxy. -/
structure Assembler.Apart (a : Assembler) : Prop where
  slots : ∀ {index id}, a.slots.get? index = some id → ¬ a.Recorded id
  anonymous : ∀ {key id}, a.anonymous.get? key = some id → ¬ a.Recorded id

/-- Every type info of the library that has a node has been built. -/
def Assembler.Idle (a : Assembler) : Prop :=
  ∀ index id, a.slots.get? index = some id → a.Settled id

/-- When nothing is under way, no node waits. -/
theorem Assembler.Idle.waiting?_eq_none (idle : a.Idle) (index : Nat) : a.waiting? index = none := by
  cases waiting : a.waiting? index with
  | none => rfl
  | some id =>
    obtain ⟨slotted, node, found, pending⟩ := of_waiting waiting
    obtain ⟨node', found', settled⟩ := idle index id slotted
    cases found.symm.trans found'
    exact absurd pending settled

namespace Assembler.Seats

theorem apart (seats : s.Seats index id t) (sound : s.Sound r) (apart : s.Apart) : t.Apart := by
  have recorded : t.Recorded = s.Recorded := by
    unfold Recorded
    rw [seats.records]
  have free : ¬ s.Recorded id := by
    rcases seats.origin with ⟨guid, known⟩ | ⟨key, known⟩ | ⟨j, known⟩ | new
    · exact sound.not_recorded_of_guid known
    · exact apart.anonymous known
    · exact apart.slots known
    · exact fun among => absurd (sound.recorded_lt among) (new ▸ Nat.lt_irrefl _)
  refine ⟨fun {j other} stored => ?_, fun {key other} stored => ?_⟩
  · rw [recorded]
    rw [seats.slots] at stored
    split at stored
    · cases stored
      exact free
    · exact apart.slots stored
  · rw [recorded]
    rcases seats.anonymous stored with old | rfl
    · exact apart.anonymous old
    · exact free

/-- A node that is settled stays so while another type info is built. -/
theorem settled (seats : s.Seats index id t) (here : t.Settled id) {j : TypeId}
    (before : s.Settled j) : t.Settled j := by
  by_cases same : j = id
  · exact same ▸ here
  · exact seats.spares.settled same before

theorem idle (seats : s.Seats index id t) (here : t.Settled id) (idle : s.Idle) : t.Idle := by
  intro j other stored
  rw [seats.slots] at stored
  split at stored
  · cases stored
    exact here
  · exact seats.settled here (idle j other stored)

end Assembler.Seats

/-! ### Libraries -/

section Keeps

variable {P : Assembler → Prop}

/-- What seating a node keeps is kept by enlisting a type info. -/
theorem enlist_keeps (keeps : ∀ {s t index id}, s.Sound r → s.Advance r t → s.Seats index id t → P s → P t)
    (sound : s.Sound r) (holds : P s) (info : TypeInfo) (index : Nat) :
    Outcome (fun t => t.Sound r ∧ P t) (fun _ _ => True) (enlist info index s) := by
  have advance := enlist_advance sound info index
  cases header : info.header with
  | ok found =>
    obtain ⟨id, t, run, seats, _⟩ := place_seats sound found.1.guid index info.name found.2
    rw [enlist_eq index header, ok_bind run] at advance ⊢
    exact Outcome.of_pure ⟨advance.1.sound, keeps sound advance.1 seats holds⟩ trivial
  | error fault =>
    unfold enlist
    rw [header]
    refine Outcome.of_get ?_
    dsimp only
    split
    · exact ⟨sound, holds⟩
    · exact Outcome.of_pure ⟨sound, holds⟩ trivial

theorem build_keeps (keeps : ∀ {s t index id}, s.Sound r → s.Advance r t → s.Seats index id t → P s → P t)
    (sound : s.Sound r) (holds : P s) (info : TypeInfo) (index : Nat) (attr : TypeAttr)
    (definition : Definition) (names : NameLookup) :
    Outcome (fun t => t.Sound r ∧ P t) (fun _ _ => True)
      (build info index attr definition names s) := by
  have advance := build_advance sound info index attr definition names
  obtain ⟨id, t, builtAt, _, run | ⟨fault, run⟩⟩ :=
    build_builtAt sound info index attr definition names
  · rw [run] at advance ⊢
    exact ⟨⟨advance.1.sound, keeps sound advance.1 builtAt.seats holds⟩, trivial⟩
  · rw [run] at advance ⊢
    exact ⟨advance.sound, keeps sound advance builtAt.seats holds⟩

/-- What holds at the start of a library and is kept whenever a type info is given its node holds in the
end. -/
theorem addLibrary_keeps
    (keeps : ∀ {s t index id}, s.Sound r → s.Advance r t → s.Seats index id t → P s → P t)
    (sound : a.Sound r) {library : Library} (start : P (a.begun library)) :
    Outcome P (fun _ _ => True) (addLibrary library a) := by
  have progress : Progress fun _ t : Assembler => t.Sound r ∧ P t := ⟨fun _ h => h, fun h => h⟩
  have first : Outcome (fun t => t.Sound r ∧ P t) (fun _ _ => True)
      (enlistAll library.types 0 (a.begun library)) :=
    progress.mapM_reached ⟨sound.begun library, start⟩ fun item _ t kept =>
      enlist_keeps keeps kept.1 kept.2 item.1 item.2
  have both : Outcome (fun t => t.Sound r ∧ P t) (fun _ _ => True) (addLibrary library a) := by
    rw [addLibrary_eq]
    refine first.bind fun outcomes t kept _ => progress.mapM_reached kept fun entry _ u kept => ?_
    exact build_keeps keeps kept.1 kept.2 entry.1 entry.2.1 entry.2.2.1 entry.2.2.2 entry.1.lookup
  exact both.imp (fun _ h => h.2) fun _ _ _ h => h

end Keeps

theorem addLibrary_apart (sound : a.Sound r) (apart : a.Apart) (library : Library) :
    Outcome Apart (fun _ _ => True) (addLibrary library a) :=
  addLibrary_keeps (fun sound _ seats apart => seats.apart sound apart) sound
    ⟨fun {_ _} stored => by simp [begun] at stored, apart.anonymous⟩

theorem enlistAll_advance (sound : s.Sound r) (infos : List TypeInfo) (first : Nat) :
    Outcome (s.Advance r) (fun _ _ => True) (enlistAll infos first s) :=
  (advance_progress r).mapM_reached (.refl sound) fun item _ _ before =>
    enlist_advance before.sound item.1 item.2

/-- The first pass writes down nodes for the type infos that it enlists. -/
theorem enlistAll_slots {infos : List TypeInfo} {first : Nat} {outcomes : List (Option Enlisted)}
    (sound : s.Sound r) (run : enlistAll infos first s = .ok outcomes t) {j : Nat}
    (slotted : t.slots.get? j = some id) :
    s.slots.get? j = some id ∨ ∃ entry ∈ outcomes.reduceOption, entry.2.1 = j := by
  induction infos generalizing s first outcomes with
  | nil =>
    cases run
    exact .inl slotted
  | cons info rest ih =>
    unfold enlistAll at run
    rw [List.zipIdx_cons, List.mapM_cons] at run
    obtain ⟨outcome, u, here, run⟩ := exists_of_bind_ok run
    obtain ⟨later, v, there, ended⟩ := exists_of_bind_ok run
    have here : enlist info first s = .ok outcome u := here
    have advance := enlist_advance sound info first
    rw [here] at advance
    cases ended
    rcases ih advance.1.sound there with before | ⟨entry, member, same⟩
    · cases header : info.header with
      | ok found =>
        obtain ⟨own, w, placed, seats, _⟩ := place_seats sound found.1.guid first info.name found.2
        rw [enlist_eq first header, ok_bind placed] at here
        cases here
        rw [seats.slots] at before
        split at before
        next same => exact .inr ⟨_, List.mem_cons_self, same.symm⟩
        next => exact .inl before
      | error fault =>
        unfold enlist at here
        simp only [header, get_bind] at here
        split at here
        · cases here
        · cases here
          exact .inl before
    · refine .inr ⟨entry, ?_, same⟩
      rw [List.reduceOption_mem_iff] at member ⊢
      exact List.mem_cons_of_mem _ member

/-- The second pass builds every type info that has a node. -/
theorem buildAll_idle {entries : List Enlisted} {ids : List TypeId} (sound : s.Sound r)
    (run : buildAll entries s = .ok ids t)
    (waits : ∀ index id, s.slots.get? index = some id →
      s.Settled id ∨ ∃ entry ∈ entries, entry.2.1 = index) : t.Idle := by
  induction entries generalizing s ids with
  | nil =>
    cases run
    intro index id slotted
    exact (waits index id slotted).resolve_right fun ⟨_, member, _⟩ => nomatch member
  | cons entry rest ih =>
    unfold buildAll at run
    rw [List.mapM_cons] at run
    obtain ⟨own, u, here, run⟩ := exists_of_bind_ok run
    obtain ⟨later, v, there, ended⟩ := exists_of_bind_ok run
    cases ended
    have here : build entry.1 entry.2.1 entry.2.2.1 entry.2.2.2 entry.1.lookup s = .ok own u := here
    have advance :=
      build_advance sound entry.1 entry.2.1 entry.2.2.1 entry.2.2.2 entry.1.lookup
    obtain ⟨other, w, builtAt, settled, built⟩ :=
      build_builtAt sound entry.1 entry.2.1 entry.2.2.1 entry.2.2.2 entry.1.lookup
    rw [here] at advance built
    obtain ⟨rfl, rfl⟩ : own = other ∧ u = w := by simpa using built
    refine ih advance.1.sound there fun index id slotted => ?_
    rw [builtAt.seats.slots] at slotted
    split at slotted
    · cases slotted
      exact .inl settled
    · rcases waits index id slotted with before | ⟨item, member, same⟩
      · exact .inl (builtAt.seats.settled settled before)
      · rcases List.mem_cons.mp member with rfl | member
        · next other => exact absurd same.symm other
        · exact .inr ⟨item, member, same⟩

/-- A library that was added in full leaves no node waiting. -/
theorem addLibrary_idle (sound : a.Sound r) {library : Library} {ids : List TypeId}
    (run : addLibrary library a = .ok ids b) : b.Idle := by
  rw [addLibrary_eq] at run
  obtain ⟨outcomes, t, enlisted, built⟩ := exists_of_bind_ok run
  have advance := enlistAll_advance (sound.begun library) library.types 0
  rw [enlisted] at advance
  refine buildAll_idle advance.1.sound built fun index id slotted => ?_
  rcases enlistAll_slots (sound.begun library) enlisted slotted with none | entry
  · simp [begun] at none
  · exact .inr entry

/-! ### Other calls -/

/-- The nodes of type infos are those they were, records of proxies are old ones or new nodes, and what
is not a record and was built stays built. -/
structure Assembler.Passes (s t : Assembler) : Prop where
  strict : t.strict = s.strict
  slots : t.slots = s.slots
  anonymous : t.anonymous = s.anonymous
  recorded : ∀ {j}, j < s.graph.size → t.Recorded j → s.Recorded j
  settled : ∀ {j}, ¬ s.Recorded j → s.Settled j → t.Settled j

theorem Assembler.Passes.apart (passes : s.Passes t) (sound : s.Sound r) (apart : s.Apart) :
    t.Apart where
  slots stored among := by
    rw [passes.slots] at stored
    exact apart.slots stored (passes.recorded (sound.slots stored).editable.lt_size among)
  anonymous stored among := by
    rw [passes.anonymous] at stored
    exact apart.anonymous stored (passes.recorded (sound.anonymous stored).editable.lt_size among)

theorem Assembler.Passes.idle (passes : s.Passes t) (apart : s.Apart) (idle : s.Idle) : t.Idle := by
  intro index id stored
  rw [passes.slots] at stored
  exact passes.settled (apart.slots stored) (idle index id stored)

theorem external_passes (guid : Guid) (name : String) (body : Body) :
    a.Passes { a with graph := (a.graph.external guid name body).2 } := by
  refine ⟨rfl, rfl, rfl, fun _ among => among, fun {j} _ settled => ?_⟩
  cases known : a.graph.findGuid? guid with
  | some id =>
    rw [Graph.external_of_found name body known]
    obtain ⟨node, found, state⟩ := settled
    by_cases here : id = j
    · subst here
      refine ⟨_, Graph.node?_modify_self _ found, ?_⟩
      split
      · exact state
      · exact state
    · exact ⟨node, (Graph.node?_modify_of_ne _ here).trans found, state⟩
  | none =>
    have spares : a.Spares (fun _ => False) { a with graph := (a.graph.external guid name body).2 } :=
      .of_appends (Graph.appends_external name body known)
    exact spares.settled not_false settled

/-- Adding a proxy touches its interface, which is built in the end, and records. -/
theorem addProxyImage_passes (ordered : a.Ordered .unrestricted) (image : ProxyImage) (iid : Guid)
    (name : Option String) (names : NameLookup) :
    a.Passes (left (addProxyImage image iid name names a)) := by
  obtain ⟨draws, here, _⟩ := addProxyImage_draws ordered image iid name names
  refine ⟨draws.strict, draws.slots, draws.anonymous, draws.recorded, fun {j} free settled => ?_⟩
  by_cases own : j = a.host iid
  · exact own ▸ here
  · obtain ⟨node, found, state⟩ := settled
    exact ⟨node, draws.untouched found own fun member => free ⟨iid, member⟩, state⟩

theorem addProxy_passes (ordered : a.Ordered .unrestricted) (bytes : Bytes) (iid : Guid)
    (name : Option String) (names : NameLookup) :
    a.Passes (left (addProxy bytes iid name names a)) := by
  unfold addProxy
  cases ProxyImage.decode bytes with
  | ok image => exact addProxyImage_passes ordered image iid name names
  | error fault => exact ⟨rfl, rfl, rfl, fun _ among => among, fun _ settled => settled⟩

/-- A type info whose attributes cannot be used changes nothing, and another is built. -/
theorem addTypeInfo_cases (sound : s.Sound r) (info : TypeInfo) (index : Nat) (names : NameLookup) :
    left (addTypeInfo info index names s) = s ∨
      ∃ id, s.Seats index id (left (addTypeInfo info index names s)) ∧
        (left (addTypeInfo info index names s)).Settled id := by
  unfold addTypeInfo
  cases header : info.header with
  | error fault => exact .inl rfl
  | ok found =>
    change left (build info index found.1 found.2 names s) = s ∨ ∃ id,
      s.Seats index id (left (build info index found.1 found.2 names s)) ∧
        (left (build info index found.1 found.2 names s)).Settled id
    obtain ⟨id, t, builtAt, settled, run | ⟨fault, run⟩⟩ :=
      build_builtAt sound info index found.1 found.2 names
    · rw [run]
      exact .inr ⟨id, builtAt.seats, settled⟩
    · rw [run]
      exact .inr ⟨id, builtAt.seats, settled⟩

/-! ### Runs -/

/-- The call does not give up in the middle of a library. -/
def Call.Completes (a : Assembler) : Call → Prop
  | addLibrary library => ∃ ids b, Assemble.addLibrary library a = .ok ids b
  | addTypeInfo .. | addProxy .. | external .. | externalInterface .. => True

/-- One call keeps the nodes of type infos and the records of proxies apart. -/
theorem Call.run_apart (ordered : a.Ordered .unrestricted) (apart : a.Apart) (call : Call) :
    (call.run a).Apart := by
  cases call with
  | addLibrary library => exact (addLibrary_apart ordered.sound apart library).left
  | addTypeInfo info index names =>
    rcases addTypeInfo_cases ordered.sound info index names with same | ⟨id, seats, _⟩
    · show (left (Assemble.addTypeInfo info index names a)).Apart
      rwa [same]
    · exact seats.apart ordered.sound apart
  | addProxy bytes iid name names =>
    exact (addProxy_passes ordered bytes iid name names).apart ordered.sound apart
  | external guid name body => exact (external_passes guid name body).apart ordered.sound apart
  | externalInterface iid name =>
    exact (external_passes iid (name.getD "") (.interface {})).apart ordered.sound apart

/-- One call that does not give up leaves no node waiting. -/
theorem Call.run_idle (ordered : a.Ordered .unrestricted) (apart : a.Apart) (idle : a.Idle)
    (call : Call) (completes : call.Completes a) : (call.run a).Idle := by
  cases call with
  | addLibrary library =>
    obtain ⟨ids, b, run⟩ := completes
    show (left (Assemble.addLibrary library a)).Idle
    rw [run]
    exact addLibrary_idle ordered.sound run
  | addTypeInfo info index names =>
    rcases addTypeInfo_cases ordered.sound info index names with same | ⟨id, seats, settled⟩
    · show (left (Assemble.addTypeInfo info index names a)).Idle
      rwa [same]
    · exact seats.idle settled idle
  | addProxy bytes iid name names =>
    exact (addProxy_passes ordered bytes iid name names).idle apart idle
  | external guid name body => exact (external_passes guid name body).idle apart idle
  | externalInterface iid name =>
    exact (external_passes iid (name.getD "") (.interface {})).idle apart idle

/-- No call changes the mode. -/
theorem Call.run_strict (ordered : a.Ordered .unrestricted) (call : Call) :
    (call.run a).strict = a.strict := by
  cases call with
  | addLibrary library => exact (addLibrary_advance ordered.sound library).left.strict_eq
  | addTypeInfo info index names =>
    exact (addTypeInfo_advance ordered.sound info index names).left.strict_eq
  | addProxy bytes iid name names => exact (addProxy_passes ordered bytes iid name names).strict
  | external | externalInterface => rfl

theorem Reachable.apart (run : Reachable (fun _ _ => True) a) : a.Apart := by
  induction run with
  | start strict =>
    exact ⟨fun {_ _} known => by simp [Table.get?] at known,
      fun {_ _} known => by simp [Table.get?] at known⟩
  | step call before _ ih => exact call.run_apart before.in_order ih

/-- Where no library was given up in the middle, no node waits. -/
theorem Reachable.idle (run : Reachable (fun a call => call.Completes a) a) : a.Idle := by
  induction run with
  | start strict =>
    intro index id known
    simp [Table.get?] at known
  | step call before completes ih =>
    have all : Reachable (fun _ _ => True) _ := before.mono fun _ _ _ => trivial
    exact call.run_idle all.in_order all.apart ih completes

/-- Outside strict mode no library is given up. -/
theorem Reachable.completes (run : Reachable (fun _ _ => True) a) (lenient : a.strict = false) :
    Reachable (fun a call => call.Completes a) a := by
  induction run with
  | start strict => exact .start strict
  | @step s call before _ ih =>
    rw [call.run_strict before.in_order] at lenient
    refine .step call (ih lenient) ?_
    cases call with
    | addLibrary library =>
      obtain ⟨calls, b, modes⟩ := exists_libraryModes before.sound library
      have added := modes.lenient
      rw [inMode_self lenient] at added
      exact ⟨_, b, added⟩
    | addTypeInfo | addProxy | external | externalInterface => trivial

/-- The node is the one of this GUID, and is found by it. -/
def Assembler.Identifies (a : Assembler) (guid : Guid) (id : TypeId) : Prop :=
  a.graph.findGuid? guid = some id ∧ ∃ node, a.graph.node? id = some node ∧ node.identity = .guid guid

/-- A GUID identifies the node that the index holds under it. -/
theorem Assembler.Sound.identifies_iff (sound : a.Sound r) {guid : Guid} :
    a.Identifies guid id ↔ a.graph.findGuid? guid = some id := by
  refine ⟨And.left, fun known => ⟨known, ?_⟩⟩
  exact ((sound.graph.findGuid_iff guid id).mp known).2

/-- A type info with a GUID is built into the node of its GUID unless a node of another identity waits at
its position, which happens in strict mode only, where a library was given up in the middle. Whatever
node it is, every other one keeps its body and its state. -/
theorem built_into_own_node (run : Reachable (fun _ _ => True) a) {info : TypeInfo}
    {names : NameLookup} {attr : TypeAttr} {definition : Definition}
    (header : info.header = .ok (attr, definition)) (nonzero : attr.guid.isZero = false)
    (added : addTypeInfo info index names a = .ok id b) :
    (b.Identifies attr.guid id ↔ ∀ j, a.waiting? index = some j → a.Identifies attr.guid j) ∧
      (a.strict = false ∨ Reachable (fun a call => call.Completes a) a → b.Identifies attr.guid id) ∧
      ∀ j node, j ≠ id → a.graph.node? j = some node → ∃ node', b.graph.node? j = some node' ∧
        node'.body = node.body ∧ node'.state = node.state := by
  have sound := run.sound
  have advance := addTypeInfo_advance sound info index names
  rw [added] at advance
  have built : build info index attr definition names a = .ok id b := by
    unfold addTypeInfo at added
    rw [header] at added
    exact added
  obtain ⟨_, _, builtAt, _, again⟩ := build_builtAt sound info index attr definition names
  rw [built] at again
  obtain ⟨rfl, rfl⟩ : id = _ ∧ b = _ := by simpa using again
  have own : b.Identifies attr.guid id ↔
      ∀ j, a.waiting? index = some j → a.Identifies attr.guid j := by
    rw [advance.1.sound.identifies_iff]
    cases waiting : a.waiting? index with
    | none => exact ⟨fun _ _ none => (nomatch none), fun _ => builtAt.own waiting nonzero⟩
    | some j =>
      obtain rfl := builtAt.waited waiting
      obtain ⟨_, node, found, _⟩ := of_waiting waiting
      obtain ⟨node', found', kept, _⟩ := advance.1.graph.grows.kept found
      simp only [Option.some.injEq, forall_eq', sound.identifies_iff, sound.graph.findGuid_iff,
        advance.1.sound.graph.findGuid_iff, found, found', exists_eq_left', kept]
  refine ⟨own, fun complete => own.mpr fun j waiting => ?_, fun j node other found => ?_⟩
  · have idle := (complete.elim run.completes fun run => run).idle
    cases (idle.waiting?_eq_none index).symm.trans waiting
  · obtain ⟨node', found', alike⟩ := builtAt.seats.spares j node other found
    exact ⟨node', found', alike.body, alike.state⟩

/-- A definition of a pointer to an interface that is defined elsewhere. -/
def handleInfo : TypeInfo :=
  pointerInfo (.ofBytes [7]) (.external (.ofBytes [2]) "IOther" .vtable)

theorem handleInfo_header : ∃ attr definition, handleInfo.header = .ok (attr, definition) ∧
    attr.guid = .ofBytes [7] := by
  have guid : handleInfo.header.map (·.1.guid) = .ok (.ofBytes [7]) := by decide +kernel
  cases header : handleInfo.header with
  | ok found =>
    rw [header] at guid
    exact ⟨found.1, found.2, rfl, Except.ok.inj guid⟩
  | error fault =>
    rw [header] at guid
    cases guid

/-- In place of the first type info of a library that was added in full, it gets a node of its own. -/
theorem handleInfo_own :
    ∃ b, addTypeInfo handleInfo 0 .none (Call.run {} (.addLibrary mixedLibrary)) = .ok 6 b ∧
      b.Identifies (.ofBytes [7]) 6 := by
  have run : Reachable (fun _ _ => True) (Call.run {} (.addLibrary mixedLibrary)) :=
    .step _ (.start false) trivial
  obtain ⟨attr, definition, header, guid⟩ := handleInfo_header
  have nonzero : attr.guid.isZero = false := by
    rw [guid]
    decide
  have lenient : (Call.run {} (.addLibrary mixedLibrary)).strict = false := by decide +kernel
  have added : addTypeInfo handleInfo 0 .none (Call.run {} (.addLibrary mixedLibrary)) = .ok 6 _ :=
    eq_ok_of_value? (by decide +kernel)
  exact ⟨_, added, guid ▸ (built_into_own_node run header nonzero added).2.1 (.inl lenient)⟩

/-- In place of the first type info of a library that was given up in strict mode, it is built into the
node of that type info, and its own GUID is not known afterwards. -/
theorem handleInfo_stray :
    Reachable (fun _ _ => True) (Call.run { strict := true } (.addLibrary mixedLibrary)) ∧
      ∃ b, addTypeInfo handleInfo 0 .none (Call.run { strict := true } (.addLibrary mixedLibrary)) =
          .ok 0 b ∧
        (b.graph.node? 0).map (·.identity) = some (.guid (.ofBytes [1])) ∧
        b.graph.findGuid? (.ofBytes [7]) = none := by
  refine ⟨.step _ (.start true) trivial, _, eq_ok_of_value? ?_, ?_, ?_⟩
  · decide +kernel
  · decide +kernel
  · decide +kernel

end ComTypes

import ComTypes.Proofs.Assembly.AddAgain
import ComTypes.Proofs.Assembly.Resolving

/-!
# Bases are interfaces

The base of an interface is checked when the interface is built, and from then on it has to stay an
interface: a type info of another kind must not be declared, or built, into a node that is a base
(`Assembler.suits`). `Graph.Rests` says what a step may do to the graph so that bases stay what they
are, and `Assembler.Based` is what steps keep. The records of proxies are spared: no step makes an
interface of one, so that a decode that uses them again does not take a base away.
-/

namespace ComTypes

open Assembler

theorem Body.isInterface_of_base? {body : Body} {b : TypeId} (base : body.base? = some b) :
    body.isInterface = true := by
  cases body with
  | interface definition => rfl
  | typedef | enumeration | record | structural => cases base

/-! ### Steps on a graph -/

namespace Graph

/-- The node is an interface. -/
def IsInterface (g : Graph) (id : TypeId) : Prop :=
  ∃ node, g.node? id = some node ∧ node.body.isInterface = true

/-- Some node names this one as its base. -/
def IsBase (g : Graph) (id : TypeId) : Prop :=
  ∃ j node, g.node? j = some node ∧ node.body.base? = some id

/-- Whether some node names this one as its base. -/
def isBase (g : Graph) (id : TypeId) : Bool := g.nodes.any fun node => node.body.base? = some id

theorem any_isInterface {g : Graph} {id : TypeId} :
    (g.body? id).any Body.isInterface = true ↔ g.IsInterface id := by
  unfold body? IsInterface
  cases g.node? id <;> simp

theorem isBase_iff {g : Graph} {id : TypeId} : g.isBase id = true ↔ g.IsBase id := by
  simp only [isBase, IsBase, node?, Array.any_eq_true, decide_eq_true_eq, Array.getElem?_eq_some_iff]
  constructor
  · rintro ⟨j, inside, base⟩
    exact ⟨j, _, ⟨inside, rfl⟩, base⟩
  · rintro ⟨j, _, ⟨inside, rfl⟩, base⟩
    exact ⟨j, inside, base⟩

/-- What is a base stays an interface, a base that is new is one, and what is spared does not become
one. -/
structure Rests (spared : TypeId → Prop) (g g' : Graph) : Prop where
  kept : ∀ {id}, g.IsBase id → g.IsInterface id → g'.IsInterface id
  bases : ∀ {id}, g'.IsBase id → g.IsBase id ∨ g'.IsInterface id
  spares : ∀ {id}, spared id → g'.IsInterface id → g.IsInterface id

variable {spared : TypeId → Prop} {g g' : Graph} {id : TypeId} {change : Node → Node}

/-- The bodies of old nodes are the same, and new nodes have no base. -/
structure Restates (g g' : Graph) : Prop where
  old : ∀ {id node}, g.node? id = some node →
    ∃ node', g'.node? id = some node' ∧ node'.body = node.body
  new : ∀ {id node'}, g.size ≤ id → g'.node? id = some node' → node'.body.base? = none

theorem Restates.isInterface (h : g.Restates g') (interface : g.IsInterface id) :
    g'.IsInterface id := by
  obtain ⟨node, found, interface⟩ := interface
  obtain ⟨node', found', same⟩ := h.old found
  exact ⟨node', found', same ▸ interface⟩

theorem Restates.isInterface_old (h : g.Restates g') (inside : id < g.size)
    (interface : g'.IsInterface id) : g.IsInterface id := by
  obtain ⟨node', found', interface⟩ := interface
  obtain ⟨node, found⟩ := exists_node_of_lt inside
  obtain ⟨_, again, same⟩ := h.old found
  cases again.symm.trans found'
  exact ⟨node, found, same ▸ interface⟩

/-- No type becomes a base. -/
theorem Restates.isBase (h : g.Restates g') (base : g'.IsBase id) : g.IsBase id := by
  obtain ⟨j, node', found', base⟩ := base
  by_cases inside : j < g.size
  · obtain ⟨node, found⟩ := exists_node_of_lt inside
    obtain ⟨_, again, same⟩ := h.old found
    cases again.symm.trans found'
    exact ⟨j, node, found, same ▸ base⟩
  · rw [h.new (Nat.le_of_not_lt inside) found'] at base
    cases base

theorem Restates.rests (h : g.Restates g') (inside : ∀ {id}, spared id → id < g.size) :
    g.Rests spared g' :=
  ⟨fun _ => h.isInterface, fun base => .inl (h.isBase base),
    fun among => h.isInterface_old (inside among)⟩

theorem Rests.of_touch (same : ∀ node, (change node).body = node.body) :
    g.Rests spared (g.modify id change) := by
  have restates : g.Restates (g.modify id change) := by
    refine ⟨fun {j node} found => ?_, fun outside found => ?_⟩
    · by_cases here : id = j
      · subst here
        exact ⟨_, node?_modify_self change found, same node⟩
      · exact ⟨node, (node?_modify_of_ne change here).trans found, rfl⟩
    · have inside := lt_size_of_node? found
      rw [size_modify] at inside
      exact absurd inside (Nat.not_lt.mpr outside)
  refine ⟨fun _ => restates.isInterface, fun base => .inl (restates.isBase base), ?_⟩
  rintro j _ ⟨node, found, interface⟩
  have inside := lt_size_of_node? found
  rw [size_modify] at inside
  exact restates.isInterface_old inside ⟨node, found, interface⟩

/-- A base named after a change was named before, or by the node that was changed. -/
theorem isBase_of_modify {j : TypeId} (base : (g.modify id change).IsBase j) :
    g.IsBase j ∨ ∃ node, g.node? id = some node ∧ (change node).body.base? = some j := by
  obtain ⟨k, node, found, named⟩ := base
  rcases of_node?_modify found with ⟨_, old⟩ | ⟨rfl, old, found_old, rfl⟩
  · exact .inl ⟨k, node, old, named⟩
  · exact .inr ⟨old, found_old, named⟩

/-- A node gets another body. A base stays an interface, and the base of the body is one. -/
theorem Rests.of_define {body : Body} (free : ¬ spared id) (defines : ∀ node, (change node).body = body)
    (kind : body.isInterface = false → ¬ g.IsBase id)
    (base : ∀ b, body.base? = some b → g.IsInterface b) : g.Rests spared (g.modify id change) := by
  have interfaces : ∀ {j}, (id = j → body.isInterface = true) → g.IsInterface j →
      (g.modify id change).IsInterface j := by
    rintro j own ⟨node, found, interface⟩
    by_cases here : id = j
    · subst here
      exact ⟨_, node?_modify_self change found, defines node ▸ own rfl⟩
    · exact ⟨node, (node?_modify_of_ne change here).trans found, interface⟩
  refine ⟨fun {j} named => interfaces ?_, fun {j} named => ?_, fun {j} among => ?_⟩
  · rintro rfl
    cases shape : body.isInterface with
    | true => rfl
    | false => exact absurd named (kind shape)
  · rcases isBase_of_modify named with old | ⟨node, _, own⟩
    · exact .inl old
    · rw [defines] at own
      exact .inr (interfaces (fun _ => Body.isInterface_of_base? own) (base j own))
  · rintro ⟨node, found, interface⟩
    rcases of_node?_modify found with ⟨_, old⟩ | ⟨rfl, _⟩
    · exact ⟨node, old, interface⟩
    · exact absurd among free

theorem Appends.isInterface {node : Node} (h : g.Appends node g') (interface : g.IsInterface id) :
    g'.IsInterface id := by
  obtain ⟨old, found, interface⟩ := interface
  refine ⟨old, ?_, interface⟩
  rw [h.node_eq, if_neg (Nat.ne_of_lt (lt_size_of_node? found)), found]

/-- Bases stay interfaces with a new node, if its own base is one. -/
theorem Rests.of_appends {node : Node} (h : g.Appends node g')
    (inside : ∀ {id}, spared id → id < g.size)
    (base : ∀ b, node.body.base? = some b → g'.IsInterface b) : g.Rests spared g' where
  kept _ := h.isInterface
  bases := by
    rintro j ⟨k, node', found, named⟩
    rcases WellFormed.of_appends h found with ⟨rfl, rfl⟩ | ⟨_, old⟩
    · exact .inr (base _ named)
    · exact .inl ⟨k, node', old, named⟩
  spares := by
    rintro j among ⟨old, found, interface⟩
    rcases WellFormed.of_appends h found with ⟨rfl, _⟩ | ⟨_, old'⟩
    · exact absurd (inside among) (Nat.lt_irrefl _)
    · exact ⟨old, old', interface⟩

end Graph

/-! ### Assemblers -/

/-- The node is a record that a proxy keeps. -/
def Assembler.Recorded (a : Assembler) (id : TypeId) : Prop :=
  ∃ iid, id ∈ (recordsOf a.proxyRecords iid).values

/-- Bases are interfaces, and no type info is built into a record of a proxy, so that none of them is an
interface. -/
structure Assembler.Based (a : Assembler) : Prop where
  bases : ∀ {id}, a.graph.IsBase id → a.graph.IsInterface id
  records : ∀ {id}, a.Recorded id → ¬ a.graph.IsInterface id
  slots : ∀ {index id}, a.slots.get? index = some id → ¬ a.Recorded id
  anonymous : ∀ {key id}, a.anonymous.get? key = some id → ¬ a.Recorded id

section Based

variable {r : Regime} {a b : Assembler} {id : TypeId}

theorem Assembler.Based.rests (based : a.Based) {g : Graph} (rests : a.graph.Rests a.Recorded g) :
    Based { a with graph := g } where
  bases base := by
    rcases rests.bases base with old | interface
    · exact rests.kept old (based.bases old)
    · exact interface
  records among interface := based.records among (rests.spares among interface)
  slots := based.slots
  anonymous := based.anonymous

/-- Other tables, as long as they do not lead to records. -/
theorem Assembler.Based.withTables (based : a.Based) {slots : Table Nat TypeId}
    {anonymous : Table (LibraryKey × Nat) TypeId} (library : LibraryKey) (changed : List Guid)
    (slotted : ∀ {index id}, slots.get? index = some id → ¬ a.Recorded id)
    (known : ∀ {key id}, anonymous.get? key = some id → ¬ a.Recorded id) :
    Based { a with slots, anonymous, library, changed } :=
  ⟨based.bases, based.records, slotted, known⟩

theorem Assembler.Based.insertSlot (based : a.Based) (index : Nat) (free : ¬ a.Recorded id) :
    Based { a with slots := a.slots.insert index id } := by
  refine based.withTables a.library a.changed (fun {j other} stored => ?_) based.anonymous
  rw [Table.get?_insert] at stored
  split at stored
  · cases stored
    exact free
  · exact based.slots stored

theorem Assembler.Sound.recorded_lt (sound : a.Sound r) (among : a.Recorded id) :
    id < a.graph.size := by
  obtain ⟨iid, member⟩ := among
  exact (sound.records.isRecord iid id member).lt_size

/-- Records have no GUID. -/
theorem Assembler.Sound.not_recorded_of_guid (sound : a.Sound r) {guid : Guid}
    (known : a.graph.findGuid? guid = some id) : ¬ a.Recorded id := by
  rintro ⟨iid, member⟩
  obtain ⟨node, found, index, _⟩ := sound.records.isRecord iid id member
  obtain ⟨_, other, found', guid_own⟩ := (sound.graph.findGuid_iff guid id).mp known
  cases found.symm.trans found'
  rw [index] at guid_own
  cases guid_own

theorem Assembler.Resolved.restates (resolved : a.Resolved b) : a.graph.Restates b.graph where
  old found := by
    obtain ⟨node', found', alike⟩ := resolved.alike found
    exact ⟨node', found', alike.body⟩
  new := resolved.fresh

theorem Assembler.Based.resolved (based : a.Based) (sound : a.Sound r) (resolved : a.Resolved b) :
    b.Based := by
  rw [resolved.rest]
  exact based.rests (resolved.restates.rests sound.recorded_lt)

end Based

/-! ### Type infos -/

/-- Whether this defines an interface. -/
def Definition.isInterface (definition : Definition) : Bool := definition.blank.isInterface

theorem Definition.base?_blank_ne (definition : Definition) (b : TypeId) :
    definition.blank.base? ≠ some b := by
  cases definition <;> simp [blank, Body.base?]

namespace Assembler

/-- The node that the identity of a type info leads to. -/
def seat? (a : Assembler) (guid : Guid) (index : Nat) : Option TypeId :=
  if guid.isZero then a.anonymous.get? (a.library, index) else a.graph.findGuid? guid

/-- The node that was declared for a position and still waits for its body. -/
def waiting? (a : Assembler) (index : Nat) : Option TypeId :=
  (a.slots.get? index).filter fun id => (a.graph.node? id).any fun node => node.state = .pending

/-- Whether a definition can be given to a node: a base does not become anything but an interface. -/
def suits (a : Assembler) (definition : Definition) (id? : Option TypeId) : Bool :=
  definition.isInterface || !id?.any a.graph.isBase

/-- A node that is used again for another kind of declaration is no base. -/
theorem not_isBase_of_suits {a : Assembler} {definition : Definition} {id? : Option TypeId}
    (suits : a.suits definition id? = true) {id : TypeId} (known : id? = some id)
    (other : definition.isInterface = false) : ¬ a.graph.IsBase id := by
  intro base
  rw [← Graph.isBase_iff] at base
  simp [Assembler.suits, known, other, base] at suits

end Assembler

namespace Assemble

variable {r : Regime} {a s t : Assembler} {id : TypeId}

/-- A node has been declared. It is no record of a proxy, and no base unless it is to be an interface. -/
structure Grounded (definition : Definition) (id : TypeId) (t : Assembler) : Prop where
  based : t.Based
  free : ¬ t.Recorded id
  kind : definition.isInterface = false → ¬ t.graph.IsBase id

variable {definition : Definition}

theorem Grounded.withChanged (h : Grounded definition id t) (changed : List Guid) :
    Grounded definition id { t with changed } :=
  ⟨⟨h.based.bases, h.based.records, h.based.slots, h.based.anonymous⟩, h.free, h.kind⟩

theorem Grounded.insertSlot (h : Grounded definition id t) (index : Nat) :
    Grounded definition id { t with slots := t.slots.insert index id } :=
  ⟨h.based.insertSlot index h.free, h.free, h.kind⟩

/-- A node is declared again. -/
theorem grounded_of_known (based : s.Based) (free : ¬ s.Recorded id)
    (kind : definition.isInterface = false → ¬ s.graph.IsBase id) {change : Node → Node}
    (defines : ∀ node, (change node).body = definition.blank) :
    Grounded definition id { s with graph := s.graph.modify id change } := by
  have rests : s.graph.Rests s.Recorded (s.graph.modify id change) :=
    .of_define free defines kind fun b named => absurd named (definition.base?_blank_ne b)
  refine ⟨based.rests rests, free, fun other base => ?_⟩
  rcases Graph.isBase_of_modify base with old | ⟨node, _, own⟩
  · exact kind other old
  · rw [defines] at own
    exact definition.base?_blank_ne id own

/-- A node is declared for the first time. -/
theorem grounded_of_new (sound : s.Sound r) (based : s.Based) (definition : Definition)
    (guid : Option Guid) (name : String) :
    Grounded definition s.graph.size
      { s with graph := (s.graph.add guid name definition.blank).2 } := by
  have h := s.graph.appends_add guid name definition.blank_isDeclaration
  have rests : s.graph.Rests s.Recorded (s.graph.add guid name definition.blank).2 :=
    .of_appends h sound.recorded_lt fun b named => absurd named (definition.base?_blank_ne b)
  refine ⟨based.rests rests, fun among => ?_, fun other base => ?_⟩
  · exact Nat.lt_irrefl _ (sound.recorded_lt among)
  · -- The new node is no interface, but a base would be one.
    obtain ⟨node, found, interface⟩ := (based.rests rests).bases base
    cases (Graph.WellFormed.appended h).symm.trans found
    exact Bool.false_ne_true (other.symm.trans interface)

theorem declare_grounded (sound : s.Sound r) (based : s.Based) {guid : Guid}
    (kind : ∀ id, s.graph.findGuid? guid = some id → definition.isInterface = false →
      ¬ s.graph.IsBase id) (name : String) :
    ∃ id t, declare guid name definition.blank s = .ok id t ∧ Grounded definition id t := by
  cases known : s.graph.findGuid? guid with
  | some id =>
    obtain ⟨changed, run⟩ := declare_of_known name definition.blank known
    exact ⟨id, _, run, (grounded_of_known based (sound.not_recorded_of_guid known)
      (kind id known) fun _ => rfl).withChanged changed⟩
  | none =>
    exact ⟨_, _, declare_of_unknown name definition.blank known, grounded_of_new sound based _ _ name⟩

theorem declareTypeInfo_grounded (sound : s.Sound r) (based : s.Based) {guid : Guid} {index : Nat}
    (suits : s.suits definition (s.seat? guid index) = true) (name : String) :
    ∃ id t, declareTypeInfo guid index name definition.blank s = .ok id t ∧
      Grounded definition id t := by
  unfold seat? at suits
  cases zero : guid.isZero with
  | false =>
    rw [zero, if_neg (by simp)] at suits
    rw [declareTypeInfo_of_nonzero zero]
    exact declare_grounded sound based (fun id known => not_isBase_of_suits suits known) name
  | true =>
    rw [zero, if_pos rfl] at suits
    cases known : s.anonymous.get? (s.library, index) with
    | some id =>
      exact ⟨id, _, declareTypeInfo_of_known name definition.blank zero known,
        grounded_of_known based (based.anonymous known) (not_isBase_of_suits suits known)
          fun _ => rfl⟩
    | none =>
      have new := grounded_of_new sound based definition none name
      refine ⟨_, _, declareTypeInfo_of_unknown name definition.blank zero known,
        ⟨new.based.bases, new.based.records, new.based.slots, fun {key id} stored => ?_⟩, new.free,
        new.kind⟩
      rw [Table.get?_insert] at stored
      split at stored
      · cases stored
        exact new.free
      · exact new.based.anonymous stored

theorem place_grounded (sound : s.Sound r) (based : s.Based) {guid : Guid} {index : Nat}
    (suits : s.suits definition (s.seat? guid index) = true) (name : String) :
    ∃ id t, place guid index name definition.blank s = .ok id t ∧ Grounded definition id t := by
  obtain ⟨id, t, run, grounded⟩ := declareTypeInfo_grounded sound based suits name
  refine ⟨id, _, ?_, grounded.insertSlot index⟩
  unfold place
  rw [ok_bind run]
  rfl

theorem slot_grounded (sound : s.Sound r) (based : s.Based) (info : TypeInfo) {index : Nat}
    {attr : TypeAttr}
    (suits : s.suits definition ((s.waiting? index).or (s.seat? attr.guid index)) = true) :
    ∃ id t, slot info index attr definition s = .ok id t ∧ Grounded definition id t := by
  unfold slot
  rw [get_bind]
  cases waiting : s.waiting? index with
  | some id =>
    have known := (Option.filter_eq_some_iff.mp waiting).1
    unfold waiting? at waiting
    rw [waiting]
    exact ⟨id, s, rfl, based, based.slots known,
      not_isBase_of_suits suits (by simp [waiting?, waiting])⟩
  | none =>
    rw [waiting, Option.none_or] at suits
    unfold waiting? at waiting
    rw [waiting]
    exact place_grounded sound based suits info.name

/-! ### Building -/

/-- The base was an interface when it was checked. -/
theorem base_isInterface {info : TypeInfo} {href : UInt32}
    (run : base info href s = .ok id t) : t.graph.IsInterface id := by
  obtain ⟨value, u, _, checked⟩ := exists_of_bind_ok run
  rw [get_bind] at checked
  split at checked
  next interface =>
    cases checked
    exact Graph.any_isInterface.mp interface
  next => cases checked

/-- A base that is not an interface is refused. -/
theorem declaredBase_isInterface {info : TypeInfo} {base? : Option TypeId} {issues : List Issue}
    (run : declaredBase info s = .ok (base?, issues) t) {b : TypeId} (named : base? = some b) :
    t.graph.IsInterface b := by
  subst named
  unfold declaredBase at run
  cases first : info.implTypes.head? with
  | none =>
    rw [first] at run
    cases run
  | some implemented =>
    rw [first] at run
    obtain ⟨outcome, u, attempted, ended⟩ := exists_of_bind_ok run
    unfold attempt at attempted
    cases found : base info implemented.href s with
    | ok value v =>
      rw [found] at attempted
      cases attempted
      cases ended
      exact base_isInterface found
    | error fault v =>
      rw [found] at attempted
      cases attempted
      cases ended

/-- A body that was built is of the kind it was to be, and its base is an interface. -/
theorem body_bases {info : TypeInfo} {names : NameLookup} {attr : TypeAttr} {body : Body}
    {issues : List Issue} (run : Assemble.body info names attr definition s = .ok (body, issues) t) :
    body.isInterface = definition.isInterface ∧
      ∀ b, body.base? = some b → t.graph.IsInterface b := by
  cases definition with
  | enumeration | record | typedef =>
    obtain ⟨result, u, _, ended⟩ := exists_of_bind_ok run
    cases ended
    exact ⟨rfl, fun b none => by cases none⟩
  | interface dispatch =>
    rw [body_interface] at run
    obtain ⟨⟨base?, baseIssues⟩, u, based, run⟩ := exists_of_bind_ok run
    obtain ⟨⟨methods, others⟩, v, collected, ended⟩ := exists_of_bind_ok run
    cases ended
    refine ⟨rfl, fun b named => ?_⟩
    have resolved := (Resolving.collect attr.funcs.toNat fun index =>
      Resolving.method info names dispatch index).resolved u
    rw [collected] at resolved
    obtain ⟨node, found, interface⟩ := declaredBase_isInterface based named
    obtain ⟨node', found', alike⟩ := resolved.alike found
    exact ⟨node', found', alike.body ▸ interface⟩

theorem settle_based (based : s.Based) (id : TypeId) (issues : List Issue) :
    Outcome Based (fun _ _ => True) (settle id issues s) := by
  have settled : Based { s with
      graph := s.graph.modify id fun node => { node with state := .ofIssues issues } } :=
    based.rests (.of_touch fun _ => rfl)
  rcases settle_cases id issues s with run | ⟨_, _, _, run⟩
  · rw [run]
    exact ⟨settled, trivial⟩
  · rw [run]
    exact settled

theorem settling_based {work : Assemble (TypeId × List Issue)}
    (h : Outcome Based (fun _ _ => True) (work s)) :
    Outcome Based (fun _ _ => True) (settling work s) := by
  refine h.bind fun result t based _ => ?_
  exact (settle_based based result.1 result.2).bind fun _ u based _ => Outcome.of_pure based trivial

theorem filled_based (sound : s.Sound r) (based : s.Based) (info : TypeInfo) {index : Nat}
    {attr : TypeAttr} (names : NameLookup)
    (suits : s.suits definition ((s.waiting? index).or (s.seat? attr.guid index)) = true) :
    Outcome Based (fun _ _ => True) (filled info index attr definition names s) := by
  obtain ⟨id, t, declared, grounded⟩ := slot_grounded sound based info suits
  have advance := slot_advance sound info index attr definition
  rw [declared] at advance
  obtain ⟨⟨body, issues⟩, u, built⟩ := Succeeds.body info names attr definition t
  have resolved : t.Resolved u := by
    have left := (Resolving.body info names attr definition).resolved t
    rwa [built] at left
  obtain ⟨kind, bases⟩ := body_bases built
  have free : ¬ u.Recorded id := by
    rw [resolved.rest]
    exact grounded.free
  have rests : u.graph.Rests u.Recorded (u.graph.modify id (described info attr body)) := by
    refine .of_define free (fun _ => rfl) (fun other base => ?_) bases
    rw [kind] at other
    exact grounded.kind other (resolved.restates.isBase base)
  unfold filled modifyNode
  rw [ok_bind declared, ok_bind built]
  exact ⟨(grounded.based.resolved advance.1.sound resolved).rests rests, trivial⟩

theorem build_based (sound : s.Sound r) (based : s.Based) (info : TypeInfo) {index : Nat}
    {attr : TypeAttr} (names : NameLookup)
    (suits : s.suits definition ((s.waiting? index).or (s.seat? attr.guid index)) = true) :
    Outcome Based (fun _ _ => True) (build info index attr definition names s) := by
  rw [build_eq_settling]
  exact settling_based (filled_based sound based info names suits)

/-! ### Libraries -/

/-- Whether the steps for the items of a list, taken one after the other, each meet a condition in the
state in which they are taken. -/
def along {α γ : Type} (met : γ → Assembler → Bool) (step : γ → Assemble α) :
    List γ → Assembler → Bool
  | [], _ => true
  | item :: rest, a => met item a &&
    match step item a with
    | .ok _ b => along met step rest b
    | .error _ _ => true

/-- A list of steps keeps what each step keeps, as long as each meets its condition in turn. -/
theorem mapM_along {α γ : Type} {met : γ → Assembler → Bool} {step : γ → Assemble α}
    {kept : Assembler → Prop}
    (each : ∀ item s, kept s → met item s = true → Outcome kept (fun _ _ => True) (step item s))
    {items : List γ} (start : kept s) (all : along met step items s = true) :
    Outcome kept (fun _ _ => True) (items.mapM step s) := by
  induction items generalizing s with
  | nil => exact Outcome.of_pure start trivial
  | cons item rest ih =>
    rw [along, Bool.and_eq_true] at all
    have first := each item s start all.1
    have later := all.2
    rw [List.mapM_cons]
    cases run : step item s with
    | error fault t =>
      rw [run] at first
      rw [error_bind run]
      exact first
    | ok value t =>
      rw [run] at first later
      rw [ok_bind run]
      exact (ih first.1 later).bind fun _ u after _ => Outcome.of_pure after trivial

/-- A type info that is declared does not take the place of an interface, or defines one. -/
def enlistSuits (item : TypeInfo × Nat) (a : Assembler) : Bool :=
  match item.1.header with
  | .ok (attr, definition) => a.suits definition (a.seat? attr.guid item.2)
  | .error _ => true

/-- A type info that is built does not take the place of an interface, or defines one. -/
def buildSuits (entry : Enlisted) (a : Assembler) : Bool :=
  a.suits entry.2.2.2 ((a.waiting? entry.2.1).or (a.seat? entry.2.2.1.guid entry.2.1))

/-- Whether this holds of every type info of a library in both passes. -/
def librarySuits (library : Library) (a : Assembler) : Bool :=
  along enlistSuits (fun item => enlist item.1 item.2) library.types.zipIdx (a.begun library) &&
    match enlistAll library.types 0 (a.begun library) with
    | .ok outcomes b => along buildSuits (fun entry =>
        build entry.1 entry.2.1 entry.2.2.1 entry.2.2.2 entry.1.lookup) outcomes.reduceOption b
    | .error _ _ => true

theorem enlist_based (sound : s.Sound r) (based : s.Based) {info : TypeInfo} {index : Nat}
    (suits : enlistSuits (info, index) s = true) :
    Outcome Based (fun _ _ => True) (enlist info index s) := by
  unfold enlistSuits at suits
  unfold enlist
  cases header : info.header with
  | ok found =>
    rw [header] at suits
    obtain ⟨id, t, declared, grounded⟩ := declareTypeInfo_grounded sound based suits info.name
    dsimp only
    rw [ok_bind declared, modify_bind]
    exact Outcome.of_pure (grounded.insertSlot index).based trivial
  | error fault =>
    dsimp only
    rw [get_bind]
    split
    · exact based
    · exact Outcome.of_pure based trivial

/-- Where libraries suit the nodes that they meet, bases stay interfaces. -/
theorem addLibrary_based (sound : a.Sound r) (based : a.Based) {library : Library}
    (suited : librarySuits library a = true) :
    Outcome Based (fun _ _ => True) (addLibrary library a) := by
  rw [librarySuits, Bool.and_eq_true] at suited
  have start : (a.begun library).Based :=
    based.withTables _ _ (fun {_ _} stored => by simp at stored) based.anonymous
  have first : Outcome (fun t => t.Sound r ∧ t.Based) (fun _ _ => True)
      (enlistAll library.types 0 (a.begun library)) := by
    refine mapM_along (fun item s kept suits => ?_) ⟨sound.begun library, start⟩ suited.1
    exact ((enlist_advance kept.1 item.1 item.2).and (enlist_based kept.1 kept.2 suits)).imp
      (fun _ h => ⟨h.1.sound, h.2⟩) fun _ _ _ _ => trivial
  have second := suited.2
  rw [addLibrary_eq]
  cases run : enlistAll library.types 0 (a.begun library) with
  | error fault t =>
    rw [run] at first
    rw [error_bind run]
    exact first.2
  | ok outcomes t =>
    rw [run] at first second
    rw [ok_bind run]
    have built : Outcome (fun t => t.Sound r ∧ t.Based) (fun _ _ => True)
        (buildAll outcomes.reduceOption t) := by
      refine mapM_along (fun entry s kept suits => ?_) first.1 second
      exact ((build_advance kept.1 entry.1 entry.2.1 entry.2.2.1 entry.2.2.2 entry.1.lookup).and
        (build_based kept.1 kept.2 entry.1 entry.1.lookup suits)).imp
        (fun _ h => ⟨h.1.sound, h.2⟩) fun _ _ _ _ => trivial
    exact built.imp (fun _ h => h.2) fun _ _ _ _ => trivial

end Assemble

end ComTypes

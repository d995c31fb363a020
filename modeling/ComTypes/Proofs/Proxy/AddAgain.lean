import ComTypes.Proofs.Assembly.AddAgain
import ComTypes.Proofs.Proxy.Retrace
import ComTypes.Proofs.Proxy.Visible

/-!
# Adding a proxy again

A proxy that has been decoded without faults can be decoded again right away, and nothing changes but
that its IID is reported (`addProxy_again`). The second decode finds the node of the interface and
resets it. Its walk retraces the first one and leaves no record of the previous decode behind, so that
none is taken out of use; in the end the interface gets the contents that it had.
-/

namespace ComTypes

open Assembler Assemble Walk Walker

/-! ### The end of a walk -/

namespace Graph

variable {g : Graph} {ids : List TypeId}

/-- Records are not indexed, so the indexes do not lose them. -/
theorem retireAll_indexes (records : ∀ id ∈ ids, g.IsRecord id) :
    (g.retireAll ids).byGuid = g.byGuid ∧ (g.retireAll ids).byStructure = g.byStructure := by
  induction ids generalizing g with
  | nil => exact ⟨rfl, rfl⟩
  | cons id rest ih =>
    rw [retireAll_cons (records id List.mem_cons_self)]
    exact ih (records_tail records)

end Graph

namespace Walker

variable {r : Regime} {w : Walker}

/-- At the end the records not met again are retired. -/
theorem finish_eq (w : Walker) : w.finish = w.graph.retireAll w.previousIds := by
  simp [finish, Graph.retireAll, previousIds, Table.values, List.foldl_map]

theorem finish_of_none (none : ∀ offset, w.previous.get? offset = none) : w.finish = w.graph := by
  rw [finish, Table.entries_eq_nil none]
  rfl

theorem Sound.previous_records (sound : w.Sound r) : ∀ id ∈ w.previousIds, w.graph.IsRecord id :=
  fun id member => sound.isRecord id (List.mem_append_left _ member)

/-- Records that have been met stay in use. -/
theorem Sound.node?_finish_of_met (sound : w.Sound r) {id : TypeId} (met : id ∈ w.recordIds) :
    w.finish.node? id = w.graph.node? id := by
  have kept : id ∉ w.previousIds := fun previous =>
    (List.nodup_append.mp sound.ids).2.2 id previous id met rfl
  rw [finish_eq, Graph.node?_retireAll sound.previous_records, if_neg kept]

theorem Sound.finish_indexes (sound : w.Sound r) :
    w.finish.byGuid = w.graph.byGuid ∧ w.finish.byStructure = w.graph.byStructure := by
  rw [finish_eq]
  exact Graph.retireAll_indexes sound.previous_records

/-- A node with a GUID is no record. -/
theorem Sound.not_record (sound : w.Sound r) {id : TypeId} {node : Node} {guid : Guid}
    (found : w.graph.node? id = some node) (identity : node.identity = .guid guid) :
    id ∉ w.previousIds ∧ id ∉ w.recordIds := by
  rw [← not_or, ← List.mem_append]
  intro member
  obtain ⟨record, found', index, _⟩ := sound.isRecord id member
  cases found.symm.trans found'
  cases identity.symm.trans index

end Walker

theorem Walk.methods_stage {r : Regime} {w w' : Walker} (sound : w.Sound r) {image : ProxyImage}
    {names : NameLookup} {slots : List (UInt16 × Nat)} {found : List Method}
    (run : methods image names slots w = ((found, []), w')) : w.Stage r w' := by
  induction slots generalizing w found with
  | nil =>
    cases run
    exact .refl sound
  | cons entry rest ih =>
    rcases methods_cons_iff.mp run with ⟨_, others⟩ | ⟨_, method, after, found, ran, others, rfl⟩
    · exact ih sound others
    · have stage := procedure_stage sound image names entry.1.toNat
      rw [ran] at stage
      exact stage.1.trans (ih stage.1.sound others)

/-! ### The steps of adding a proxy -/

namespace Assemble

/-- An interface node with all its contents. -/
def completed (definition : Interface) (node : Node) : Node :=
  { node with body := .interface definition, state := .complete }

/-- The assembler when a proxy has been decoded without faults. -/
def finished (a : Assembler) (iid : Guid) (id : TypeId) (definition : Interface) (last : Walker) :
    Assembler :=
  { afterDecode a iid last with graph := last.finish.modify id (completed definition) }

/-- Adding a proxy without faults, step by step: its interface is declared, its base is found, and its
procedures are decoded. -/
structure ProxySteps (image : ProxyImage) (iid : Guid) (name : Option String) (names : NameLookup)
    (a declared based : Assembler) (id : TypeId) (definition : Interface) (last : Walker) : Prop where
  declare : declare iid (proxyName a iid name) (.interface {}) a = .ok id declared
  base : imageBase image declared = .ok definition.base based
  methods : Walk.methods image names image.procOffsets.zipIdx (startOf based iid) =
    ((definition.methods, []), last)
  vtable : definition.dispatch = false

variable {image : ProxyImage} {iid : Guid} {name : Option String} {names : NameLookup}
  {a b declared based : Assembler} {id : TypeId} {definition : Interface} {last : Walker}

theorem proxyMethods_eq (image : ProxyImage) (iid : Guid) (names : NameLookup) (a : Assembler) :
    proxyMethods image iid names a =
      .ok (Walk.methods image names image.procOffsets.zipIdx (startOf a iid)).1
        (afterDecode a iid (Walk.methods image names image.procOffsets.zipIdx (startOf a iid)).2) := rfl

theorem ProxySteps.run (steps : ProxySteps image iid name names a declared based id definition last) :
    addProxyImage image iid name names a = .ok id (finished based iid id definition last) := by
  rw [addProxyImage_eq, get_bind, ok_bind steps.declare, ok_bind steps.base,
    ok_bind (proxyMethods_eq image iid names based), steps.methods]
  dsimp only [modifyNode]
  rw [modify_bind]
  rcases settle_cases id [] _ with settled | ⟨_, _, none, _⟩
  · rw [ok_bind settled]
    dsimp only
    rw [Graph.modify_modify]
    obtain ⟨methods, base, dispatch⟩ := definition
    cases steps.vtable
    rfl
  · cases none

/-- A proxy whose interface is complete in the end has been added without faults. -/
theorem exists_proxySteps (run : addProxyImage image iid name names a = .ok id b)
    (complete : ∃ node, b.graph.node? id = some node ∧ node.state = .complete) :
    ∃ declared based definition last,
      ProxySteps image iid name names a declared based id definition last ∧
      b = finished based iid id definition last := by
  rw [addProxyImage_eq, get_bind] at run
  obtain ⟨own, declared, declares, run⟩ := exists_of_bind_ok run
  obtain ⟨base, based, bases, run⟩ := exists_of_bind_ok run
  rw [ok_bind (proxyMethods_eq image iid names based)] at run
  generalize walked : Walk.methods image names image.procOffsets.zipIdx (startOf based iid) = ended
    at run
  obtain ⟨⟨methods, issues⟩, last⟩ := ended
  dsimp only [modifyNode] at run
  rw [modify_bind] at run
  obtain ⟨_, settled, settles, run⟩ := exists_of_bind_ok run
  cases run
  rcases settle_cases id issues _ with ends | ⟨first, rest, _, fails⟩
  · cases ends.symm.trans settles
    obtain ⟨node, found, state⟩ := complete
    rcases Graph.of_node?_modify found with ⟨other, _⟩ | ⟨_, old, _, rfl⟩
    · exact absurd rfl other
    cases issues with
    | cons first rest => cases state
    | nil =>
      refine ⟨declared, based, { methods, base }, last, ⟨declares, bases, walked, rfl⟩, ?_⟩
      dsimp only
      rw [Graph.modify_modify]
      rfl
  · cases fails.symm.trans settles

/-! ### The first decode -/

/-- The interface of a proxy is declared under its IID and named. -/
structure Hosted (iid : Guid) (id : TypeId) (name : String) (g : Graph) : Prop where
  indexed : g.findGuid? iid = some id
  node : ∃ node, g.node? id = some node ∧ node.identity = .guid iid ∧ node.name = name ∧
    node.external = false

/-- Declaring the interface makes it the host of the IID. -/
theorem declare_hosted {r : Regime} (sound : a.Sound r) (nonzero : iid.isZero = false) (name : String)
    (run : declare iid name (.interface {}) a = .ok id declared) :
    Hosted iid id name declared.graph := by
  cases known : a.graph.findGuid? iid with
  | some own =>
    obtain ⟨changed, declares⟩ := declare_of_known name (.interface {}) known
    cases declares.symm.trans run
    obtain ⟨_, node, found, identity⟩ := (sound.graph.findGuid_iff _ _).mp known
    exact ⟨known, _, Graph.node?_modify_self _ found, identity, rfl, rfl⟩
  | none =>
    cases (declare_of_unknown name (.interface {}) known).symm.trans run
    have declares : (Body.interface {}).isDeclaration = true := rfl
    have appends := a.graph.appends_add (some iid) name declares
    have identity := Graph.nextIdentity_of_nonzero (g := a.graph) nonzero
    have indexed := (appends.guid_eq iid).trans (if_pos identity)
    exact ⟨indexed, _, Graph.WellFormed.appended appends, identity, rfl, rfl⟩

theorem Hosted.keeps {g g' : Graph} {name : String} (hosted : Hosted iid id name g)
    (keeps : g.Keeps g') : Hosted iid id name g' := by
  obtain ⟨node, found, rest⟩ := hosted.node
  exact ⟨keeps.guid hosted.indexed, node, keeps.node found, rest⟩

theorem imageBase_of_zero (zero : image.baseIid.isZero = true) (a : Assembler) :
    imageBase image a = .ok none a := by
  unfold imageBase
  rw [if_pos zero]
  rfl

theorem imageBase_of_nonzero (nonzero : image.baseIid.isZero = false) (a : Assembler) :
    imageBase image a = .ok (some (a.graph.externalInterface image.baseIid none).1)
      { a with graph := (a.graph.externalInterface image.baseIid none).2 } := by
  unfold imageBase
  rw [if_neg (by simp [nonzero])]
  rfl

/-- A base that has been found is found again. -/
theorem imageBase_again {base : Option TypeId} (run : imageBase image declared = .ok base based) :
    declared.graph.Keeps based.graph ∧ ∀ {b : Assembler}, based.graph.Indexed b.graph →
      imageBase image b = .ok base b := by
  cases named : image.baseIid.isZero with
  | true =>
    rw [imageBase_of_zero named] at run
    cases run
    exact ⟨.refl _, fun _ => imageBase_of_zero named _⟩
  | false =>
    rw [imageBase_of_nonzero named] at run
    cases run
    refine ⟨Graph.externalInterface_keeps _, fun {b} known => ?_⟩
    rw [imageBase_of_nonzero named, Graph.externalInterface_again named known]

section

variable {p : Policy} (steps : ProxySteps image iid name names a declared based id definition last)

include steps

theorem ProxySteps.start_sound (ordered : a.Ordered p) :
    (startOf based iid).Sound (p.regime based) := by
  have first := declare_hosts ordered iid (proxyName a iid name)
  rw [steps.declare] at first
  have second := imageBase_advance first.1.sound image
  rw [steps.base] at second
  exact startOf_sound (first.1.advance second.1).sound iid

/-- The interface is where it was declared when the walk has ended. -/
theorem ProxySteps.hosted (ordered : a.Ordered p) (nonzero : iid.isZero = false)
    (later : (startOf based iid).Later last) :
    Hosted iid id (proxyName a iid name) last.graph := by
  have declared := declare_hosted ordered.sound nonzero _ steps.declare
  obtain ⟨indexed, node, found, identity, rest⟩ := declared.keeps (imageBase_again steps.base).1
  have stage := methods_stage (steps.start_sound ordered) steps.methods
  obtain ⟨_, found', same, _⟩ := stage.graph.grows.kept found
  have apart := stage.sound.not_record found' (same.trans identity)
  exact ⟨later.indexed.guid indexed, node, later.untouched found apart.2, identity, rest⟩

end

/-! ### The second decode -/

/-- The second decode finds the name that the first one gave. -/
theorem proxyName_again (hosted : Hosted iid id (proxyName a iid name) b.graph) :
    proxyName b iid name = proxyName a iid name := by
  cases name with
  | some given => rfl
  | none =>
    obtain ⟨indexed, node, found, _, same, _⟩ := hosted
    rw [← same, proxyName, indexed, Option.bind_some, found]
    rfl

/-- An interface that has been defined is reported as changed when it is declared again. -/
theorem declare_of_complete {node : Node} (name : String) (body : Body)
    (known : a.graph.findGuid? iid = some id) (found : a.graph.node? id = some node)
    (complete : node.state = .complete) (own : node.external = false) :
    declare iid name body a = .ok id
      { a with graph := a.graph.modify id (redeclared name body), changed := a.changed ++ [iid] } := by
  have defined :
      (a.graph.node? id).any (fun node => node.state ≠ .pending && !node.external) = true := by
    simp [found, complete, own]
  unfold declare
  rw [get_bind, known]
  dsimp only
  rw [if_pos defined]
  rfl

section

variable {r : Regime} {label : String} (hosted : Hosted iid id label last.graph) (sound : last.Sound r)

include hosted sound

/-- The interface is none of the records. -/
theorem Hosted.not_record : id ∉ last.previousIds ∧ id ∉ last.recordIds := by
  obtain ⟨_, node, found, identity, _⟩ := hosted
  exact sound.not_record found identity

/-- The end of a walk leaves the interface alone. -/
theorem Hosted.finish : Hosted iid id label last.finish := by
  have apart := hosted.not_record sound
  obtain ⟨indexed, node, found, rest⟩ := hosted
  refine ⟨?_, node, ?_, rest⟩
  · rw [Graph.findGuid?, sound.finish_indexes.1]
    exact indexed
  · rw [finish_eq, Graph.node?_retireAll sound.previous_records, if_neg apart.1]
    exact found

/-- When the interface, reset in between, gets its contents again, the graph is what it was. -/
theorem finished_graph_eq {v : Walker}
    (retraces : Retraces last ((last.finish.modify id (completed definition)).modify id
      (redeclared label (.interface {}))) last v) :
    v.graph.modify id (completed definition) = last.finish.modify id (completed definition) := by
  have apart := hosted.not_record sound
  have indexes := sound.finish_indexes
  refine Graph.eq_of_fields (Array.ext_getElem? fun j => ?_) (retraces.byGuid.trans indexes.1.symm)
    (retraces.byStructure.trans indexes.2.symm)
  show (v.graph.modify id (completed definition)).node? j =
    (last.finish.modify id (completed definition)).node? j
  by_cases here : id = j
  · subst here
    obtain ⟨_, host, found, _, named, own⟩ := hosted.finish sound
    have again : completed definition (redeclared label (.interface {}) (completed definition host)) =
        completed definition host := by
      cases host
      cases named
      cases own
      rfl
    rw [Graph.node?_modify, if_pos rfl, retraces.others apart.2, Graph.node?_modify_self _
      (Graph.node?_modify_self _ found), Graph.node?_modify_self _ found, Option.map_some, again]
  · rw [Graph.node?_modify_of_ne _ here, Graph.node?_modify_of_ne _ here]
    have start : ((last.finish.modify id (completed definition)).modify id
        (redeclared label (.interface {}))).node? j = last.finish.node? j := by
      rw [Graph.node?_modify_of_ne _ here, Graph.node?_modify_of_ne _ here]
    by_cases met : j ∈ last.recordIds
    · have inside := (sound.isRecord j (List.mem_append_right _ met)).lt_size
      obtain ⟨node, found⟩ := Graph.exists_node_of_lt inside
      rw [retraces.met met found, start, sound.node?_finish_of_met met, found]
      rfl
    · rw [retraces.others met, start]

end

theorem Hosted.completed {g : Graph} {label : String} (hosted : Hosted iid id label g)
    (definition : Interface) : Hosted iid id label (g.modify id (completed definition)) := by
  obtain ⟨indexed, node, found, rest⟩ := hosted
  exact ⟨indexed, _, Graph.node?_modify_self _ found, rest⟩

/-- The assembler when the interface of the proxy has been declared again. -/
def reset (b : Assembler) (iid : Guid) (id : TypeId) (name : String) : Assembler :=
  { b with
    graph := b.graph.modify id (redeclared name (.interface {}))
    changed := b.changed ++ [iid] }

/-- The second walk begins with the records of the first. -/
theorem retraces_start {r : Regime} (sound : last.Sound r) (name : String)
    (ended : b = finished based iid id definition last) :
    Retraces last (reset b iid id name).graph (startOf based iid)
      (startOf (reset b iid id name) iid) := by
  subst ended
  have indexes := sound.finish_indexes
  refine ⟨rfl, rfl, fun offset => ?_, indexes.1, indexes.2, fun {j node} member => ?_, fun _ => rfl⟩
  · show (recordsOf (based.proxyRecords.insert iid last.current) iid).get? offset = _
    rw [recordsOf_insert, if_pos rfl, sound.agree.current_get?]
    rfl
  · cases member

/-- A walk that has met all records of the previous decode takes none out of use. -/
theorem finish_of_retraced {g : Graph} {v : Walker} (retraces : Retraces last g last v) :
    v.finish = v.graph := by
  apply finish_of_none
  intro offset
  rw [retraces.previous]
  cases last.memo.get? offset <;> rfl

/-- A complete proxy is decoded again to the same graph. -/
theorem addProxyImage_again {p : Policy} (ordered : a.Ordered p) (nonzero : iid.isZero = false)
    (named : image.NamesInterfaces) (run : addProxyImage image iid name names a = .ok id b)
    (complete : ∃ node, b.graph.node? id = some node ∧ node.state = .complete) :
    ∃ c, addProxyImage image iid name names b = .ok id c ∧ c.graph = b.graph ∧
      c.changed = b.changed ++ [iid] := by
  obtain ⟨declared, based, definition, last, steps, ended⟩ := exists_proxySteps run complete
  have start := steps.start_sound ordered
  have sound := (methods_stage start steps.methods).sound
  have inside : (startOf based iid).Inside := fun id member => (start.isRecord id member).lt_size
  obtain ⟨later, again⟩ :=
    methods_retraced named (fun _ => List.fst_mem_of_mem_zipIdx) inside steps.methods
  have hosted := steps.hosted ordered nonzero later
  have kept : Hosted iid id (proxyName a iid name) b.graph := by
    rw [ended]
    exact (hosted.finish sound).completed definition
  -- The second run, step by step.
  have declares : declare iid (proxyName b iid name) (.interface {}) b =
      .ok id (reset b iid id (proxyName a iid name)) := by
    rw [proxyName_again kept]
    obtain ⟨indexed, node, found, _, _, own⟩ := kept
    obtain ⟨_, found', state⟩ := complete
    cases found.symm.trans found'
    exact declare_of_complete _ _ indexed found state own
  have begins := retraces_start sound (proxyName a iid name) ended
  have bases := (imageBase_again steps.base).2 (later.indexed.trans begins.indexed)
  obtain ⟨v, walked, retraced⟩ := again (.refl later.inside) begins
  have second : ProxySteps image iid name names b _ _ id definition v :=
    ⟨declares, bases, walked, steps.vtable⟩
  refine ⟨_, second.run, ?_, rfl⟩
  show v.finish.modify id (completed definition) = b.graph
  rw [ended] at retraced
  rw [finish_of_retraced retraced, ended]
  exact finished_graph_eq hosted sound retraced

end Assemble

/-- A proxy is decoded again right away, under an IID other than zero. If its interface pointers carry
IIDs and its interface was complete, the second decode gives the same id and leaves the graph as it is.
The IID is reported once more. -/
theorem addProxy_again {a b : Assembler} (run : Reachable (fun _ _ => True) a) {bytes : Bytes}
    {iid : Guid} (nonzero : iid.isZero = false) (name : Option String) (names : NameLookup)
    (named : ∀ image, ProxyImage.decode bytes = .ok image → image.NamesInterfaces) {id : TypeId}
    (first : addProxy bytes iid name names a = .ok id b)
    (complete : ∃ node, b.graph.node? id = some node ∧ node.state = .complete) :
    ∃ c, addProxy bytes iid name names b = .ok id c ∧ c.graph = b.graph ∧
      c.changed = b.changed ++ [iid] := by
  have ordered : a.Ordered .unrestricted := ⟨run.sound, fun guarded => guarded.elim⟩
  unfold addProxy at first ⊢
  cases decoded : ProxyImage.decode bytes with
  | error fault =>
    rw [decoded] at first
    cases first
  | ok image =>
    rw [decoded] at first
    exact addProxyImage_again ordered nonzero (named image decoded) first complete

/-- A proxy with one procedure, which takes an interface pointer and a list: a structure of a pointer to
the next such structure and a long integer. -/
def listImage : ProxyImage where
  baseIid := .ofBytes [3]
  procOffsets := [0xFFFF, 0]
  procFormat := [0x33, 0x42, 3, 0, 0, 0, 0, 0, 0, 0, 0, 2, 8, 0, 0, 0, 0, 0, 8, 0, 0, 0, 18, 0]
  typeFormat :=
    [0x2F, 0x5A] ++ Encode.guid (.ofBytes [2]) ++
      [0x1A, 3, 16, 0, 0, 0, 6, 0, 0x36, 0x08, 0x5B, 0x5B, 0x12, 0, 0xF2, 0xFF]

theorem listImage_parse :
    Procedure.parse listImage.procFormat 0 = .ok ⟨3,
      ⟨[⟨.described 0, true, false, false⟩, ⟨.described 18, true, false, false⟩], none⟩⟩ ∧
    TypeForm.parse listImage.typeFormat 0 = .ok (.interfacePointer (.ofBytes [2])) ∧
    TypeForm.parse listImage.typeFormat 18 =
      .ok (.struct 16 ⟨[.described 30, .base .i4], none⟩) ∧
    TypeForm.parse listImage.typeFormat 30 = .ok (.pointer 18) := by
  decide +kernel

theorem listImage_refers {offset : Nat} (refers : listImage.Refers offset) :
    offset = 0 ∨ offset = 18 ∨ offset = 30 := by
  obtain ⟨procedure, interface, record, pointer⟩ := listImage_parse
  induction refers with
  | @parameter slot _ entry offset among own parsed listed described =>
    have first : slot = 0 := by
      rcases List.mem_cons.mp among with inherited | rest
      · exact absurd inherited own
      · exact List.mem_singleton.mp rest
    subst first
    cases procedure.symm.trans parsed
    simp only [List.mem_cons, List.not_mem_nil, or_false] at listed
    rcases listed with rfl | rfl
    · cases described
      exact .inl rfl
    · cases described
      exact .inr (.inl rfl)
  | pointer _ parsed ih => rcases ih with rfl | rfl | rfl <;> simp_all
  | member _ parsed listed ih => rcases ih with rfl | rfl | rfl <;> simp_all
  | element _ parsed ih => rcases ih with rfl | rfl | rfl <;> simp_all

theorem listImage_namesInterfaces : listImage.NamesInterfaces := by
  obtain ⟨-, interface, record, pointer⟩ := listImage_parse
  intro offset iid refers parsed
  rcases listImage_refers refers with rfl | rfl | rfl
  · cases interface.symm.trans parsed
    decide
  · cases record.symm.trans parsed
  · cases pointer.symm.trans parsed

/-- An assembler that holds another proxy under the IID, with a record of its own. -/
def beforeList : Assembler :=
  Call.run {} (.addProxy structProxy (.ofBytes [1]) (some "IList") fun _ _ => none)

/-- Whether the interface is the first node and complete in the end. -/
def completesFirst : EStateM.Result Fault Assembler TypeId → Bool
  | .ok id b => id = 0 && (b.graph.node? 0).any (·.isParsed)
  | .error _ _ => false

/-- The first time the record of the other proxy goes out of use and that of the list is new. The second
time nothing changes. -/
theorem listProxy_again :
    ∃ b c, addProxy listImage.encode (.ofBytes [1]) none .none beforeList = .ok 0 b ∧
      addProxy listImage.encode (.ofBytes [1]) none .none b = .ok 0 c ∧ c.graph = b.graph ∧
      c.changed = b.changed ++ [.ofBytes [1]] := by
  have reached : Reachable (fun _ _ => True) beforeList := .step _ (.start false) trivial
  have decodes : ProxyImage.decode listImage.encode = .ok listImage := by decide +kernel
  have named : ∀ image, ProxyImage.decode listImage.encode = .ok image → image.NamesInterfaces := by
    intro image decoded
    cases decodes.symm.trans decoded
    exact listImage_namesInterfaces
  have completes :
      completesFirst (addProxy listImage.encode (.ofBytes [1]) none .none beforeList) = true := by
    decide +kernel
  cases first : addProxy listImage.encode (.ofBytes [1]) none .none beforeList with
  | error fault b =>
    rw [first] at completes
    cases completes
  | ok id b =>
    rw [first] at completes
    simp only [completesFirst, Bool.and_eq_true, decide_eq_true_eq, Option.any_eq_true] at completes
    obtain ⟨rfl, node, found, parsed⟩ := completes
    have complete : node.state = .complete := by simpa [Node.isParsed] using parsed
    obtain ⟨c, second⟩ :=
      addProxy_again reached (by decide) none .none named first ⟨node, found, complete⟩
    exact ⟨b, c, rfl, second⟩

end ComTypes

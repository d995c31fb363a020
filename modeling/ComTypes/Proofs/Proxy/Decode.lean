import ComTypes.Proofs.Proxy.Closing

/-!
# Adding a proxy keeps the assembler in order

The interface of a proxy is declared without contents, its procedures are decoded, and its methods are
put in (`addProxy_ordered`). Between the first and the last of these steps the interface leads to no
reserved node; afterwards it leads to the records of its own proxy only.
-/

namespace ComTypes

open Assembler

variable {p : Policy} {a b : Assembler} {iid : Guid} {id : TypeId}

theorem Assembler.Advance.nameable (advance : a.Advance (p.regime a) b) (sound : a.Sound (p.regime a))
    (named : a.graph.Nameable (p.regime a) id) : b.graph.Nameable (p.regime b) id :=
  (named.grows sound.graph advance.graph.grows).loosen fun _ closed =>
    ⟨closed.1, advance.reserved closed.2⟩

theorem Assembler.Advance.isSlot (advance : a.Advance (p.regime a) b) (sound : a.Sound (p.regime a))
    (slot : a.graph.IsSlot (p.regime a) id) : b.graph.IsSlot (p.regime b) id :=
  (slot.grows sound.graph advance.graph.grows).loosen fun _ closed =>
    ⟨closed.1, advance.reserved closed.2⟩

namespace Assemble

/-- The node stands for the interface of a proxy, and leads to no reserved node yet. -/
structure Hosts (p : Policy) (iid : Guid) (id : TypeId) (a : Assembler) : Prop where
  slot : a.graph.IsSlot (p.regime a) id
  indexed : iid.isZero = false → a.graph.findGuid? iid = some id
  free : ∀ {node}, a.graph.node? id = some node →
    ∀ t ∈ node.body.targets, a.graph.Nameable (p.regime a) t

theorem Hosts.advance (hosts : Hosts p iid id a) (sound : a.Sound (p.regime a))
    (advance : a.Advance (p.regime a) b) : Hosts p iid id b where
  slot := advance.isSlot sound hosts.slot
  indexed nonzero := advance.graph.grows.findGuid sound.graph advance.graph.wellFormed
    (hosts.indexed nonzero)
  free {node'} found' t named := by
    rcases advance.graph.bodies found' with ⟨node, found, same⟩ | nameable
    · rw [same] at named
      exact advance.nameable sound (hosts.free found t named)
    · exact (nameable t named).loosen fun _ closed => ⟨closed.1, advance.reserved closed.2⟩

/-- Declaring an interface opens it to its own records. -/
theorem declare_hosts (ordered : a.Ordered p) (iid : Guid) (name : String) :
    Outcome (Ordered p) (Hosts p iid) (declare iid name (.interface {}) a) := by
  have blank : BodyNameable (p.regime a) (.interface {}) a := .of_no_targets rfl rfl
  refine (declare_advance ordered.sound blank).imp (fun _ advance => ordered.advance advance)
    fun id b advance declared => ⟨?_, declared.indexed, fun {node} found t named => ?_⟩
  · exact declared.slot.loosen fun _ closed => ⟨closed.1, advance.reserved closed.2⟩
  · rw [declared.body_eq found] at named
    cases named

/-! ### The base -/

/-- The base that a proxy image names. -/
def imageBase (image : ProxyImage) : Assemble (Option TypeId) :=
  if image.baseIid.isZero then pure none
  else some <$> onGraph (·.externalInterface image.baseIid none)

theorem addProxyImage_eq (image : ProxyImage) (iid : Guid) (name : Option String)
    (names : NameLookup) :
    addProxyImage image iid name names = (do
      let a ← get
      let id ← declare iid (proxyName a iid name) (.interface {})
      let base ← imageBase image
      let (methods, issues) ← proxyMethods image iid names
      modifyNode id fun node => { node with body := .interface { methods, base } }
      settle id issues
      return id) := by
  unfold addProxyImage imageBase
  cases image.baseIid.isZero <;> rfl

theorem imageBase_advance (sound : a.Sound (p.regime a)) (image : ProxyImage) :
    Outcome (a.Advance (p.regime a))
      (fun base b => ∀ t, base = some t → b.graph.Nameable (p.regime a) t)
      (imageBase image a) := by
  unfold imageBase
  cases image.baseIid.isZero with
  | true => exact Outcome.of_pure (.refl sound) fun t same => nomatch same
  | false =>
    have declares : (Body.interface {}).isDeclaration = true := rfl
    obtain ⟨advance, named⟩ :=
      Graph.external_blank_advance image.baseIid "" sound.graph declares rfl
    refine ⟨.withGraph sound advance, fun t same => ?_⟩
    cases same
    exact named

/-! ### Putting the methods in -/

/-- An interface node with its contents. -/
def defined (definition : Interface) (node : Node) : Node :=
  { node with body := .interface definition }

/-- The interface of a proxy may have these contents: they name existing nodes, and lead to reserved
nodes only if these are records of the proxy. -/
structure Fits (p : Policy) (iid : Guid) (id : TypeId) (definition : Interface) (a : Assembler) :
    Prop where
  slot : a.graph.IsSlot (p.regime a) id
  indexed : p.guarded → a.graph.findGuid? iid = some id
  inside : p.bounded → ∀ t ∈ (Body.interface definition).targets, t < a.graph.size
  own : p.guarded → ∀ t ∈ (Body.interface definition).targets, ∀ last,
    a.graph.Reaches t last → a.Reserved last → last ∈ (recordsOf a.proxyRecords iid).values

/-- Contents reserve nothing. -/
theorem reserved_of_defined {definition : Interface} {j : TypeId}
    (h : Reserved { a with graph := a.graph.modify id (defined definition) } j) :
    a.Reserved j := by
  rcases h with ⟨node, found, gone⟩ | member
  · rcases Graph.of_node?_modify found with ⟨_, old⟩ | ⟨_, old, found_old, rfl⟩
    · exact .inl ⟨node, old, gone⟩
    · exact .inl ⟨old, found_old, gone⟩
  · exact .inr member

theorem defined_grows (definition : Interface) :
    a.graph.Grows (a.graph.modify id (defined definition)) :=
  .of_modify (fun _ => rfl) fun _ _ => .inr rfl

theorem isSlot_defined (sound : a.Sound (p.regime a)) {definition : Interface} {j : TypeId}
    (slot : a.graph.IsSlot (p.regime a) j) :
    (a.graph.modify id (defined definition)).IsSlot
      (p.regime { a with graph := a.graph.modify id (defined definition) }) j :=
  (slot.grows sound.graph (defined_grows definition)).loosen fun _ closed =>
    ⟨closed.1, reserved_of_defined closed.2⟩

/-- The interface may name the records that were kept for it. -/
theorem defined_ordered (ordered : a.Ordered p) {definition : Interface}
    (fits : Fits p iid id definition a) :
    Ordered p { a with graph := a.graph.modify id (defined definition) } := by
  have sound := ordered.sound
  have grows : a.graph.Grows (a.graph.modify id (defined definition)) := defined_grows definition
  have wf : (a.graph.modify id (defined definition)).WellFormed (p.regime a) :=
    sound.graph.modify (fun _ => rfl) fun _ _ => .inr ⟨fits.slot.editable, rfl, fits.inside⟩
  refine ⟨⟨wf.loosen fun _ closed => ⟨closed.1, reserved_of_defined closed.2⟩,
    fun known => isSlot_defined sound (sound.slots known),
    fun known => isSlot_defined sound (sound.anonymous known),
    fun known => grows.index_kept (sound.unnamed known), sound.records.grows grows⟩,
    fun guarded => ?_⟩
  have bounded := p.bounded_of_guarded guarded
  have tidy := ordered.tidy guarded
  refine ⟨fun other j member => ?_, fun {j node'} found declares t named last reached stays => ?_⟩
  · obtain ⟨node, found, used, complete⟩ := tidy.complete other j member
    by_cases same : id = j
    · subst same
      exact ⟨_, Graph.node?_modify_self _ found, used, complete⟩
    · exact ⟨node, (Graph.node?_modify_of_ne _ same).trans found, used, complete⟩
  · rcases Graph.of_node?_modify found with ⟨_, old⟩ | ⟨rfl, node, _, rfl⟩
    · have before := grows.reaches (sound.graph.targets_lt bounded) reached
        (sound.graph.targets_lt bounded old t named)
      exact tidy.owned old declares t named last before (reserved_of_defined stays)
    · have before := grows.reaches (sound.graph.targets_lt bounded) reached (fits.inside bounded t named)
      exact ⟨iid, fits.own guarded t named last before (reserved_of_defined stays), .inl (fits.indexed guarded)⟩

/-- The methods that were decoded fit the interface. -/
theorem proxyMethods_fits (ordered : a.Ordered p) (image : ProxyImage)
    (nonzero : p.guarded → iid.isZero = false) (names : NameLookup) (hosts : Hosts p iid id a)
    {base : Option TypeId} (named : ∀ t, base = some t → a.graph.Nameable (p.regime a) t) :
    Outcome (Ordered p) (fun result b => Fits p iid id { methods := result.1, base } b)
      (proxyMethods image iid names a) := by
  obtain ⟨kept, failed, decoded⟩ := Walk.methods_decoded image names image.procOffsets.zipIdx
    (Walk.startOf_sound ordered.sound iid)
  have sound := ordered.sound
  have after : Ordered p (afterDecode a iid _) :=
    ⟨sound_afterDecode sound decoded, fun guarded => tidy_afterDecode sound decoded guarded
      (ordered.tidy guarded) (hosts.indexed (nonzero guarded)) hosts.free⟩
  refine ⟨after, isSlot_afterDecode sound decoded hosts.slot, fun guarded => ?_,
    fun bounded t member => ?_, fun guarded t member last reached reserved => ?_⟩
  · exact decoded.grows.findGuid sound.graph after.sound.graph (hosts.indexed (nonzero guarded))
  · rcases mem_targets_interface.mp member with same | ⟨method, inside, type⟩
    · exact (nameable_afterDecode sound decoded (named t same) bounded).1
    · exact Nat.lt_of_lt_of_le (decoded.named method inside t type bounded).1
        decoded.kept_grows.size_le
  · rcases mem_targets_interface.mp member with same | ⟨method, inside, type⟩
    · have apart := (nameable_afterDecode sound decoded (named t same)
        (p.bounded_of_guarded guarded)).2 last reached
      exact absurd ⟨guarded, reserved⟩ apart
    · exact (mem_records_iff decoded).mpr
        (met_of_reserved decoded guarded (decoded.named method inside t type) reached reserved)

/-! ### The whole proxy -/

/-- Draw up the interface of a proxy. Returns its node with the issues met on the way. -/
def drawn (image : ProxyImage) (iid : Guid) (name : Option String) (names : NameLookup) :
    Assemble (TypeId × List Issue) := do
  let a ← get
  let id ← declare iid (proxyName a iid name) (.interface {})
  let base ← imageBase image
  let (methods, issues) ← proxyMethods image iid names
  modifyNode id (defined { methods, base })
  return (id, issues)

/-- A decode ends by recording the issues that were met. -/
theorem addProxyImage_eq_settling (image : ProxyImage) (iid : Guid) (name : Option String)
    (names : NameLookup) :
    addProxyImage image iid name names = settling (drawn image iid name names) := by
  simp only [addProxyImage_eq, settling, drawn, bind_assoc, pure_bind]
  rfl

/-- A decode leaves the assembler in order, whatever failed in it. -/
theorem drawn_ordered (ordered : a.Ordered p) (image : ProxyImage)
    (nonzero : p.guarded → iid.isZero = false) (name : Option String) (names : NameLookup) :
    Outcome (Ordered p) (fun result b => b.graph.IsSlot (p.regime b) result.1)
      (drawn image iid name names a) := by
  refine Outcome.of_get ?_
  refine Outcome.bind (declare_hosts ordered iid _) fun id b ordered hosts => ?_
  have bases : Outcome (Ordered p) (fun base c => Hosts p iid id c ∧
      ∀ t, base = some t → c.graph.Nameable (p.regime c) t) (imageBase image b) :=
    (imageBase_advance ordered.sound image).imp (fun _ advance => ordered.advance advance)
      fun base c advance named => ⟨hosts.advance ordered.sound advance, fun t same =>
        (named t same).loosen fun _ closed => ⟨closed.1, advance.reserved closed.2⟩⟩
  refine Outcome.bind bases fun base c ordered ⟨hosts, named⟩ => ?_
  refine Outcome.bind (proxyMethods_fits ordered image nonzero names hosts named)
    fun ⟨methods, issues⟩ d ordered fits => ?_
  refine Outcome.of_modify ?_
  exact Outcome.of_pure (defined_ordered ordered fits) (isSlot_defined ordered.sound fits.slot)

theorem addProxyImage_ordered (ordered : a.Ordered p) (image : ProxyImage)
    (nonzero : p.guarded → iid.isZero = false) (name : Option String) (names : NameLookup) :
    Outcome (Ordered p) (fun _ _ => True) (addProxyImage image iid name names a) := by
  rw [addProxyImage_eq_settling]
  refine Outcome.bind (drawn_ordered ordered image nonzero name names)
    fun ⟨id, issues⟩ b ordered slot => ?_
  have settled := (settle_advance ordered.sound slot issues).imp
    (fun _ advance => ordered.advance advance) (fun _ _ _ h => h)
  exact Outcome.bind settled fun _ c ordered _ => Outcome.of_pure ordered trivial

/-- Adding a proxy keeps the assembler in order, whether it succeeds or fails. Where nodes are
reserved, its IID must not be zero. -/
theorem addProxy_ordered (ordered : a.Ordered p) (bytes : Bytes)
    (nonzero : p.guarded → iid.isZero = false) (name : Option String) (names : NameLookup) :
    Outcome (Ordered p) (fun _ _ => True) (addProxy bytes iid name names a) := by
  unfold addProxy
  cases ProxyImage.decode bytes with
  | ok image => exact addProxyImage_ordered ordered image nonzero name names
  | error fault => exact Outcome.of_throw ordered

end Assemble

end ComTypes

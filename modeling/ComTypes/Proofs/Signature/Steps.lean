import ComTypes.Assembly.Basic
import ComTypes.Proofs.Graph.Arena
import ComTypes.Proofs.Outcome
import ComTypes.Proofs.Render.Alike
import ComTypes.Proofs.Signature.Basic
import ComTypes.Proxy.Walk

/-!
# The nodes of a signature

The methods of a signature are added to a graph by interning the types of their parameters and
results in order. Assembling a type library and walking a proxy both come down to these steps.

`InStep` says that two such computations go side by side: if their graphs differ in nothing but the
first node, and in what is not shown of the others, they give corresponding values and leave graphs
that differ no more than before.
-/

namespace ComTypes

/-- Intern a structure. -/
def interned (structural : Structural) : StateM Graph TypeId := fun g => g.intern structural

namespace Signature

/-- The node of a parameter's type. -/
def Param.node (param : Param) : StateM Graph TypeId := do
  let type ← interned (.primitive param.type.primitive)
  if param.byReference then interned (.pointer type) else return type

/-- A parameter with a type. -/
def Param.parameter (param : Param) (type : TypeId) (ordinal : Nat) : Parameter :=
  { name := param.name.getD s!"p{ordinal}", type, ordinal, flags := param.flags }

/-- A parameter with the node of its type. -/
def Param.built (param : Param) (ordinal : Nat) : StateM Graph Parameter := do
  return param.parameter (← param.node) ordinal

/-- The method with the nodes of its types. -/
def Method.built (method : Method) (vtableOffset : Int32) : StateM Graph ComTypes.Method := do
  let types ← method.params.mapM Param.node
  let returnType ← interned (.primitive method.result.primitive)
  return {
    name := method.name
    returnType
    parameters := (method.params.zip types).zipIdx.map fun ((param, type), ordinal) =>
      param.parameter type ordinal
    vtableOffset }

end Signature

/-! ### Steps on the graph -/

section OnGraph

variable {α β γ : Type}

theorem Assemble.onGraph_pure (value : α) :
    Assemble.onGraph (pure value : StateM Graph α) = pure value := rfl

theorem Assemble.onGraph_bind (step : StateM Graph α) (next : α → StateM Graph β) :
    Assemble.onGraph (step >>= next) = Assemble.onGraph step >>= fun value =>
      Assemble.onGraph (next value) := rfl

theorem Assemble.onGraph_mapM (step : γ → StateM Graph α) (items : List γ) :
    Assemble.onGraph (items.mapM step) = items.mapM fun item => Assemble.onGraph (step item) := by
  induction items with
  | nil => rfl
  | cons item rest ih =>
    rw [List.mapM_cons, List.mapM_cons, ← ih]
    rfl

theorem Walk.onGraph_bind (step : StateM Graph α) (next : α → StateM Graph β) :
    Walk.onGraph (step >>= next) = Walk.onGraph step >>= fun value =>
      Walk.onGraph (next value) := rfl

theorem mapM_congr {m : Type → Type} [Monad m] [LawfulMonad m] {f g : γ → m α} {items : List γ}
    (same : ∀ item ∈ items, f item = g item) : items.mapM f = items.mapM g := by
  induction items with
  | nil => rfl
  | cons item rest ih =>
    rw [List.mapM_cons, List.mapM_cons, same item List.mem_cons_self,
      ih fun other member => same other (List.mem_cons_of_mem _ member)]

/-- Numbering the items while they are gone through, or afterwards. -/
theorem mapM_zipIdx (step : γ → StateM Graph α) (build : γ → α → Nat → β) (items : List γ)
    (first : Nat) :
    (items.zipIdx first).mapM (fun (item, ordinal) => do
      return build item (← step item) ordinal) = (do
        let values ← items.mapM step
        return ((items.zip values).zipIdx first).map fun ((item, value), ordinal) =>
          build item value ordinal : StateM Graph (List β)) := by
  induction items generalizing first with
  | nil => rfl
  | cons item rest ih =>
    rw [List.zipIdx_cons, List.mapM_cons, List.mapM_cons, ih]
    simp only [bind_assoc, pure_bind]
    rfl

end OnGraph

/-! ### Side by side -/

theorem Node.LooksLike.refl (iids : IidNames) (node : Node) : node.LooksLike iids node :=
  ⟨rfl, fun _ _ => rfl, fun _ => rfl⟩

/-- The node is declared by this graph and no other. -/
def Node.isRoot (node : Node) : Bool := node.isDeclaration && !node.external

/-- The graphs have the given first nodes. Their other nodes look alike, are complete and no roots. -/
structure Graph.Parallel (iids : IidNames) (first first' : Node) (g g' : Graph) : Prop where
  size_eq : g.size = g'.size
  interned_eq : ∀ structural, g.byStructure.get? structural = g'.byStructure.get? structural
  first : g.node? 0 = some first
  first' : g'.node? 0 = some first'
  others : ∀ {id node node'}, id ≠ 0 → g.node? id = some node → g'.node? id = some node' →
    node.LooksLike iids node' ∧ node.isParsed = true ∧ node.isRoot = false

section Parallel

variable {iids : IidNames} {first first' : Node} {g g' : Graph} {α α' β β' γ : Type}

/-- The same node is appended to both. -/
theorem Graph.Parallel.appends {node node' : Node} {h h' : Graph}
    (parallel : g.Parallel iids first first' g') (left : g.Appends node h) (right : g'.Appends node' h')
    (like : node.LooksLike iids node') (parsed : node.isParsed = true) (unrooted : node.isRoot = false)
    (external : node.external = node'.external) (body : node.body = node'.body) :
    h.Parallel iids first first' h' := by
  have positive := lt_size_of_node? parallel.first
  have positive' := lt_size_of_node? parallel.first'
  refine ⟨?_, fun structural => ?_, ?_, ?_, fun {id n n'} apart found found' => ?_⟩
  · rw [left.size_eq, right.size_eq, parallel.size_eq]
  · rw [left.structure_eq, right.structure_eq, parallel.interned_eq, parallel.size_eq, external, body]
  · rw [left.node_eq, if_neg (Nat.ne_of_lt positive)]
    exact parallel.first
  · rw [right.node_eq, if_neg (Nat.ne_of_lt positive')]
    exact parallel.first'
  · rw [left.node_eq] at found
    rw [right.node_eq, ← parallel.size_eq] at found'
    by_cases last : id = g.size
    · rw [if_pos last] at found found'
      cases found
      cases found'
      exact ⟨like, parsed, unrooted⟩
    · rw [if_neg last] at found found'
      exact parallel.others apart found found'

/-- The first node may be changed in each graph by itself. -/
theorem Graph.Parallel.modify (parallel : g.Parallel iids first first' g')
    (change change' : Node → Node) :
    (g.modify 0 change).Parallel iids (change first) (change' first') (g'.modify 0 change') where
  size_eq := by simpa using parallel.size_eq
  interned_eq := parallel.interned_eq
  first := node?_modify_self change parallel.first
  first' := node?_modify_self change' parallel.first'
  others {id node node'} apart found found' := by
    rw [node?_modify_of_ne change (Ne.symm apart)] at found
    rw [node?_modify_of_ne change' (Ne.symm apart)] at found'
    exact parallel.others apart found found'

/-- Two computations give related values on parallel graphs and leave parallel graphs. -/
def InStep (iids : IidNames) (first first' : Node) (related : α → α' → Prop)
    (step : StateM Graph α) (step' : StateM Graph α') : Prop :=
  ∀ g g', Graph.Parallel iids first first' g g' →
    related (step g).1 (step' g').1 ∧ Graph.Parallel iids first first' (step g).2 (step' g').2

namespace InStep

variable {related : α → α' → Prop} {related' : β → β' → Prop}

theorem pure {value : α} {value' : α'} (h : related value value') :
    InStep iids first first' related (pure value) (pure value') := fun _ _ parallel => ⟨h, parallel⟩

theorem bind {step : StateM Graph α} {step' : StateM Graph α'} {next : α → StateM Graph β}
    {next' : α' → StateM Graph β'} (h : InStep iids first first' related step step')
    (rest : ∀ value value', related value value' →
      InStep iids first first' related' (next value) (next' value')) :
    InStep iids first first' related' (step >>= next) (step' >>= next') := by
  intro g g' parallel
  obtain ⟨values, parallel'⟩ := h g g' parallel
  exact rest _ _ values _ _ parallel'

theorem mapM {step : γ → StateM Graph α} {step' : γ → StateM Graph α'} {items : List γ}
    (each : ∀ item ∈ items, InStep iids first first' related (step item) (step' item)) :
    InStep iids first first' (List.Forall₂ related) (items.mapM step) (items.mapM step') := by
  induction items with
  | nil => exact .pure .nil
  | cons item rest ih =>
    rw [List.mapM_cons, List.mapM_cons]
    refine .bind (each item List.mem_cons_self) fun value value' head => ?_
    refine .bind (ih fun other member => each other (List.mem_cons_of_mem _ member))
      fun values values' tail => ?_
    exact .pure (.cons head tail)

/-- Interning finds the same node in both graphs, or appends the same to both. -/
theorem interned (structural : Structural) :
    InStep iids first first' Eq (ComTypes.interned structural) (ComTypes.interned structural) := by
  intro g g' parallel
  show (g.intern structural).1 = (g'.intern structural).1 ∧
    Graph.Parallel iids first first' (g.intern structural).2 (g'.intern structural).2
  cases known : g.byStructure.get? structural with
  | some id =>
    have known' : g'.byStructure.get? structural = some id := by rw [← parallel.interned_eq, known]
    rw [Graph.intern_of_found known, Graph.intern_of_found known']
    exact ⟨rfl, parallel⟩
  | none =>
    have unknown' : g'.byStructure.get? structural = none := by rw [← parallel.interned_eq, known]
    rw [Graph.intern_fst_of_new known, Graph.intern_fst_of_new unknown']
    refine ⟨parallel.size_eq, ?_⟩
    have same : g.internedNode structural = g'.internedNode structural := by
      simp only [Graph.internedNode, parallel.size_eq]
    have right := Graph.appends_intern unknown'
    rw [← same] at right
    exact parallel.appends (Graph.appends_intern known) right (.refl iids _) rfl rfl rfl rfl

end InStep

/-- Both runs give a method the same types. -/
theorem Signature.Method.built_inStep (method : Method) (offset offset' : Int32) :
    InStep iids first first' (fun built built' => built.shown = built'.shown)
      (method.built offset) (method.built offset') := by
  have nodes : InStep iids first first' (List.Forall₂ Eq) (method.params.mapM Param.node)
      (method.params.mapM Param.node) := by
    refine .mapM fun param _ => ?_
    refine .bind (.interned _) fun type type' same => ?_
    subst same
    split
    · exact .interned _
    · exact .pure rfl
  refine .bind nodes fun types types' same => ?_
  rw [List.forall₂_eq_eq_eq] at same
  subst same
  refine .bind (.interned _) fun type type' same => ?_
  subst same
  exact .pure rfl

end Parallel

/-! ### The whole interface -/

/-- The name is that of a runtime class, which is shown in another form. -/
def Naming.Mangled (name : String) : Prop := ['_', '_', 'x', '_'] <+: name.toList

instance (name : String) : Decidable (Naming.Mangled name) :=
  inferInstanceAs (Decidable (_ <+: _))

theorem Naming.demangle_of_plain {name : String} (plain : ¬ Mangled name) (separator : String) :
    demangle name separator = name := by
  unfold demangle
  split
  next rest chars =>
    refine absurd ?_ plain
    rw [Mangled, chars]
    exact ⟨rest, rfl⟩
  next => rfl

namespace Signature

/-- The base is known under its own name, and is no runtime class. -/
def BaseKnown (signature : Signature) (iids : IidNames) : Prop :=
  ∀ base ∈ signature.base, iids.get? base.iid = some base.name ∧ ¬ Naming.Mangled base.name

/-- The graph that holds the declaration of the interface and nothing else. -/
def start (signature : Signature) : Graph :=
  (({} : Graph).add (some signature.iid) signature.name (.interface {})).2

/-- The node of the base, which is given a name. -/
def baseNode (signature : Signature) (name : Base → String) : StateM Graph (Option TypeId) :=
  match signature.base with
  | none => pure none
  | some base => some <$> (fun g => g.external base.iid (name base) (.interface {}) : StateM Graph TypeId)

/-- The definition of the interface with the nodes of its types. -/
def definition (signature : Signature) (name : Base → String) (offset : Method → Int32) :
    StateM Graph Interface := do
  let base ← signature.baseNode name
  let methods ← signature.methods.mapM fun method => method.built (offset method)
  return { methods, base }

/-- The declaration of the interface, under some name. -/
def declared (signature : Signature) (name : String) : Node :=
  { identity := .guid signature.iid, name, body := .interface {} }

theorem appends_start (signature : Signature) :
    ({} : Graph).Appends (signature.declared signature.name) signature.start := by
  have declares : (Body.interface {}).isDeclaration = true := rfl
  have appends := ({} : Graph).appends_add (some signature.iid) signature.name declares
  rwa [Graph.nextIdentity_of_nonzero signature.nonzero] at appends

theorem node_start (signature : Signature) :
    signature.start.node? 0 = some (signature.declared signature.name) := by
  rw [signature.appends_start.node_eq]
  rfl

theorem start_parallel (iids : IidNames) (signature : Signature) :
    signature.start.Parallel iids (signature.declared signature.name)
      (signature.declared signature.name) signature.start := by
  have first := signature.node_start
  refine ⟨rfl, fun _ => rfl, first, first, fun {id node node'} apart found => ?_⟩
  rw [signature.appends_start.node_eq, if_neg (by exact apart)] at found
  cases found

theorem findGuid_start (signature : Signature) (guid : Guid) :
    signature.start.findGuid? guid = if signature.iid = guid then some 0 else none := by
  rw [signature.appends_start.guid_eq]
  by_cases same : signature.iid = guid
  · have own : (signature.declared signature.name).identity = .guid guid := congrArg _ same
    rw [if_pos same, if_pos own]
    rfl
  · have other : (signature.declared signature.name).identity ≠ .guid guid :=
      fun eq => same (Identity.guid.inj eq)
    rw [if_neg same, if_neg other]
    rfl

/-- The node of a base that is defined elsewhere. -/
theorem externalNode_looksLike {iids : IidNames} {base : Base} (g : Graph)
    (known : iids.get? base.iid = some base.name) (plain : ¬ Naming.Mangled base.name) :
    (g.externalNode base.iid base.name (.interface {})).LooksLike iids
      (g.externalNode base.iid "" (.interface {})) where
  shown := rfl
  baseName separator id := by
    have guid : ∀ name, (g.externalNode base.iid name (.interface {})).guid? = some base.iid := by
      intro name
      simp only [Graph.externalNode, Node.guid?, Graph.nextIdentity_of_nonzero base.nonzero]
      rfl
    have cached : Naming.baseName (some iids) separator id
        (g.externalNode base.iid "" (.interface {})) = base.name := by
      simp only [Naming.baseName, guid]
      simp [Graph.externalNode, known]
    by_cases empty : base.name = ""
    · rw [empty]
    · rw [cached, Naming.baseName, if_pos (by exact empty)]
      exact Naming.demangle_of_plain plain separator
  named unparsed := by cases unparsed

theorem baseNode_parallel {iids : IidNames} (signature : Signature)
    (known : signature.BaseKnown iids) :
    (signature.baseNode (·.name) signature.start).1 =
        (signature.baseNode (fun _ => "") signature.start).1 ∧
      ∃ name, (signature.baseNode (·.name) signature.start).2.Parallel iids (signature.declared name)
        (signature.declared signature.name) (signature.baseNode (fun _ => "") signature.start).2 := by
  have parallel := start_parallel iids signature
  unfold baseNode
  cases given : signature.base with
  | none => exact ⟨rfl, signature.name, parallel⟩
  | some base =>
    obtain ⟨cached, plain⟩ := known base given
    show some (signature.start.external base.iid base.name (.interface {})).1 =
        some (signature.start.external base.iid "" (.interface {})).1 ∧
      ∃ name, (signature.start.external base.iid base.name (.interface {})).2.Parallel iids
        (signature.declared name) (signature.declared signature.name)
        (signature.start.external base.iid "" (.interface {})).2
    have indexed := signature.findGuid_start base.iid
    by_cases own : signature.iid = base.iid
    · -- The interface is its own base, and may have no name until it is built.
      rw [if_pos own] at indexed
      rw [Graph.external_of_found _ _ indexed, Graph.external_of_found _ _ indexed]
      refine ⟨rfl, if signature.name = "" then base.name else signature.name, ?_⟩
      have changed := parallel.modify
        (fun node => if node.name = "" then { node with name := base.name } else node)
        (fun node => if node.name = "" then { node with name := "" } else node)
      by_cases empty : signature.name = ""
      · simpa [declared, empty] using changed
      · simpa [declared, empty] using changed
    · rw [if_neg own] at indexed
      refine ⟨?_, signature.name, ?_⟩
      · rw [Graph.external_fst_of_new _ _ indexed, Graph.external_fst_of_new _ _ indexed]
      · exact parallel.appends (Graph.appends_external _ _ indexed)
          (Graph.appends_external _ _ indexed) (externalNode_looksLike _ cached plain) rfl rfl rfl rfl

/-- The base is an interface. -/
theorem body_external_start (signature : Signature) (base : Base) (name : String) :
    (signature.start.external base.iid name (.interface {})).2.body?
      (signature.start.external base.iid name (.interface {})).1 = some (.interface {}) := by
  have first := signature.node_start
  have indexed := signature.findGuid_start base.iid
  by_cases own : signature.iid = base.iid
  · rw [if_pos own] at indexed
    rw [Graph.external_of_found _ _ indexed, Graph.body?, Graph.node?_modify_self _ first]
    by_cases empty : signature.name = "" <;> simp [declared, empty]
  · rw [if_neg own] at indexed
    rw [Graph.external_fst_of_new _ _ indexed, Graph.body?,
      (Graph.appends_external _ _ indexed).node_eq, if_pos rfl]
    rfl

/-- The two descriptions lead to the same definition, as far as it is shown. -/
theorem definition_parallel {iids : IidNames} (signature : Signature)
    (known : signature.BaseKnown iids)
    (offset offset' : Method → Int32) :
    let built := signature.definition (·.name) offset signature.start
    let built' := signature.definition (fun _ => "") offset' signature.start
    built.1.base = built'.1.base ∧
      built.1.methods.map ComTypes.Method.shown = built'.1.methods.map ComTypes.Method.shown ∧
      ∃ name, built.2.Parallel iids (signature.declared name) (signature.declared signature.name)
        built'.2 := by
  obtain ⟨same, name, parallel⟩ := baseNode_parallel signature known
  have methods : InStep iids (signature.declared name) (signature.declared signature.name)
      (List.Forall₂ fun built built' => built.shown = built'.shown)
      (signature.methods.mapM fun method => method.built (offset method))
      (signature.methods.mapM fun method => method.built (offset' method)) :=
    .mapM fun method _ => method.built_inStep _ _
  obtain ⟨shown, parallel'⟩ := methods _ _ parallel
  refine ⟨same, ?_, name, parallel'⟩
  rw [← List.forall₂_eq_eq_eq, List.forall₂_map_left_iff, List.forall₂_map_right_iff]
  exact shown

/-- The graph with the definition in place: the first node is changed, and complete. -/
def finished (signature : Signature) (name : Base → String) (offset : Method → Int32)
    (change : Interface → Node → Node) : Graph :=
  let built := signature.definition name offset signature.start
  (built.2.modify 0 (change built.1)).modify 0 fun node => { node with state := .complete }

/-- Finishing changes the first nodes only. -/
theorem finished_parallel {iids : IidNames} {first first' : Node} {signature : Signature}
    {name name' : Base → String} {offset offset' : Method → Int32}
    (parallel : (signature.definition name offset signature.start).2.Parallel iids first first'
      (signature.definition name' offset' signature.start).2)
    (change change' : Interface → Node → Node) :
    (signature.finished name offset change).Parallel iids
      { change (signature.definition name offset signature.start).1 first with state := .complete }
      { change' (signature.definition name' offset' signature.start).1 first' with state := .complete }
      (signature.finished name' offset' change') := by
  have changed := parallel.modify (change (signature.definition name offset signature.start).1)
    (change' (signature.definition name' offset' signature.start).1)
  exact changed.modify (fun node => { node with state := .complete })
    fun node => { node with state := .complete }

theorem settle_nil (id : TypeId) (a : Assembler) :
    Assemble.settle id [] a = .ok () { a with
      graph := a.graph.modify id fun node => { node with state := .complete } } := by
  unfold Assemble.settle Assemble.modifyNode
  rw [modify_bind, get_bind]
  cases a.strict <;> rfl

end Signature

end ComTypes

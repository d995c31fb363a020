import ComTypes.Render.Renderer
import Mathlib.Data.List.Forall2

/-!
# Graphs with the same outline

Which declarations are rendered, in which order, and how types are spelled depends on a graph only through
the outline of its nodes: of which kind they are, which types they name and how far they have been built.
Names, documentation, attributes and values of members play no part in it. So graphs with the same outline
are rendered by the same plan (`Graph.SameOutline.plan_eq`) and spell types alike (`Scope.spell_withGraph`).
-/

namespace ComTypes

/-- The method as far as it names types. -/
def Method.outline (method : Method) : Method where
  name := ""
  returnType := method.returnType
  parameters := method.parameters.map fun parameter =>
    { name := "", type := parameter.type, ordinal := 0 }
  vtableOffset := 0

/-- The body as far as it names types. -/
def Body.outline : Body → Body
  | typedef target => typedef target
  | enumeration _ => enumeration []
  | record layout fields =>
    record layout (fields.map fun field => { name := "", type := field.type, ordinal := 0 })
  | interface definition =>
    interface { definition with methods := definition.methods.map Method.outline }
  | structural structure' => structural structure'

/-- The node without its name and without what is written for it alone. -/
def Node.outline (node : Node) : Node where
  identity := node.identity
  name := ""
  external := node.external
  retired := node.retired
  state := node.state
  body := node.body.outline

/-- The nodes of both graphs have the same outlines. -/
def Graph.SameOutline (g g' : Graph) : Prop :=
  ∀ id, (g.node? id).map Node.outline = (g'.node? id).map Node.outline

theorem Body.references_outline (body : Body) : body.outline.references = body.references := by
  cases body with
  | record layout fields =>
    simp only [outline, references, List.map_map]
    rfl
  | interface definition =>
    simp only [outline, references, Method.outline, List.flatMap_map, List.map_map]
    rfl
  | typedef | enumeration | structural => rfl

theorem Node.isDeclaration_outline (node : Node) : node.outline.isDeclaration = node.isDeclaration := by
  unfold Node.isDeclaration Node.outline
  cases node.body <;> rfl

/-- Bodies with the same outline differ in the contents of a declaration of the same kind at most. -/
theorem Body.cases_of_outline {body body' : Body} (same : body.outline = body'.outline) :
    body' = body ∨
    (∃ members members', body = .enumeration members ∧ body' = .enumeration members') ∨
    (∃ layout fields fields', body = .record layout fields ∧ body' = .record layout fields') ∨
    ∃ definition definition', definition.dispatch = definition'.dispatch ∧
      body = .interface definition ∧ body' = .interface definition' := by
  cases body <;> cases body' <;> simp_all [outline]

namespace Graph.SameOutline

variable {g g' : Graph} {γ : Type}

theorem size_eq (same : g.SameOutline g') : g.size = g'.size := by
  have inside : ∀ id, id < g.size ↔ id < g'.size := by
    intro id
    have found := Bool.eq_iff_iff.mp (congrArg Option.isSome (same id))
    simpa [node?, size] using found
  refine Nat.le_antisymm (Nat.le_of_not_lt fun less => ?_) (Nat.le_of_not_lt fun less => ?_)
  · exact Nat.lt_irrefl _ ((inside _).mp less)
  · exact Nat.lt_irrefl _ ((inside _).mpr less)

/-- What depends on the outline of a node only is the same for both. -/
theorem node_congr (same : g.SameOutline g') (id : TypeId) (f : Option Node → γ)
    (outlined : ∀ node, f (some node.outline) = f (some node)) : f (g.node? id) = f (g'.node? id) := by
  have through : ∀ found : Option Node, f (found.map Node.outline) = f found := by
    intro found
    cases found with
    | none => rfl
    | some node => exact outlined node
  rw [← through, same id, through]

theorem body_congr (same : g.SameOutline g') (id : TypeId) (f : Option Body → γ)
    (outlined : ∀ body, f (some body.outline) = f (some body)) : f (g.body? id) = f (g'.body? id) :=
  same.node_congr id (fun node => f (node.map Node.body)) fun node => outlined node.body

theorem body_cases (same : g.SameOutline g') (id : TypeId) :
    g'.body? id = g.body? id ∨
    (∃ members members', g.body? id = some (.enumeration members) ∧
      g'.body? id = some (.enumeration members')) ∨
    (∃ layout fields fields', g.body? id = some (.record layout fields) ∧
      g'.body? id = some (.record layout fields')) ∨
    ∃ definition definition', definition.dispatch = definition'.dispatch ∧
      g.body? id = some (.interface definition) ∧ g'.body? id = some (.interface definition') := by
  have outlines : (g.body? id).map Body.outline = (g'.body? id).map Body.outline :=
    same.body_congr id (·.map Body.outline) fun body => by
      rw [Option.map_some, Option.map_some]
      cases body <;> simp [Body.outline, Method.outline, Function.comp_def]
  cases found : g.body? id with
  | none =>
    cases found' : g'.body? id with
    | none => exact .inl rfl
    | some body' =>
      rw [found, found'] at outlines
      cases outlines
  | some body =>
    cases found' : g'.body? id with
    | none =>
      rw [found, found'] at outlines
      cases outlines
    | some body' =>
      rw [found, found'] at outlines
      simpa using Body.cases_of_outline (Option.some.inj outlines)

/-! ### Following references -/

theorem chainEnd?_eq (same : g.SameOutline g') {step : Body → Option TypeId}
    (outlined : ∀ body, step body.outline = step body) (hops : Nat) (id : TypeId) :
    g.chainEnd? step hops id = g'.chainEnd? step hops id := by
  induction hops generalizing id with
  | zero => rfl
  | succ hops ih =>
    have next : (g.body? id).bind step = (g'.body? id).bind step :=
      same.body_congr id (·.bind step) outlined
    simp only [chainEnd?, next, ih]

theorem throughStructure_outline (body : Body) :
    throughStructure body.outline = throughStructure body := by
  cases body <;> rfl

theorem throughTypedef_outline (body : Body) : throughTypedef body.outline = throughTypedef body := by
  cases body <;> rfl

theorem bodyReferences_eq (same : g.SameOutline g') (id : TypeId) :
    g.bodyReferences id = g'.bodyReferences id :=
  same.body_congr id (·.elim [] Body.references) Body.references_outline

theorem reachedByBody_eq (same : g.SameOutline g') (id : TypeId) :
    g.reachedByBody id = g'.reachedByBody id := by
  have target : g.referencedDeclaration? = g'.referencedDeclaration? := by
    funext id
    unfold referencedDeclaration?
    rw [same.chainEnd?_eq throughTypedef_outline, same.size_eq]
    congr 1
    funext last
    rcases same.body_cases last with equal | ⟨_, _, found, found'⟩ | ⟨_, _, _, found, found'⟩ |
      ⟨_, _, _, found, found'⟩
    · rw [equal]
    all_goals rw [found, found']
  have step : g.referencedDeclarations = g'.referencedDeclarations := by
    funext found id
    simp only [referencedDeclarations, target]
  rw [reachedByBody, reachedByBody, step, same.bodyReferences_eq]

theorem namedByBody_eq (same : g.SameOutline g') : g.namedByBody = g'.namedByBody := by
  have target : g.namedType? = g'.namedType? := by
    funext id
    unfold namedType?
    rw [same.chainEnd?_eq throughStructure_outline, same.size_eq]
    congr 1
    funext last
    rcases same.body_cases last with equal | ⟨_, _, found, found'⟩ | ⟨_, _, _, found, found'⟩ |
      ⟨_, _, _, found, found'⟩
    · rw [equal]
    all_goals rw [found, found']
  funext id
  rw [namedByBody, namedByBody, target, same.bodyReferences_eq]

theorem closure_eq (same : g.SameOutline g') (rounds : Nat) (seen frontier : List TypeId) :
    g.closure rounds seen frontier = g'.closure rounds seen frontier := by
  induction rounds generalizing seen frontier with
  | zero => rfl
  | succ rounds ih => simp only [closure, same.namedByBody_eq, ih]

/-! ### Choosing and ordering declarations -/

theorem roots_eq (same : g.SameOutline g') : g.roots = g'.roots := by
  rw [roots, roots, ids, ids, same.size_eq]
  congr 1
  funext id
  exact same.node_congr id (·.any fun node => node.isDeclaration && !node.external)
    fun node => by simp [node.isDeclaration_outline]; rfl

theorem isInterface_eq (same : g.SameOutline g') (id : TypeId) :
    (g.body? id).any Body.isInterface = (g'.body? id).any Body.isInterface :=
  same.body_congr id (·.any Body.isInterface) fun body => by cases body <;> rfl

theorem interfacesAndReachable_eq (same : g.SameOutline g') (roots : List TypeId) :
    g.interfacesAndReachable roots = g'.interfacesAndReachable roots := by
  simp only [interfacesAndReachable, same.isInterface_eq, same.closure_eq, same.size_eq]

theorem needsForward_eq (same : g.SameOutline g') (done : List Item) (target : TypeId) :
    g.needsForward done target = g'.needsForward done target :=
  same.node_congr target
    (fun node => !node.any Node.external && !done.any fun item => item.id = target) fun _ => rfl

theorem itemsFor_eq (same : g.SameOutline g') (done : List Item) (id : TypeId) :
    g.itemsFor done id = g'.itemsFor done id := by
  have needs : g.needsForward done = g'.needsForward done := funext (same.needsForward_eq done)
  unfold itemsFor
  rw [same.reachedByBody_eq, needs]
  rcases same.body_cases id with equal | ⟨_, _, found, found'⟩ | ⟨_, _, _, found, found'⟩ |
    ⟨_, _, _, found, found'⟩
  · rw [equal]
  all_goals rw [found, found']

theorem plan_eq (same : g.SameOutline g') (roots : List TypeId) : g.plan roots = g'.plan roots := by
  simp only [plan, same.itemsFor_eq]

end Graph.SameOutline

/-! ### Display names -/

/-- Nodes that declare alike and would like to have the same names get the same names. -/
theorem Naming.displayFrom_congr {iids : Option IidNames} {separator : String} {nodes nodes' : List Node}
    (same : List.Forall₂ (fun node node' => node.isDeclaration = node'.isDeclaration ∧
      ∀ id, baseName iids separator id node = baseName iids separator id node') nodes nodes')
    (id : TypeId) (taken : List String) :
    displayFrom iids separator id taken nodes = displayFrom iids separator id taken nodes' := by
  induction same generalizing id taken with
  | nil => rfl
  | cons like _ ih => simp only [displayFrom, like.1, like.2 id, ih]

/-! ### Spelling -/

namespace Scope

variable {s : Scope} {g' : Graph}

/-- The same settings and names for another graph. -/
def withGraph (s : Scope) (g : Graph) : Scope := { s with graph := g }

theorem spell_withGraph (same : s.graph.SameOutline g') : (s.withGraph g').spell = s.spell := by
  have within : ∀ hops id, (s.withGraph g').spellWithin hops id = s.spellWithin hops id := by
    intro hops
    induction hops with
    | zero => exact fun _ => rfl
    | succ hops ih =>
      intro id
      have shape : (s.withGraph g').graph.body? id = g'.body? id := rfl
      unfold spellWithin
      rw [shape]
      rcases same.body_cases id with equal | ⟨_, _, found, found'⟩ | ⟨_, _, _, found, found'⟩ |
        ⟨_, _, _, found, found'⟩
      · rw [equal]
        simp only [ih]
        rfl
      all_goals
        rw [found, found']
        rfl
  funext id
  rw [spell, spell, within]
  show s.spellWithin (g'.size + 1) id = _
  rw [same.size_eq]

theorem declaration_withGraph (same : s.graph.SameOutline g') (id : TypeId) (node : Node) :
    (s.withGraph g').declaration id node = s.declaration id node := by
  have spell := spell_withGraph same
  unfold declaration
  cases node.body with
  | typedef target =>
    simp only [typedefLine, spell]
    rfl
  | enumeration members => rfl
  | record layout fields =>
    simp only [fieldLines, fieldLine, spell]
    rfl
  | interface definition =>
    simp only [methodLines, methodLine, parameterText, spell]
    rfl
  | structural structural => rfl

theorem forward_withGraph (same : s.graph.SameOutline g') (id : TypeId) :
    (s.withGraph g').forward id = s.forward id := by
  have shape : (s.withGraph g').graph.body? id = g'.body? id := rfl
  unfold forward
  rw [shape]
  rcases same.body_cases id with equal | ⟨_, _, found, found'⟩ | ⟨_, _, _, found, found'⟩ |
    ⟨_, _, dispatch, found, found'⟩
  · rw [equal]
    rfl
  · rw [found, found']
  · rw [found, found']
    rfl
  · rw [found, found']
    simp only [interfaceKeyword, isDispinterface, dispatch]
    rfl

end Scope

/-! ### Rendering -/

namespace RenderOptions

variable {g g' : Graph}

theorem select_eq (same : g.SameOutline g') (options : RenderOptions) (roots : List TypeId) :
    options.select g roots = options.select g' roots := by
  simp only [select, same.interfacesAndReachable_eq]

theorem obstacle?_eq (same : g.SameOutline g') (options : RenderOptions) (selected : List TypeId) :
    options.obstacle? g selected = options.obstacle? g' selected := by
  have parsed : ∀ id, (g.node? id).any (·.isParsed) = (g'.node? id).any (·.isParsed) := fun id =>
    same.node_congr id (·.any Node.isParsed) fun _ => rfl
  simp only [obstacle?, parsed]

end RenderOptions

end ComTypes

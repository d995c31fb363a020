import ComTypes.Proofs.Render.Outline

/-!
# Graphs that look alike are rendered alike

Rendering does not show everything that a graph holds: not the name in a type's documentation or its
help file, not the place of a method in the v-table, not the two indexes. `Node.shown` blanks out what
is not shown. A name is shown only through the display names, so it may differ where these do not.
-/

namespace ComTypes

/-- The method as far as it is shown. -/
def Method.shown (method : Method) : Method := { method with vtableOffset := 0 }

/-- The body as far as it is shown. -/
def Body.shown : Body → Body
  | .interface definition =>
    .interface { definition with methods := definition.methods.map Method.shown }
  | body => body

/-- The node as far as it is shown, but for its name. -/
def Node.shown (node : Node) : Node :=
  { node with
    name := ""
    doc := { node.doc with name := "", helpFile := "" }
    body := node.body.shown }

/-- The nodes are rendered alike. -/
structure Node.LooksLike (iids : IidNames) (node node' : Node) : Prop where
  shown : node.shown = node'.shown
  baseName : ∀ separator id, Naming.baseName (some iids) separator id node =
    Naming.baseName (some iids) separator id node'
  /-- A node that is not complete appears in a fault under its own name. -/
  named : node.isParsed = false → node.name = node'.name

/-- The graphs are rendered alike. -/
structure Graph.LooksLike (iids : IidNames) (g g' : Graph) : Prop where
  size_eq : g.size = g'.size
  nodes : ∀ {id node node'}, g.node? id = some node → g'.node? id = some node' →
    node.LooksLike iids node'

/-- What is shown of a node keeps its outline. -/
theorem Node.outline_shown (node : Node) : node.shown.outline = node.outline := by
  have body : node.body.shown.outline = node.body.outline := by
    cases node.body with
    | interface definition =>
      simp only [Body.shown, Body.outline, List.map_map]
      rfl
    | typedef | enumeration | record | structural => rfl
  unfold Node.outline
  rw [← body]
  rfl

namespace Graph.LooksLike

variable {iids : IidNames} {g g' : Graph} {γ : Type}

/-- Both graphs have a node at a position, or neither has. -/
theorem node_cases (alike : g.LooksLike iids g') (id : TypeId) :
    g.node? id = none ∧ g'.node? id = none ∨
      ∃ node node', g.node? id = some node ∧ g'.node? id = some node' ∧ node.LooksLike iids node' := by
  by_cases inside : id < g.size
  · have inside' : id < g'.size := alike.size_eq ▸ inside
    have found : g.node? id = some g.nodes[id] := Array.getElem?_eq_getElem inside
    have found' : g'.node? id = some g'.nodes[id] := Array.getElem?_eq_getElem inside'
    exact .inr ⟨_, _, found, found', alike.nodes found found'⟩
  · have outside : g.size ≤ id := Nat.le_of_not_lt inside
    have outside' : g'.size ≤ id := alike.size_eq ▸ outside
    exact .inl ⟨Array.getElem?_eq_none outside, Array.getElem?_eq_none outside'⟩

/-- What depends on the shown part of a node only is the same for both. -/
theorem node_congr (alike : g.LooksLike iids g') (id : TypeId) (f : Option Node → γ)
    (shown : ∀ node, f (some node.shown) = f (some node)) : f (g.node? id) = f (g'.node? id) := by
  rcases alike.node_cases id with ⟨none, none'⟩ | ⟨node, node', found, found', like⟩
  · rw [none, none']
  · rw [found, found', ← shown, like.shown, shown]

theorem sameOutline (alike : g.LooksLike iids g') : g.SameOutline g' := fun id =>
  alike.node_congr id (·.map Node.outline) fun node => congrArg some node.outline_shown

/-- Graphs that look alike have the same roots. -/
theorem roots_eq (alike : g.LooksLike iids g') : g.roots = g'.roots := alike.sameOutline.roots_eq

/-- Graphs that look alike get the same names. -/
theorem display_eq (alike : g.LooksLike iids g') (separator : String) :
    Naming.display g (some iids) separator = Naming.display g' (some iids) separator := by
  have nodes : List.Forall₂ (Node.LooksLike iids) g.nodes.toList g'.nodes.toList := by
    rw [List.forall₂_iff_get]
    refine ⟨by simpa [size] using alike.size_eq, fun i inside inside' => ?_⟩
    have found : g.node? i = some (g.nodes.toList.get ⟨i, inside⟩) := by simp [node?]
    have found' : g'.node? i = some (g'.nodes.toList.get ⟨i, inside'⟩) := by simp [node?]
    exact alike.nodes found found'
  have named := nodes.imp fun node node' like => (⟨by
    rw [← node.isDeclaration_outline, ← node.outline_shown, like.shown, node'.outline_shown,
      node'.isDeclaration_outline], fun id => like.baseName separator id⟩ :
    node.isDeclaration = node'.isDeclaration ∧ ∀ id, Naming.baseName (some iids) separator id node =
      Naming.baseName (some iids) separator id node')
  rw [Naming.display, Naming.display, Naming.displayFrom_congr named]

end Graph.LooksLike

/-! ### Declarations -/

namespace Scope

variable {iids : IidNames} {s : Scope} {g' : Graph}

/-- Methods are rendered from what is shown of them. -/
theorem methodLines_shown (s : Scope) (methods : List Method) :
    s.methodLines (methods.map Method.shown) = s.methodLines methods := by
  have names : (methods.map Method.shown).map (·.name) = methods.map (·.name) := by
    rw [List.map_map]
    rfl
  simp only [methodLines, names, List.zip_map_left, List.flatMap_map]
  rfl

theorem attributeBlock_shown (s : Scope) (node : Node) :
    s.attributeBlock node.shown = s.attributeBlock node := by
  unfold attributeBlock Node.shown
  cases node.body <;> rfl

theorem braced_shown (s : Scope) (node : Node) (header : String) (unindented members : List String) :
    s.braced node.shown header unindented members = s.braced node header unindented members := by
  simp only [braced, attributeBlock_shown]
  rfl

/-- A declaration depends on the shown part of its node only. -/
theorem declaration_shown (s : Scope) (id : TypeId) (node : Node) :
    s.declaration id node.shown = s.declaration id node := by
  have body : node.shown.body = node.body.shown := rfl
  unfold declaration
  rw [body]
  cases node.body with
  | typedef target => rfl
  | structural structural => rfl
  | enumeration members => exact s.braced_shown node _ _ _
  | record layout fields => exact s.braced_shown node _ _ _
  | interface definition =>
    simp only [Body.shown, braced_shown, methodLines_shown]
    rfl

/-- An item is rendered alike in graphs that look alike. -/
theorem itemLines_withGraph (alike : s.graph.LooksLike iids g') (item : Item) :
    RenderOptions.itemLines (s.withGraph g') item = RenderOptions.itemLines s item := by
  cases item with
  | forward id => exact forward_withGraph alike.sameOutline id
  | declare id =>
    have lines := alike.node_congr id (fun node => node.elim [] (s.declaration id ·))
      (s.declaration_shown id)
    have within : (fun node => (s.withGraph g').declaration id node) = fun node => s.declaration id node :=
      funext (declaration_withGraph alike.sameOutline id)
    simp only [RenderOptions.itemLines, within, lines]
    rfl

end Scope

/-! ### Rendering -/

namespace RenderOptions

variable {iids : IidNames} {g g' : Graph}

/-- A type that is in the way of rendering has its own name in both graphs. -/
theorem describe_obstacle (alike : g.LooksLike iids g') {options : RenderOptions}
    {selected : List TypeId} {id : TypeId} (obstacle : options.obstacle? g selected = some id) :
    g.describe id = g'.describe id := by
  unfold obstacle? at obstacle
  split at obstacle
  · cases obstacle
  · have unparsed := List.find?_some obstacle
    rcases alike.node_cases id with ⟨none, none'⟩ | ⟨node, node', found, found', like⟩
    · simp only [Graph.describe, none, none']
    · rw [found] at unparsed
      have name := like.named (by simpa using unparsed)
      have guid : node.guid? = node'.guid? := congrArg (·.identity.guid?) like.shown
      simp only [Graph.describe, found, found', Option.elim_some, Option.bind_some, name, guid]

/-- Graphs that look alike are rendered alike, with any settings and formatter. -/
theorem renderWith_eq (alike : g.LooksLike iids g') (options : RenderOptions) (formatter : Formatter)
    (roots : List TypeId) :
    options.renderWith formatter iids g roots = options.renderWith formatter iids g' roots := by
  unfold renderWith
  rw [← select_eq alike.sameOutline]
  dsimp only
  rw [← obstacle?_eq alike.sameOutline]
  cases obstacle : options.obstacle? g (options.select g roots) with
  | some id =>
    dsimp only
    rw [describe_obstacle alike obstacle]
  | none =>
    dsimp only
    rw [← alike.sameOutline.plan_eq, ← alike.display_eq]
    let scope : Scope :=
      { graph := g
        names := Naming.display g (some iids) formatter.separator
        dialect := formatter.dialect
        hideComments := formatter.hideComments
        bestEffort := options.bestEffort }
    have lines : RenderOptions.itemLines (scope.withGraph g') = RenderOptions.itemLines scope :=
      funext (Scope.itemLines_withGraph alike)
    show _ = Except.ok (sourceText ((g.plan (options.select g roots)).flatMap
      (RenderOptions.itemLines (scope.withGraph g'))))
    rw [lines]

/-- Graphs that look alike render to the same lines. -/
theorem render_eq (alike : g.LooksLike iids g') (options : RenderOptions) (roots : List TypeId) :
    options.render iids g roots = options.render iids g' roots :=
  options.renderWith_eq alike _ roots

/-- Rendering succeeds if every root is complete. -/
theorem exists_render (options : RenderOptions) (iids : IidNames) {roots : List TypeId}
    (parsed : ∀ id ∈ roots, (g.node? id).any (·.isParsed) = true) :
    ∃ text, options.render iids g roots = .ok text := by
  have among : ∀ id ∈ options.select g roots, id ∈ roots := by
    intro id selected
    unfold select at selected
    split at selected
    · exact (List.mem_filter.mp selected).1
    · exact selected
  have clear : options.obstacle? g (options.select g roots) = none := by
    unfold obstacle?
    split
    · rfl
    · rw [List.find?_eq_none]
      intro id selected
      simp [parsed id (among id selected)]
  unfold render renderWith
  dsimp only
  rw [clear]
  exact ⟨_, rfl⟩

end RenderOptions

end ComTypes

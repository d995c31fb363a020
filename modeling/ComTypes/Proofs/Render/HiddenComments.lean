import ComTypes.Proofs.Render.Outline

/-!
# Hiding comments

Documentation of members is written as comments, that of types as attributes. Hiding comments is the same
as rendering a graph in which the documentation texts of members are empty, and nothing else has changed
(`hiding_comments_empties_member_docs`): such a graph has the same outline and the same names, so it is
rendered by the same plan, and each declaration has the same lines (`Scope.declaration_undocumented`).
-/

namespace ComTypes

/-! ### Members without documentation texts -/

/-- The documentation without its text. -/
def Documentation.silent (doc : Documentation) : Documentation := { doc with docString := "" }

/-- The value without its documentation text. -/
def EnumMember.undocumented (member : EnumMember) : EnumMember := { member with doc := member.doc.silent }

/-- The field without its documentation text. -/
def Field.undocumented (field : Field) : Field := { field with doc := field.doc.silent }

/-- The method without its documentation text. -/
def Method.undocumented (method : Method) : Method := { method with doc := method.doc.silent }

/-- The body with members without documentation texts. -/
def Body.undocumented : Body → Body
  | typedef target => typedef target
  | enumeration members => enumeration (members.map EnumMember.undocumented)
  | record layout fields => record layout (fields.map Field.undocumented)
  | interface definition =>
    interface { definition with methods := definition.methods.map Method.undocumented }
  | structural structure' => structural structure'

/-- The node with members without documentation texts. Its own documentation stays. -/
def Node.undocumented (node : Node) : Node := { node with body := node.body.undocumented }

/-- The graph in which the documentation texts of all members are empty. -/
def Graph.undocumented (g : Graph) : Graph := { g with nodes := g.nodes.map Node.undocumented }

theorem Node.outline_undocumented (node : Node) : node.undocumented.outline = node.outline := by
  have body : node.body.undocumented.outline = node.body.outline := by
    cases node.body with
    | record layout fields =>
      simp only [Body.undocumented, Body.outline, List.map_map]
      rfl
    | interface definition =>
      simp only [Body.undocumented, Body.outline, List.map_map]
      rfl
    | typedef | enumeration | structural => rfl
  unfold Node.outline
  rw [← body]
  rfl

namespace Graph

variable (g : Graph)

theorem node?_undocumented (id : TypeId) :
    g.undocumented.node? id = (g.node? id).map Node.undocumented := by
  simp [node?, undocumented]

/-- Leaving documentation out keeps the outline. -/
theorem sameOutline_undocumented : g.SameOutline g.undocumented := by
  intro id
  rw [node?_undocumented, Option.map_map]
  exact Option.map_congr fun node _ => node.outline_undocumented.symm

/-- Names do not depend on documentation. -/
theorem display_undocumented (iids : Option IidNames) (separator : String) :
    Naming.display g.undocumented iids separator = Naming.display g iids separator := by
  have nodes : g.undocumented.nodes.toList = g.nodes.toList.map Node.undocumented := by
    simp [undocumented]
  have named : List.Forall₂ (fun node node' : Node => node.isDeclaration = node'.isDeclaration ∧
      ∀ id, Naming.baseName iids separator id node = Naming.baseName iids separator id node')
      (g.nodes.toList.map Node.undocumented) g.nodes.toList := by
    rw [List.forall₂_map_left_iff]
    refine List.forall₂_same.mpr fun node _ => ⟨?_, fun id => rfl⟩
    rw [← node.undocumented.isDeclaration_outline, node.outline_undocumented, node.isDeclaration_outline]
  rw [Naming.display, Naming.display, nodes, Naming.displayFrom_congr named]

theorem describe_undocumented (id : TypeId) : g.undocumented.describe id = g.describe id := by
  unfold describe
  rw [node?_undocumented]
  cases g.node? id <;> rfl

end Graph

/-! ### Declarations -/

namespace Scope

/-- The same scope with comments. -/
def withComments (s : Scope) : Scope := { s with hideComments := false }

theorem spell_withComments (s : Scope) : s.withComments.spell = s.spell := by
  have within : ∀ hops id, s.withComments.spellWithin hops id = s.spellWithin hops id := by
    intro hops
    induction hops with
    | zero => exact fun _ => rfl
    | succ hops ih =>
      intro id
      unfold spellWithin
      simp only [ih]
      rfl
  exact funext fun id => within _ id

section Hidden

variable {s : Scope} (hidden : s.hideComments = true)
include hidden

/-- What is hidden is not there, and what is empty is not written. -/
theorem docLines_silent (doc : Documentation) : s.withComments.docLines doc.silent = s.docLines doc := by
  rw [docLines, docLines, if_pos (.inr rfl), if_pos (.inl hidden)]

/-- Members with their documentation, each on a line of its own. -/
theorem memberLines_silent {α : Type} {silent : α → α} {doc : α → Documentation} {line line' : α → String}
    (docs : ∀ item, doc (silent item) = (doc item).silent) (lines : ∀ item, line' (silent item) = line item)
    (items : List α) :
    (items.map silent).flatMap (fun item => s.withComments.docLines (doc item) ++ [line' item]) =
      items.flatMap fun item => s.docLines (doc item) ++ [line item] := by
  rw [List.flatMap_map]
  simp only [docs, lines, docLines_silent hidden]

theorem enumLines_undocumented (members : List EnumMember) :
    s.withComments.enumLines (members.map EnumMember.undocumented) = s.enumLines members := by
  have names : (members.map EnumMember.undocumented).map (·.name) = members.map (·.name) := by
    rw [List.map_map]
    rfl
  simp only [enumLines, names, List.zip_map_left, List.zipIdx_map, List.length_map]
  refine memberLines_silent hidden ?_ ?_ _
  · exact fun _ => rfl
  · exact fun _ => rfl

/-- With comments hidden, fields are rendered without their documentation. -/
theorem fieldLines_undocumented (fields : List Field) :
    s.withComments.fieldLines (fields.map Field.undocumented) = s.fieldLines fields := by
  have names : (fields.map Field.undocumented).map (·.name) = fields.map (·.name) := by
    rw [List.map_map]
    rfl
  simp only [fieldLines, fieldLine, names, List.zip_map_left, spell_withComments]
  refine memberLines_silent hidden ?_ ?_ _
  · exact fun _ => rfl
  · exact fun _ => rfl

/-- With comments hidden, methods are rendered without their documentation. -/
theorem methodLines_undocumented (methods : List Method) :
    s.withComments.methodLines (methods.map Method.undocumented) = s.methodLines methods := by
  have names : (methods.map Method.undocumented).map (·.name) = methods.map (·.name) := by
    rw [List.map_map]
    rfl
  simp only [methodLines, methodLine, parameterText, names, List.zip_map_left, spell_withComments]
  refine memberLines_silent hidden ?_ ?_ _
  · exact fun _ => rfl
  · exact fun _ => rfl

end Hidden

theorem braced_undocumented (s : Scope) (node : Node) (header : String)
    (unindented members : List String) :
    s.withComments.braced node.undocumented header unindented members =
      s.braced node header unindented members := by
  have attributes : s.withComments.attributeBlock node.undocumented = s.attributeBlock node := by
    unfold attributeBlock Node.undocumented
    cases node.body <;> rfl
  rw [braced, attributes]
  rfl

/-- With comments hidden, a declaration is rendered without documentation of its members. -/
theorem declaration_undocumented {s : Scope} (hidden : s.hideComments = true) (id : TypeId) (node : Node) :
    s.withComments.declaration id node.undocumented = s.declaration id node := by
  have body : node.undocumented.body = node.body.undocumented := rfl
  unfold declaration
  rw [body]
  cases node.body with
  | typedef target =>
    simp only [Body.undocumented, typedefLine, spell_withComments]
    rfl
  | structural structural => rfl
  | enumeration members =>
    simp only [Body.undocumented, enumLines_undocumented hidden, braced_undocumented]
    rfl
  | record layout fields =>
    simp only [Body.undocumented, fieldLines_undocumented hidden, braced_undocumented]
    rfl
  | interface definition =>
    simp only [Body.undocumented, methodLines_undocumented hidden, braced_undocumented]
    rfl

/-- With comments hidden, an item is rendered without documentation of members. -/
theorem itemLines_undocumented {s : Scope} (hidden : s.hideComments = true) (item : Item) :
    RenderOptions.itemLines (s.withComments.withGraph s.graph.undocumented) item =
      RenderOptions.itemLines s item := by
  have same : s.withComments.graph.SameOutline s.graph.undocumented := s.graph.sameOutline_undocumented
  cases item with
  | forward id => exact forward_withGraph same id
  | declare id =>
    have found : (s.withComments.withGraph s.graph.undocumented).graph.node? id =
        (s.graph.node? id).map Node.undocumented := s.graph.node?_undocumented id
    simp only [RenderOptions.itemLines, found, declaration_withGraph same]
    cases s.graph.node? id with
    | none => rfl
    | some node => rw [Option.map_some, Option.elim_some, Option.elim_some, declaration_undocumented hidden]

end Scope

/-- Hiding comments leaves out the documentation of members and nothing else: it gives the same text or
fault as showing comments for the graph in which the documentation texts of all values, fields and methods
are empty. -/
theorem hiding_comments_empties_member_docs (options : RenderOptions) (iids : IidNames) (g : Graph)
    (roots : List TypeId) :
    (Renderer.render { options := { options with hideComments := true }, iids } g roots).1 =
      (Renderer.render { options := { options with hideComments := false }, iids } g.undocumented
        roots).1 := by
  have same := g.sameOutline_undocumented
  let quiet : RenderOptions := { options with hideComments := true }
  let shown : RenderOptions := { options with hideComments := false }
  show quiet.render iids g roots = shown.render iids g.undocumented roots
  have selected : shown.select g.undocumented roots = quiet.select g roots :=
    (shown.select_eq same roots).symm
  have obstacle : shown.obstacle? g.undocumented (quiet.select g roots) =
      quiet.obstacle? g (quiet.select g roots) := (shown.obstacle?_eq same _).symm
  unfold RenderOptions.render RenderOptions.renderWith
  rw [selected]
  dsimp only
  rw [obstacle]
  cases quiet.obstacle? g (quiet.select g roots) with
  | some id =>
    dsimp only
    rw [g.describe_undocumented]
  | none =>
    dsimp only
    rw [g.display_undocumented, ← same.plan_eq]
    let scope : Scope :=
      { graph := g
        names := Naming.display g (some iids) options.dialect.separator
        dialect := options.dialect
        hideComments := true
        bestEffort := options.bestEffort }
    have lines : RenderOptions.itemLines (scope.withComments.withGraph g.undocumented) =
        RenderOptions.itemLines scope := funext (Scope.itemLines_undocumented (s := scope) rfl)
    exact congrArg (fun lines => Except.ok (sourceText ((g.plan (quiet.select g roots)).flatMap lines)))
      lines.symm

end ComTypes

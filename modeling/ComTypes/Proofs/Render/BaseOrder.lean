import ComTypes.Proofs.Proxy.Visible
import ComTypes.Proofs.Render.Forward

/-!
# Interfaces and their bases

The header of an interface names its base, but the base is not among the types that the body leads to, and
roots are declared in the order in which they appeared. So a base is introduced in front of an interface that
is derived from it if it appeared earlier, or if the body of a declaration up to that interface leads to it
(`base_introduced_iff`). Otherwise its name comes first.
-/

namespace ComTypes

namespace Graph

variable {g : Graph} {id target : TypeId} {before after : List Item} {roots : List TypeId}

/-- When an item of a plan declares a type, another one is introduced if it is declared before, or if the
body of this type or of one declared before leads to it. -/
theorem introduced_before_iff (split : g.plan roots = before ++ .declare id :: after)
    (inside : g.isExternal target = false) :
    Introduced before target ↔ .declare target ∈ before ∨
      ∃ other, (.declare other ∈ before ∨ other = id) ∧ (g.body? other).any Body.isForwardable ∧
        g.BodyLeads other target := by
  have orderly := g.plan_orderly roots
  constructor
  · rintro (forward | declare)
    · -- The declaration that the forward declaration was made for comes next, so at the latest it is
      -- this one.
      obtain ⟨first, second, rfl⟩ := List.append_of_mem forward
      rw [List.append_assoc, List.cons_append] at split
      obtain ⟨others, other, rest, same, forwardable, leads⟩ := orderly.needed split
      refine .inr ⟨other, ?_, forwardable, leads⟩
      rcases split_append same.symm with ⟨_, forwards, _⟩ | ⟨between, here, rfl⟩
      · have member : .declare id ∈ others.map Item.forward := by simp [forwards]
        simp at member
      · cases between with
        | nil =>
          cases here
          exact .inr rfl
        | cons =>
          cases here
          exact .inl (by simp)
    · exact .inl declare
  · rintro (declare | ⟨other, earlier | rfl, forwardable, leads⟩)
    · exact .inr declare
    · obtain ⟨first, second, rfl⟩ := List.append_of_mem earlier
      rw [List.append_assoc, List.cons_append] at split
      exact (orderly.introduced split forwardable leads inside).append
    · exact orderly.introduced split forwardable leads inside

/-! ### Roots in order -/

theorem roots_sorted (g : Graph) : g.roots.Pairwise (· < ·) :=
  List.pairwise_lt_range.filter _

theorem isDeclaration_of_mem_roots (member : id ∈ g.roots) :
    (g.body? id).any Body.isDeclaration = true := by
  obtain ⟨node, found, holds⟩ := (Option.any_eq_true _ _).mp (mem_roots_iff.mp member)
  simp only [Node.isDeclaration, Bool.and_eq_true] at holds
  rw [body?, found]
  exact holds.1.2

end Graph

theorem RenderOptions.select_sublist (options : RenderOptions) (g : Graph) (roots : List TypeId) :
    (options.select g roots).Sublist roots := by
  unfold select
  split
  · exact List.filter_sublist
  · exact .refl roots

namespace Renderer

variable {r : Renderer} {g : Graph} {id other : TypeId} {before after : List Item}

/-- Of the roots of a graph, those with smaller ids are declared before. -/
theorem declared_before_iff (split : r.items g g.roots = before ++ .declare id :: after) :
    .declare other ∈ before ↔ other ∈ r.options.select g g.roots ∧ other < id := by
  have among := (r.options.select_sublist g g.roots).subset
  have sorted := g.roots_sorted.sublist (r.options.select_sublist g g.roots)
  have whole : Graph.declared (r.items g g.roots) = r.options.select g g.roots := by
    rw [items, Graph.declared_plan, List.filter_eq_self]
    exact fun id member => Graph.isDeclaration_of_mem_roots (among member)
  have parts : Graph.declared (before ++ .declare id :: after) =
      Graph.declared before ++ id :: Graph.declared after := by
    simp [Graph.declared]
  rw [← whole, split, parts, List.pairwise_append, List.pairwise_cons] at sorted
  rw [← whole, split, parts, List.mem_append, List.mem_cons, ← Graph.mem_declared]
  constructor
  · exact fun member => ⟨.inl member, sorted.2.2 other member id List.mem_cons_self⟩
  · rintro ⟨member | rfl | member, smaller⟩
    · exact member
    · exact absurd smaller (Nat.lt_irrefl _)
    · exact absurd (sorted.2.1.1 other member) (Nat.lt_asymm smaller)

end Renderer

/-- The line in which an interface is declared names its base. -/
theorem base_in_itemLines {s : Scope} {id base : TypeId} {definition : Interface}
    (interface : s.graph.body? id = some (.interface definition))
    (based : definition.base = some base) (full : s.isDispinterface definition = false) :
    ∃ start, { text := start ++ s.name base ++ " \x7b" } ∈ RenderOptions.itemLines s (.declare id) := by
  obtain ⟨node, found, body⟩ := Option.map_eq_some_iff.mp interface
  have header : ∃ start, s.interfaceHeader id definition = start ++ s.name base := by
    unfold Scope.interfaceHeader
    rw [full, based]
    cases s.dialect with
    | idl | cpp | generic => exact ⟨_, rfl⟩
  obtain ⟨start, header⟩ := header
  refine ⟨start, ?_⟩
  simp [RenderOptions.itemLines, found, Scope.declaration, body, Scope.braced, header]

/-- The roots of a graph are rendered, and among them an interface whose base is not defined elsewhere. Its
header names the base, unless it is a dispatch interface in IDL. The base has been introduced by then exactly
if it is among the selected roots with a smaller id, or if the body of a selected root up to the interface
itself leads to it. -/
theorem base_introduced_iff {r : Renderer} {g : Graph} {text : String} {before after : List Item}
    {id base : TypeId} {definition : Interface} (rendered : (r.render g g.roots).1 = .ok text)
    (split : r.items g g.roots = before ++ .declare id :: after)
    (interface : g.body? id = some (.interface definition)) (based : definition.base = some base)
    (own : g.isExternal base = false) :
    text = sourceText ((before ++ .declare id :: after).flatMap (RenderOptions.itemLines (r.scope g))) ∧
      ((r.scope g).isDispinterface definition = false → ∃ start,
        { text := start ++ (r.scope g).name base ++ " \x7b" } ∈
          RenderOptions.itemLines (r.scope g) (.declare id)) ∧
      (.forward base ∈ before ∨ .declare base ∈ before ↔
        (base ∈ r.options.select g g.roots ∧ base < id) ∨
          ∃ other ∈ r.options.select g g.roots, other ≤ id ∧ (g.body? other).any Body.isForwardable ∧
            g.BodyLeads other base) := by
  refine ⟨split ▸ Renderer.text_eq rendered, base_in_itemLines interface based, ?_⟩
  have here : id ∈ r.options.select g g.roots := by
    have member : id ∈ Graph.declared (r.items g g.roots) := by
      rw [Graph.mem_declared, split]
      simp
    rw [Renderer.items, Graph.declared_plan] at member
    exact (List.mem_filter.mp member).1
  have earlier : ∀ other, .declare other ∈ before ∨ other = id ↔
      other ∈ r.options.select g g.roots ∧ other ≤ id := by
    intro other
    rw [Renderer.declared_before_iff split]
    constructor
    · rintro (⟨member, smaller⟩ | rfl)
      · exact ⟨member, Nat.le_of_lt smaller⟩
      · exact ⟨here, Nat.le_refl _⟩
    · rintro ⟨member, smaller⟩
      exact (Nat.lt_or_eq_of_le smaller).imp_left fun smaller => ⟨member, smaller⟩
  refine (Graph.introduced_before_iff split own).trans
    (or_congr (Renderer.declared_before_iff split) (exists_congr fun other => ?_))
  rw [earlier, and_assoc]

/-! ### A base before and after what is derived from it -/

/-- A proxy without procedures whose interface is derived from another. -/
def derivedProxy : Bytes := ProxyImage.encode
  { baseIid := .ofBytes [2], procOffsets := [], procFormat := [], typeFormat := [] }

/-- Decode an interface that is derived from another. -/
def Call.addDerived : Call := .addProxy derivedProxy (.ofBytes [1]) (some "IDerived") fun _ _ => none

/-- Decode the other interface. -/
def Call.addBase : Call := .addProxy bareProxy (.ofBytes [2]) (some "IBase") fun _ _ => none

/-- An interface that is decoded after its base. -/
def baseFirst : Graph := (Call.run (Call.run {} .addBase) .addDerived).graph

/-- An interface that is decoded before its base. -/
def derivedFirst : Graph := (Call.run (Call.run {} .addDerived) .addBase).graph

theorem baseFirst_introduced :
    ∃ text, (Renderer.render {} baseFirst baseFirst.roots).1 = .ok text ∧
      Renderer.items {} baseFirst baseFirst.roots = [.declare 0] ++ .declare 1 :: [] ∧
      (.forward 0 ∈ [Item.declare 0] ∨ .declare 0 ∈ [Item.declare 0]) := by
  have rendered : (Renderer.render {} baseFirst baseFirst.roots).1 = .ok _ :=
    Renderer.render_of_clear (by decide +kernel)
  have items : Renderer.items {} baseFirst baseFirst.roots = [.declare 0] ++ .declare 1 :: [] := by
    decide +kernel
  have interface : baseFirst.body? 1 = some (.interface { base := some 0 }) := by decide +kernel
  have introduced := base_introduced_iff rendered items interface rfl (by decide +kernel)
  have smaller : 0 ∈ RenderOptions.select {} baseFirst baseFirst.roots ∧ 0 < 1 := by decide +kernel
  exact ⟨_, rendered, items, introduced.2.2.mpr (.inl smaller)⟩

/-- The derived interface comes first, and names a base that is neither declared nor declared ahead by
then. -/
theorem derivedFirst_not_introduced :
    Reachable (fun _ _ => True) (Call.run (Call.run {} .addDerived) .addBase) ∧
      (∃ text, (Renderer.render {} derivedFirst derivedFirst.roots).1 = .ok text) ∧
      Renderer.items {} derivedFirst derivedFirst.roots = .declare 0 :: [.declare 1] ∧
      derivedFirst.body? 0 = some (.interface { base := some 1 }) ∧
      derivedFirst.isExternal 1 = false := by
  refine ⟨.step _ (.step _ (.start false) trivial) trivial, ⟨_, Renderer.render_of_clear ?_⟩, ?_, ?_, ?_⟩
  · decide +kernel
  · decide +kernel
  · decide +kernel
  · decide +kernel

end ComTypes

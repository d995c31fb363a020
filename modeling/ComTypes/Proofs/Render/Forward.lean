import ComTypes.Proofs.Graph.Chain
import ComTypes.Render.Renderer
import Mathlib.Data.List.Induction

/-!
# Forward declarations

The plan of a rendering declares the roots in turn. In front of a record or an interface it puts a forward
declaration for each record and interface that its body leads to, unless that has been introduced before or is
defined elsewhere (`Graph.forward_in_itemsFor`, `Graph.introduced_in_itemsFor`). So whatever the body leads to
has been introduced when it is declared, and nothing is introduced twice or without need
(`Graph.plan_orderly`). The text of a rendering is that of its plan (`Renderer.render_fst`).
-/

namespace ComTypes

theorem Item.id_eq_iff {item : Item} {target : TypeId} :
    item.id = target ↔ item = .forward target ∨ item = .declare target := by
  cases item <;> simp [Item.id]

namespace Graph

variable {g : Graph} {id target : TypeId} {done before after : List Item} {roots : List TypeId}

/-- Whether a type is defined elsewhere. -/
def isExternal (g : Graph) (id : TypeId) : Bool := (g.node? id).any (·.external)

/-- A record or an interface that is introduced: declared, or declared ahead of its body. -/
def Introduced (items : List Item) (target : TypeId) : Prop :=
  .forward target ∈ items ∨ .declare target ∈ items

/-- A type is introduced if there is an item for it. -/
theorem introduced_iff {items : List Item} : Introduced items target ↔ ∃ item ∈ items, item.id = target := by
  simp only [Item.id_eq_iff, and_or_left, exists_or, exists_eq_right, Introduced]

theorem Introduced.append {items more : List Item} (introduced : Introduced items target) :
    Introduced (items ++ more) target :=
  introduced.imp (List.mem_append_left _) (List.mem_append_left _)

/-- A forward declaration is due if the type is declared here and not introduced yet. -/
theorem needsForward_iff :
    g.needsForward done target = true ↔ g.isExternal target = false ∧ ¬ Introduced done target := by
  rw [introduced_iff]
  simp [needsForward, isExternal]

/-! ### The items of one root -/

/-- Where a list that was put together can be cut. -/
theorem split_append {α : Type} {xs ys before after : List α} {item : α}
    (split : xs ++ ys = before ++ item :: after) :
    (∃ rest, xs = before ++ item :: rest ∧ after = rest ++ ys) ∨
      ∃ rest, ys = rest ++ item :: after ∧ before = xs ++ rest := by
  rcases List.append_eq_append_iff.mp split with ⟨rest, rfl, same⟩ | ⟨rest, rfl, same⟩
  · exact .inr ⟨rest, same, rfl⟩
  · cases rest with
    | nil => exact .inr ⟨[], same.symm, by simp⟩
    | cons first rest =>
      cases same
      exact .inl ⟨rest, rfl, rfl⟩

theorem itemsFor_of_forwardable (forwardable : (g.body? id).any Body.isForwardable) :
    g.itemsFor done id =
      ((g.reachedByBody id).filter (g.needsForward done)).map .forward ++ [.declare id] := by
  obtain ⟨body, found, holds⟩ := (Option.any_eq_true _ _).mp forwardable
  unfold itemsFor
  rw [found]
  cases body with
  | record | interface => rfl
  | typedef | enumeration | structural => cases holds

/-- Other declarations are declared without further ado. -/
theorem itemsFor_of_not_forwardable (other : (g.body? id).any Body.isForwardable = false) :
    g.itemsFor done id = if (g.body? id).any Body.isDeclaration then [.declare id] else [] := by
  unfold itemsFor
  cases found : g.body? id with
  | none => rfl
  | some body =>
    rw [found, Option.any_some] at other
    cases body with
    | record | interface => cases other
    | typedef | enumeration | structural => rfl

/-- A forward declaration is for something that the body leads to, that is not introduced yet and not
defined elsewhere, and only forward declarations stand between it and the declaration. -/
theorem forward_in_itemsFor (split : g.itemsFor done id = before ++ .forward target :: after) :
    (g.body? id).any Body.isForwardable ∧ g.BodyLeads id target ∧ g.isExternal target = false ∧
      ¬ Introduced (done ++ before) target ∧
      ∃ others : List TypeId, after = others.map .forward ++ [.declare id] := by
  cases forwardable : (g.body? id).any Body.isForwardable with
  | false =>
    rw [itemsFor_of_not_forwardable forwardable] at split
    have member : .forward target ∈ before ++ .forward target :: after := by simp
    rw [← split] at member
    split at member <;> simp at member
  | true =>
    rw [itemsFor_of_forwardable forwardable] at split
    rcases split_append split with ⟨rest, forwards, rfl⟩ | ⟨rest, last, _⟩
    · obtain ⟨first, second, parts, rfl, tail⟩ := List.map_eq_append_iff.mp forwards
      obtain ⟨_, others, rfl, same, rfl⟩ := List.map_eq_cons_iff.mp tail
      cases same
      have nodup := (g.nodup_reachedByBody id).filter (g.needsForward done)
      have among : target ∈ (g.reachedByBody id).filter (g.needsForward done) := by simp [parts]
      obtain ⟨reached, needed⟩ := List.mem_filter.mp among
      obtain ⟨inside, fresh⟩ := needsForward_iff.mp needed
      rw [parts, List.nodup_append] at nodup
      refine ⟨rfl, mem_reachedByBody.mp reached, inside, ?_, others, rfl⟩
      rintro (forward | declare)
      · rcases List.mem_append.mp forward with before | earlier
        · exact fresh (.inl before)
        · obtain ⟨_, earlier, same⟩ := List.mem_map.mp earlier
          cases same
          exact nodup.2.2 target earlier target List.mem_cons_self rfl
      · rcases List.mem_append.mp declare with before | earlier
        · exact fresh (.inr before)
        · simp at earlier
    · have member : .forward target ∈ [Item.declare id] := by
        rw [last]
        simp
      simp at member

/-- When a record or an interface is declared, whatever its body leads to is introduced. -/
theorem introduced_in_itemsFor {other : TypeId}
    (split : g.itemsFor done id = before ++ .declare other :: after) :
    other = id ∧ after = [] ∧ ((g.body? id).any Body.isForwardable → ∀ {target}, g.BodyLeads id target →
      g.isExternal target = false → Introduced (done ++ before) target) := by
  cases forwardable : (g.body? id).any Body.isForwardable with
  | false =>
    rw [itemsFor_of_not_forwardable forwardable] at split
    cases declares : (g.body? id).any Body.isDeclaration with
    | false => simp [declares] at split
    | true =>
      rw [declares, if_pos rfl, List.singleton_eq_append_iff] at split
      obtain ⟨rfl, split⟩ | ⟨_, split⟩ := split
      · cases split
        exact ⟨rfl, rfl, nofun⟩
      · cases split
  | true =>
    rw [itemsFor_of_forwardable forwardable] at split
    rcases split_append split with ⟨rest, forwards, _⟩ | ⟨rest, last, rfl⟩
    · have member : .declare other ∈ before ++ .declare other :: rest := by simp
      rw [← forwards] at member
      simp at member
    · obtain ⟨rfl, same⟩ | ⟨_, same⟩ := List.singleton_eq_append_iff.mp last
      · cases same
        refine ⟨rfl, rfl, fun _ target leads inside => ?_⟩
        by_cases known : Introduced done target
        · exact known.append
        · refine .inl (List.mem_append_right _ ?_)
          rw [List.append_nil]
          refine List.mem_map_of_mem (List.mem_filter.mpr ⟨mem_reachedByBody.mpr leads, ?_⟩)
          exact needsForward_iff.mpr ⟨inside, known⟩
      · cases same

/-! ### Plans -/

/-- The last root comes after the plan of the others. -/
theorem plan_concat (g : Graph) (roots : List TypeId) (id : TypeId) :
    g.plan (roots ++ [id]) = g.plan roots ++ g.itemsFor (g.plan roots) id := by
  simp [plan]

/-- The declarations that a plan makes. -/
def declared (items : List Item) : List TypeId :=
  items.filterMap fun
    | .declare id => some id
    | .forward _ => none

/-- What is declared has an item that declares it. -/
theorem mem_declared {items : List Item} : id ∈ declared items ↔ .declare id ∈ items := by
  unfold declared
  rw [List.mem_filterMap]
  constructor
  · rintro ⟨item, member, same⟩
    cases item with
    | declare => cases same; exact member
    | forward => cases same
  · exact fun member => ⟨.declare id, member, rfl⟩

theorem declared_itemsFor (g : Graph) (done : List Item) (id : TypeId) :
    declared (g.itemsFor done id) = if (g.body? id).any Body.isDeclaration then [id] else [] := by
  cases forwardable : (g.body? id).any Body.isForwardable with
  | false =>
    rw [itemsFor_of_not_forwardable forwardable]
    split
    · rfl
    · rfl
  | true =>
    have declares := any_body?_mono Body.isDeclaration_of_isForwardable forwardable
    rw [itemsFor_of_forwardable forwardable, declares, if_pos rfl, declared, List.filterMap_append,
      List.filterMap_map]
    simp

/-- The roots are declared in turn. -/
theorem declared_plan (g : Graph) (roots : List TypeId) :
    declared (g.plan roots) = roots.filter fun id => (g.body? id).any Body.isDeclaration := by
  induction roots using List.reverseRecOn with
  | nil => rfl
  | append_singleton roots id ih =>
    have both : declared (g.plan roots ++ g.itemsFor (g.plan roots) id) =
        declared (g.plan roots) ++ declared (g.itemsFor (g.plan roots) id) := List.filterMap_append
    rw [plan_concat, both, ih, declared_itemsFor, List.filter_append, List.filter_cons,
      List.filter_nil]

/-- In an orderly list of items, the types that the body of a record or an interface leads to are introduced
in front of its declaration, and a forward declaration is made only for such a type, when it is not introduced
yet and not defined elsewhere. -/
structure Orderly (g : Graph) (items : List Item) : Prop where
  introduced : ∀ {before id after}, items = before ++ .declare id :: after →
    (g.body? id).any Body.isForwardable → ∀ {target}, g.BodyLeads id target →
      g.isExternal target = false → Introduced before target
  fresh : ∀ {before target after}, items = before ++ .forward target :: after →
    g.isExternal target = false ∧ ¬ Introduced before target
  needed : ∀ {before target after}, items = before ++ .forward target :: after →
    ∃ (others : List TypeId) (id : TypeId) (rest : List Item),
      after = others.map .forward ++ .declare id :: rest ∧
        (g.body? id).any Body.isForwardable ∧ g.BodyLeads id target

/-- The items of one more root keep a plan orderly. -/
theorem Orderly.append (orderly : g.Orderly done) (id : TypeId) :
    g.Orderly (done ++ g.itemsFor done id) := by
  refine ⟨fun {before other after} split forwardable => ?_, fun {before target after} split => ?_,
    fun {before target after} split => ?_⟩
  · rcases split_append split with ⟨rest, earlier, _⟩ | ⟨rest, here, rfl⟩
    · exact orderly.introduced earlier forwardable
    · obtain ⟨rfl, _, introduced⟩ := introduced_in_itemsFor here
      exact introduced forwardable
  · rcases split_append split with ⟨rest, earlier, _⟩ | ⟨rest, here, rfl⟩
    · exact orderly.fresh earlier
    · obtain ⟨_, _, inside, fresh, _⟩ := forward_in_itemsFor here
      exact ⟨inside, fresh⟩
  · rcases split_append split with ⟨rest, earlier, rfl⟩ | ⟨rest, here, _⟩
    · obtain ⟨others, other, rest, rfl, needs⟩ := orderly.needed earlier
      exact ⟨others, other, rest ++ g.itemsFor done id, by simp, needs⟩
    · obtain ⟨forwardable, leads, _, _, others, rfl⟩ := forward_in_itemsFor here
      exact ⟨others, id, [], rfl, forwardable, leads⟩

/-- Every plan is orderly. -/
theorem plan_orderly (g : Graph) (roots : List TypeId) : g.Orderly (g.plan roots) := by
  induction roots using List.reverseRecOn with
  | nil => exact ⟨fun split => by simp [plan] at split, fun split => by simp [plan] at split,
      fun split => by simp [plan] at split⟩
  | append_singleton roots id ih =>
    rw [plan_concat]
    exact ih.append id

/-- The roots are the declarations that are not external. -/
theorem mem_roots_iff : id ∈ g.roots ↔
    (g.node? id).any fun node => node.isDeclaration && !node.external := by
  unfold Graph.roots ids
  rw [List.mem_filter, List.mem_range, and_iff_right_iff_imp]
  intro holds
  obtain ⟨node, found, _⟩ := (Option.any_eq_true _ _).mp holds
  exact lt_size_of_node? found

end Graph

/-! ### The text -/

namespace Renderer

/-- What a rendering refers to. -/
def scope (r : Renderer) (g : Graph) : Scope where
  graph := g
  names := Naming.display g (some r.iids) r.formatter.1.separator
  dialect := r.formatter.1.dialect
  hideComments := r.formatter.1.hideComments
  bestEffort := r.options.bestEffort

/-- The items of a rendering. -/
def items (r : Renderer) (g : Graph) (roots : List TypeId) : List Item :=
  g.plan (r.options.select g roots)

/-- Fetching the formatter leaves settings and names alone. -/
theorem formatter_snd (r : Renderer) :
    r.formatter.2.options = r.options ∧ r.formatter.2.iids = r.iids := by
  unfold formatter
  split
  · exact ⟨rfl, rfl⟩
  · exact ⟨rfl, rfl⟩

/-- A rendering fails at the first type that is not complete, or gives the text of its plan. -/
theorem render_fst (r : Renderer) (g : Graph) (roots : List TypeId) :
    (r.render g roots).1 = match r.options.obstacle? g (r.options.select g roots) with
      | some id => .error (.notParsed (g.describe id))
      | none => .ok (sourceText ((r.items g roots).flatMap (RenderOptions.itemLines (r.scope g)))) := by
  obtain ⟨options, iids⟩ := r.formatter_snd
  calc
    (r.render g roots).1 =
        r.formatter.2.options.renderWith r.formatter.1 r.formatter.2.iids g roots := rfl
    _ = r.options.renderWith r.formatter.1 r.iids g roots := by rw [options, iids]

/-- Where nothing stands in its way, a rendering succeeds. -/
theorem render_of_clear {r : Renderer} {g : Graph} {roots : List TypeId}
    (clear : r.options.obstacle? g (r.options.select g roots) = none) :
    (r.render g roots).1 =
      .ok (sourceText ((r.items g roots).flatMap (RenderOptions.itemLines (r.scope g)))) := by
  rw [render_fst, clear]

/-- A rendering succeeds if all selected types are complete or need not be. -/
theorem render_ok_iff {r : Renderer} {g : Graph} {roots : List TypeId} :
    (∃ text, (r.render g roots).1 = .ok text) ↔ r.options.bestEffort = true ∨
      ∀ id ∈ r.options.select g roots, (g.node? id).any (·.isParsed) := by
  have clear : r.options.obstacle? g (r.options.select g roots) = none ↔
      r.options.bestEffort = true ∨ ∀ id ∈ r.options.select g roots, (g.node? id).any (·.isParsed) := by
    unfold RenderOptions.obstacle?
    split
    next effort => simp [effort]
    next effort => simp [effort]
  rw [← clear, render_fst]
  cases r.options.obstacle? g (r.options.select g roots) with
  | some id => simp
  | none => simp

/-- What a rendering that succeeds gives. -/
theorem text_eq {r : Renderer} {g : Graph} {roots : List TypeId} {text : String}
    (rendered : (r.render g roots).1 = .ok text) :
    text = sourceText ((r.items g roots).flatMap (RenderOptions.itemLines (r.scope g))) := by
  rw [render_fst] at rendered
  cases clear : r.options.obstacle? g (r.options.select g roots) with
  | some id =>
    rw [clear] at rendered
    cases rendered
  | none =>
    rw [clear] at rendered
    exact (Except.ok.inj rendered).symm

end Renderer

end ComTypes

import ComTypes.Naming.Display
import ComTypes.Proofs.Naming.Fresh

/-!
# Display names

Names are given out in graph order, and each is picked against the names of the declarations before it
(`displayFrom_picks`). So no two declarations in use have the same name, a declaration shows its base
name or the least free number of it, and nodes that are appended change no name
(`display_distinct_and_stable`).
-/

namespace ComTypes.Naming

/-- A declaration before position `i` has this name. -/
def Before (nodes : List Node) (names : List String) (i : Nat) (name : String) : Prop :=
  ∃ j < i, ∃ node, nodes[j]? = some node ∧ node.isDeclaration = true ∧ names[j]? = some name

variable {nodes : List Node} {names : List String} {node : Node} {name other : String} {i : Nat}

theorem not_before_zero : ¬ Before nodes names 0 other := fun ⟨_, before, _⟩ => nomatch before

theorem before_cons :
    Before (node :: nodes) (name :: names) (i + 1) other ↔
      (node.isDeclaration = true ∧ name = other) ∨ Before nodes names i other := by
  constructor
  · rintro ⟨j, before, found, at_j, declares, named⟩
    cases j with
    | zero =>
      cases at_j
      cases named
      exact .inl ⟨declares, rfl⟩
    | succ j => exact .inr ⟨j, Nat.lt_of_succ_lt_succ before, found, at_j, declares, named⟩
  · rintro (⟨declares, rfl⟩ | ⟨j, before, found, at_j, declares, named⟩)
    · exact ⟨0, Nat.succ_pos i, node, rfl, declares, rfl⟩
    · exact ⟨j + 1, Nat.succ_lt_succ before, found, at_j, declares, named⟩

theorem Picks.congr {used used' : String → Prop} {base : String} {start : Nat}
    (picks : Picks used base start name) (same : ∀ text, used text ↔ used' text) :
    Picks used' base start name := by
  obtain rfl : used = used' := funext fun text => propext (same text)
  exact picks

section Names

variable (iids : Option IidNames) (separator : String)

theorem length_displayFrom (nodes : List Node) (start : TypeId) (taken : List String) :
    (displayFrom iids separator start taken nodes).length = nodes.length := by
  fun_induction displayFrom iids separator start taken nodes <;> simp_all

/-- Every declaration gets a name that is picked against those taken and those given out before. -/
theorem displayFrom_picks (start : TypeId) (taken : List String) (found : nodes[i]? = some node)
    (declares : node.isDeclaration = true) :
    ∃ name, (displayFrom iids separator start taken nodes)[i]? = some name ∧
      Picks (fun text => text ∈ taken ∨
          Before nodes (displayFrom iids separator start taken nodes) i text)
        (baseName iids separator (start + i) node) 1 name := by
  induction nodes generalizing start taken i with
  | nil => cases found
  | cons head rest ih =>
    cases i with
    | zero =>
      obtain rfl : head = node := Option.some.inj found
      rw [displayFrom, if_pos declares]
      refine ⟨_, rfl, (fresh_picks taken _ 1).congr fun text => ?_⟩
      exact ⟨.inl, fun held => held.resolve_right not_before_zero⟩
    | succ k =>
      have place : start + (k + 1) = start + 1 + k := Nat.add_right_comm start k 1
      rw [displayFrom, place]
      -- The name of the first node is taken from there on if the node is a declaration.
      by_cases first : head.isDeclaration = true
      · obtain ⟨name, given, picks⟩ := ih (start + 1) _ found
        rw [if_pos first]
        refine ⟨name, given, picks.congr fun text => ?_⟩
        rw [before_cons, List.mem_cons]
        simp only [first, true_and, eq_comm (a := text), or_assoc, or_left_comm]
      · obtain ⟨name, given, picks⟩ := ih (start + 1) taken found
        rw [if_neg first]
        refine ⟨name, given, picks.congr fun text => ?_⟩
        rw [before_cons]
        simp only [first, Bool.false_eq_true, false_and, false_or]

/-- Nodes that are added do not change the names given before. -/
theorem displayFrom_prefix (nodes more : List Node) (start : TypeId) (taken : List String) :
    displayFrom iids separator start taken nodes <+:
      displayFrom iids separator start taken (nodes ++ more) := by
  induction nodes generalizing start taken with
  | nil => exact List.nil_prefix
  | cons head rest ih =>
    rw [List.cons_append, displayFrom, displayFrom]
    split
    · exact (List.prefix_cons_inj _).mpr (ih ..)
    · exact (List.prefix_cons_inj _).mpr (ih ..)

end Names

/-- The name of a declaration in use before `id`. -/
def UsedBefore (g : Graph) (names : Array String) (id : TypeId) (name : String) : Prop :=
  ∃ j < id, ∃ node, g.node? j = some node ∧ node.isDeclaration = true ∧ names[j]? = some name

/-- Each declaration in use takes the first free name. -/
theorem display_picks (g : Graph) (iids : Option IidNames) (separator : String) {id : TypeId}
    (found : g.node? id = some node) (declares : node.isDeclaration = true) :
    ∃ name, (display g iids separator)[id]? = some name ∧
      Picks (UsedBefore g (display g iids separator) id) (baseName iids separator id node) 1 name := by
  have at_id : g.nodes.toList[id]? = some node := by
    rw [Array.getElem?_toList]
    exact found
  obtain ⟨name, given, picks⟩ :=
    displayFrom_picks iids separator 0 [] at_id declares
  refine ⟨name, by rwa [display, List.getElem?_toArray], ?_⟩
  rw [Nat.zero_add] at picks
  refine picks.congr fun text => ?_
  simp only [Before, UsedBefore, display, Graph.node?, List.getElem?_toArray, Array.getElem?_toList,
    List.not_mem_nil, false_or]

/-- Every node has a display name. Declarations in use have different ones: the base name if no earlier
declaration shows it, and else the base name with the least number from one on that is free among the
earlier ones. Appending nodes to the graph changes no name. -/
theorem display_distinct_and_stable (g : Graph) (iids : Option IidNames) (separator : String) :
    (display g iids separator).size = g.size ∧
    (∀ i j node node', i ≠ j → g.node? i = some node → g.node? j = some node' →
      node.isDeclaration = true → node'.isDeclaration = true →
        (display g iids separator)[i]? ≠ (display g iids separator)[j]?) ∧
    (∀ id node, g.node? id = some node → node.isDeclaration = true →
      ∃ name, (display g iids separator)[id]? = some name ∧
        Picks (UsedBefore g (display g iids separator) id) (baseName iids separator id node) 1
          name) ∧
    ∀ (g' : Graph) (more : List Node), g'.nodes = g.nodes ++ more → ∀ id < g.size,
      (display g' iids separator)[id]? = (display g iids separator)[id]? := by
  have size : (display g iids separator).size = g.size := by
    rw [display, List.size_toArray, length_displayFrom]
    rfl
  -- The later one of two names is picked against the earlier one.
  have apart : ∀ {i j node node'}, i < j → g.node? i = some node → g.node? j = some node' →
      node.isDeclaration = true → node'.isDeclaration = true →
        (display g iids separator)[i]? ≠ (display g iids separator)[j]? := by
    intro i j node node' before at_i at_j first second same
    obtain ⟨name, given, picks⟩ := display_picks g iids separator at_j second
    exact picks.free ⟨i, before, node, at_i, first, same.trans given⟩
  refine ⟨size, fun i j node node' differ at_i at_j first second same => ?_,
    fun id node found declares => display_picks g iids separator found declares,
    fun g' more extended id inside => ?_⟩
  · rcases Nat.lt_or_gt_of_ne differ with before | after
    · exact apart before at_i at_j first second same
    · exact apart after at_j at_i second first same.symm
  · have nodes : g'.nodes.toList = g.nodes.toList ++ more := by simp [extended]
    have kept := displayFrom_prefix iids separator g.nodes.toList more 0 []
    rw [display, display, nodes, List.getElem?_toArray, List.getElem?_toArray]
    refine (List.prefix_iff_getElem?.mp kept id ?_).trans (List.getElem?_eq_getElem _).symm
    rwa [← size, display, List.size_toArray] at inside

/-- Three records, where the second is named as the third would be by its first number. -/
def crowdedGraph : Graph where
  nodes := #["Point", "Point_1", "Point"].mapIdx fun i name =>
    { identity := .index i, name, state := .complete, body := .record .struct [] }

theorem crowdedGraph_distinct :
    display crowdedGraph none "." = #["Point", "Point_1", "Point_2"] ∧
      (display crowdedGraph none ".")[0]? ≠ (display crowdedGraph none ".")[2]? := by
  constructor
  · decide +kernel
  · exact (display_distinct_and_stable crowdedGraph none ".").2.1 0 2 _ _ (by decide) rfl rfl rfl rfl

end ComTypes.Naming

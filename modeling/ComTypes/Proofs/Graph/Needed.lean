import ComTypes.Proofs.Graph.Search
import ComTypes.Proofs.Graph.WellFormed
import Mathlib.Computability.StateTransition
import Mathlib.Data.Finset.Card
import Mathlib.Data.Finset.Range

/-!
# What interfaces need

The interfaces among the roots need the records, type definitions and enumerations that their methods name
through pointers and arrays, what the bodies of these name, and so on (`Graph.Needed`).

They are found in rounds, from the interfaces outwards. A round that finds nothing new is the last one, and as
each of the others finds another node of the graph, there are enough of them (`Graph.mem_closure_iff`).

A `Worklist` finds them one by one, and nothing bounds it. Where bodies name types of the graph only and every
chain of pointers and arrays comes to an end (`Graph.Founded`), the types that a body names are followed to
these ends and are done with (`Worklist.drains`). From then on each turn looks into a declaration for the first
time or else drops one that has waited, and so the worklist ends, with exactly the declarations that are needed
(`Worklist.ends_with_needed`).
-/

namespace ComTypes

theorem Body.references_subset_targets {body : Body} : body.references ⊆ body.targets := by
  cases body with
  | interface => exact List.subset_append_right _ _
  | structural => exact List.nil_subset _
  | typedef | record | enumeration => exact List.Subset.refl _

namespace Graph

variable {g : Graph} {roots seen frontier : List TypeId} {rounds : Nat} {id target : TypeId}

/-- The least set that holds the interfaces among the roots and, with each type, the records, type
definitions and enumerations that its body names. -/
inductive Needed (g : Graph) (roots : List TypeId) : TypeId → Prop
  | interface {id : TypeId} : id ∈ roots → (g.body? id).any Body.isInterface → Needed g roots id
  | named {id target : TypeId} : Needed g roots id → g.BodyNames id target → Needed g roots target

/-! ### Rounds -/

/-- The types that one round finds. -/
def discovered (g : Graph) (seen frontier : List TypeId) : List TypeId :=
  ((frontier.flatMap g.namedByBody).filter (· ∉ seen)).eraseDups

theorem mem_discovered :
    target ∈ g.discovered seen frontier ↔ (∃ id ∈ frontier, g.BodyNames id target) ∧ target ∉ seen := by
  simp [discovered, mem_namedByBody]

theorem closure_succ (g : Graph) (rounds : Nat) (seen frontier : List TypeId) :
    g.closure (rounds + 1) seen frontier = if g.discovered seen frontier = [] then seen
      else g.closure rounds (seen ++ g.discovered seen frontier) (g.discovered seen frontier) := by
  unfold discovered
  rw [closure]
  generalize ((frontier.flatMap g.namedByBody).filter (· ∉ seen)).eraseDups = next
  cases next with
  | nil => rfl
  | cons => rfl

/-- Only needed types are found. -/
theorem needed_of_mem_closure (all : ∀ id ∈ seen, g.Needed roots id) (front : frontier ⊆ seen)
    (member : id ∈ g.closure rounds seen frontier) : g.Needed roots id := by
  induction rounds generalizing seen frontier with
  | zero => exact all id member
  | succ rounds ih =>
    rw [closure_succ] at member
    split at member
    · exact all id member
    · refine ih (fun other found => ?_) (List.subset_append_right _ _) member
      rcases List.mem_append.mp found with old | new
      · exact all other old
      · obtain ⟨⟨source, among, named⟩, _⟩ := mem_discovered.mp new
        exact .named (all source (front among)) named

/-- The nodes that have not been found yet. -/
def unseen (g : Graph) (seen : List TypeId) : Finset TypeId := Finset.range g.size \ seen.toFinset

theorem lt_size_of_bodyNames (named : g.BodyNames id target) : target < g.size := by
  obtain ⟨body, found, _⟩ := (Option.any_eq_true _ _).mp named.2
  obtain ⟨node, found, _⟩ := Option.map_eq_some_iff.mp found
  exact lt_size_of_node? found

/-- A round that finds something leaves fewer nodes to be found. -/
theorem unseen_lt (some : g.discovered seen frontier ≠ []) :
    (g.unseen (seen ++ g.discovered seen frontier)).card < (g.unseen seen).card := by
  obtain ⟨target, new⟩ := List.exists_mem_of_ne_nil _ some
  obtain ⟨⟨source, _, named⟩, fresh⟩ := mem_discovered.mp new
  have inside : target ∈ g.unseen seen := by
    simp [unseen, lt_size_of_bodyNames named, fresh]
  refine Finset.card_lt_card ((Finset.ssubset_iff_of_subset fun j member => ?_).mpr
    ⟨target, inside, ?_⟩)
  · simp only [unseen, Finset.mem_sdiff, List.mem_toFinset, List.mem_append, not_or] at member ⊢
    exact ⟨member.1, member.2.1⟩
  · simp [unseen, new]

/-- Whatever has been looked into leads to types that have been found, so with enough rounds the result is
closed. -/
theorem closure_closed (enough : (g.unseen seen).card < rounds)
    (looked : ∀ id ∈ seen, id ∈ frontier ∨ ∀ target, g.BodyNames id target → target ∈ seen) :
    seen ⊆ g.closure rounds seen frontier ∧ ∀ id ∈ g.closure rounds seen frontier,
      ∀ target, g.BodyNames id target → target ∈ g.closure rounds seen frontier := by
  induction rounds generalizing seen frontier with
  | zero => exact absurd enough (Nat.not_lt_zero _)
  | succ rounds ih =>
    -- What a type in sight names has been seen, or this round finds it.
    have next : ∀ id ∈ seen, ∀ target, g.BodyNames id target →
        target ∈ seen ++ g.discovered seen frontier := by
      intro id member target named
      by_cases known : target ∈ seen
      · exact List.mem_append_left _ known
      · rcases looked id member with front | done
        · exact List.mem_append_right _ (mem_discovered.mpr ⟨⟨id, front, named⟩, known⟩)
        · exact absurd (done target named) known
    rw [closure_succ]
    split
    next none =>
      rw [none, List.append_nil] at next
      exact ⟨List.Subset.refl _, next⟩
    next some =>
      have fewer : (g.unseen (seen ++ g.discovered seen frontier)).card < rounds :=
        Nat.lt_of_lt_of_le (unseen_lt some) (Nat.le_of_lt_succ enough)
      have ahead : ∀ id ∈ seen ++ g.discovered seen frontier, id ∈ g.discovered seen frontier ∨
          ∀ target, g.BodyNames id target → target ∈ seen ++ g.discovered seen frontier :=
        fun id member => (List.mem_append.mp member).symm.imp_right (next id)
      obtain ⟨grows, closed⟩ := ih fewer ahead
      exact ⟨List.Subset.trans (List.subset_append_left _ _) grows, closed⟩

/-- The roots that are interfaces. -/
def rootInterfaces (g : Graph) (roots : List TypeId) : List TypeId :=
  roots.filter fun id => (g.body? id).any Body.isInterface

theorem mem_closure_iff :
    id ∈ g.closure (g.size + 1) (g.rootInterfaces roots) (g.rootInterfaces roots) ↔
      g.Needed roots id := by
  constructor
  · refine needed_of_mem_closure (fun other member => ?_) (List.Subset.refl _)
    obtain ⟨root, interface⟩ := List.mem_filter.mp member
    exact .interface root interface
  · have enough : (g.unseen (g.rootInterfaces roots)).card < g.size + 1 := by
      have fits := Finset.card_le_card (Finset.sdiff_subset
        (s := Finset.range g.size) (t := (g.rootInterfaces roots).toFinset))
      rw [Finset.card_range] at fits
      exact Nat.lt_succ_of_le fits
    have looked : ∀ id ∈ g.rootInterfaces roots, id ∈ g.rootInterfaces roots ∨
        ∀ target, g.BodyNames id target → target ∈ g.rootInterfaces roots := fun _ => .inl
    obtain ⟨grows, closed⟩ := closure_closed enough looked
    intro needed
    induction needed with
    | interface root interface => exact grows (List.mem_filter.mpr ⟨root, interface⟩)
    | named _ named ih => exact closed _ ih _ named

instance (g : Graph) (roots : List TypeId) : DecidablePred (g.Needed roots) := fun _ =>
  decidable_of_iff _ mem_closure_iff

/-- Exactly the needed roots are selected, in their order. -/
theorem interfacesAndReachable_eq (g : Graph) (roots : List TypeId) :
    g.interfacesAndReachable roots = roots.filter (g.Needed roots ·) := by
  unfold interfacesAndReachable
  refine List.filter_congr fun id _ => ?_
  exact decide_eq_decide.mpr mem_closure_iff

/-! ### Graphs whose chains end -/

/-- Bodies name types of the graph, and every chain of pointers and arrays comes to an end. -/
structure Founded (g : Graph) : Prop where
  inside : ∀ {id node}, g.node? id = some node → ∀ t ∈ node.body.targets, t < g.size
  ends : ∀ id < g.size, ∃ last, g.EndsIn throughStructure id last

/-- Pointers and arrays that are made from earlier types form no cycle. -/
theorem exists_endsIn_of_earlier
    (earlier : ∀ {id next}, (g.body? id).bind throughStructure = some next → next < id) (id : TypeId) :
    ∃ last, g.EndsIn throughStructure id last := by
  induction id using Nat.strongRecOn with
  | ind id ih =>
    cases leads : (g.body? id).bind throughStructure with
    | none => exact ⟨id, .here id, leads⟩
    | some next =>
      obtain ⟨last, ends⟩ := ih next (earlier leads)
      exact ⟨last, (EndsIn.follow_iff leads).mpr ends⟩

theorem WellFormed.founded {r : Regime} (wf : g.WellFormed r) (bounded : r.bounded) : g.Founded where
  inside := wf.targets_lt bounded
  ends id _ := by
    refine exists_endsIn_of_earlier (fun {id next} leads => ?_) id
    obtain ⟨body, known, through⟩ := Option.bind_eq_some_iff.mp leads
    obtain ⟨node, found, rfl⟩ := Option.map_eq_some_iff.mp known
    obtain ⟨s, structural, member⟩ := throughStructure_eq_some.mp through
    exact wf.earlier bounded found structural next member

theorem Founded.references_lt (founded : g.Founded) {body : Body} (here : g.body? id = some body) :
    ∀ t ∈ body.references, t < g.size := by
  obtain ⟨node, found, rfl⟩ := Option.map_eq_some_iff.mp here
  exact fun t member => founded.inside found t (Body.references_subset_targets member)

theorem Needed.lt_size (needed : g.Needed roots id) : id < g.size := by
  cases needed with
  | interface _ interface =>
    obtain ⟨body, known, _⟩ := (Option.any_eq_true _ _).mp interface
    obtain ⟨node, found, _⟩ := Option.map_eq_some_iff.mp known
    exact lt_size_of_node? found
  | named _ named => exact lt_size_of_bodyNames named

theorem namedType?_follow {next : TypeId} (leads : (g.body? id).bind throughStructure = some next) :
    g.namedType? id = g.namedType? next := by
  rw [namedType?, namedType?, chainEnd?_follow leads]

theorem namedType?_of_stops {body : Body} (here : g.body? id = some body)
    (stops : throughStructure body = none) :
    g.namedType? id = if body.isData then some id else none := by
  refine Option.ext fun target => ?_
  rw [namedType?_eq_some_iff]
  constructor
  · rintro ⟨leads, data⟩
    cases leads with
    | here =>
      rw [here, Option.any_some] at data
      rw [if_pos data]
    | next follows _ =>
      rw [here, Option.bind_some, stops] at follows
      cases follows
  · intro same
    split at same
    next data =>
      cases same
      exact ⟨.here id, by rwa [here]⟩
    next => cases same

/-! ### The worklist -/

/-- The search for what interfaces need, under way: the declarations that wait to be looked into, the types
that the body of the last one named and that have not been followed yet, and the declarations that have been
looked into. -/
structure Worklist where
  stack : List TypeId
  types : List TypeId
  reachable : List TypeId
deriving DecidableEq, Repr

namespace Worklist

open StateTransition (eval)

variable {g : Graph} {s s' : Worklist} {roots stack types reachable result : List TypeId} {id x : TypeId}
  {body : Body}

/-- The interfaces among the roots wait, the last of them on top. -/
def start (g : Graph) (roots : List TypeId) : Worklist := ⟨(g.rootInterfaces roots).reverse, [], []⟩

/-- What becomes of the worklist when it follows a type with a given body, the rest of the types being
known. -/
def follow (s : Worklist) (x : TypeId) (types : List TypeId) : Body → Worklist
  | .structural (.pointer target) => { s with types := target :: types }
  | .structural (.array element _) => { s with types := element :: types }
  | .record _ _ | .typedef _ | .enumeration _ => { s with stack := x :: s.stack, types }
  | .interface _ | .structural (.primitive _) => { s with types }

/-- Follow the last of the types. If there is none, look into the declaration on top of the stack, unless
that has been done before. There is no next turn if both are empty, nor if the type is not in the graph. -/
def turn (g : Graph) (s : Worklist) : Option Worklist :=
  match s.types, s.stack with
  | x :: types, _ => (g.body? x).map (s.follow x types)
  | [], id :: stack =>
    if id ∈ s.reachable then some { s with stack }
    else (g.body? id).map fun body =>
      { stack, types := body.references.reverse, reachable := id :: s.reachable }
  | [], [] => none

/-- After some turns nothing waits any more, and these declarations have been looked into. -/
def Ends (g : Graph) (s : Worklist) (result : List TypeId) : Prop := ⟨[], [], result⟩ ∈ eval (turn g) s

theorem Ends.unique (ends : s.Ends g result) {other : List TypeId} (again : s.Ends g other) :
    other = result :=
  congrArg reachable (Part.mem_unique again ends)

theorem ends_of_reaches (reaches : StateTransition.Reaches (turn g) s s') (ends : s'.Ends g result) :
    s.Ends g result := by
  rw [Ends, StateTransition.reaches_eval reaches]
  exact ends

theorem ends_done (g : Graph) (reachable : List TypeId) : Ends g ⟨[], [], reachable⟩ reachable :=
  StateTransition.mem_eval.mpr ⟨.refl, rfl⟩

/-! ### Following the types that a body names -/

theorem follow_of_throughStructure {next : TypeId} (leads : throughStructure body = some next) :
    s.follow x types body = { s with types := next :: types } := by
  match body, leads with
  | .structural (.pointer _), rfl | .structural (.array _ _), rfl => rfl

theorem follow_of_stops (stops : throughStructure body = none) :
    s.follow x types body = { s with stack := if body.isData then x :: s.stack else s.stack, types } := by
  match body, stops with
  | .record _ _, _ | .typedef _, _ | .enumeration _, _ | .interface _, _ | .structural (.primitive _), _ =>
    rfl

/-- A type is followed to the end of its chain, where a record, type definition or enumeration is put on the
stack. -/
theorem drain {last : TypeId} {steps : Nat} (ends : g.Ends throughStructure x steps last)
    (inside : last < g.size) :
    StateTransition.Reaches (turn g) ⟨stack, x :: types, reachable⟩
      ⟨(g.namedType? x).toList ++ stack, types, reachable⟩ := by
  induction ends with
  | @here x stops =>
    obtain ⟨node, found⟩ := exists_node_of_lt inside
    have here : g.body? x = some node.body := by rw [body?, found, Option.map_some]
    rw [here, Option.bind_some] at stops
    refine .single ?_
    show (g.body? x).map _ = _
    rw [here, Option.map_some, follow_of_stops stops, namedType?_of_stops here stops]
    cases node.body.isData with
    | true => rfl
    | false => rfl
  | @next x next _ _ leads _ ih =>
    obtain ⟨body, here, through⟩ := Option.bind_eq_some_iff.mp leads
    rw [namedType?_follow leads]
    refine .head ?_ (ih inside)
    show (g.body? x).map _ = _
    rw [here, Option.map_some, follow_of_throughStructure through]

/-- All types are followed, one after the other. -/
theorem drains (founded : g.Founded) (inside : ∀ x ∈ types, x < g.size) :
    StateTransition.Reaches (turn g) ⟨stack, types, reachable⟩
      ⟨(types.filterMap g.namedType?).reverse ++ stack, [], reachable⟩ := by
  induction types generalizing stack with
  | nil => exact .refl
  | cons x types ih =>
    obtain ⟨last, ends⟩ := founded.ends x (inside x List.mem_cons_self)
    obtain ⟨steps, ends'⟩ := exists_ends_iff.mpr ends
    have within : last < g.size := by
      have reaches := reaches_iff_leads.mpr ends.1
      exact reaches.lt_size founded.inside (inside x List.mem_cons_self)
    have shape : ((x :: types).filterMap g.namedType?).reverse ++ stack =
        (types.filterMap g.namedType?).reverse ++ ((g.namedType? x).toList ++ stack) := by
      rw [List.filterMap_cons]
      cases g.namedType? x with
      | none => rfl
      | some => simp
    rw [shape]
    exact .trans (drain ends' within) (ih fun y member => inside y (List.mem_cons_of_mem x member))

/-- A declaration that has not been looked into puts what its body names on the stack. -/
theorem enter (founded : g.Founded) (inside : id < g.size) (new : id ∉ reachable) :
    StateTransition.Reaches (turn g) ⟨id :: stack, [], reachable⟩
      ⟨g.namedByBody id ++ stack, [], id :: reachable⟩ := by
  obtain ⟨node, found⟩ := exists_node_of_lt inside
  have here : g.body? id = some node.body := by rw [body?, found, Option.map_some]
  have first : turn g ⟨id :: stack, [], reachable⟩ =
      some ⟨stack, node.body.references.reverse, id :: reachable⟩ := by
    rw [turn]
    dsimp only
    rw [if_neg new, here, Option.map_some]
  refine .head first ?_
  have rest : StateTransition.Reaches (turn g)
      ⟨stack, node.body.references.reverse, id :: reachable⟩
      ⟨(node.body.references.reverse.filterMap g.namedType?).reverse ++ stack, [], id :: reachable⟩ :=
    drains founded fun x member => founded.references_lt here x (List.mem_reverse.mp member)
  rw [List.filterMap_reverse, List.reverse_reverse] at rest
  rw [namedByBody, bodyReferences, here]
  exact rest

/-! ### Looking into declarations -/

/-- All that waits and all that has been looked into is needed, the interfaces are among them, and so is what
is named by a declaration that has been looked into. -/
structure Sound (g : Graph) (roots stack reachable : List TypeId) : Prop where
  nodup : reachable.Nodup
  needed : ∀ id, id ∈ reachable ∨ id ∈ stack → g.Needed roots id
  interfaces : ∀ id ∈ g.rootInterfaces roots, id ∈ reachable ∨ id ∈ stack
  named : ∀ id ∈ reachable, ∀ target, g.BodyNames id target → target ∈ reachable ∨ target ∈ stack

namespace Sound

theorem start (g : Graph) (roots : List TypeId) : Sound g roots (g.rootInterfaces roots).reverse [] where
  nodup := List.nodup_nil
  needed id member := by
    rcases member with none | waits
    · cases none
    · obtain ⟨root, interface⟩ := List.mem_filter.mp (List.mem_reverse.mp waits)
      exact .interface root interface
  interfaces id member := .inr (List.mem_reverse.mpr member)
  named _ none := by cases none

/-- A declaration that has been looked into waits no longer. -/
theorem drop (sound : Sound g roots (id :: stack) reachable) (known : id ∈ reachable) :
    Sound g roots stack reachable := by
  have still : ∀ other, other ∈ reachable ∨ other ∈ id :: stack → other ∈ reachable ∨ other ∈ stack := by
    rintro other (before | waits)
    · exact .inl before
    · rcases List.mem_cons.mp waits with rfl | waits
      · exact .inl known
      · exact .inr waits
  exact ⟨sound.nodup, fun other member => sound.needed other (member.imp_right (List.mem_cons_of_mem id)),
    fun other member => still other (sound.interfaces other member),
    fun other member target named => still target (sound.named other member target named)⟩

/-- What a declaration names waits in its place. -/
theorem enter (sound : Sound g roots (id :: stack) reachable) (new : id ∉ reachable) :
    Sound g roots (g.namedByBody id ++ stack) (id :: reachable) := by
  have needed : g.Needed roots id := sound.needed id (.inr List.mem_cons_self)
  have still : ∀ other, other ∈ reachable ∨ other ∈ id :: stack →
      other ∈ id :: reachable ∨ other ∈ g.namedByBody id ++ stack := by
    rintro other (before | waits)
    · exact .inl (List.mem_cons_of_mem id before)
    · rcases List.mem_cons.mp waits with rfl | waits
      · exact .inl List.mem_cons_self
      · exact .inr (List.mem_append_right _ waits)
  refine ⟨List.nodup_cons.mpr ⟨new, sound.nodup⟩, fun other member => ?_,
    fun other member => still other (sound.interfaces other member), fun other member target named => ?_⟩
  · rcases member with looked | waits
    · rcases List.mem_cons.mp looked with rfl | before
      · exact needed
      · exact sound.needed other (.inl before)
    · rcases List.mem_append.mp waits with named | waits
      · exact .named needed (mem_namedByBody.mp named)
      · exact sound.needed other (.inr (List.mem_cons_of_mem id waits))
  · rcases List.mem_cons.mp member with rfl | before
    · exact .inr (List.mem_append_left _ (mem_namedByBody.mpr named))
    · exact still target (sound.named other before target named)

theorem length_le (sound : Sound g roots stack reachable) : reachable.length ≤ g.size :=
  length_le_size sound.nodup fun id member => (sound.needed id (.inl member)).lt_size

/-- When nothing waits, all that is needed has been looked into. -/
theorem mem_iff (sound : Sound g roots [] reachable) : id ∈ reachable ↔ g.Needed roots id := by
  have done : ∀ other, other ∈ reachable ∨ other ∈ [] → other ∈ reachable := fun other member =>
    member.resolve_right List.not_mem_nil
  constructor
  · exact fun member => sound.needed id (.inl member)
  · intro needed
    induction needed with
    | interface root interface =>
      exact done _ (sound.interfaces _ (List.mem_filter.mpr ⟨root, interface⟩))
    | named _ named ih => exact done _ (sound.named _ ih _ named)

/-- Each declaration is looked into once, and in between those that wait become fewer. -/
theorem ends {stack reachable : List TypeId} (founded : g.Founded) (sound : Sound g roots stack reachable) :
    ∃ result, Ends g ⟨stack, [], reachable⟩ result ∧ ∀ id, id ∈ result ↔ g.Needed roots id := by
  match stack with
  | [] => exact ⟨reachable, ends_done g reachable, fun id => sound.mem_iff⟩
  | id :: stack =>
    by_cases known : id ∈ reachable
    · obtain ⟨result, ends, all⟩ := (sound.drop known).ends founded
      refine ⟨result, ends_of_reaches (.single ?_) ends, all⟩
      exact if_pos known
    · have fits := (sound.enter known).length_le
      have inside : id < g.size := (sound.needed id (.inr List.mem_cons_self)).lt_size
      obtain ⟨result, ends, all⟩ := (sound.enter known).ends founded
      exact ⟨result, ends_of_reaches (Worklist.enter founded inside known) ends, all⟩
termination_by (g.size - reachable.length, stack.length)
decreasing_by
  · exact .right _ (Nat.lt_succ_self _)
  · refine .left _ _ ?_
    rw [List.length_cons] at fits ⊢
    omega

end Sound

/-- In a graph whose chains end, the worklist ends, in one way only, and finds exactly what is needed. -/
theorem ends_with_needed (founded : g.Founded) (roots : List TypeId) :
    ∃ result, (∀ other, (start g roots).Ends g other ↔ other = result) ∧
      ∀ id, id ∈ result ↔ g.Needed roots id := by
  obtain ⟨result, ends, all⟩ := (Sound.start g roots).ends founded
  refine ⟨result, fun other => ⟨ends.unique, ?_⟩, all⟩
  rintro rfl
  exact ends

end Worklist

end Graph

end ComTypes

import ComTypes.Proofs.Graph.Chain

/-!
# The search for what a type leads to

A `Search` follows references one by one, with nothing to bound it but a list of the type definitions that
it has followed: one that is met again is left alone. Pointers and arrays are not listed. In a graph where
they are made from earlier types (`Graph.Descending`) the search ends all the same, since each turn follows a
type definition that was not followed before, or else goes to an earlier type (`Search.At.turn`).

It ends with what following references for as many steps as there are types gives (`Search.ends_start`). This is
known from the chain: a type definition that is met again lies on a cycle, from which no record or interface
is reached.
-/

namespace ComTypes

/-- Types at which a chain ends without a record or an interface: enumerations, built-in types and type
definitions without a target. -/
def Body.isPlain : Body → Bool
  | .enumeration _ | .structural (.primitive _) | .typedef none => true
  | _ => false

namespace Graph

variable {g : Graph} {step : Body → Option TypeId} {id next last : TypeId} {path found : List TypeId}

/-! ### Chains that end, and chains that do not -/

/-- The chain from the first type ends with the second. -/
def EndsIn (g : Graph) (step : Body → Option TypeId) (id last : TypeId) : Prop :=
  g.Leads step id last ∧ (g.body? last).bind step = none

/-- The chain from a type comes to a type that it has met before. -/
def Cyclic (g : Graph) (step : Body → Option TypeId) (id : TypeId) : Prop :=
  ∃ again next, g.Leads step id again ∧ (g.body? again).bind step = some next ∧ g.Leads step next again

theorem Leads.trans {between : TypeId} (first : g.Leads step id between)
    (second : g.Leads step between last) : g.Leads step id last := by
  induction first with
  | here => exact second
  | next leads _ ih => exact .next leads (ih second)

/-- A chain has one end at most. -/
theorem EndsIn.unique (ends : g.EndsIn step id last) {other : TypeId} (again : g.EndsIn step id other) :
    other = last :=
  Option.some.inj ((chainEnd?_eq_some_iff.mpr again).symm.trans (chainEnd?_eq_some_iff.mpr ends))

/-- From a later type of a chain there are no more steps to its end. -/
theorem Ends.of_leads {between : TypeId} (leads : g.Leads step id between) {steps : Nat}
    (ends : g.Ends step id steps last) : ∃ left ≤ steps, g.Ends step between left last := by
  induction leads generalizing steps with
  | here => exact ⟨steps, Nat.le_refl _, ends⟩
  | next leads _ ih =>
    cases ends with
    | here stops => cases stops.symm.trans leads
    | next again inner =>
      cases leads.symm.trans again
      obtain ⟨left, fewer, ends⟩ := ih inner
      exact ⟨left, Nat.le_succ_of_le fewer, ends⟩

/-- A chain that comes back to a type has no end. -/
theorem Cyclic.not_endsIn (cyclic : g.Cyclic step id) : ¬ g.EndsIn step id last := by
  intro ends
  obtain ⟨again, next, leads, follows, back⟩ := cyclic
  obtain ⟨steps, ends⟩ := exists_ends_iff.mpr ends
  obtain ⟨left, _, ends⟩ := Ends.of_leads leads ends
  cases ends with
  | here stops => cases stops.symm.trans follows
  | @next _ _ _ left followed inner =>
    -- Around the cycle at least one step is gone, yet as many are left as before.
    cases follows.symm.trans followed
    obtain ⟨fewer, less, ends'⟩ := Ends.of_leads back inner
    obtain ⟨same, _⟩ := ends'.unique (.next followed inner)
    omega

/-! ### Types that lie behind -/

/-- Different types, from each of which the chain comes to `id` after one step or more. -/
structure Behind (g : Graph) (step : Body → Option TypeId) (id : TypeId) (path : List TypeId) : Prop where
  nodup : path.Nodup
  leads : ∀ j ∈ path, ∃ next, (g.body? j).bind step = some next ∧ g.Leads step next id

namespace Behind

theorem nil (g : Graph) (step : Body → Option TypeId) (id : TypeId) : g.Behind step id [] :=
  ⟨List.nodup_nil, fun _ member => absurd member List.not_mem_nil⟩

theorem follow (behind : g.Behind step id path) (leads : (g.body? id).bind step = some next) :
    g.Behind step next path := by
  refine ⟨behind.nodup, fun j member => ?_⟩
  obtain ⟨first, follows, onward⟩ := behind.leads j member
  exact ⟨first, follows, onward.trans (.next leads (.here next))⟩

theorem push (behind : g.Behind step id path) (leads : (g.body? id).bind step = some next)
    (new : id ∉ path) : g.Behind step next (id :: path) := by
  refine ⟨List.nodup_cons.mpr ⟨new, behind.nodup⟩, fun j member => ?_⟩
  rcases List.mem_cons.mp member with rfl | member
  · exact ⟨next, leads, .here next⟩
  · exact (behind.follow leads).leads j member

/-- A type that lies behind itself is on a cycle. -/
theorem cyclic (behind : g.Behind step id path) (again : id ∈ path) : g.Cyclic step id := by
  obtain ⟨next, leads, back⟩ := behind.leads id again
  exact ⟨id, next, .here id, leads, back⟩

theorem length_le (behind : g.Behind step id path) : path.length ≤ g.size := by
  refine length_le_size behind.nodup fun j member => ?_
  obtain ⟨next, leads, _⟩ := behind.leads j member
  exact lt_size_of_leads leads

/-- With all types that were met put behind, the chain ends or meets one of them. -/
theorem cyclic_or_endsIn {id : TypeId} {path : List TypeId} (behind : g.Behind step id path) :
    g.Cyclic step id ∨ ∃ last, g.EndsIn step id last := by
  by_cases again : id ∈ path
  · exact .inl (behind.cyclic again)
  · cases leads : (g.body? id).bind step with
    | none => exact .inr ⟨id, .here id, leads⟩
    | some next =>
      have fits := (behind.push leads again).length_le
      rcases (behind.push leads again).cyclic_or_endsIn with ⟨j, first, onward, rest⟩ | ⟨last, ends⟩
      · exact .inl ⟨j, first, .next leads onward, rest⟩
      · exact .inr ⟨last, .next leads ends.1, ends.2⟩
termination_by g.size - path.length
decreasing_by
  rw [List.length_cons] at fits ⊢
  omega

end Behind

/-! ### What the end of a chain adds -/

/-- The chain goes on from every other type. -/
theorem isPlain_or_isForwardable {body : Body} (stops : throughTypedef body = none) :
    body.isPlain ∨ body.isForwardable := by
  match body, stops with
  | .enumeration _, _ | .structural (.primitive _), _ | .typedef none, _ => exact .inl rfl
  | .record _ _, _ | .interface _, _ => exact .inr rfl

theorem of_throughTypedef {body : Body} (leads : throughTypedef body = some next) :
    body = .typedef (some next) ∨ throughStructure body = some next := by
  cases body with
  | typedef => exact .inl (congrArg Body.typedef leads)
  | enumeration | record | interface | structural => exact .inr leads

theorem not_isForwardable_of_isPlain {body : Body} (plain : body.isPlain) : ¬ body.isForwardable := by
  match body, plain with
  | .enumeration _, _ | .structural (.primitive _), _ | .typedef none, _ => exact Bool.false_ne_true

/-- A chain ends where it ends from its next type on. -/
theorem EndsIn.follow_iff (leads : (g.body? id).bind step = some next) :
    g.EndsIn step id last ↔ g.EndsIn step next last := by
  constructor
  · rintro ⟨onward, stops⟩
    cases onward with
    | here => cases stops.symm.trans leads
    | next again rest =>
      cases leads.symm.trans again
      exact ⟨rest, stops⟩
  · rintro ⟨onward, stops⟩
    exact ⟨.next leads onward, stops⟩

theorem chainEnd?_follow (leads : (g.body? id).bind step = some next) :
    g.chainEnd? step (g.size + 1) id = g.chainEnd? step (g.size + 1) next :=
  Option.ext fun last => by rw [chainEnd?_eq_some_iff, chainEnd?_eq_some_iff, ← EndsIn, ← EndsIn,
    EndsIn.follow_iff leads]

/-- The declaration that a type leads to is the end of its chain. -/
theorem referencedDeclaration?_eq_some_iff_endsIn :
    g.referencedDeclaration? id = some last ↔
      g.EndsIn throughTypedef id last ∧ (g.body? last).any Body.isForwardable := by
  rw [referencedDeclaration?_eq_some_iff]
  refine ⟨fun ⟨leads, forwardable⟩ => ⟨⟨leads, ?_⟩, forwardable⟩, fun ⟨ends, forwardable⟩ =>
    ⟨ends.1, forwardable⟩⟩
  obtain ⟨body, here, holds⟩ := (Option.any_eq_true _ _).mp forwardable
  rw [here, Option.bind_some, throughTypedef_of_isForwardable holds]

/-- A cyclic chain leads to nothing. -/
theorem referencedDeclarations_of_cyclic (cyclic : g.Cyclic throughTypedef id) :
    g.referencedDeclarations found id = found := by
  have nothing : g.referencedDeclaration? id = none := by
    refine Option.eq_none_iff_forall_ne_some.mpr fun target reached => ?_
    exact cyclic.not_endsIn (referencedDeclaration?_eq_some_iff_endsIn.mp reached).1
  rw [referencedDeclarations, nothing]

/-- A chain that ends with a plain type adds nothing. -/
theorem referencedDeclarations_of_isPlain {body : Body} (ends : g.EndsIn throughTypedef id last)
    (here : g.body? last = some body) (plain : body.isPlain) :
    g.referencedDeclarations found id = found := by
  have nothing : g.referencedDeclaration? id = none := by
    refine Option.eq_none_iff_forall_ne_some.mpr fun target reached => ?_
    obtain ⟨again, forwardable⟩ := referencedDeclaration?_eq_some_iff_endsIn.mp reached
    rw [ends.unique again, here] at forwardable
    exact not_isForwardable_of_isPlain plain forwardable
  rw [referencedDeclarations, nothing]

/-- A record or interface at the end of a chain is added once. -/
theorem referencedDeclarations_of_isForwardable {body : Body} (ends : g.EndsIn throughTypedef id last)
    (here : g.body? last = some body) (forwardable : body.isForwardable) :
    g.referencedDeclarations found id = if last ∈ found then found else found ++ [last] := by
  have reached : g.referencedDeclaration? id = some last :=
    referencedDeclaration?_eq_some_iff_endsIn.mpr ⟨ends, by rwa [here]⟩
  rw [referencedDeclarations, reached]

/-- A step along the chain changes nothing. -/
theorem referencedDeclarations_follow (leads : (g.body? id).bind throughTypedef = some next) :
    g.referencedDeclarations found id = g.referencedDeclarations found next := by
  unfold referencedDeclarations referencedDeclaration?
  rw [chainEnd?_follow leads]

/-! ### The search -/

/-- Pointers, arrays and type definitions lead to types of the graph, and pointers and arrays to earlier
ones. -/
def Descending (g : Graph) : Prop :=
  ∀ id < g.size, (∀ next ∈ (g.body? id).bind throughTypedef, next < g.size) ∧
    ∀ next ∈ (g.body? id).bind throughStructure, next < id

instance (g : Graph) : Decidable g.Descending := inferInstanceAs (Decidable (∀ id < g.size, _))

/-- A chain that starts in the graph stays in it. -/
theorem Descending.lt_size_of_leads (descending : g.Descending) (leads : g.Leads throughTypedef id last)
    (inside : id < g.size) : last < g.size := by
  induction leads with
  | here => exact inside
  | next follows _ ih => exact ih ((descending _ inside).1 _ follows)

/-- A search under way: the types that wait to be looked at, the type definitions that have been followed,
and the records and interfaces that have been found. -/
structure Search where
  stack : List TypeId
  followed : List TypeId
  found : List TypeId
deriving DecidableEq, Repr

namespace Search

variable {g : Graph} {s s' : Search} {id x : TypeId} {found result : List TypeId}

/-- The search for what one type leads to. -/
def start (id : TypeId) (found : List TypeId) : Search := ⟨[id], [], found⟩

/-- What becomes of the search when it looks at a type with a given body, the rest of the stack being
known. -/
def visit (s : Search) (id : TypeId) (stack : List TypeId) : Body → Search
  | .structural (.pointer target) => { s with stack := target :: stack }
  | .structural (.array element _) => { s with stack := element :: stack }
  | .typedef (some target) =>
    if id ∈ s.followed then { s with stack }
    else { s with stack := target :: stack, followed := id :: s.followed }
  | .record _ _ | .interface _ =>
    { s with stack, found := if id ∈ s.found then s.found else s.found ++ [id] }
  | .enumeration _ | .structural (.primitive _) | .typedef none => { s with stack }

/-- Look at the type on top of the stack. There is no next turn if the stack is empty, nor if the type is
not in the graph. -/
def turn (g : Graph) (s : Search) : Option Search :=
  match s.stack with
  | [] => none
  | id :: stack => (g.body? id).map (s.visit id stack)

/-- After some turns the stack is empty, and these are the records and interfaces found. -/
inductive Ends (g : Graph) : Search → List TypeId → Prop
  | done {s : Search} : s.stack = [] → Ends g s s.found
  | turn {s s' : Search} {result : List TypeId} : s.turn g = some s' → Ends g s' result → Ends g s result

/-- A search has one result. -/
theorem Ends.unique (ends : s.Ends g result) {other : List TypeId} (again : s.Ends g other) :
    other = result := by
  induction ends with
  | @done s empty =>
    cases again with
    | done => rfl
    | turn turns => simp [Search.turn, empty] at turns
  | @turn s s' _ turns _ ih =>
    cases again with
    | done empty => simp [Search.turn, empty] at turns
    | turn turns' rest =>
      cases turns.symm.trans turns'
      exact ih rest

section Turns

variable {stack : List TypeId} {body : Body} {next : TypeId}

theorem turn_eq (top : s.stack = x :: stack) (here : g.body? x = some body) :
    s.turn g = some (s.visit x stack body) := by
  rw [turn, top]
  dsimp only
  rw [here, Option.map_some]

theorem visit_of_isPlain (plain : body.isPlain) : s.visit x stack body = { s with stack } := by
  match body, plain with
  | .enumeration _, _ | .structural (.primitive _), _ | .typedef none, _ => rfl

theorem visit_of_isForwardable (forwardable : body.isForwardable) : s.visit x stack body =
    { s with stack, found := if x ∈ s.found then s.found else s.found ++ [x] } := by
  match body, forwardable with
  | .record _ _, _ | .interface _, _ => rfl

theorem visit_of_throughStructure (leads : throughStructure body = some next) :
    s.visit x stack body = { s with stack := next :: stack } := by
  match body, leads with
  | .structural (.pointer _), rfl | .structural (.array _ _), rfl => rfl

end Turns

/-- The search stands at a type of the graph, with the type definitions that it has followed behind it. -/
structure At (g : Graph) (x : TypeId) (s : Search) : Prop where
  stack_eq : s.stack = [x]
  inside : x < g.size
  behind : g.Behind throughTypedef x s.followed

/-- How much there is left to do: type definitions to follow, and, before the next of them, earlier types
to go to. -/
def rank (g : Graph) (s : Search) (x : TypeId) : Nat × Nat := (g.size - s.followed.length, x)

/-- A turn ends the search with what the type leads to, or goes on to the next type of the chain, from
which there is less to do. -/
theorem At.turn (descending : g.Descending) (here : s.At g x) : ∃ s', s.turn g = some s' ∧
    (s'.stack = [] ∧ s'.found = g.referencedDeclarations s.found x ∨
      ∃ next, s'.At g next ∧
        g.referencedDeclarations s'.found next = g.referencedDeclarations s.found x ∧
        Prod.Lex (· < ·) (· < ·) (s'.rank g next) (s.rank g x)) := by
  obtain ⟨top, inside, behind⟩ := here
  obtain ⟨node, found⟩ := exists_node_of_lt inside
  have body : g.body? x = some node.body := by rw [body?, found, Option.map_some]
  refine ⟨_, turn_eq top body, ?_⟩
  cases onward : throughTypedef node.body with
  | none =>
    have ends : g.EndsIn throughTypedef x x := ⟨.here x, by rw [body, Option.bind_some, onward]⟩
    refine .inl ?_
    rcases isPlain_or_isForwardable onward with plain | forwardable
    · rw [visit_of_isPlain plain, referencedDeclarations_of_isPlain ends body plain]
      exact ⟨rfl, rfl⟩
    · rw [visit_of_isForwardable forwardable,
        referencedDeclarations_of_isForwardable ends body forwardable]
      exact ⟨rfl, rfl⟩
  | some next =>
    have leads : (g.body? x).bind throughTypedef = some next := by rw [body, Option.bind_some, onward]
    have inside' : next < g.size := (descending x inside).1 next leads
    rcases of_throughTypedef onward with typedef | structural
    · rw [typedef, visit]
      by_cases again : x ∈ s.followed
      · -- The type definition lies on a cycle.
        rw [if_pos again, referencedDeclarations_of_cyclic (behind.cyclic again)]
        exact .inl ⟨rfl, rfl⟩
      · rw [if_neg again, referencedDeclarations_follow leads]
        have behind' := behind.push leads again
        refine .inr ⟨next, ⟨rfl, inside', behind'⟩, rfl, .left _ _ ?_⟩
        have fits := behind'.length_le
        show g.size - (x :: s.followed).length < g.size - s.followed.length
        rw [List.length_cons] at fits ⊢
        omega
    · have earlier : next < x := by
        refine (descending x inside).2 next ?_
        rw [body, Option.bind_some, structural]
        rfl
      rw [visit_of_throughStructure structural, referencedDeclarations_follow leads]
      exact .inr ⟨next, ⟨rfl, inside', behind.follow leads⟩, rfl, .right _ earlier⟩

/-- The search ends with what the type at which it stands leads to. -/
theorem At.ends {g : Graph} {s : Search} {x : TypeId} (descending : g.Descending) (here : s.At g x) :
    s.Ends g (g.referencedDeclarations s.found x) := by
  obtain ⟨s', turns, ⟨empty, result⟩ | ⟨next, there, same, less⟩⟩ := here.turn descending
  · rw [← result]
    exact .turn turns (.done empty)
  · rw [← same]
    exact .turn turns (there.ends descending)
termination_by s.rank g x
decreasing_by exact less

/-- The search for one type ends with what the type leads to. -/
theorem ends_start (descending : g.Descending) (inside : id < g.size) :
    (start id found).Ends g (g.referencedDeclarations found id) :=
  At.ends descending ⟨rfl, inside, .nil g throughTypedef id⟩

end Search

/-- Where pointers and arrays are made from earlier types, the search from every type of the graph ends,
whatever cycles the type definitions form, and it ends in one way only. Nothing is found if the chain from
the type is cyclic or ends with an enumeration, a built-in type or a type definition without a target. If it
ends with a record or an interface, then that one is put behind the others, unless it is among them already.
No other case arises, and a chain has one end at most. -/
theorem search_ends_with_target {g : Graph} (descending : g.Descending) (id : TypeId) (found : List TypeId) :
    (id < g.size → ∀ result,
      (Search.start id found).Ends g result ↔ result = g.referencedDeclarations found id) ∧
    (g.Cyclic throughTypedef id → g.referencedDeclarations found id = found) ∧
    (∀ last body, g.EndsIn throughTypedef id last → g.body? last = some body → body.isPlain →
      g.referencedDeclarations found id = found) ∧
    (∀ last body, g.EndsIn throughTypedef id last → g.body? last = some body → body.isForwardable →
      g.referencedDeclarations found id = if last ∈ found then found else found ++ [last]) ∧
    (id < g.size → g.Cyclic throughTypedef id ∨
      ∃ last body, g.EndsIn throughTypedef id last ∧ g.body? last = some body ∧
        (body.isPlain ∨ body.isForwardable) ∧
        ∀ other, g.EndsIn throughTypedef id other → other = last) := by
  refine ⟨fun inside result => ?_, referencedDeclarations_of_cyclic,
    fun last body => referencedDeclarations_of_isPlain,
    fun last body => referencedDeclarations_of_isForwardable, fun inside => ?_⟩
  · have ends : (Search.start id found).Ends g _ := Search.ends_start descending inside
    constructor
    · exact ends.unique
    · rintro rfl
      exact ends
  · rcases (Behind.nil g throughTypedef id).cyclic_or_endsIn with cyclic | ⟨last, ends⟩
    · exact .inl cyclic
    · obtain ⟨node, found⟩ := exists_node_of_lt (descending.lt_size_of_leads ends.1 inside)
      have body : g.body? last = some node.body := by rw [body?, found, Option.map_some]
      have stops := ends.2
      rw [body, Option.bind_some] at stops
      exact .inr ⟨last, node.body, ends, body, isPlain_or_isForwardable stops, fun _ => ends.unique⟩

/-- A type definition that names an array of pointers to itself, one that names a pointer to a record and
from which an array is made, and one without a target. -/
def cyclicTypedefs : Graph where
  nodes := #[
    { identity := .index 0, name := "Cycle", body := .typedef (some 2) },
    { identity := .index 1, name := "", body := .structural (.pointer 0) },
    { identity := .index 2, name := "", body := .structural (.array 1 .safe) },
    { identity := .index 3, name := "Point", body := .record .struct [] },
    { identity := .index 4, name := "", body := .structural (.pointer 3) },
    { identity := .index 5, name := "PointRef", body := .typedef (some 4) },
    { identity := .index 6, name := "", body := .structural (.array 5 .safe) },
    { identity := .index 7, name := "Handle", body := .typedef none }]

/-- The search around the cycle ends and finds nothing, nor does the one from the type definition without a
target; the search from the last array finds the record, unless it is known. -/
theorem cyclicTypedefs_searched :
    (Search.start 2 [6]).Ends cyclicTypedefs [6] ∧
    (Search.start 6 []).Ends cyclicTypedefs [3] ∧
    cyclicTypedefs.referencedDeclarations [6] 2 = [6] ∧
    cyclicTypedefs.referencedDeclarations [3] 6 = [3] ∧
    cyclicTypedefs.referencedDeclarations [] 7 = [] := by
  have descending : cyclicTypedefs.Descending := by decide
  obtain ⟨ends, cyclic, -⟩ := search_ends_with_target descending 2 [6]
  obtain ⟨ends', -, -, -, -⟩ := search_ends_with_target descending 6 []
  obtain ⟨-, -, -, known, -⟩ := search_ends_with_target descending 6 [3]
  obtain ⟨-, -, plain, -, -⟩ := search_ends_with_target descending 7 []
  refine ⟨(ends (by decide) _).mpr (by decide), (ends' (by decide) _).mpr (by decide), ?_, ?_, ?_⟩
  · exact cyclic ⟨2, 1, .here 2, rfl, .next rfl (.next rfl (.here 2))⟩
  · exact known 3 (.record .struct []) ⟨.next rfl (.next rfl (.next rfl (.here 3))), rfl⟩ rfl rfl
  · exact plain 7 (.typedef none) ⟨.here 7, rfl⟩ rfl rfl

end Graph

end ComTypes

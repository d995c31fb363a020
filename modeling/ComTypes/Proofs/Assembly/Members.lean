import ComTypes.Proofs.Assembly.OwnNode
import Mathlib.Data.List.Basic

/-!
# Members that are kept and members that are not

Whether a member can be built is `Decided` by its record, by the reference table of the type info and by
the nodes that the type infos of the library have. It does not depend on the members before it, although
these leave nodes in the graph. So collecting members splits their numbers by one test: those that pass
are kept, the others become issues, both in order (`collect_accounted`). Nothing is lost without an issue
(`members_accounted`).
-/

namespace ComTypes

open Assembler Assemble

variable {α β γ : Type} {slots : Table Nat TypeId} {a b s t : Assembler} {id : TypeId}

/-! ### What can be resolved -/

namespace TypeInfo

/-- Whether a reference number leads to a type: to a type info of the library that has a node, or to a
type of another library, unless that is a module or a coclass. -/
def refers (info : TypeInfo) (slots : Table Nat TypeId) (href : UInt32) : Bool :=
  match info.references.get? href with
  | some (.within index) => (slots.get? index.toNat).isSome
  | some (.external _ _ kind) => kind ≠ .moduleInfo && kind ≠ .coclass
  | none => false

/-- Whether a type descriptor can be resolved. -/
def resolves (info : TypeInfo) (slots : Table Nat TypeId) : TypeDesc → Bool
  | .base _ => true
  | .pointer target => info.resolves slots target
  | .safeArray element => info.resolves slots element
  | .fixedArray _ element => info.resolves slots element
  | .userDefined href => info.refers slots href

end TypeInfo

/-- Whether a variable is a constant. -/
def VarKind.isConstant : VarKind → Bool
  | constant _ => true
  | _ => false

/-- Where the type infos of the library have the given nodes, the step succeeds if and only if `fine`. It
fetches nodes and does nothing else. -/
structure Decided (slots : Table Nat TypeId) (fine : Bool) (step : Assemble α) : Prop where
  resolving : Resolving step
  succeeds : ∀ {a : Assembler}, a.slots = slots → (succeeded (step a) ↔ fine = true)

namespace Decided

variable {fine more : Bool} {step : Assemble α} {next : α → Assemble β}

theorem pure (value : α) : Decided slots true (pure value : Assemble α) where
  resolving := .pure value
  succeeds _ := ⟨fun _ => rfl, fun _ => trivial⟩

theorem throw (fault : Fault) : Decided slots false (throw fault : Assemble α) where
  resolving := .throw fault
  succeeds _ := ⟨False.elim, fun none => nomatch none⟩

/-- The step ends as `fine` says, and the type infos keep their nodes. -/
theorem ends (decided : Decided slots fine step) (here : a.slots = slots) :
    (∃ value t, step a = .ok value t ∧ fine = true ∧ t.slots = slots ∧ a.Resolved t) ∨
      ∃ fault t, step a = .error fault t ∧ fine = false ∧ t.slots = slots ∧ a.Resolved t := by
  have succeeds := decided.succeeds here
  have resolved := decided.resolving.resolved a
  cases run : step a with
  | ok value t =>
    rw [run] at succeeds resolved
    have resolved : a.Resolved t := resolved
    exact .inl ⟨value, t, rfl, succeeds.mp trivial, by rw [resolved.rest, here], resolved⟩
  | error fault t =>
    rw [run] at succeeds resolved
    have resolved : a.Resolved t := resolved
    exact .inr ⟨fault, t, rfl, Bool.eq_false_iff.mpr succeeds.mpr, by rw [resolved.rest, here],
      resolved⟩

/-- The second step is made where the first one succeeds. -/
theorem bind (first : Decided slots fine step) (rest : ∀ value, Decided slots more (next value)) :
    Decided slots (fine && more) (step >>= next) where
  resolving := .bind first.resolving fun value => (rest value).resolving
  succeeds {a} here := by
    rcases first.ends here with ⟨value, t, run, rfl, after, _⟩ | ⟨fault, t, run, rfl, _⟩
    · rw [ok_bind run, Bool.true_and]
      exact (rest value).succeeds after
    · rw [error_bind run]
      exact ⟨False.elim, fun none => nomatch none⟩

/-- What is computed beforehand decides how to go on. -/
theorem lift_bind {result : Except Fault α} {fine : α → Bool}
    (rest : ∀ value, Decided slots (fine value) (next value)) :
    Decided slots (result.toOption.any fine) (Assemble.lift result >>= next) := by
  cases result with
  | ok value => exact rest value
  | error fault =>
    constructor
    · exact .bind (.throw fault) fun value => (rest value).resolving
    · intro a _
      exact ⟨False.elim, fun none => nomatch none⟩

theorem mapM {step : γ → Assemble α} {fine : γ → Bool}
    (each : ∀ item, Decided slots (fine item) (step item)) (items : List γ) :
    Decided slots (items.all fine) (items.mapM step) := by
  induction items with
  | nil => exact .pure []
  | cons item rest ih =>
    rw [List.mapM_cons, List.all_cons, ← Bool.and_true (rest.all fine)]
    exact .bind (each item) fun value => .bind ih fun values => .pure _

/-! ### Along the definitions -/

theorem intern (structural : Structural) : Decided slots true (onGraph (·.intern structural)) where
  resolving := .intern structural
  succeeds _ := ⟨fun _ => rfl, fun _ => trivial⟩

theorem resolveHref (info : TypeInfo) (href : UInt32) :
    Decided slots (info.refers slots href) (resolveHref info href) := by
  refine ⟨.resolveHref info href, fun {a} here => ?_⟩
  unfold Assemble.resolveHref TypeInfo.refers
  cases info.references.get? href with
  | none => exact (throw _ : Decided slots false _).succeeds here
  | some target =>
    cases target with
    | within index =>
      subst here
      dsimp only
      rw [get_bind]
      cases a.slots.get? index.toNat with
      | some id => exact (pure id : Decided a.slots true _).succeeds rfl
      | none => exact (throw _ : Decided a.slots false _).succeeds rfl
    | external guid name kind =>
      cases kind with
      | moduleInfo | coclass => exact (throw _ : Decided slots false _).succeeds here
      | enumeration | record | union | vtable | dispatch | typedef =>
        exact ⟨fun _ => rfl, fun _ => trivial⟩

theorem resolve (info : TypeInfo) (desc : TypeDesc) :
    Decided slots (info.resolves slots desc) (resolve info desc) := by
  induction desc with
  | base primitive => exact .intern _
  | pointer target ih | safeArray target ih | fixedArray dims target ih =>
    unfold TypeInfo.resolves
    rw [← Bool.and_true (info.resolves slots target)]
    exact .bind ih fun id => .intern _
  | userDefined href => exact .resolveHref info href

theorem field (info : TypeInfo) (names : NameLookup) (index : Nat) :
    Decided slots ((varDesc info index).toOption.any fun var => info.resolves slots var.elem.type)
      (field info names index) := by
  refine .lift_bind fun var => ?_
  rw [← Bool.and_true (info.resolves slots _)]
  exact .bind (.resolve info _) fun type => .pure _

theorem method (info : TypeInfo) (names : NameLookup) (dispatch : Bool) (index : Nat) :
    Decided slots ((funcDesc info index).toOption.any fun func =>
        (func.result :: func.params).all fun elem => info.resolves slots elem.type)
      (method info names dispatch index) := by
  refine .lift_bind fun func => ?_
  have parameters : ∀ item : ElemDesc × Nat, Decided slots (info.resolves slots item.1.type)
      (parameter info names index func.memberId item.1 item.2) := by
    intro item
    rw [← Bool.and_true (info.resolves slots _)]
    exact .bind (.resolve info _) fun type => .pure _
  have all : func.params.all (fun elem => info.resolves slots elem.type) =
      func.params.zipIdx.all fun item => info.resolves slots item.1.type := by
    conv_lhs => rw [← List.zipIdx_map_fst 0 func.params, List.all_map]
    rfl
  rw [List.all_cons, Bool.and_comm, all, ← Bool.and_true (info.resolves slots _)]
  exact .bind (.mapM parameters _) fun values => .bind (.resolve info _) fun result => .pure _

theorem enumMember (info : TypeInfo) (names : NameLookup) (index : Nat) :
    Decided slots ((varDesc info index).toOption.any fun var => var.kind.isConstant)
      (lift (enumMember info names index)) := by
  refine ⟨.lift _, fun {a} _ => ?_⟩
  unfold Assemble.enumMember
  cases varDesc info index with
  | error fault => exact ⟨False.elim, fun none => nomatch none⟩
  | ok var =>
    show succeeded (lift (match var.kind with | .constant value => _ | _ => _) a) ↔
      var.kind.isConstant = true
    cases var.kind with
    | constant value => exact ⟨fun _ => rfl, fun _ => trivial⟩
    | perInstance | static | dispatch => exact ⟨False.elim, fun none => nomatch none⟩

end Decided

/-! ### Records that make no member -/

/-- The record with a given number makes no member: it is missing, it cannot be decoded, or what it says
does not fit. -/
inductive Flawed (records : List Bytes) (decode : Bytes → Except Fault α) (fits : α → Bool)
    (i : Nat) : Prop
  | missing : records[i]? = none → Flawed records decode fits i
  | undecodable {bytes : Bytes} {fault : Fault} :
      records[i]? = some bytes → decode bytes = .error fault → Flawed records decode fits i
  | unfit {bytes : Bytes} {value : α} :
      records[i]? = some bytes → decode bytes = .ok value → fits value = false →
      Flawed records decode fits i

/-- A record is flawed if it is missing, does not decode or does not fit. -/
theorem flawed_iff {records : List Bytes} {decode : Bytes → Except Fault α} {fits : α → Bool} {i : Nat}
    {fault : Fault} :
    (match records[i]? with
      | some bytes => decode bytes
      | none => .error fault : Except Fault α).toOption.any fits = false ↔
      Flawed records decode fits i := by
  constructor
  · intro fails
    cases found : records[i]? with
    | none => exact .missing found
    | some bytes =>
      cases decoded : decode bytes with
      | error fault => exact .undecodable found decoded
      | ok value => exact .unfit found decoded (by simpa [found, decoded, Except.toOption] using fails)
  · intro flawed
    cases flawed with
    | missing none => simp [none, Except.toOption]
    | undecodable found failed => simp [found, failed, Except.toOption]
    | unfit found decoded unfit => simpa [found, decoded, Except.toOption] using unfit

/-! ### Collecting members -/

/-- The members of a type that were kept, with their numbers, and the issues of the others account for
all numbers below `count`. -/
structure Accounted (count : Nat) (build : Nat → Assemble α) (flawed : Nat → Prop)
    (slots : Table Nat TypeId) (before : Assembler → Prop) (kept : List (Nat × α))
    (issues : List Issue) : Prop where
  /-- A member that was kept was built from the record with its number. -/
  built : ∀ member ∈ kept, ∃ s t, s.slots = slots ∧ build member.1 s = .ok member.2 t ∧ before t
  numbered : ∀ issue ∈ issues, ∃ i, issue.member = some i
  kept_ascending : (kept.map Prod.fst).Pairwise (· < ·)
  listed_ascending : (issues.filterMap Issue.member).Pairwise (· < ·)
  partition : (kept.map Prod.fst ++ issues.filterMap Issue.member).Perm (List.range count)
  named : ∀ i, (∃ issue ∈ issues, issue.member = some i) ↔ i < count ∧ flawed i

/-- A number is that of a member that was kept if its record makes one. -/
theorem Accounted.mem_kept_iff {count : Nat} {build : Nat → Assemble α} {flawed : Nat → Prop}
    {before : Assembler → Prop} {kept : List (Nat × α)} {issues : List Issue}
    (accounted : Accounted count build flawed slots before kept issues) (i : Nat) :
    i ∈ kept.map Prod.fst ↔ i < count ∧ ¬ flawed i := by
  have all : i ∈ kept.map Prod.fst ∨ i ∈ issues.filterMap Issue.member ↔ i < count := by
    rw [← List.mem_append, accounted.partition.mem_iff, List.mem_range]
  have named : i ∈ issues.filterMap Issue.member ↔ i < count ∧ flawed i := by
    rw [List.mem_filterMap]
    exact accounted.named i
  have apart : i ∈ kept.map Prod.fst → i ∉ issues.filterMap Issue.member := by
    have nodup := accounted.partition.nodup_iff.mpr List.nodup_range
    intro here there
    exact List.disjoint_of_nodup_append nodup here there
  tauto

theorem Accounted.mono {count : Nat} {build : Nat → Assemble α} {flawed : Nat → Prop}
    {before before' : Assembler → Prop} {kept : List (Nat × α)} {issues : List Issue}
    (accounted : Accounted count build flawed slots before kept issues)
    (more : ∀ t, before t → before' t) : Accounted count build flawed slots before' kept issues := by
  refine { accounted with built := fun member among => ?_ }
  obtain ⟨s, t, here, run, earlier⟩ := accounted.built member among
  exact ⟨s, t, here, run, more t earlier⟩

/-- Building members one after the other keeps those that pass the test and lists the others. -/
theorem foldlM_decided {build : Nat → Assemble α} {fine : Nat → Bool}
    (each : ∀ i, Decided slots (fine i) (build i)) (items : List Nat) (members : Array α)
    (issues : Array Issue) (here : a.slots = slots) :
    ∃ (kept : List (Nat × α)) (listed : List Issue) (b : Assembler),
      items.foldlM (collectNext build) (members, issues) a =
        .ok (members ++ (kept.map Prod.snd).toArray, issues ++ listed.toArray) b ∧
      a.Resolved b ∧ kept.map Prod.fst = items.filter fine ∧
      listed.map Issue.member = (items.filter fun i => !fine i).map some ∧
      ∀ member ∈ kept, ∃ s t, s.slots = slots ∧ build member.1 s = .ok member.2 t ∧ t.Resolved b := by
  -- Each member is built in the state that the one before it has left. That the type infos still have
  -- the same nodes there is all that the test depends on.
  induction items generalizing a members issues with
  | nil => exact ⟨[], [], a, by simp; rfl, .refl a, rfl, rfl, nofun⟩
  | cons i rest ih =>
    rw [List.foldlM_cons]
    rcases (each i).ends here with ⟨member, t, run, fine, after, resolved⟩ |
      ⟨fault, t, run, fails, after, resolved⟩
    · have next : collectNext build (members, issues) i a = .ok (members.push member, issues) t := by
        simp only [collectNext, attempt, run, bind, EStateM.bind]
        rfl
      obtain ⟨kept, listed, b, folded, later, numbers, others, built⟩ :=
        ih (members.push member) issues after
      refine ⟨(i, member) :: kept, listed, b, ?_, resolved.trans later, ?_, ?_, ?_⟩
      · rw [ok_bind next, folded]
        simp
      · rw [List.map_cons, numbers, List.filter_cons_of_pos fine]
      · rw [others, List.filter_cons_of_neg (by simp [fine])]
      · intro other among
        rcases List.mem_cons.mp among with rfl | among
        · exact ⟨a, t, here, run, later⟩
        · exact built other among
    · have next : collectNext build (members, issues) i a =
          .ok (members, issues.push ⟨some i, fault⟩) t := by
        simp only [collectNext, attempt, run, bind, EStateM.bind]
        rfl
      obtain ⟨kept, listed, b, folded, later, numbers, others, built⟩ :=
        ih members (issues.push ⟨some i, fault⟩) after
      refine ⟨kept, ⟨some i, fault⟩ :: listed, b, ?_, resolved.trans later, ?_, ?_, built⟩
      · rw [ok_bind next, folded]
        simp
      · rw [numbers, List.filter_cons_of_neg (by simp [fails])]
      · rw [List.map_cons, others, List.filter_cons_of_pos (by simp [fails]), List.map_cons]

/-- Each member is kept or listed as an issue, in order, and whether it is kept depends on its record alone.
-/
theorem collect_accounted (count : Nat) {build : Nat → Assemble α} {fine : Nat → Bool}
    {flawed : Nat → Prop} (each : ∀ i, Decided slots (fine i) (build i))
    (flaws : ∀ i, fine i = false ↔ flawed i) (here : a.slots = slots) :
    ∃ kept issues b, collect count build a = .ok (kept.map Prod.snd, issues) b ∧ a.Resolved b ∧
      Accounted count build flawed slots (·.Resolved b) kept issues := by
  obtain ⟨kept, issues, b, run, resolved, numbers, others, built⟩ :=
    foldlM_decided each (List.range count) #[] #[] here
  have names : issues.filterMap Issue.member = (List.range count).filter fun i => !fine i := by
    have plain := List.filterMap_map (l := issues) (f := Issue.member) (g := id)
    rw [others, List.filterMap_map] at plain
    simpa using plain.symm
  refine ⟨kept, issues, b, ?_, resolved, built, ?_, ?_, ?_, ?_, ?_⟩
  · rw [collect_eq_foldlM, ok_bind run]
    simp
    rfl
  · intro issue among
    have listed : issue.member ∈ issues.map Issue.member := List.mem_map_of_mem among
    rw [others] at listed
    obtain ⟨i, _, same⟩ := List.mem_map.mp listed
    exact ⟨i, same.symm⟩
  · rw [numbers]
    exact List.pairwise_lt_range.filter _
  · rw [names]
    exact List.pairwise_lt_range.filter _
  · rw [numbers, names]
    exact List.filter_append_perm fine _
  · intro i
    rw [← List.mem_map, others, ← flaws]
    simp

/-! ### Bodies -/

/-- The members and the issues of a type account for all the records that it announces. -/
def Accounts (info : TypeInfo) (names : NameLookup) (attr : TypeAttr) (slots : Table Nat TypeId)
    (before : Assembler → Prop) (body : Body) (issues : List Issue) : Definition → Prop
  | .enumeration => ∃ kept, body = .enumeration (kept.map Prod.snd) ∧
      Accounted attr.vars.toNat (fun i => lift (enumMember info names i))
        (Flawed info.vars VarDesc.decode fun var => var.kind.isConstant) slots before kept issues
  | .record layout => ∃ kept, body = .record layout (kept.map Prod.snd) ∧
      (kept.map Prod.snd).map Field.ordinal = kept.map Prod.fst ∧
      Accounted attr.vars.toNat (field info names)
        (Flawed info.vars VarDesc.decode fun var => info.resolves slots var.elem.type)
        slots before kept issues
  | .interface dispatch => ∃ kept base,
      body = .interface { methods := kept.map Prod.snd, base, dispatch } ∧
      Accounted attr.funcs.toNat (method info names dispatch)
        (Flawed info.funcs FuncDesc.decode fun func =>
          (func.result :: func.params).all fun elem => info.resolves slots elem.type)
        slots before kept issues
  | .typedef _ => (∃ target, body = .typedef target) ∧ issues = []

/-- A base or a target that the type info asks for is missing. -/
def Body.Lacks (info : TypeInfo) : Body → Prop
  | interface definition => info.implTypes ≠ [] ∧ definition.base = none
  | typedef target => target = none
  | enumeration _ | record .. | structural _ => False

/-- The issues of the type itself: one if its base or target is missing, and else none. -/
structure OwnIssues (info : TypeInfo) (body : Body) (own : List Issue) : Prop where
  unnumbered : ∀ issue ∈ own, issue.member = none
  single : own.length ≤ 1
  lacking : own ≠ [] ↔ body.Lacks info

theorem OwnIssues.none {info : TypeInfo} {body : Body} (whole : ¬ body.Lacks info) :
    OwnIssues info body [] where
  unnumbered _ member := nomatch member
  single := Nat.zero_le 1
  lacking := ⟨fun some => absurd rfl some, fun lacks => absurd lacks whole⟩

/-- The ordinal is the number of the variable record. -/
theorem field_ordinal {info : TypeInfo} {names : NameLookup} {i : Nat} {built : Field}
    (run : field info names i s = .ok built t) : built.ordinal = i := by
  obtain ⟨var, _, _, run⟩ := exists_of_bind_ok run
  obtain ⟨type, _, _, run⟩ := exists_of_bind_ok run
  cases run
  rfl

/-- A contained step gives a value or an issue. -/
theorem contained_ends {step : Assemble α} (resolving : Resolving step) (a : Assembler) :
    ∃ value own b, contained step a = .ok (value, own) b ∧ a.Resolved b ∧
      (∀ issue ∈ own, issue.member = none) ∧ own.length ≤ 1 ∧ (own ≠ [] ↔ value = none) := by
  have resolved := resolving.resolved a
  cases run : step a with
  | ok value b =>
    rw [run] at resolved
    refine ⟨some value, [], b, ?_, resolved, by simp, by simp, by simp⟩
    simp only [contained, attempt, run, bind, EStateM.bind]
    rfl
  | error fault b =>
    rw [run] at resolved
    refine ⟨none, [⟨none, fault⟩], b, ?_, resolved, by simp, by simp, by simp⟩
    simp only [contained, attempt, run, bind, EStateM.bind]
    rfl

theorem declaredBase_ends (info : TypeInfo) (a : Assembler) :
    ∃ base own b, declaredBase info a = .ok (base, own) b ∧ a.Resolved b ∧
      ∀ methods dispatch, OwnIssues info (.interface { methods, base, dispatch }) own := by
  unfold declaredBase
  cases first : info.implTypes.head? with
  | none =>
    have none : info.implTypes = [] := List.head?_eq_none_iff.mp first
    exact ⟨Option.none, [], a, rfl, .refl a, fun _ _ => .none fun lacks => lacks.1 none⟩
  | some implemented =>
    have some : info.implTypes ≠ [] := by
      intro none
      simp [none] at first
    obtain ⟨base, own, b, run, resolved, unnumbered, single, lacking⟩ :=
      contained_ends (.base info implemented.href) a
    refine ⟨base, own, b, run, resolved, fun _ _ => ⟨unnumbered, single, ?_⟩⟩
    exact lacking.trans ⟨fun none => ⟨some, none⟩, And.right⟩

/-- The members of every kind of body are accounted for. -/
theorem body_accounts (info : TypeInfo) (names : NameLookup) (attr : TypeAttr)
    (definition : Definition) (a : Assembler) :
    ∃ body own listed b, Assemble.body info names attr definition a = .ok (body, own ++ listed) b ∧
      a.Resolved b ∧ OwnIssues info body own ∧
      Accounts info names attr a.slots (·.Resolved b) body listed definition := by
  cases definition with
  | enumeration =>
    obtain ⟨kept, issues, b, run, resolved, accounted⟩ :=
      collect_accounted attr.vars.toNat (.enumMember info names) (fun i => flawed_iff) rfl
    exact ⟨.enumeration (kept.map Prod.snd), [], issues, b, ok_bind run _, resolved, .none nofun, kept,
      rfl, accounted⟩
  | record layout =>
    obtain ⟨kept, issues, b, run, resolved, accounted⟩ :=
      collect_accounted attr.vars.toNat (.field info names) (fun i => flawed_iff) rfl
    refine ⟨.record layout (kept.map Prod.snd), [], issues, b, ok_bind run _, resolved, .none nofun, kept,
      rfl, ?_, accounted⟩
    rw [List.map_map]
    refine List.map_congr_left fun member among => ?_
    obtain ⟨s, t, _, built, _⟩ := accounted.built member among
    exact field_ordinal built
  | interface dispatch =>
    obtain ⟨base, own, b, based, first, lacking⟩ := declaredBase_ends info a
    -- Resolving the base may have left nodes, but it has moved no type info.
    have same : b.slots = a.slots := by rw [first.rest]
    obtain ⟨kept, issues, c, run, second, accounted⟩ :=
      collect_accounted attr.funcs.toNat (.method info names dispatch) (fun i => flawed_iff) same
    refine ⟨_, own, issues, c, ?_, first.trans second, lacking (kept.map Prod.snd) dispatch, kept, base,
      rfl, accounted⟩
    rw [body_interface, ok_bind based]
    exact ok_bind run _
  | typedef target =>
    obtain ⟨value, own, b, run, resolved, unnumbered, single, lacking⟩ :=
      contained_ends (.resolve info target) a
    refine ⟨.typedef value, own, [], b, ?_, resolved, ⟨unnumbered, single, lacking⟩, ⟨value, rfl⟩, rfl⟩
    rw [List.append_nil]
    exact ok_bind run _

theorem Accounts.mono {info : TypeInfo} {names : NameLookup} {attr : TypeAttr}
    {before before' : Assembler → Prop} {body : Body} {issues : List Issue} {definition : Definition}
    (accounts : Accounts info names attr slots before body issues definition)
    (more : ∀ t, before t → before' t) :
    Accounts info names attr slots before' body issues definition := by
  cases definition with
  | enumeration =>
    obtain ⟨kept, same, accounted⟩ := accounts
    exact ⟨kept, same, accounted.mono more⟩
  | record layout =>
    obtain ⟨kept, same, ordinals, accounted⟩ := accounts
    exact ⟨kept, same, ordinals, accounted.mono more⟩
  | interface dispatch =>
    obtain ⟨kept, base, same, accounted⟩ := accounts
    exact ⟨kept, base, same, accounted.mono more⟩
  | typedef target => exact accounts

/-! ### Adding a type info -/

/-- What adding a type info outside strict mode leaves at its node. -/
structure AddedAt (info : TypeInfo) (names : NameLookup) (attr : TypeAttr) (definition : Definition)
    (id : TypeId) (b : Assembler) (node : Node) (own listed : List Issue) : Prop where
  found : b.graph.node? id = some node
  /-- The issues of the type itself stand before those of its members. -/
  issues : node.state.issues = own ++ listed
  built : node.state ≠ .pending
  complete : node.state = .complete ↔ own ++ listed = []
  own : OwnIssues info node.body own
  accounts : Accounts info names attr b.slots (·.Spares (· = id) b) node.body listed definition

/-- A type info with usable attributes gets a node in which all its members are accounted for. -/
theorem addTypeInfo_addedAt {r : Regime} (sound : s.Sound r) {info : TypeInfo} {attr : TypeAttr}
    {definition : Definition} (header : info.header = .ok (attr, definition)) (index : Nat)
    (names : NameLookup) :
    ∃ id b node own listed, BuiltAt attr.guid index s id b ∧
      AddedAt info names attr definition id b node own listed ∧
      (s.strict = false → addTypeInfo info index names s = .ok id b) ∧
      (addTypeInfo info index names s = .ok id b ∨
        ∃ fault, addTypeInfo info index names s = .error fault b) := by
  obtain ⟨id, t, placed, builtAt⟩ := slot_builtAt sound info index attr definition
  obtain ⟨body, own, listed, u, built, resolved, ownIssues, accounts⟩ :=
    body_accounts info names attr definition t
  have same : u.slots = t.slots := by rw [resolved.rest]
  have seats := (builtAt.seats.resolved resolved).modify (described info attr body)
  obtain ⟨declared, waits⟩ := builtAt.seats.node
  obtain ⟨node, still, _⟩ := resolved.alike waits
  let v : Assembler := { u with graph := u.graph.modify id (described info attr body) }
  have found : v.graph.node? id = some (described info attr body node) :=
    Graph.node?_modify_self _ still
  have run : filled info index attr definition names s = .ok (id, own ++ listed) v :=
    filled_eq placed built
  have mode : v.strict = s.strict := by
    have kept := (Indifferent.filled info index attr definition names).strict_eq s
    rwa [run] at kept
  have spares : u.Spares (· = id) (v.settled id (own ++ listed)) :=
    (Spares.of_modify rfl rfl : u.Spares (· = id) v).trans (.of_modify rfl rfl)
  have step : addTypeInfo info index names = settling (filled info index attr definition names) := by
    rw [← build_eq_settling]
    unfold addTypeInfo
    rw [header]
    rfl
  rw [step]
  refine ⟨id, v.settled id (own ++ listed), _, own, listed, ⟨seats.modify _, builtAt.waited, ?_⟩,
    ⟨node?_settled found, ?_, ?_, ?_, ownIssues, ?_⟩, ?_, settling_cases run⟩
  · intro none nonzero
    exact resolved.guid (builtAt.own none nonzero)
  · exact issues_ofIssues _
  · cases own ++ listed <;> simp [BuildState.ofIssues]
  · cases own ++ listed <;> simp [BuildState.ofIssues]
  · rw [← same] at accounts
    exact accounts.mono fun v before => (Spares.of_resolved before).trans spares
  · intro lenient
    exact (settling_modes (.filled info index attr definition names) lenient run mode found).1

/-- No member is lost without an issue. A type info with usable attributes is always built outside strict
mode. The numbers of the members that are kept and those of the issues, both in ascending order, make up
all the numbers that its attributes announce, and an issue names just those whose record is missing,
cannot be decoded or does not fit. An issue without a number stands first and there is one at most; it
means that the base or the target is missing. The node is complete if there are no issues. -/
theorem members_accounted (run : Reachable (fun _ _ => True) a) {info : TypeInfo} {attr : TypeAttr}
    {definition : Definition} (header : info.header = .ok (attr, definition)) (index : Nat)
    (names : NameLookup) :
    ∃ id b node own listed, addTypeInfo info index names (a.inMode false) = .ok id b ∧
      AddedAt info names attr definition id b node own listed := by
  obtain ⟨id, b, node, own, listed, _, addedAt, added, _⟩ :=
    addTypeInfo_addedAt (run.sound.inMode false) header index names
  exact ⟨id, b, node, own, listed, added rfl, addedAt⟩

theorem TypeInfo.exists_header (info : TypeInfo) (definition : Definition)
    (defines : info.header.map Prod.snd = .ok definition) :
    ∃ attr, info.header = .ok (attr, definition) := by
  cases header : info.header with
  | ok found =>
    rw [header] at defines
    cases defines
    exact ⟨found.1, rfl⟩
  | error fault =>
    rw [header] at defines
    cases defines

/-- A type info of a given shape with variable records, of which its attributes announce `count`. -/
def variablesInfo (shape : Shape) (count : UInt16) (vars : List Bytes) : TypeInfo where
  documentation := { name := "Values" }
  attr := TypeAttr.encode
    { guid := .ofBytes [1], lcid := 0, shape, flags := 0, funcs := 0, vars := count, implTypes := 0
      sizeVft := 0, sizeInstance := 0, alignment := 0, majorVersion := 0, minorVersion := 0 }
  funcs := []
  vars
  implTypes := []
  references := .empty
  names := .empty
  memberDocs := .empty
  customData := []

/-- The record of a variable. -/
def variableRecord (memberId : Int32) (kind : VarKind) (type : TypeDesc) : Bytes :=
  VarDesc.encode 0 { memberId, kind, flags := 0, elem := { type, flags := 0 } }

/-- A record with one field. Of the others, the first cannot be decoded, the type of the third does not
resolve, and there is no fourth. -/
def gappyRecord : TypeInfo :=
  variablesInfo .record 4
    [[], variableRecord 1 (.perInstance 0) (.base .i4),
      variableRecord 2 (.perInstance 4) (.userDefined 5)]

theorem gappyRecord_accounted :
    ∃ id b node own listed attr, addTypeInfo gappyRecord 0 .none {} = .ok id b ∧
      AddedAt gappyRecord .none attr (.record .struct) id b node own listed ∧
      node.state.issues.map Issue.member = [some 0, some 2, some 3] := by
  obtain ⟨attr, header⟩ := gappyRecord.exists_header (.record .struct) (by decide +kernel)
  obtain ⟨id, b, node, own, listed, added, addedAt⟩ :=
    members_accounted (.start false) header 0 .none
  refine ⟨id, b, node, own, listed, attr, added, addedAt, ?_⟩
  have issues : ((left (addTypeInfo gappyRecord 0 .none {})).graph.node? 0).map
      (fun node => node.state.issues.map Issue.member) = some [some 0, some 2, some 3] := by
    decide +kernel
  have first : addTypeInfo gappyRecord 0 .none {} = .ok 0 _ := eq_ok_of_value? (by decide +kernel)
  cases added.symm.trans first
  rw [addedAt.found] at issues
  exact Option.some.inj issues

/-- An enumeration of one constant whose type does not resolve. -/
def looseEnumeration : TypeInfo :=
  variablesInfo .enumeration 1 [variableRecord 0 (.constant 7) (.userDefined 5)]

/-- The type of a constant is not looked at: the enumeration is complete, although its only record
contains a type descriptor that does not resolve. -/
theorem looseEnumeration_complete :
    looseEnumeration.header.map (·.2) = .ok .enumeration ∧
      (looseEnumeration.vars.map VarDesc.decode).map (Except.map (·.elem.type)) =
        [.ok (.userDefined 5)] ∧
      (∀ slots, looseEnumeration.resolves slots (.userDefined 5) = false) ∧
      ∃ b, addTypeInfo looseEnumeration 0 .none {} = .ok 0 b ∧
        (b.graph.node? 0).map (·.state) = some .complete := by
  refine ⟨?_, ?_, ?_, _, eq_ok_of_value? ?_, ?_⟩
  · decide +kernel
  · decide +kernel
  · intro slots
    rfl
  · decide +kernel
  · decide +kernel

end ComTypes

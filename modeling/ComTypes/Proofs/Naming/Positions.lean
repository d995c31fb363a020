import ComTypes.Proofs.Assembly.InUse
import ComTypes.Proofs.Assembly.Members
import ComTypes.Proofs.Naming.Transport
import Mathlib.Data.List.Sort

/-!
# Overlays and fields that were left out

The names of fields are taken and written by position among the fields that were kept. A field that could
not be built takes no position, so the position of a field and its ordinal differ as soon as a field
before it is missing. An overlay from a record with missing fields therefore gives each field of another
build of the record the name of the field at the same position, and that is the field of the same ordinal
only where the ordinals are `Aligned` (`overlays_rename_by_position`).
-/

namespace ComTypes

open Assembler Assemble Overlay

variable {a b : Assembler} {id : TypeId} {index : Nat}

/-! ### Names by position and by ordinal -/

/-- The fields of the second list, with the names of the fields at the same positions of the first. -/
def renamedByPosition (first second : List Field) : List Field :=
  second.zipIdx.map fun (field, position) =>
    { field with name := first[position]?.elim field.name Field.name }

/-- The fields of the second list, with the names of the fields of the same ordinals in the first. -/
def renamedByOrdinal (first second : List Field) : List Field :=
  second.map fun field =>
    { field with name := (first.find? (·.ordinal = field.ordinal)).elim field.name Field.name }

theorem getElem?_renamedByPosition (first second : List Field) (position : Nat) :
    (renamedByPosition first second)[position]? = second[position]?.map fun field =>
      { field with name := first[position]?.elim field.name Field.name } := by
  simp [renamedByPosition, Function.comp_def]

/-- At every position that both lists have, the fields have the same ordinal. -/
def Aligned (first second : List Field) : Prop :=
  first.map Field.ordinal <+: second.map Field.ordinal ∨
    second.map Field.ordinal <+: first.map Field.ordinal

/-- Two lists that agree at the positions they share start alike. -/
theorem starts_alike {α : Type} {first second : List α}
    (agree : ∀ (i : Nat) x y, first[i]? = some x → second[i]? = some y → x = y) :
    first <+: second ∨ second <+: first := by
  induction first generalizing second with
  | nil => exact .inl List.nil_prefix
  | cons x xs ih =>
    cases second with
    | nil => exact .inr List.nil_prefix
    | cons y ys =>
      obtain rfl : x = y := agree 0 x y rfl rfl
      have rest : xs <+: ys ∨ ys <+: xs := ih fun i => agree (i + 1)
      simpa [List.cons_prefix_cons] using rest

/-- Of two ascending lists where the second has all that the first has, they start alike if what only the
second has is larger. -/
theorem starts_alike_iff {first second : List Nat} (ascending : first.Pairwise (· < ·))
    (ascending' : second.Pairwise (· < ·)) (subset : first ⊆ second) :
    first <+: second ∨ second <+: first ↔ ∀ j ∈ second, j ∈ first ∨ ∀ i ∈ first, i < j := by
  constructor
  · rintro (⟨rest, rfl⟩ | starts)
    · intro j member
      rcases List.mem_append.mp member with old | new
      · exact .inl old
      · exact .inr fun i before => (List.pairwise_append.mp ascending').2.2 i before j new
    · intro j member
      exact .inl (starts.subset member)
  · intro larger
    let rest := second.filter fun j => j ∉ first
    have sorted : (first ++ rest).Pairwise (· < ·) := by
      refine List.pairwise_append.mpr ⟨ascending, ascending'.filter _, fun i before j new => ?_⟩
      obtain ⟨member, absent⟩ := List.mem_filter.mp new
      exact (larger j member).resolve_left (of_decide_eq_true absent) i before
    have whole : first ++ rest = second := by
      refine sorted.eq_of_mem_iff ascending' fun j => ?_
      have inside : j ∈ first → j ∈ second := fun member => subset member
      simp only [rest, List.mem_append, List.mem_filter, decide_eq_true_eq]
      tauto
    exact .inl ⟨rest, whole⟩

namespace Aligned

variable {first second : List Field} {own field : Field}

theorem ordinal_eq (aligned : Aligned first second) {i : Nat} (here : first[i]? = some own)
    (there : second[i]? = some field) : own.ordinal = field.ordinal := by
  have here' : (first.map Field.ordinal)[i]? = some own.ordinal := by simp [here]
  have there' : (second.map Field.ordinal)[i]? = some field.ordinal := by simp [there]
  have inside := (List.getElem?_eq_some_iff.mp here').1
  have inside' := (List.getElem?_eq_some_iff.mp there').1
  rcases aligned with ⟨rest, starts⟩ | ⟨rest, starts⟩
  · rw [← starts, List.getElem?_append_left inside, here'] at there'
    exact Option.some.inj there'
  · rw [← starts, List.getElem?_append_left inside', there'] at here'
    exact (Option.some.inj here').symm

/-- The field of the same ordinal is the one at the same position. -/
theorem find?_eq (aligned : Aligned first second) (nodup : (first.map Field.ordinal).Nodup)
    (nodup' : (second.map Field.ordinal).Nodup) {i : Nat} (there : second[i]? = some field) :
    first.find? (·.ordinal = field.ordinal) = first[i]? := by
  cases here : first[i]? with
  | some own =>
    have same := aligned.ordinal_eq here there
    have member := List.mem_of_getElem? here
    cases found : first.find? (·.ordinal = field.ordinal) with
    | none =>
      have absent := List.find?_eq_none.mp found own member
      simp [same] at absent
    | some other =>
      have named : other.ordinal = field.ordinal := by simpa using List.find?_some found
      rw [List.inj_on_of_nodup_map nodup (List.mem_of_find?_eq_some found) member
        (named.trans same.symm)]
  | none =>
    rw [List.find?_eq_none]
    intro other member same
    obtain ⟨j, inside, rfl⟩ := List.getElem_of_mem member
    have before : j < i := Nat.lt_of_lt_of_le inside (List.getElem?_eq_none_iff.mp here)
    have inside' := (List.getElem?_eq_some_iff.mp there).1
    -- The list has a field with this ordinal at an earlier position too.
    obtain ⟨earlier, found⟩ : ∃ earlier, second[j]? = some earlier :=
      ⟨_, List.getElem?_eq_getElem (Nat.lt_trans before inside')⟩
    have twice : earlier.ordinal = field.ordinal :=
      (aligned.ordinal_eq (List.getElem?_eq_getElem inside) found).symm.trans (by simpa using same)
    refine List.nodup_iff_getElem?_ne_getElem?.mp nodup' j i before (by simpa using inside') ?_
    simp [found, there, twice]

end Aligned

/-- Where ordinals are aligned, renaming by position and by ordinal agree. -/
theorem renamedByPosition_of_aligned {first second : List Field} (aligned : Aligned first second)
    (nodup : (first.map Field.ordinal).Nodup) (nodup' : (second.map Field.ordinal).Nodup) :
    renamedByPosition first second = renamedByOrdinal first second := by
  refine List.ext_getElem? fun i => ?_
  rw [getElem?_renamedByPosition, renamedByOrdinal, List.getElem?_map]
  cases there : second[i]? with
  | none => rfl
  | some field => simp only [Option.map_some, aligned.find?_eq nodup nodup' there]

/-! ### What an overlay does to the fields of a record -/

theorem Graph.node?_bare (g : Graph) (id : TypeId) : g.bare.node? id = (g.node? id).map Node.bare := by
  simp [Graph.bare, Graph.node?]

theorem Graph.hasPlace_of_found {g : Graph} {node : Node} (found : g.node? id = some node)
    (declares : node.isDeclaration = true) (spot : Spot) :
    g.hasPlace (id, spot) = (node.nameAt? spot).isSome := by
  simp [Graph.hasPlace, found, declares]

/-- Of a declaration that both graphs have, the names at the places that both have become those of the
first. -/
theorem exists_node_apply_capture {g₁ g₂ : Graph} {node₁ node₂ : Node}
    (found₁ : g₁.node? id = some node₁) (declares₁ : node₁.isDeclaration = true)
    (found₂ : g₂.node? id = some node₂) (declares₂ : node₂.isDeclaration = true) :
    ∃ node, ((capture g₁).apply g₂).1.node? id = some node ∧ node.bare = node₂.bare ∧
      ∀ spot, node.nameAt? spot =
        (node₂.nameAt? spot).map fun own => (node₁.nameAt? spot).getD own := by
  have bares : (((capture g₁).apply g₂).1.node? id).map Node.bare = some node₂.bare := by
    rw [← Graph.node?_bare, apply_eq_writes, bare_writes, Graph.node?_bare, found₂]
    rfl
  obtain ⟨node, found, bare⟩ := Option.map_eq_some_iff.mp bares
  refine ⟨node, found, bare, fun spot => ?_⟩
  have name : ((capture g₁).apply g₂).1.nameAt? (id, spot) = node.nameAt? spot := by
    simp [Graph.nameAt?, found]
  rw [← name, apply_eq_writes, nameAt?_writes, lastName?_capture,
    Graph.hasPlace_of_found found₁ declares₁, Graph.hasPlace_of_found found₂ declares₂]
  simp only [Graph.nameAt?, found₁, found₂, Option.bind_some]
  cases node₁.nameAt? spot <;> cases node₂.nameAt? spot <;> simp

/-- Only names are changed. -/
theorem map_renamedByPosition {β : Type} {view : Field → β}
    (unseen : ∀ field name, view { field with name } = view field) (first second : List Field) :
    (renamedByPosition first second).map view = second.map view := by
  refine List.ext_getElem? fun i => ?_
  rw [List.getElem?_map, getElem?_renamedByPosition, List.getElem?_map, Option.map_map]
  congr 1
  funext field
  exact unseen field _

/-- The fields of a record get the names of those at the same positions of the record that the overlay was
taken from. -/
theorem body?_apply_capture {g₁ g₂ : Graph} {node₁ node₂ : Node} {layout₁ layout₂ : RecordLayout}
    {fields₁ fields₂ : List Field} (found₁ : g₁.node? id = some node₁) (used₁ : node₁.retired = false)
    (body₁ : node₁.body = .record layout₁ fields₁) (found₂ : g₂.node? id = some node₂)
    (used₂ : node₂.retired = false) (body₂ : node₂.body = .record layout₂ fields₂) :
    ((capture g₁).apply g₂).1.body? id =
      some (.record layout₂ (renamedByPosition fields₁ fields₂)) := by
  obtain ⟨node, found, bare, names⟩ := exists_node_apply_capture found₁
    (by simp [Node.isDeclaration, used₁, body₁, Body.isDeclaration]) found₂
    (by simp [Node.isDeclaration, used₂, body₂, Body.isDeclaration])
  rw [Graph.body?, found, Option.map_some]
  refine congrArg some (Body.eq_of_names ?_ fun spot => ?_)
  · have same : node.body.bare = node₂.body.bare := congrArg Node.body bare
    rw [same, body₂]
    simp only [Body.bare]
    rw [map_renamedByPosition (fun _ _ => rfl)]
  · cases spot with
    | self => rfl
    | member i =>
      have own : node.body.nameAt? (.member i) = node.nameAt? (.member i) := rfl
      rw [own, names]
      simp only [Node.nameAt?, body₁, body₂, Body.nameAt?, Body.labels, List.getElem?_map,
        getElem?_renamedByPosition]
      cases fields₁[i]? <;> cases fields₂[i]? <;> rfl
    | parameter method i =>
      have own : node.body.nameAt? (.parameter method i) = node.nameAt? (.parameter method i) := rfl
      rw [own, names]
      simp [Node.nameAt?, body₂, Body.nameAt?, Body.parameterLabels]

/-! ### Two builds of a record -/

/-- The fields that building a record has left. -/
structure RecordBuilt (info : TypeInfo) (attr : TypeAttr) (layout : RecordLayout) (id : TypeId)
    (b : Assembler) (fields : List Field) : Prop where
  body : b.graph.body? id = some (.record layout fields)
  ascending : (fields.map Field.ordinal).Pairwise (· < ·)
  /-- The fields whose records can be built are there. -/
  survivors : ∀ i, i ∈ fields.map Field.ordinal ↔ i < attr.vars.toNat ∧
    ¬ Flawed info.vars VarDesc.decode (fun var => info.resolves b.slots var.elem.type) i

/-- A record that was added holds the fields of its variable records. -/
theorem exists_recordBuilt (run : Reachable (fun _ _ => True) a) {info : TypeInfo} {attr : TypeAttr}
    {layout : RecordLayout} {names : NameLookup} (header : info.header = .ok (attr, .record layout))
    (added : addTypeInfo info index names a = .ok id b) :
    ∃ node fields, b.graph.node? id = some node ∧ node.retired = false ∧
      node.body = .record layout fields ∧ RecordBuilt info attr layout id b fields := by
  obtain ⟨_, _, node, own, listed, builtAt, addedAt, _, again⟩ :=
    addTypeInfo_addedAt run.sound header index names
  rw [added] at again
  obtain ⟨rfl, rfl⟩ : id = _ ∧ b = _ := by simpa using again
  obtain ⟨kept, body, ordinals, accounted⟩ := addedAt.accounts
  have inUse : b.InUse := by
    have later : Reachable (fun _ _ => True) (Call.run a (.addTypeInfo info index names)) :=
      .step _ run trivial
    have inUse := later.inUse
    simpa [Call.run, added, left] using inUse
  have slotted : b.slots.get? index = some id := by rw [builtAt.seats.slots, if_pos rfl]
  refine ⟨node, kept.map Prod.snd, addedAt.found, inUse.not_retired slotted addedAt.found, body,
    ?_, ?_, ?_⟩
  · rw [Graph.body?, addedAt.found, Option.map_some, body]
  · rw [ordinals]
    exact accounted.kept_ascending
  · intro i
    rw [ordinals]
    exact accounted.mem_kept_iff i

/-- An overlay that was taken from one build of a record renames the fields of another by position. Where
the ordinals are aligned, every field whose ordinal was kept in the first build gets the name of the field
with that ordinal, and any other field keeps its own. Otherwise some field gets the name of a field with
another ordinal. If the second build has all fields of the first, the ordinals are aligned just if each
field that it has in addition stands behind all of those. -/
theorem overlays_rename_by_position {a₁ a₂ b₁ b₂ : Assembler} {info₁ info₂ : TypeInfo}
    {attr₁ attr₂ : TypeAttr} {layout₁ layout₂ : RecordLayout} {index₁ index₂ : Nat}
    {names₁ names₂ : NameLookup} (run₁ : Reachable (fun _ _ => True) a₁)
    (run₂ : Reachable (fun _ _ => True) a₂)
    (header₁ : info₁.header = .ok (attr₁, .record layout₁))
    (header₂ : info₂.header = .ok (attr₂, .record layout₂))
    (added₁ : addTypeInfo info₁ index₁ names₁ a₁ = .ok id b₁)
    (added₂ : addTypeInfo info₂ index₂ names₂ a₂ = .ok id b₂) :
    ∃ fields₁ fields₂, RecordBuilt info₁ attr₁ layout₁ id b₁ fields₁ ∧
      RecordBuilt info₂ attr₂ layout₂ id b₂ fields₂ ∧
      ((capture b₁.graph).apply b₂.graph).1.body? id =
        some (.record layout₂ (renamedByPosition fields₁ fields₂)) ∧
      (Aligned fields₁ fields₂ →
        renamedByPosition fields₁ fields₂ = renamedByOrdinal fields₁ fields₂) ∧
      (¬ Aligned fields₁ fields₂ → ∃ (i : Nat) (own field : Field), fields₁[i]? = some own ∧
        fields₂[i]? = some field ∧ own.ordinal ≠ field.ordinal ∧
        (renamedByPosition fields₁ fields₂)[i]? = some { field with name := own.name }) ∧
      (fields₁.map Field.ordinal ⊆ fields₂.map Field.ordinal → (Aligned fields₁ fields₂ ↔
        ∀ j ∈ fields₂.map Field.ordinal, j ∈ fields₁.map Field.ordinal ∨
          ∀ i ∈ fields₁.map Field.ordinal, i < j)) := by
  obtain ⟨node₁, fields₁, found₁, used₁, body₁, built₁⟩ := exists_recordBuilt run₁ header₁ added₁
  obtain ⟨node₂, fields₂, found₂, used₂, body₂, built₂⟩ := exists_recordBuilt run₂ header₂ added₂
  refine ⟨fields₁, fields₂, built₁, built₂, ?_, ?_, ?_, ?_⟩
  · exact body?_apply_capture found₁ used₁ body₁ found₂ used₂ body₂
  · intro aligned
    exact renamedByPosition_of_aligned aligned (built₁.ascending.imp Nat.ne_of_lt)
      (built₂.ascending.imp Nat.ne_of_lt)
  · intro apart
    by_contra none
    refine apart (starts_alike fun i x y here there => ?_)
    rw [List.getElem?_map] at here there
    obtain ⟨own, found, rfl⟩ := Option.map_eq_some_iff.mp here
    obtain ⟨field, found', rfl⟩ := Option.map_eq_some_iff.mp there
    by_contra differ
    refine none ⟨i, own, field, found, found', differ, ?_⟩
    rw [getElem?_renamedByPosition, found, found']
    rfl
  · intro subset
    exact starts_alike_iff built₁.ascending built₂.ascending subset

/-- A record with the fields `x`, `y` and `z`, as far as their variable records are given. -/
def pointRecord (vars : List Bytes) : TypeInfo :=
  { variablesInfo .record 3 vars with
    memberDocs := .ofList [(0, { name := "x" }), (1, { name := "y" }), (2, { name := "z" })] }

/-- The record of a coordinate. -/
def coordinate (memberId : Int32) : Bytes := variableRecord memberId (.perInstance 0) (.base .i4)

/-- The ordinals of the fields with their names. -/
def Body.fieldNames : Body → List (Nat × String)
  | record _ fields => fields.map fun field => (field.ordinal, field.name)
  | _ => []

/-- The ordinals of the fields of a record. -/
def Graph.ordinals (g : Graph) (id : TypeId) : List Nat :=
  ((g.body? id).elim [] Body.fieldNames).map Prod.fst

theorem Graph.ordinals_eq {g : Graph} {layout : RecordLayout} {fields : List Field}
    (body : g.body? id = some (.record layout fields)) : g.ordinals id = fields.map Field.ordinal := by
  simp [Graph.ordinals, body, Body.fieldNames]

/-- An overlay from a point that has no `z` yet fits the whole point. -/
theorem shortPoint_aligned :
    ∃ b₁ b₂ fields₁ fields₂,
      addTypeInfo (pointRecord [coordinate 0, coordinate 1, []]) 0 .none {} = .ok 0 b₁ ∧
      addTypeInfo (pointRecord [coordinate 0, coordinate 1, coordinate 2]) 0 .none {} = .ok 0 b₂ ∧
      b₁.graph.body? 0 = some (.record .struct fields₁) ∧
      b₂.graph.body? 0 = some (.record .struct fields₂) ∧
      ((capture b₁.graph).apply b₂.graph).1.body? 0 =
        some (.record .struct (renamedByOrdinal fields₁ fields₂)) := by
  obtain ⟨attr₁, header₁⟩ := TypeInfo.exists_header
    (pointRecord [coordinate 0, coordinate 1, []]) (.record .struct) (by decide +kernel)
  obtain ⟨attr₂, header₂⟩ := TypeInfo.exists_header
    (pointRecord [coordinate 0, coordinate 1, coordinate 2]) (.record .struct) (by decide +kernel)
  have added₁ : addTypeInfo (pointRecord [coordinate 0, coordinate 1, []]) 0 .none {} = .ok 0 _ :=
    eq_ok_of_value? (by decide +kernel)
  have added₂ : addTypeInfo (pointRecord [coordinate 0, coordinate 1, coordinate 2]) 0 .none {} =
    .ok 0 _ := eq_ok_of_value? (by decide +kernel)
  obtain ⟨fields₁, fields₂, built₁, built₂, renamed, alike, _⟩ :=
    overlays_rename_by_position (.start false) (.start false) header₁ header₂ added₁ added₂
  refine ⟨_, _, fields₁, fields₂, added₁, added₂, built₁.body, built₂.body, renamed.trans ?_⟩
  have short : (left (addTypeInfo (pointRecord [coordinate 0, coordinate 1, []]) 0 .none
      {})).graph.ordinals 0 = [0, 1] := by decide +kernel
  have whole : (left (addTypeInfo (pointRecord [coordinate 0, coordinate 1, coordinate 2]) 0 .none
      {})).graph.ordinals 0 = [0, 1, 2] := by decide +kernel
  rw [Graph.ordinals_eq built₁.body] at short
  rw [Graph.ordinals_eq built₂.body] at whole
  rw [alike (.inl (by rw [short, whole]; exact ⟨[2], rfl⟩))]

/-- An overlay from a point whose `x` could not be built moves the names of the other fields. -/
theorem shiftedPoint_misnamed :
    ∃ b₁ b₂, addTypeInfo (pointRecord [[], coordinate 1, coordinate 2]) 0 .none {} = .ok 0 b₁ ∧
      addTypeInfo (pointRecord [coordinate 0, coordinate 1, coordinate 2]) 0 .none {} = .ok 0 b₂ ∧
      (b₁.graph.body? 0).map Body.fieldNames = some [(1, "y"), (2, "z")] ∧
      (b₂.graph.body? 0).map Body.fieldNames = some [(0, "x"), (1, "y"), (2, "z")] ∧
      (((capture b₁.graph).apply b₂.graph).1.body? 0).map Body.fieldNames =
        some [(0, "y"), (1, "z"), (2, "z")] := by
  refine ⟨_, _, eq_ok_of_value? ?_, eq_ok_of_value? ?_, ?_, ?_, ?_⟩
  all_goals decide +kernel

end ComTypes

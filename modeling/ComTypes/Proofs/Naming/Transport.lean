import ComTypes.Naming.Overlay
import ComTypes.Proofs.Naming.Places
import Mathlib.Data.List.Sigma
import Mathlib.Data.Set.Card

/-!
# Overlays carry names and nothing else

An overlay is a list of names to be written to places, one after the other (`apply_eq_writes`). So the
graph that it leaves differs in names only, and the last name that is written to a place that the graph
has stands there (`nameAt?_writes`). What is taken from a graph is one name for each of its places
(`mem_capture_writes`, `nodup_capture_writes`).

So an overlay that was taken from one graph carries its names to the places that another graph has too,
an overlay of a graph changes nothing in that graph, and an overlay that has been applied can be applied
again without effect (`overlays_transport_names`).
-/

namespace ComTypes

/-! ### Writing one name after the other -/

namespace Overlay

section RenameAll

variable {α β ε δ : Type} (rename : α → ε → α × Nat)

@[simp] theorem renameAll_nil (target : α) : renameAll rename target [] = (target, 0) := rfl

theorem foldl_count (entries : List ε) (target : α) (count : Nat) :
    entries.foldl (fun (state : α × Nat) entry =>
        ((rename state.1 entry).1, state.2 + (rename state.1 entry).2)) (target, count) =
      ((renameAll rename target entries).1, count + (renameAll rename target entries).2) := by
  induction entries generalizing target count with
  | nil => rfl
  | cons entry rest ih =>
    have whole : renameAll rename target (entry :: rest) = _ :=
      ih (rename target entry).1 (0 + (rename target entry).2)
    rw [List.foldl_cons, ih, whole, Nat.zero_add, Nat.add_assoc]

theorem renameAll_cons (target : α) (entry : ε) (rest : List ε) :
    renameAll rename target (entry :: rest) =
      ((renameAll rename (rename target entry).1 rest).1,
        (rename target entry).2 + (renameAll rename (rename target entry).1 rest).2) := by
  simpa [renameAll] using foldl_count rename rest (rename target entry).1 (rename target entry).2

/-- Entries are applied one after the other, and their counts are added. -/
theorem renameAll_append (target : α) (first second : List ε) :
    renameAll rename target (first ++ second) =
      ((renameAll rename (renameAll rename target first).1 second).1,
        (renameAll rename target first).2 +
          (renameAll rename (renameAll rename target first).1 second).2) := by
  induction first generalizing target with
  | nil => simp
  | cons entry rest ih => simp [renameAll_cons, ih, Nat.add_assoc]

/-- Entries that each write nothing write nothing together. -/
theorem renameAll_of_idle {target : α} {entries : List ε}
    (idle : ∀ entry ∈ entries, rename target entry = (target, 0)) :
    renameAll rename target entries = (target, 0) := by
  induction entries with
  | nil => rfl
  | cons entry rest ih =>
    simp only [renameAll_cons, idle entry List.mem_cons_self,
      ih fun e member => idle e (List.mem_cons_of_mem _ member)]

/-- Where each entry does to a part what a list of entries does to the whole, entries do so together. -/
theorem renameAll_flatMap {embed : α → β} {whole : β → δ → β × Nat} {spread : ε → List δ}
    (step : ∀ part entry, renameAll whole (embed part) (spread entry) =
      (embed (rename part entry).1, (rename part entry).2))
    (part : α) (entries : List ε) :
    renameAll whole (embed part) (entries.flatMap spread) =
      (embed (renameAll rename part entries).1, (renameAll rename part entries).2) := by
  induction entries generalizing part with
  | nil => rfl
  | cons entry rest ih => simp [renameAll_append, renameAll_cons, step, ih]

theorem renameAll_map {embed : α → β} {whole : β → δ → β × Nat} {spread : ε → δ}
    (step : ∀ part entry, whole (embed part) (spread entry) =
      (embed (rename part entry).1, (rename part entry).2))
    (part : α) (entries : List ε) :
    renameAll whole (embed part) (entries.map spread) =
      (embed (renameAll rename part entries).1, (renameAll rename part entries).2) := by
  rw [List.map_eq_flatMap]
  exact renameAll_flatMap rename (fun part entry => by simp [renameAll_cons, step]) part entries

end RenameAll

end Overlay

/-- The names that an entry for a member has, each with its spot. -/
def MemberName.writes (entry : MemberName) : List (Spot × String) :=
  (.member entry.index, entry.name) ::
    entry.parameters.map fun p => (.parameter entry.index p.index, p.name)

/-- The names that an entry for a type has, each with its spot. -/
def TypeName.writes (entry : TypeName) : List (Spot × String) :=
  (.self, entry.name) :: entry.members.flatMap MemberName.writes

/-- The names of an overlay, each with its place, in the order in which they are written. -/
def Overlay.writes (overlay : Overlay) : List (Place × String) :=
  overlay.types.flatMap fun entry => entry.writes.map fun w => ((entry.index, w.1), w.2)

/-- Write a name to a spot, if the body has the spot. -/
def Body.write (body : Body) (entry : Spot × String) : Body × Nat :=
  (body.rename entry.1 entry.2, if (body.nameAt? entry.1).isSome then 1 else 0)

/-- Write a name to a spot, if the node has the spot. -/
def Node.write (node : Node) (entry : Spot × String) : Node × Nat :=
  (node.rename entry.1 entry.2, if (node.nameAt? entry.1).isSome then 1 else 0)

/-- There is nothing to write to where the body has no name. -/
theorem Body.write_of_absent {body : Body} {entry : Spot × String}
    (absent : body.nameAt? entry.1 = none) : body.write entry = (body, 0) := by
  have same : body.rename entry.1 entry.2 = body := by
    refine eq_of_names (bare_rename body _ _) fun spot => ?_
    by_cases here : spot = entry.1 <;> simp [nameAt?_rename, here, absent]
  simp [write, same, absent]

theorem Node.write_of_absent {node : Node} {entry : Spot × String}
    (absent : node.nameAt? entry.1 = none) : node.write entry = (node, 0) := by
  have same : node.rename entry.1 entry.2 = node := by
    refine eq_of_names (bare_rename node _ _) fun spot => ?_
    by_cases here : spot = entry.1 <;> simp [nameAt?_rename, here, absent]
  simp [write, same, absent]

namespace Overlay

/-- An interface with other parameters and another name for one of its methods. -/
def withParameters (definition : Interface) (index : Nat) (method : Method)
    (parameters : List Parameter) : Body :=
  .interface { definition with methods := definition.methods.set index { method with parameters } }

theorem write_parameter {definition : Interface} {index : Nat} (method : Method)
    (inside : index < definition.methods.length) (parameters : List Parameter)
    (entry : ParameterName) :
    (withParameters definition index method parameters).write
        (.parameter index entry.index, entry.name) =
      (withParameters definition index method (renameParameter parameters entry).1,
        (renameParameter parameters entry).2) := by
  have there : (definition.methods.set index { method with parameters })[index]? =
      some { method with parameters } := by simp [inside]
  refine Prod.ext ?_ ?_
  · simp only [Body.write, withParameters, Body.rename, renameParameter,
      List.modify_eq_set_getElem?, there]
    simp
  · by_cases within : entry.index < parameters.length <;>
      simp [Body.write, withParameters, Body.nameAt?, Body.parameterLabels, there,
        renameParameter, within]

/-- Renaming a member is writing its names one by one. -/
theorem renameMember_eq_writes (body : Body) (entry : MemberName) :
    renameAll Body.write body entry.writes = renameMember body entry := by
  cases body with
  | record | enumeration =>
    rw [MemberName.writes, renameAll_cons, renameAll_of_idle]
    · simp [Body.write, Body.rename, Body.nameAt?, Body.labels, renameMember]
    · intro w member
      obtain ⟨p, _, rfl⟩ := List.mem_map.mp member
      exact Body.write_of_absent rfl
  | interface definition =>
    cases found : definition.methods[entry.index]? with
    | none =>
      have outside : definition.methods.length ≤ entry.index := List.getElem?_eq_none_iff.mp found
      rw [renameAll_of_idle]
      · simp [renameMember, found, List.modify_eq_self outside]
      · intro w member
        apply Body.write_of_absent
        obtain rfl | ⟨p, _, rfl⟩ := by simpa [MemberName.writes] using member
        · simp [Body.nameAt?, Body.labels, found]
        · simp [Body.nameAt?, Body.parameterLabels, found]
    | some method =>
      have inside := (List.getElem?_eq_some_iff.mp found).1
      have named : (Body.interface definition).write (.member entry.index, entry.name) =
          (withParameters definition entry.index { method with name := entry.name }
            method.parameters, 1) := by
        simp [Body.write, Body.rename, Body.nameAt?, Body.labels, List.modify_eq_set_getElem?,
          found, withParameters]
      rw [MemberName.writes, renameAll_cons, named,
        renameAll_map renameParameter (write_parameter _ inside)]
      simp [renameMember, renameMethod, withParameters, List.modify_eq_set_getElem?, found,
        Nat.add_comm]
  | typedef | structural =>
    rw [renameAll_of_idle]
    · rfl
    · intro w member
      apply Body.write_of_absent
      obtain rfl | ⟨p, _, rfl⟩ := by simpa [MemberName.writes] using member
      · rfl
      · rfl

/-- Names of members and parameters are written to the body. -/
theorem renameAll_node_write {entries : List (Spot × String)}
    (inner : ∀ entry ∈ entries, entry.1 ≠ .self) (node : Node) :
    renameAll Node.write node entries =
      ({ node with body := (renameAll Body.write node.body entries).1 },
        (renameAll Body.write node.body entries).2) := by
  induction entries generalizing node with
  | nil => rfl
  | cons entry rest ih =>
    obtain ⟨spot, name⟩ := entry
    have here : node.write (spot, name) =
        ({ node with body := (node.body.write (spot, name)).1 },
          (node.body.write (spot, name)).2) := by
      cases spot with
      | self => exact absurd rfl (inner _ List.mem_cons_self)
      | member | parameter => rfl
    rw [renameAll_cons, renameAll_cons, here, ih fun e member => inner e (by simp [member])]

theorem renameNode_eq_writes (node : Node) (entry : TypeName) :
    renameAll Node.write node entry.writes = renameNode node entry := by
  have step : ∀ (body : Body) (member : MemberName),
      renameAll Node.write { node with name := entry.name, body } member.writes =
        ({ node with name := entry.name, body := (renameMember body member).1 },
          (renameMember body member).2) := fun body member => by
    rw [renameAll_node_write (by simp [MemberName.writes]), renameMember_eq_writes]
  have members := renameAll_flatMap renameMember step node.body entry.members
  rw [TypeName.writes, renameAll_cons]
  simp only [Node.write, Node.rename, Node.nameAt?, Option.isSome_some, if_true, members,
    renameNode, Nat.add_comm]

/-- Names for a declaration are written to its node. -/
theorem renameAll_graph_write {g : Graph} {id : TypeId} {node : Node}
    (found : g.node? id = some node) (declares : node.isDeclaration = true)
    (entries : List (Spot × String)) :
    renameAll Graph.write g (entries.map fun w => ((id, w.1), w.2)) =
      (g.modify id fun _ => (renameAll Node.write node entries).1,
        (renameAll Node.write node entries).2) := by
  induction entries generalizing g node with
  | nil => simp [Graph.modify_of_found found]
  | cons entry rest ih =>
    have has : g.hasPlace (id, entry.1) = (node.nameAt? entry.1).isSome := by
      simp [Graph.hasPlace, found, declares]
    have here : g.write ((id, entry.1), entry.2) =
        (g.modify id fun _ => (node.write entry).1, (node.write entry).2) := by
      cases named : node.nameAt? entry.1 with
      | none =>
        simp [Graph.write, has, named, Node.write_of_absent named, Graph.modify_of_found found]
      | some old =>
        simp [Graph.write, has, named, Node.write, Graph.modify_congr_of_found found (·.rename _ _)]
    have kept : (node.write entry).1.isDeclaration = true := by
      rw [Node.write, Node.isDeclaration_rename, declares]
    have later := ih (Graph.node?_modify_self (fun _ => (node.write entry).1) found) kept
    simp only [List.map_cons, renameAll_cons, here, later, Graph.modify_modify, Function.comp_def]

/-- Renaming a type is writing its names one by one. -/
theorem renameType_eq_writes (g : Graph) (entry : TypeName) :
    renameAll Graph.write g (entry.writes.map fun w => ((entry.index, w.1), w.2)) =
      renameType g entry := by
  unfold renameType
  split
  next node found =>
    obtain ⟨found, declares⟩ := Option.filter_eq_some_iff.mp found
    rw [renameAll_graph_write found declares, renameNode_eq_writes]
  next absent =>
    refine renameAll_of_idle _ fun w member => ?_
    obtain ⟨v, _, rfl⟩ := List.mem_map.mp member
    have lacks : g.hasPlace (entry.index, v.1) = false := by
      cases found : g.node? entry.index with
      | none => simp [Graph.hasPlace, found]
      | some node => simp_all [Graph.hasPlace, Option.filter]
    simp [Graph.write, lacks]

/-- An overlay writes its names one after the other. -/
theorem apply_eq_writes (overlay : Overlay) (g : Graph) :
    overlay.apply g = renameAll Graph.write g overlay.writes := by
  have step : ∀ g entry, renameAll Graph.write (id g) (TypeName.writes entry |>.map fun w =>
      ((entry.index, w.1), w.2)) = (id (renameType g entry).1, (renameType g entry).2) :=
    renameType_eq_writes
  exact (renameAll_flatMap renameType step g overlay.types).symm

/-! ### What a list of writes does -/

/-- The last name that is written to a place. -/
def lastName? (writes : List (Place × String)) (place : Place) : Option String :=
  (writes.reverse.find? (·.1 = place)).map (·.2)

theorem lastName?_cons (entry : Place × String) (rest : List (Place × String)) (place : Place) :
    lastName? (entry :: rest) place =
      (lastName? rest place).or (if entry.1 = place then some entry.2 else none) := by
  by_cases here : entry.1 = place <;>
    cases later : rest.reverse.find? (·.1 = place) <;> simp [lastName?, here, later]

variable (writes : List (Place × String)) (g : Graph)

/-- Writing names changes nothing else. -/
theorem bare_writes : (renameAll Graph.write g writes).1.bare = g.bare := by
  induction writes generalizing g with
  | nil => rfl
  | cons entry rest ih => simp [renameAll_cons, ih]

theorem hasPlace_writes (place : Place) :
    (renameAll Graph.write g writes).1.hasPlace place = g.hasPlace place := by
  induction writes generalizing g with
  | nil => rfl
  | cons entry rest ih => simp [renameAll_cons, ih]

/-- The count is of the writes that have a place. -/
theorem count_writes :
    (renameAll Graph.write g writes).2 = writes.countP fun entry => g.hasPlace entry.1 := by
  induction writes generalizing g with
  | nil => rfl
  | cons entry rest ih =>
    simp only [renameAll_cons, ih, Graph.hasPlace_write, List.countP_cons, Nat.add_comm]
    by_cases has : g.hasPlace entry.1 <;> simp [Graph.write, has]

/-- At each place the last name written stands. -/
theorem nameAt?_writes (place : Place) :
    (renameAll Graph.write g writes).1.nameAt? place =
      if g.hasPlace place then (lastName? writes place).or (g.nameAt? place)
      else g.nameAt? place := by
  induction writes generalizing g with
  | nil => simp [lastName?]
  | cons entry rest ih =>
    rw [renameAll_cons, ih, Graph.hasPlace_write, Graph.nameAt?_write, lastName?_cons]
    by_cases has : g.hasPlace place
    · by_cases here : place = entry.1
      · subst here
        cases lastName? rest entry.1 <;> simp [has]
      · simp [has, here, Ne.symm here]
    · simp [has]

/-- Where only one name is ever written to a place, that is the last one. -/
theorem lastName?_eq_of_mem_iff {writes : List (Place × String)} {place : Place}
    {name? : Option String} (only : ∀ name, (place, name) ∈ writes ↔ name? = some name) :
    lastName? writes place = name? := by
  unfold lastName?
  cases found : writes.reverse.find? (·.1 = place) with
  | none =>
    cases name? with
    | none => rfl
    | some name =>
      have absent := List.find?_eq_none.mp found (place, name)
      simp [(only name).mpr rfl] at absent
  | some entry =>
    obtain ⟨at_place, name⟩ := entry
    have member : (at_place, name) ∈ writes :=
      List.mem_reverse.mp (List.mem_of_find?_eq_some found)
    have here : at_place = place := by simpa using List.find?_some found
    rw [here] at member
    exact ((only name).mp member).symm

/-! ### What a capture writes -/

/-- The names of the members of a body are written to their spots. -/
theorem mem_memberNames_writes {body : Body} {spot : Spot} {name : String} :
    (spot, name) ∈ (memberNames body).flatMap MemberName.writes ↔ body.nameAt? spot = some name := by
  cases body with
  | record | enumeration =>
    cases spot <;> simp [memberNames, MemberName.writes, Body.nameAt?, Body.labels,
      Body.parameterLabels, List.mem_zipIdx_iff_getElem?, eq_comm]
  | interface definition =>
    cases spot with
    | self | member =>
      simp [memberNames, MemberName.writes, Body.nameAt?, Body.labels,
        List.mem_zipIdx_iff_getElem?, eq_comm]
    | parameter method index =>
      cases found : definition.methods[method]? <;>
        simp [memberNames, MemberName.writes, Body.nameAt?, Body.parameterLabels,
          List.mem_zipIdx_iff_getElem?, found]
  | typedef | structural =>
    cases spot <;> simp [memberNames, Body.nameAt?, Body.labels, Body.parameterLabels]

/-- The entry that is taken for a node. -/
def entryOf (node : Node) (index : TypeId) : TypeName :=
  { index, name := node.name, members := memberNames node.body }

theorem mem_entryOf_writes {node : Node} {index : TypeId} {spot : Spot} {name : String} :
    (spot, name) ∈ (entryOf node index).writes ↔ node.nameAt? spot = some name := by
  simp only [entryOf, TypeName.writes, List.mem_cons, mem_memberNames_writes]
  cases spot <;> simp [Node.nameAt?, Body.nameAt?, eq_comm]

theorem mem_capture_types {g : Graph} {entry : TypeName} :
    entry ∈ (capture g).types ↔
      ∃ node, g.node? entry.index = some node ∧ node.isDeclaration = true ∧
        entryOf node entry.index = entry := by
  simp only [capture, List.mem_filterMap, Prod.exists, List.mem_zipIdx_iff_getElem?,
    Array.getElem?_toList, Option.ite_none_right_eq_some, Option.some.injEq]
  constructor
  · rintro ⟨node, index, found, declares, rfl⟩
    exact ⟨node, found, declares, rfl⟩
  · rintro ⟨node, found, declares, same⟩
    exact ⟨node, entry.index, found, declares, same⟩

/-- A capture writes the name at every place. -/
theorem mem_capture_writes {g : Graph} {place : Place} {name : String} :
    (place, name) ∈ (capture g).writes ↔ g.hasPlace place = true ∧ g.nameAt? place = some name := by
  obtain ⟨id, spot⟩ := place
  simp only [Overlay.writes, List.mem_flatMap, List.mem_map, Prod.mk.injEq, Prod.exists]
  constructor
  · rintro ⟨entry, taken, _, _, written, ⟨rfl, rfl⟩, rfl⟩
    obtain ⟨node, found, declares, same⟩ := mem_capture_types.mp taken
    rw [← same, mem_entryOf_writes] at written
    simp [Graph.hasPlace, Graph.nameAt?, found, declares, written]
  · rintro ⟨has, named⟩
    obtain ⟨node, found, at_spot⟩ := Option.bind_eq_some_iff.mp named
    have declares : node.isDeclaration = true := by
      simp only [Graph.hasPlace, found, Option.any_some, Bool.and_eq_true] at has
      exact has.1
    exact ⟨entryOf node id, mem_capture_types.mpr ⟨node, found, declares, rfl⟩, spot, name,
      mem_entryOf_writes.mpr at_spot, ⟨rfl, rfl⟩, rfl⟩

theorem pairwise_index_ne {α : Type} (items : List α) :
    items.zipIdx.Pairwise fun x y => x.2 ≠ y.2 :=
  List.pairwise_map.mp (List.nodup_zipIdx_map_snd items)

/-- The member that a spot belongs to. -/
def memberOf : Spot → Option Nat
  | .self => none
  | .member index => some index
  | .parameter method _ => some method

theorem memberOf_of_mem_writes {entry : MemberName} {spot : Spot}
    (member : spot ∈ entry.writes.map Prod.fst) : memberOf spot = some entry.index := by
  obtain rfl | ⟨p, _, rfl⟩ := by simpa [MemberName.writes] using member
  · rfl
  · rfl

theorem nodup_memberNames_writes (body : Body) :
    (((memberNames body).flatMap MemberName.writes).map Prod.fst).Nodup := by
  have apart : (memberNames body).Pairwise fun m m' => m.index ≠ m'.index := by
    cases body with
    | record | enumeration | interface => exact List.pairwise_map.mpr (pairwise_index_ne _)
    | typedef | structural => exact .nil
  have parameters : ∀ m ∈ memberNames body, (m.parameters.map (·.index)).Nodup := by
    intro m taken
    cases body with
    | record | enumeration =>
      obtain ⟨_, _, rfl⟩ := List.mem_map.mp taken
      exact .nil
    | interface =>
      obtain ⟨⟨method, _⟩, _, rfl⟩ := List.mem_map.mp taken
      exact List.pairwise_map.mpr (List.pairwise_map.mpr (pairwise_index_ne _))
    | typedef | structural => cases taken
  rw [List.map_flatMap, List.nodup_flatMap]
  constructor
  · intro m taken
    have inside : Function.Injective (Spot.parameter m.index) := fun i j same =>
      (Spot.parameter.inj same).2
    have distinct := (parameters m taken).map inside
    simpa [MemberName.writes, Function.comp_def] using distinct
  · refine apart.imp fun {m m'} differ => ?_
    intro spot first second
    have same := (memberOf_of_mem_writes first).symm.trans (memberOf_of_mem_writes second)
    exact differ (Option.some.inj same)

theorem nodup_entryOf_writes (node : Node) (index : TypeId) :
    ((entryOf node index).writes.map Prod.fst).Nodup := by
  simp only [entryOf, TypeName.writes, List.map_cons, List.nodup_cons]
  refine ⟨fun member => ?_, nodup_memberNames_writes node.body⟩
  obtain ⟨⟨_, name⟩, written, rfl⟩ := List.mem_map.mp member
  cases mem_memberNames_writes.mp written

/-- A capture writes to no place twice. -/
theorem nodup_capture_writes (g : Graph) : ((capture g).writes.map Prod.fst).Nodup := by
  have apart : (capture g).types.Pairwise fun e e' => e.index ≠ e'.index := by
    refine (pairwise_index_ne g.nodes.toList).filterMap _ fun x x' differ e first e' second => ?_
    simp only [Option.ite_none_right_eq_some, Option.some.injEq] at first second
    obtain ⟨_, rfl⟩ := first
    obtain ⟨_, rfl⟩ := second
    exact differ
  rw [Overlay.writes, List.map_flatMap, List.nodup_flatMap]
  constructor
  · intro e taken
    obtain ⟨node, _, _, same⟩ := mem_capture_types.mp taken
    have distinct := nodup_entryOf_writes node e.index
    rw [same] at distinct
    simpa [Function.comp_def] using distinct.map (Prod.mk_right_injective e.index)
  · refine apart.imp fun {e e'} differ => ?_
    intro place first second
    obtain ⟨_, written, rfl⟩ := List.mem_map.mp first
    obtain ⟨_, _, rfl⟩ := List.mem_map.mp written
    obtain ⟨_, written, same⟩ := List.mem_map.mp second
    obtain ⟨_, _, rfl⟩ := List.mem_map.mp written
    exact differ (congrArg Prod.fst same).symm

/-- A capture knows the name at every place. -/
theorem lastName?_capture (g : Graph) (place : Place) :
    lastName? (capture g).writes place = if g.hasPlace place then g.nameAt? place else none := by
  apply lastName?_eq_of_mem_iff
  intro name
  by_cases has : g.hasPlace place <;> simp [mem_capture_writes, has]

/-- Applying a capture counts the places that both graphs have. -/
theorem count_capture (g g' : Graph) :
    (((capture g).apply g').2 : ℕ∞) =
      {place | g.hasPlace place = true ∧ g'.hasPlace place = true}.encard := by
  have common : {place | g.hasPlace place = true ∧ g'.hasPlace place = true} =
      ↑(((capture g).writes.map Prod.fst).filter g'.hasPlace).toFinset := by
    ext place
    have named : g.hasPlace place = true → ∃ name, g.nameAt? place = some name := fun has =>
      Option.isSome_iff_exists.mp (g.isSome_nameAt?_of_hasPlace has)
    simp only [Set.mem_ofPred_eq, List.coe_toFinset, List.mem_filter, List.mem_map, Prod.exists,
      exists_and_right, exists_eq_right, mem_capture_writes, exists_and_left]
    tauto
  rw [common, Set.encard_coe_eq_coe_finsetCard, List.toFinset_card_of_nodup
    ((nodup_capture_writes g).filter _), apply_eq_writes, count_writes, List.countP_eq_length_filter,
    List.filter_map, List.length_map]
  rfl

end Overlay

open Overlay

/-- Applying an overlay that was taken from one graph to another changes nothing there but the names
at the places that both have, which become those of the first, and counts these places. So a graph's
own overlay changes nothing, and any overlay at all can be applied a second time to the same effect. -/
theorem overlays_transport_names :
    (∀ g₁ g₂ : Graph,
      ((capture g₁).apply g₂).1.bare = g₂.bare ∧
      (∀ place, ((capture g₁).apply g₂).1.nameAt? place =
        if g₁.hasPlace place ∧ g₂.hasPlace place then g₁.nameAt? place else g₂.nameAt? place) ∧
      (((capture g₁).apply g₂).2 : ℕ∞) =
        {place | g₁.hasPlace place = true ∧ g₂.hasPlace place = true}.encard) ∧
    (∀ g : Graph, ((capture g).apply g).1 = g) ∧
    ∀ (overlay : Overlay) (g : Graph), overlay.apply (overlay.apply g).1 = overlay.apply g := by
  have names (g₁ g₂ : Graph) (place : Place) : ((capture g₁).apply g₂).1.nameAt? place =
      if g₁.hasPlace place ∧ g₂.hasPlace place then g₁.nameAt? place else g₂.nameAt? place := by
    rw [apply_eq_writes, nameAt?_writes, lastName?_capture]
    by_cases has : g₁.hasPlace place
    · obtain ⟨name, named⟩ := Option.isSome_iff_exists.mp (g₁.isSome_nameAt?_of_hasPlace has)
      simp [has, named]
    · simp [has]
  have bares (overlay : Overlay) (g : Graph) : (overlay.apply g).1.bare = g.bare := by
    rw [apply_eq_writes, bare_writes]
  refine ⟨fun g₁ g₂ => ⟨bares _ g₂, names g₁ g₂, count_capture g₁ g₂⟩, fun g => ?_,
    fun overlay g => ?_⟩
  · refine Graph.eq_of_names (bares _ g) fun place => ?_
    rw [names, ite_id]
  · refine Prod.ext (Graph.eq_of_names (bares _ _) fun place => ?_) ?_
    · simp only [apply_eq_writes, nameAt?_writes, hasPlace_writes]
      by_cases has : g.hasPlace place
      · cases lastName? overlay.writes place <;> simp [has]
      · simp [has]
    · simp only [apply_eq_writes, count_writes, hasPlace_writes]

end ComTypes

import ComTypes.Proofs.Graph.Arena
import Mathlib.Data.List.Basic

/-!
# Places for names

The names of a graph stand at places: a type has one, each of its members has one, and so has each
parameter of a method. Writing a name changes the name at that place if the place is there, and
nothing else (`Graph.nameAt?_write`, `Graph.bare_write`). Two graphs with the same names at all places
that are the same but for their names are equal (`Graph.eq_of_names`).
-/

namespace ComTypes

/-! ### Places for names -/

/-- A place for a name within a type: its own, that of a member, or that of a parameter of a method. -/
inductive Spot where
  | self
  | member (index : Nat)
  | parameter (method index : Nat)
deriving DecidableEq, Repr

/-- A place for a name within a graph. -/
abbrev Place := TypeId × Spot

namespace Body

/-- The names of the fields, values or methods. -/
def labels : Body → List String
  | record _ fields => fields.map (·.name)
  | enumeration members => members.map (·.name)
  | interface definition => definition.methods.map (·.name)
  | typedef _ | structural _ => []

/-- The names of the parameters of a method. -/
def parameterLabels : Body → Nat → List String
  | interface definition, method =>
    (definition.methods[method]?).elim [] fun m => m.parameters.map (·.name)
  | _, _ => []

/-- The name at a spot, if the body has it. -/
def nameAt? (body : Body) : Spot → Option String
  | .self => none
  | .member index => body.labels[index]?
  | .parameter method index => (body.parameterLabels method)[index]?

/-- The body with another name at a spot. -/
def rename (body : Body) : Spot → String → Body
  | .self, _ => body
  | .member index, name =>
    match body with
    | record layout fields => record layout (fields.modify index ({ · with name }))
    | enumeration members => enumeration (members.modify index ({ · with name }))
    | interface definition =>
      interface { definition with methods := definition.methods.modify index ({ · with name }) }
    | _ => body
  | .parameter method index, name =>
    match body with
    | interface definition => interface { definition with
        methods := definition.methods.modify method fun m =>
          { m with parameters := m.parameters.modify index ({ · with name }) } }
    | _ => body

end Body

/-- A method without names. -/
def Method.bare (method : Method) : Method :=
  { method with name := "", parameters := method.parameters.map ({ · with name := "" }) }

/-- A body without names. -/
def Body.bare : Body → Body
  | record layout fields => record layout (fields.map ({ · with name := "" }))
  | enumeration members => enumeration (members.map ({ · with name := "" }))
  | interface definition =>
    interface { definition with methods := definition.methods.map Method.bare }
  | body => body

namespace Node

/-- The name at a spot, if the node has it. -/
def nameAt? (node : Node) : Spot → Option String
  | .self => some node.name
  | spot => node.body.nameAt? spot

/-- The node with another name at a spot. -/
def rename (node : Node) : Spot → String → Node
  | .self, name => { node with name }
  | spot, name => { node with body := node.body.rename spot name }

/-- The node without names. -/
def bare (node : Node) : Node := { node with name := "", body := node.body.bare }

end Node

namespace Graph

/-- The name at a place, if the graph has it. -/
def nameAt? (g : Graph) (place : Place) : Option String :=
  (g.node? place.1).bind (·.nameAt? place.2)

/-- Whether the graph has the place, in a declaration in use. -/
def hasPlace (g : Graph) (place : Place) : Bool :=
  (g.node? place.1).any fun node => node.isDeclaration && (node.nameAt? place.2).isSome

/-- The graph without names. -/
def bare (g : Graph) : Graph := { g with nodes := g.nodes.map Node.bare }

/-- Write a name to a place, if the graph has the place. -/
def write (g : Graph) (entry : Place × String) : Graph × Nat :=
  if g.hasPlace entry.1 then (g.modify entry.1.1 (·.rename entry.1.2 entry.2), 1) else (g, 0)

end Graph

/-! ### Lists under a change at one position -/

section Lists

variable {α β γ : Type} (change : α → α) (view : α → β)

/-- A change that sets what is viewed to a value sets it in the view of the list. -/
theorem map_modify_of_sets {value : β} (sets : ∀ x, view (change x) = value) (items : List α)
    (index : Nat) : (items.modify index change).map view = (items.map view).set index value := by
  refine List.ext_getElem? fun j => ?_
  simp only [List.getElem?_map, List.getElem?_modify, List.getElem?_set, List.length_map]
  by_cases same : index = j
  · subst same
    by_cases inside : index < items.length <;> simp [inside, sets]
  · simp [same]

/-- A change that is not viewed leaves the view of the list alone. -/
theorem map_modify_of_unseen (unseen : ∀ x, view (change x) = view x) (items : List α)
    (index : Nat) : (items.modify index change).map view = items.map view := by
  refine List.ext_getElem? fun j => ?_
  simp only [List.getElem?_map, List.getElem?_modify]
  by_cases same : index = j
  · simp [same, Function.comp_def, unseen]
  · simp [same]

theorem getElem?_set_eq_ite (items : List β) (index other : Nat) (value : β) :
    (items.set index value)[other]? =
      if other = index then items[index]?.map fun _ => value else items[other]? := by
  rw [List.getElem?_set]
  by_cases same : index = other
  · subst same
    by_cases inside : index < items.length <;> simp [inside]
  · simp [same, Ne.symm same]

/-- Two views that tell items apart tell lists apart. -/
theorem eq_of_map_eq {first : α → β} {second : α → γ}
    (apart : ∀ x y, first x = first y → second x = second y → x = y) {items others : List α}
    (firsts : items.map first = others.map first)
    (seconds : items.map second = others.map second) : items = others := by
  have injective : Function.Injective fun x => (first x, second x) := fun x y same =>
    apart x y (congrArg Prod.fst same) (congrArg Prod.snd same)
  apply List.map_injective_iff.mpr injective
  rw [← List.zip_map', ← List.zip_map', firsts, seconds]

end Lists

/-! ### Writing one name -/

namespace Body

variable (body : Body) (name : String)

theorem labels_rename_member (index : Nat) :
    (body.rename (.member index) name).labels = body.labels.set index name := by
  cases body with
  | record | enumeration | interface =>
    exact map_modify_of_sets _ _ (by intro; rfl) _ index
  | typedef | structural => rfl

theorem parameterLabels_rename_member (index method : Nat) :
    (body.rename (.member index) name).parameterLabels method = body.parameterLabels method := by
  cases body with
  | interface definition =>
    simp only [rename, parameterLabels, List.getElem?_modify]
    cases definition.methods[method]? with
    | none => rfl
    | some m => by_cases same : index = method <;> simp [same]
  | record | enumeration | typedef | structural => rfl

theorem labels_rename_parameter (method index : Nat) :
    (body.rename (.parameter method index) name).labels = body.labels := by
  cases body with
  | interface definition =>
    exact map_modify_of_unseen (fun m : Method =>
      { m with parameters := m.parameters.modify index ({ · with name }) }) (·.name)
      (fun _ => rfl) _ method
  | record | enumeration | typedef | structural => rfl

theorem parameterLabels_rename_parameter (method index other : Nat) :
    (body.rename (.parameter method index) name).parameterLabels other =
      if method = other then (body.parameterLabels other).set index name
      else body.parameterLabels other := by
  cases body with
  | interface definition =>
    simp only [rename, parameterLabels, List.getElem?_modify]
    cases definition.methods[other]? with
    | none => simp
    | some m =>
      by_cases same : method = other
      · simpa [same] using
          map_modify_of_sets ({ · with name }) Parameter.name (fun _ => rfl) m.parameters index
      · simp [same]
  | record | enumeration | typedef | structural => simp [rename, parameterLabels]

/-- Writing to a spot changes the name there, if there is one, and no other. -/
theorem nameAt?_rename (spot other : Spot) :
    (body.rename spot name).nameAt? other =
      if other = spot then (body.nameAt? spot).map fun _ => name else body.nameAt? other := by
  cases spot with
  | self => by_cases same : other = .self <;> simp [same, rename, nameAt?]
  | member index =>
    cases other with
    | self => rfl
    | member j => simp only [nameAt?, labels_rename_member, getElem?_set_eq_ite, Spot.member.injEq]
    | parameter i j => simp [nameAt?, parameterLabels_rename_member]
  | parameter method index =>
    cases other with
    | self => rfl
    | member j => simp [nameAt?, labels_rename_parameter]
    | parameter i j =>
      simp only [nameAt?, parameterLabels_rename_parameter, Spot.parameter.injEq]
      by_cases same : method = i
      · subst same
        simp [getElem?_set_eq_ite]
      · simp [same, Ne.symm same]

theorem bare_rename (spot : Spot) : (body.rename spot name).bare = body.bare := by
  cases spot with
  | self => rfl
  | member index =>
    cases body with
    | record layout fields =>
      exact congrArg (record layout) (map_modify_of_unseen _ _ (by intro; rfl) _ _)
    | enumeration members =>
      exact congrArg enumeration (map_modify_of_unseen _ _ (by intro; rfl) _ _)
    | interface definition =>
      simp only [rename, bare]
      rw [map_modify_of_unseen (fun m : Method => { m with name }) Method.bare fun _ => rfl]
    | typedef | structural => rfl
  | parameter method index =>
    cases body with
    | interface definition =>
      have unseen : ∀ m : Method, Method.bare { m with
          parameters := m.parameters.modify index ({ · with name }) } = m.bare := fun m => by
        simp only [Method.bare]
        rw [map_modify_of_unseen (fun p : Parameter => { p with name }) _ fun _ => rfl]
      simp only [rename, bare]
      rw [map_modify_of_unseen _ _ unseen]
    | record | enumeration | typedef | structural => rfl

end Body

theorem Method.eq_of_names {method method' : Method} (bare : method'.bare = method.bare)
    (own : method'.name = method.name)
    (parameters : method'.parameters.map (·.name) = method.parameters.map (·.name)) :
    method' = method := by
  obtain ⟨name, result, params, _, _, _, _, _, _⟩ := method
  obtain ⟨name', result', params', _, _, _, _, _, _⟩ := method'
  simp only [Method.bare, Method.mk.injEq] at bare own parameters ⊢
  have same : params' = params := by
    refine eq_of_map_eq ?_ bare.2.2.1 parameters
    rintro ⟨⟩ ⟨⟩ rest names
    simp_all
  simp_all

/-- A body is determined by its names and by what is left without them. -/
theorem Body.eq_of_names {body body' : Body} (bare : body'.bare = body.bare)
    (names : ∀ spot, body'.nameAt? spot = body.nameAt? spot) : body' = body := by
  have labels : body'.labels = body.labels := List.ext_getElem? fun i => names (.member i)
  have parameters : ∀ i, body'.parameterLabels i = body.parameterLabels i := fun i =>
    List.ext_getElem? fun j => names (.parameter i j)
  cases body <;> cases body' <;> simp only [Body.bare, reduceCtorEq] at bare
  case record.record layout fields layout' fields' =>
    simp only [record.injEq] at bare ⊢
    refine ⟨bare.1, eq_of_map_eq ?_ bare.2 labels⟩
    rintro ⟨⟩ ⟨⟩ rest names
    simp_all
  case enumeration.enumeration members members' =>
    simp only [enumeration.injEq] at bare ⊢
    refine eq_of_map_eq ?_ bare labels
    rintro ⟨⟩ ⟨⟩ rest names
    simp_all
  case interface.interface definition definition' =>
    obtain ⟨methods, base, dispatch⟩ := definition
    obtain ⟨methods', base', dispatch'⟩ := definition'
    simp only [interface.injEq, Interface.mk.injEq] at bare ⊢
    refine ⟨List.ext_getElem? fun i => ?_, bare.2⟩
    have bares := congrArg (·[i]?) bare.1
    have owns := congrArg (·[i]?) labels
    have params := parameters i
    simp only [Body.labels, Body.parameterLabels, List.getElem?_map] at bares owns params
    cases here : methods[i]? with
    | none => simpa [here] using bares
    | some method =>
      cases there : methods'[i]? with
      | none => simp [here, there] at bares
      | some method' =>
        simp only [here, there, Option.map_some, Option.some.injEq, Option.elim_some] at *
        exact Method.eq_of_names bares owns params
  all_goals exact bare

namespace Node

variable (node : Node) (name : String)

theorem nameAt?_rename (spot other : Spot) :
    (node.rename spot name).nameAt? other =
      if other = spot then (node.nameAt? spot).map fun _ => name else node.nameAt? other := by
  cases spot with
  | self => cases other <;> simp [rename, nameAt?]
  | member | parameter =>
    cases other with
    | self => simp [rename, nameAt?]
    | member | parameter => simp only [rename, nameAt?, Body.nameAt?_rename]

theorem bare_rename (spot : Spot) : (node.rename spot name).bare = node.bare := by
  cases spot with
  | self => rfl
  | member | parameter => simp only [rename, bare, Body.bare_rename]

theorem eq_of_names {node node' : Node} (bare : node'.bare = node.bare)
    (names : ∀ spot, node'.nameAt? spot = node.nameAt? spot) : node' = node := by
  have own : node'.name = node.name := Option.some.inj (names .self)
  have bodies : node'.body = node.body := by
    refine Body.eq_of_names (congrArg Node.body bare) fun spot => ?_
    cases spot with
    | self => rfl
    | member i => exact names (.member i)
    | parameter i j => exact names (.parameter i j)
  cases node
  cases node'
  simp_all [Node.bare]

@[simp] theorem isDeclaration_bare : node.bare.isDeclaration = node.isDeclaration := by
  cases node with | mk _ _ _ _ _ _ _ _ _ body => cases body <;> rfl

@[simp] theorem isDeclaration_rename (spot : Spot) :
    (node.rename spot name).isDeclaration = node.isDeclaration := by
  rw [← isDeclaration_bare, bare_rename, isDeclaration_bare]

theorem isSome_nameAt?_rename (spot other : Spot) :
    ((node.rename spot name).nameAt? other).isSome = (node.nameAt? other).isSome := by
  rw [nameAt?_rename]
  by_cases same : other = spot <;> simp [same]

end Node

namespace Graph

variable (g : Graph)

theorem nameAt?_modify (id : TypeId) (f : Node → Node) (place : Place) :
    (g.modify id f).nameAt? place =
      (g.node? place.1).bind fun node =>
        if place.1 = id then (f node).nameAt? place.2 else node.nameAt? place.2 := by
  simp only [nameAt?, node?_modify]
  by_cases same : id = place.1
  · subst same
    cases g.node? place.1 <;> simp
  · simp [same, Ne.symm same]

/-- A change is what it does to the node that it is for. -/
theorem modify_congr_of_found {g : Graph} {id : TypeId} {node : Node}
    (found : g.node? id = some node) (f : Node → Node) :
    g.modify id f = g.modify id fun _ => f node := by
  refine eq_of_fields (Array.ext_getElem? fun j => ?_) rfl rfl
  show (g.modify id f).node? j = (g.modify id fun _ => f node).node? j
  simp only [node?_modify]
  split
  next same => subst same; rw [found]; rfl
  next => rfl

theorem modify_of_found {g : Graph} {id : TypeId} {node : Node}
    (found : g.node? id = some node) : (g.modify id fun _ => node) = g := by
  rw [← modify_congr_of_found found fun node => node]
  refine eq_of_fields (Array.ext_getElem? fun j => ?_) rfl rfl
  show (g.modify id fun node => node).node? j = g.node? j
  simp [node?_modify]

/-- A change that leaves a node's declaration and the spots of its names leaves the places. -/
theorem hasPlace_modify {id : TypeId} {f : Node → Node}
    (declares : ∀ node, (f node).isDeclaration = node.isDeclaration)
    (spots : ∀ node spot, ((f node).nameAt? spot).isSome = (node.nameAt? spot).isSome)
    (place : Place) : (g.modify id f).hasPlace place = g.hasPlace place := by
  simp only [hasPlace, node?_modify]
  by_cases same : id = place.1
  · subst same
    cases g.node? place.1 <;> simp [declares, spots]
  · simp [same]

theorem isSome_nameAt?_of_hasPlace {place : Place} (has : g.hasPlace place = true) :
    (g.nameAt? place).isSome = true := by
  simp only [hasPlace, Option.any_eq_true, Bool.and_eq_true] at has
  obtain ⟨node, found, _, named⟩ := has
  simpa [nameAt?, found] using named

@[simp] theorem hasPlace_write (entry : Place × String) (place : Place) :
    (g.write entry).1.hasPlace place = g.hasPlace place := by
  unfold write
  split
  · exact g.hasPlace_modify (fun node => node.isDeclaration_rename _ _)
      (fun node => node.isSome_nameAt?_rename _ _) place
  · rfl

@[simp] theorem bare_write (entry : Place × String) : (g.write entry).1.bare = g.bare := by
  unfold write
  split
  · refine eq_of_fields (Array.ext_getElem? fun j => ?_) rfl rfl
    simp only [bare, modify, Array.getElem?_map, Array.getElem?_modify]
    by_cases same : entry.1.1 = j
    · cases g.nodes[j]? <;> simp [same, Node.bare_rename]
    · simp [same]
  · rfl

theorem nameAt?_write (entry : Place × String) (place : Place) :
    (g.write entry).1.nameAt? place =
      if place = entry.1 ∧ g.hasPlace place then some entry.2 else g.nameAt? place := by
  obtain ⟨target, name⟩ := entry
  unfold write
  split
  next has =>
    rw [nameAt?_modify]
    by_cases same : place = target
    · subst same
      obtain ⟨old, named⟩ := Option.isSome_iff_exists.mp (g.isSome_nameAt?_of_hasPlace has)
      obtain ⟨node, found, at_spot⟩ := Option.bind_eq_some_iff.mp named
      simp [has, found, Node.nameAt?_rename, at_spot]
    · have apart : place.1 = target.1 → place.2 ≠ target.2 := fun first second =>
        same (Prod.ext first second)
      simp only [same, false_and, if_false, nameAt?]
      congr 1
      funext node
      by_cases first : place.1 = target.1
      · simp [first, Node.nameAt?_rename, apart first]
      · simp [first]
  next has =>
    by_cases same : place = target
    · simp [same, has]
    · simp [same]

/-- A graph is determined by its names and by what is left without them. -/
theorem eq_of_names {g g' : Graph} (bare : g'.bare = g.bare)
    (names : ∀ place, g'.nameAt? place = g.nameAt? place) : g' = g := by
  have nodes : g'.nodes.map Node.bare = g.nodes.map Node.bare := congrArg Graph.nodes bare
  have byGuid : g'.byGuid = g.byGuid := (congrArg Graph.byGuid bare :)
  have byStructure : g'.byStructure = g.byStructure := (congrArg Graph.byStructure bare :)
  refine eq_of_fields (Array.ext_getElem? fun id => ?_) byGuid byStructure
  have bares := congrArg (·[id]?) nodes
  simp only [Array.getElem?_map] at bares
  cases here : g.nodes[id]? with
  | none => simpa [here] using bares
  | some node =>
    cases there : g'.nodes[id]? with
    | none => simp [here, there] at bares
    | some node' =>
      simp only [here, there, Option.map_some, Option.some.injEq] at bares
      refine congrArg some (Node.eq_of_names bares fun spot => ?_)
      simpa [nameAt?, node?, here, there] using names (id, spot)

end Graph

end ComTypes

import ComTypes.Graph.Chain

/-!
# What graph operations do to the nodes

Every operation on a graph changes one node in place or appends one node. The lemmas here say so in
terms of `node?`, `findGuid?` and the index of structures, and `Appends` puts the second case into
one statement: `add`, `intern` and `external` append exactly one node or none.

`Grows` is what all of them have in common. Nodes stay where they are and keep their identity, and
what is no pointer or array does not become one. So a chain of pointers and arrays that can be
followed afterwards from an old node could be followed before (`Grows.reaches`).
-/

namespace ComTypes

/-! ### The types that a body names -/

/-- The types that a structural type is made from. -/
def Structural.targets : Structural → List TypeId
  | .primitive _ => []
  | .pointer target => [target]
  | .array element _ => [element]

/-- Every type that a body names: its references, the base of an interface, and what a structural
type is made from. -/
def Body.targets : Body → List TypeId
  | .interface definition => definition.base.toList ++ Body.references (.interface definition)
  | .structural s => s.targets
  | body => body.references

/-- The types that a method names. -/
def Method.types (method : Method) : List TypeId :=
  method.returnType :: method.parameters.map (·.type)

theorem mem_targets_interface {definition : Interface} {t : TypeId} :
    t ∈ (Body.interface definition).targets ↔
      definition.base = some t ∨ ∃ method ∈ definition.methods, t ∈ method.types := by
  simp [Body.targets, Body.references, Method.types]

theorem Body.isDeclaration_iff {body : Body} :
    body.isDeclaration = true ↔ ∀ s, body ≠ .structural s := by
  cases body <;> simp [Body.isDeclaration]

namespace Graph

/-- Following pointers and arrays from `id` leads to the second type. -/
inductive Reaches (g : Graph) : TypeId → TypeId → Prop
  | here (id : TypeId) : Reaches g id id
  | step {id next last : TypeId} :
      (g.body? id).bind throughStructure = some next → Reaches g next last → Reaches g id last

/-- Pointers and arrays lead to what they are made from. -/
theorem throughStructure_eq_some {body : Body} {next : TypeId} :
    throughStructure body = some next ↔
      ∃ s, body = .structural s ∧ next ∈ s.targets := by
  constructor
  · intro h
    match body, h with
    | .structural (.pointer _), h | .structural (.array _ _), h =>
      exact ⟨_, rfl, by simpa [throughStructure, Structural.targets, eq_comm] using h⟩
  · rintro ⟨s, rfl, member⟩
    cases s <;> simp_all [Structural.targets, throughStructure]

variable {g : Graph}

/-- A declaration leads nowhere but to itself. -/
theorem Reaches.eq_of_declaration {id last : TypeId} {node : Node} (h : g.Reaches id last)
    (found : g.node? id = some node) (declares : node.body.isDeclaration = true) : last = id := by
  cases h with
  | here => rfl
  | step next _ =>
    simp only [body?, found, Option.map_some, Option.bind_some] at next
    obtain ⟨s, structural, _⟩ := throughStructure_eq_some.mp next
    exact absurd structural (Body.isDeclaration_iff.mp declares s)

/-- Where bodies name nodes of the graph only, a chain stays inside the graph. -/
theorem Reaches.lt_size {id last : TypeId} (h : g.Reaches id last)
    (inside : ∀ {id node}, g.node? id = some node → ∀ t ∈ node.body.targets, t < g.size)
    (start : id < g.size) : last < g.size := by
  induction h with
  | here => exact start
  | @step id next last leads _ ih =>
    obtain ⟨body, found, through⟩ := Option.bind_eq_some_iff.mp leads
    obtain ⟨node, at_id, rfl⟩ := Option.map_eq_some_iff.mp found
    obtain ⟨s, structural, member⟩ := throughStructure_eq_some.mp through
    exact ih (inside at_id next (by rwa [structural]))

/-! ### Single operations -/

theorem node?_eq_none {id : TypeId} : g.node? id = none ↔ g.size ≤ id := by
  simp [node?, size]

theorem lt_size_of_node? {id : TypeId} {node : Node} (h : g.node? id = some node) :
    id < g.size := by
  refine Nat.lt_of_not_le fun outside => ?_
  rw [node?_eq_none.mpr outside] at h
  cases h

theorem exists_node_of_lt {id : TypeId} (h : id < g.size) : ∃ node, g.node? id = some node :=
  ⟨g.nodes[id], Array.getElem?_eq_getElem h⟩

/-- A name finds the first declaration in use that has it. -/
theorem findName?_eq_some_iff {name : String} {id : TypeId} :
    g.findName? name = some id ↔
      (∃ node, g.node? id = some node ∧ node.isDeclaration = true ∧ node.name = name) ∧
        ∀ j < id, ∀ node, g.node? j = some node → node.isDeclaration = true → node.name ≠ name := by
  rw [findName?, ids, List.find?_range_eq_some]
  constructor
  · rintro ⟨here, _, before⟩
    obtain ⟨node, found, holds⟩ := (Option.any_eq_true _ _).mp here
    simp only [Bool.and_eq_true, decide_eq_true_eq] at holds
    refine ⟨⟨node, found, holds⟩, fun j earlier other found' declares same => ?_⟩
    have unlike := before j earlier
    simp [found', declares, same] at unlike
  · rintro ⟨⟨node, found, declares, same⟩, before⟩
    refine ⟨by simp [found, declares, same], List.mem_range.mpr (lt_size_of_node? found), fun j earlier => ?_⟩
    cases found' : g.node? j with
    | none => rfl
    | some other =>
      cases declares' : other.isDeclaration with
      | false => simp [declares']
      | true => simp [declares', before j earlier other found' declares']

@[simp] theorem size_modify (id : TypeId) (f : Node → Node) : (g.modify id f).size = g.size := by
  simp [size, modify]

/-- Only the node at the position changes. -/
theorem node?_modify (id j : TypeId) (f : Node → Node) :
    (g.modify id f).node? j = if id = j then (g.node? j).map f else g.node? j := by
  simp only [node?, modify, Array.getElem?_modify]

theorem node?_modify_self {id : TypeId} {node : Node} (f : Node → Node)
    (h : g.node? id = some node) : (g.modify id f).node? id = some (f node) := by
  rw [node?_modify, if_pos rfl, h, Option.map_some]

theorem node?_modify_of_ne {id j : TypeId} (f : Node → Node) (h : id ≠ j) :
    (g.modify id f).node? j = g.node? j := by
  rw [node?_modify, if_neg h]

theorem eq_of_fields {g g' : Graph} (nodes : g'.nodes = g.nodes) (byGuid : g'.byGuid = g.byGuid)
    (byStructure : g'.byStructure = g.byStructure) : g' = g := by
  cases g
  cases g'
  simp only [Graph.mk.injEq]
  exact ⟨nodes, byGuid, byStructure⟩

theorem modify_modify (id : TypeId) (f h : Node → Node) :
    (g.modify id f).modify id h = g.modify id (h ∘ f) := by
  refine eq_of_fields ?_ rfl rfl
  apply Array.ext_getElem?
  intro j
  show ((g.modify id f).modify id h).node? j = (g.modify id (h ∘ f)).node? j
  simp only [node?_modify]
  split <;> simp

theorem modify_eq_self {id : TypeId} {change : Node → Node}
    (same : ∀ {node}, g.node? id = some node → change node = node) : g.modify id change = g := by
  have nodes : g.nodes.modify id change = g.nodes := by
    refine Array.ext_getElem? fun j => ?_
    show (g.modify id change).node? j = g.node? j
    rw [node?_modify]
    split
    next here =>
      subst here
      cases found : g.node? id with
      | none => rfl
      | some node => rw [Option.map_some, same found]
    next => rfl
  rw [modify, nodes]

/-- A node after a change: an unchanged other one, or the changed one. -/
theorem of_node?_modify {id j : TypeId} {f : Node → Node} {node : Node}
    (h : (g.modify id f).node? j = some node) :
    (id ≠ j ∧ g.node? j = some node) ∨
      (id = j ∧ ∃ old, g.node? j = some old ∧ node = f old) := by
  rw [node?_modify] at h
  split at h
  next same =>
    obtain ⟨old, found, changed⟩ := Option.map_eq_some_iff.mp h
    exact .inr ⟨same, old, found, changed.symm⟩
  next other => exact .inl ⟨other, h⟩

@[simp] theorem findGuid?_modify (id : TypeId) (f : Node → Node) (guid : Guid) :
    (g.modify id f).findGuid? guid = g.findGuid? guid := rfl

@[simp] theorem byStructure_modify (id : TypeId) (f : Node → Node) :
    (g.modify id f).byStructure = g.byStructure := rfl

/-- Taking a node without a GUID out of use changes that node only. -/
theorem retire_eq_modify {id : TypeId} (unnamed : (g.node? id).bind (·.guid?) = none) :
    g.retire id = g.modify id fun node => { node with retired := true, name := "" } := by
  simp only [retire, unnamed]
  rfl

/-! ### Appending a node -/

/-- `g'` is `g` with one more node, which the two indexes know by its identity and, unless it is
external, by its structure. -/
structure Appends (g : Graph) (node : Node) (g' : Graph) : Prop where
  size_eq : g'.size = g.size + 1
  node_eq : ∀ j, g'.node? j = if j = g.size then some node else g.node? j
  guid_eq : ∀ guid, g'.findGuid? guid =
    if node.identity = .guid guid then some g.size else g.findGuid? guid
  structure_eq : ∀ s, g'.byStructure.get? s =
    if node.external = false ∧ node.body = .structural s then some g.size
    else g.byStructure.get? s

/-- The identity of the next node: its GUID unless that is missing or zero, else its position. -/
def nextIdentity (g : Graph) (guid : Option Guid) : Identity :=
  match guid.filter (!·.isZero) with
  | some guid => .guid guid
  | none => .index g.size

theorem nextIdentity_of_nonzero {guid : Guid} (nonzero : guid.isZero = false) :
    g.nextIdentity (some guid) = .guid guid := by
  have chosen : (some guid).filter (!·.isZero) = some guid :=
    Option.filter_eq_some_iff.mpr ⟨rfl, by simp [nonzero]⟩
  simp only [nextIdentity, chosen]

@[simp] theorem add_fst (guid : Option Guid) (name : String) (body : Body) :
    (g.add guid name body).1 = g.size := by
  unfold add
  split <;> rfl

@[simp] theorem byStructure_add (guid : Option Guid) (name : String) (body : Body) :
    (g.add guid name body).2.byStructure = g.byStructure := by
  unfold add
  split <;> rfl

@[simp] theorem size_add (guid : Option Guid) (name : String) (body : Body) :
    (g.add guid name body).2.size = g.size + 1 := by
  unfold add
  split <;> simp [size]

theorem node?_add (guid : Option Guid) (name : String) (body : Body) (j : TypeId) :
    (g.add guid name body).2.node? j =
      if j = g.size then some { identity := g.nextIdentity guid, name, body } else g.node? j := by
  unfold add nextIdentity
  cases guid.filter (!·.isZero) with
  | none => exact Array.getElem?_push
  | some guid => exact Array.getElem?_push

theorem findGuid?_add (guid : Option Guid) (name : String) (body : Body) (other : Guid) :
    (g.add guid name body).2.findGuid? other =
      if g.nextIdentity guid = .guid other then some g.size else g.findGuid? other := by
  unfold add nextIdentity
  cases guid.filter (!·.isZero) with
  | none => simp [findGuid?]
  | some guid => simp [findGuid?, Table.get?_insert, eq_comm]

theorem appends_add (guid : Option Guid) (name : String) {body : Body}
    (declares : body.isDeclaration = true) :
    g.Appends { identity := g.nextIdentity guid, name, body } (g.add guid name body).2 where
  size_eq := size_add ..
  node_eq := node?_add guid name body
  guid_eq := findGuid?_add guid name body
  structure_eq s := by
    rw [byStructure_add, if_neg fun h => Body.isDeclaration_iff.mp declares s h.2]

/-- Changing the node that was appended last. -/
theorem node?_add_modify (guid : Option Guid) (name : String) (body : Body) (f : Node → Node)
    (j : TypeId) :
    ((g.add guid name body).2.modify g.size f).node? j =
      if j = g.size then some (f { identity := g.nextIdentity guid, name, body })
      else g.node? j := by
  rw [node?_modify, node?_add]
  by_cases h : j = g.size
  · simp [h]
  · rw [if_neg (Ne.symm h), if_neg h, if_neg h]

/-! ### Interning and external types -/

/-- A structure that is indexed is found again. -/
theorem intern_of_found {s : Structural} {id : TypeId} (h : g.byStructure.get? s = some id) :
    g.intern s = (id, g) := by
  simp [intern, h]

theorem intern_fst_of_new {s : Structural} (h : g.byStructure.get? s = none) :
    (g.intern s).1 = g.size := by
  simp [intern, h]

/-- The node that interning appends. -/
def internedNode (g : Graph) (s : Structural) : Node :=
  { identity := .index g.size, name := "", state := .complete, body := .structural s }

/-- A structure that is not indexed is appended, and nothing else happens. -/
theorem appends_intern {s : Structural} (h : g.byStructure.get? s = none) :
    g.Appends (g.internedNode s) (g.intern s).2 := by
  have shape : (g.intern s).2 =
      { (g.add none "" (.structural s)).2.modify g.size
          (fun node => { node with state := .complete }) with
        byStructure := g.byStructure.insert s g.size } := by
    simp [intern, h]
  refine ⟨?_, fun j => ?_, fun guid => ?_, fun other => ?_⟩
  · rw [shape]
    exact (size_modify ..).trans (size_add ..)
  · rw [shape]
    exact node?_add_modify ..
  · rw [shape, if_neg (by simp [internedNode])]
    exact (findGuid?_add ..).trans (if_neg (by simp [nextIdentity]))
  · rw [shape]
    simp [internedNode, Table.get?_insert, eq_comm]

/-- Under a known GUID only an empty name is filled in. -/
theorem external_of_found {guid : Guid} {id : TypeId} (name : String) (body : Body)
    (h : g.findGuid? guid = some id) :
    g.external guid name body =
      (id, g.modify id fun node => if node.name = "" then { node with name } else node) := by
  simp [external, h]

/-- The node that an external type appends. -/
def externalNode (g : Graph) (guid : Guid) (name : String) (body : Body) : Node :=
  { identity := g.nextIdentity (some guid), name, external := true, state := .complete, body }

theorem external_fst_of_new {guid : Guid} (name : String) (body : Body)
    (h : g.findGuid? guid = none) : (g.external guid name body).1 = g.size := by
  simp [external, h]

/-- A type under a new GUID is appended as an external node. -/
theorem appends_external {guid : Guid} (name : String) (body : Body)
    (h : g.findGuid? guid = none) :
    g.Appends (g.externalNode guid name body) (g.external guid name body).2 := by
  have shape : (g.external guid name body).2 =
      (g.add (some guid) name body).2.modify g.size
        (fun node => { node with external := true, state := .complete }) := by
    simp [external, h]
  refine ⟨?_, fun j => ?_, fun other => ?_, fun s => ?_⟩
  · rw [shape, size_modify, size_add]
  · rw [shape]
    exact node?_add_modify ..
  · rw [shape, findGuid?_modify, findGuid?_add]
    rfl
  · rw [shape, byStructure_modify, byStructure_add, if_neg (by simp [externalNode])]

/-! ### Growth -/

/-- Nodes stay where they are and keep their identity. A node that is structural afterwards was the
same structural node before. -/
structure Grows (g g' : Graph) : Prop where
  size_le : g.size ≤ g'.size
  kept : ∀ {id node}, g.node? id = some node → ∃ node', g'.node? id = some node' ∧
    node'.identity = node.identity ∧
    ∀ s, node'.body = .structural s → node.body = .structural s ∧ node'.external = node.external

namespace Grows

variable {g' g'' : Graph}

protected theorem refl (g : Graph) : g.Grows g :=
  ⟨Nat.le_refl _, fun {_ node} found => ⟨node, found, rfl, fun _ same => ⟨same, rfl⟩⟩⟩

protected theorem trans (first : g.Grows g') (second : g'.Grows g'') : g.Grows g'' := by
  refine ⟨Nat.le_trans first.size_le second.size_le, fun {id node} found => ?_⟩
  obtain ⟨node', found', identity', body'⟩ := first.kept found
  obtain ⟨node'', found'', identity'', body''⟩ := second.kept found'
  refine ⟨node'', found'', identity''.trans identity', fun s structural => ?_⟩
  obtain ⟨structural', external'⟩ := body'' s structural
  exact ⟨(body' s structural').1, external'.trans (body' s structural').2⟩

theorem index_kept (grows : g.Grows g') {id : TypeId}
    (h : ∃ node, g.node? id = some node ∧ node.identity = .index id) :
    ∃ node, g'.node? id = some node ∧ node.identity = .index id := by
  obtain ⟨node, found, index⟩ := h
  obtain ⟨node', found', same, _⟩ := grows.kept found
  exact ⟨node', found', same.trans index⟩

theorem of_appends {node : Node} (h : g.Appends node g') : g.Grows g' := by
  refine ⟨by simp [h.size_eq], fun {id old} found => ⟨old, ?_, rfl, fun _ same => ⟨same, rfl⟩⟩⟩
  rw [h.node_eq, if_neg (Nat.ne_of_lt (lt_size_of_node? found)), found]

/-- A changed node may get another body as long as that is a declaration. -/
theorem of_modify {id : TypeId} {f : Node → Node}
    (identity : ∀ node, (f node).identity = node.identity)
    (body : ∀ node, g.node? id = some node →
      ((f node).body = node.body ∧ (f node).external = node.external) ∨
        (f node).body.isDeclaration = true) :
    g.Grows (g.modify id f) := by
  refine ⟨by simp, fun {j node} found => ?_⟩
  by_cases same : id = j
  · subst same
    refine ⟨f node, node?_modify_self f found, identity node, fun s structural => ?_⟩
    rcases body node found with ⟨unchanged, external⟩ | declares
    · exact ⟨unchanged.symm.trans structural, external⟩
    · exact absurd structural (Body.isDeclaration_iff.mp declares s)
  · exact ⟨node, (node?_modify_of_ne f same).trans found, rfl, fun _ h => ⟨h, rfl⟩⟩

/-- What can be reached from an old node afterwards could be reached before, provided the bodies of
old nodes name old nodes only. -/
theorem reaches (grows : g.Grows g')
    (inside : ∀ {id node}, g.node? id = some node → ∀ t ∈ node.body.targets, t < g.size)
    {id last : TypeId} (h : g'.Reaches id last) (old : id < g.size) : g.Reaches id last := by
  induction h with
  | here => exact .here _
  | @step id next last leads _ ih =>
    obtain ⟨node, found⟩ := exists_node_of_lt old
    obtain ⟨node', found', _, body⟩ := grows.kept found
    simp only [body?, found', Option.map_some, Option.bind_some] at leads
    obtain ⟨s, structural, member⟩ := throughStructure_eq_some.mp leads
    have before := (body s structural).1
    have inner : next ∈ node.body.targets := by rwa [before]
    refine .step ?_ (ih (inside found next inner))
    simp only [body?, found, Option.map_some, Option.bind_some]
    exact throughStructure_eq_some.mpr ⟨s, before, member⟩

end Grows

end Graph

end ComTypes

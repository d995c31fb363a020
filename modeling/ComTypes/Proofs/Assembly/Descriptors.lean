import ComTypes.Proofs.Assembly.Consistent
import ComTypes.Proofs.Assembly.Members
import ComTypes.Proofs.Assembly.Underway

/-!
# What descriptors resolve to

A descriptor is a chain of pointers and arrays that ends in a built-in type or in a reference number. The
node that it is resolved to unfolds to the same chain, with the node that the reference names at its end
(`Resolution`). So two descriptors are resolved to the same node exactly when their unfoldings are equal,
however much happens in between, and resolving fails only where the reference names nothing
(`descriptors_resolve_faithfully`).

Unfolding stops at types that are defined elsewhere. Callers may hand in a structural body for one, and
such a node is not the interned node of its structure (`handed_structures_differ`).
-/

namespace ComTypes

open Assembler Assemble

variable {a b c s : Assembler} {id : TypeId} {info : TypeInfo} {desc target : TypeDesc}
  {href : UInt32}

namespace TypeDesc

/-- The reference number that a descriptor ends in. -/
def href? : TypeDesc → Option UInt32
  | base _ => none
  | pointer target => target.href?
  | safeArray element => element.href?
  | fixedArray _ element => element.href?
  | userDefined href => some href

/-- What a descriptor unfolds to, where reference numbers name nodes. -/
def unfolding? (named : UInt32 → Option TypeId) : TypeDesc → Option Unfolding
  | base primitive => some (.primitive primitive)
  | pointer target => (target.unfolding? named).map .pointer
  | safeArray element => (element.unfolding? named).map (.array · .safe)
  | fixedArray dims element => (element.unfolding? named).map (.array · (.fixed dims))
  | userDefined href => (named href).map .named

end TypeDesc

namespace Assembler

/-- The node that a reference number of a type info names. A type defined elsewhere that has none yet gets
the next one. -/
def named? (a : Assembler) (info : TypeInfo) (href : UInt32) : Option TypeId :=
  match info.references.get? href with
  | some (.within index) => a.slots.get? index.toNat
  | some (.external guid _ kind) => (Body.blank? kind).map fun _ => a.host guid
  | none => none

/-- The reference number names nothing: it is not in the table, its type info has no node, or it stands for
a module or a coclass of another library. -/
def Lost (a : Assembler) (info : TypeInfo) (href : UInt32) : Prop :=
  info.references.get? href = none ∨
    (∃ index, info.references.get? href = some (.within index) ∧ a.slots.get? index.toNat = none) ∨
    ∃ guid name kind, info.references.get? href = some (.external guid name kind) ∧
      (kind = .moduleInfo ∨ kind = .coclass)

/-- The node is what a reference names, where `b` comes from `a` by resolving it. -/
inductive Denotes (a b : Assembler) (id : TypeId) : TypeReference → Prop
  /-- A type info of the library has a declaration that is in use. -/
  | within {index : UInt32} {node : Node} :
      a.slots.get? index.toNat = some id →
      b.graph.node? id = some node → node.isDeclaration = true → Denotes a b id (.within index)
  /-- A GUID leads to a node in use, which is a declaration or was handed in from outside. -/
  | known {guid : Guid} {name : String} {kind : TypeKind} {node : Node} :
      guid.isZero = false → a.graph.findGuid? guid = some id → b.graph.findGuid? guid = some id →
      b.graph.node? id = some node → node.retired = false →
      (node.body.isDeclaration = true ∨ node.external = true) → Denotes a b id (.external guid name kind)
  /-- A GUID that leads nowhere, as the zero GUID does, is given a new node without contents. -/
  | fresh {guid : Guid} {name : String} {kind : TypeKind} {body : Body} :
      a.graph.findGuid? guid = none → id = a.graph.size → Body.blank? kind = some body →
      b.graph.node? id = some (a.graph.externalNode guid name body) →
      (guid.isZero = false → b.graph.findGuid? guid = some id) → Denotes a b id (.external guid name kind)

/-- What a reference denotes is still denoted when the graph has grown. -/
theorem Denotes.keeps {reference : TypeReference} (denotes : a.Denotes b id reference)
    (keeps : b.graph.Keeps c.graph) : a.Denotes c id reference := by
  cases denotes with
  | within slotted found declares => exact .within slotted (keeps.node found) declares
  | known nonzero before after found used declares =>
    exact .known nonzero before (keeps.guid after) (keeps.node found) used declares
  | fresh unknown new blank found indexed =>
    exact .fresh unknown new blank (keeps.node found) fun nonzero => keeps.guid (indexed nonzero)

end Assembler

/-- What resolving a descriptor in `a` leaves in `b`. -/
structure Resolution (info : TypeInfo) (desc : TypeDesc) (a : Assembler) (id : TypeId)
    (b : Assembler) : Prop where
  unfolds : ∃ tree, desc.unfolding? (a.named? info) = some tree ∧
    b.graph.Unfolds Node.interned? id tree
  /-- The leaf of the unfolding is what the reference names. -/
  denotes : ∀ {href}, desc.href? = some href → ∃ leaf reference, a.named? info href = some leaf ∧
    info.references.get? href = some reference ∧ a.Denotes b leaf reference
  /-- Old nodes are unchanged, but a GUID may lead to one without a name and fill it in. -/
  nodes : ∀ {j node}, a.graph.node? j = some node → b.graph.node? j = some node ∨
    ∃ href guid name kind, desc.href? = some href ∧
      info.references.get? href = some (.external guid name kind) ∧ node.identity = .guid guid ∧
      node.name = "" ∧ b.graph.node? j = some { node with name }
  rest : b = { a with graph := b.graph }

/-! ### References -/

/-- A reference number that names nothing is a failure without effect. Any other leads to the node of a type
info, or to the one for a type defined elsewhere. -/
theorem resolveHref_cases (info : TypeInfo) (href : UInt32) (a : Assembler) :
    (a.Lost info href ∧ ∃ fault, resolveHref info href a = .error fault a) ∨
      (∃ index id, info.references.get? href = some (.within index) ∧
        a.slots.get? index.toNat = some id ∧ resolveHref info href a = .ok id a) ∨
      ∃ guid name kind body, info.references.get? href = some (.external guid name kind) ∧
        Body.blank? kind = some body ∧
        resolveHref info href a = .ok (a.graph.external guid name body).1
          { a with graph := (a.graph.external guid name body).2 } := by
  unfold Assemble.resolveHref Lost
  cases info.references.get? href with
  | none => exact .inl ⟨.inl rfl, _, rfl⟩
  | some target =>
    cases target with
    | within index =>
      dsimp only
      rw [get_bind]
      cases slotted : a.slots.get? index.toNat with
      | none => exact .inl ⟨.inr (.inl ⟨index, rfl, slotted⟩), _, rfl⟩
      | some id => exact .inr (.inl ⟨index, id, rfl, slotted, rfl⟩)
    | external guid name kind =>
      dsimp only
      cases blank : Body.blank? kind with
      | none =>
        have unusable : kind = .moduleInfo ∨ kind = .coclass := by
          cases kind <;> simp [Body.blank?] at blank ⊢
        exact .inl ⟨.inr (.inr ⟨guid, name, kind, rfl, unusable⟩), _, rfl⟩
      | some body => exact .inr (.inr ⟨guid, name, kind, body, rfl, blank, rfl⟩)

theorem resolveHref_of_within {index : UInt32} (regular : a.Regular)
    (reference : info.references.get? href = some (.within index))
    (slotted : a.slots.get? index.toNat = some id) :
    Resolution info (.userDefined href) a id a := by
  have named : a.named? info href = some id := by
    rw [named?, reference]
    exact slotted
  obtain ⟨node, found, declares⟩ := regular.declared slotted
  have apart := (regular.ordered.sound.slots slotted).editable.interned? found
  have inUse : node.isDeclaration = true := by
    rw [Node.isDeclaration, regular.inUse.not_retired slotted found, declares]
    rfl
  constructor
  · exact ⟨_, by rw [TypeDesc.unfolding?, named, Option.map_some], .named found apart⟩
  · rintro _ ⟨⟩
    exact ⟨id, _, named, reference, .within slotted found inUse⟩
  · exact .inl
  · rfl

/-- A GUID that is known leads to its node, which may get a name. -/
theorem resolveHref_of_known {guid : Guid} {name : String} {kind : TypeKind} {body : Body}
    (regular : a.Regular) (reference : info.references.get? href = some (.external guid name kind))
    (blank : Body.blank? kind = some body) (known : a.graph.findGuid? guid = some id) :
    Resolution info (.userDefined href) a (a.graph.external guid name body).1
      { a with graph := (a.graph.external guid name body).2 } := by
  have wf := regular.ordered.sound.graph
  have named : a.named? info href = some id := by
    rw [named?, reference]
    simp only [blank, Option.map_some, host_of_known known]
  obtain ⟨nonzero, node, found, identity⟩ := (wf.findGuid_iff guid id).mp known
  have editable := (wf.isSlot_of_guid known).editable
  have used : node.retired = false := by
    cases gone : node.retired with
    | false => rfl
    | true => exact absurd (.inl ⟨node, found, gone⟩) (regular.inUse.guid known)
  have outside : node.body.isDeclaration = true ∨ node.external = true := by
    cases shape : node.body with
    | structural s => exact .inr (Node.interned?_eq_none.mp (editable.interned? found) s shape)
    | typedef | enumeration | record | interface => exact .inl rfl
  have filled : a.graph.external guid name body = (id, a.graph.modify id (Node.fill name)) :=
    Graph.external_of_found name body known
  have found' := Graph.node?_modify_self (Node.fill name) found
  -- The node afterwards differs in its name at most.
  have same := (node.named_fill name).rest
  have retired : (node.fill name).retired = false := by
    rw [same]
    exact used
  have outside' : (node.fill name).body.isDeclaration = true ∨ (node.fill name).external = true := by
    rw [same]
    exact outside
  have apart : (node.fill name).interned? = none := by
    have before := editable.interned? found
    rw [same]
    exact before
  rw [filled]
  constructor
  · exact ⟨_, by rw [TypeDesc.unfolding?, named, Option.map_some], .named found' apart⟩
  · rintro _ ⟨⟩
    exact ⟨id, _, named, reference, .known nonzero known known found' retired outside'⟩
  · intro j old at_j
    by_cases here : id = j
    · subst here
      cases found.symm.trans at_j
      rcases node.fill_cases name with ⟨empty, fill⟩ | ⟨_, fill⟩
      · exact .inr ⟨href, guid, name, kind, rfl, reference, identity, empty, fill ▸ found'⟩
      · exact .inl (fill ▸ found')
    · exact .inl ((Graph.node?_modify_of_ne _ here).trans at_j)
  · rfl

/-- A GUID that is not known is given a new node. -/
theorem resolveHref_of_unknown {guid : Guid} {name : String} {kind : TypeKind} {body : Body}
    (reference : info.references.get? href = some (.external guid name kind))
    (blank : Body.blank? kind = some body) (unknown : a.graph.findGuid? guid = none) :
    Resolution info (.userDefined href) a (a.graph.external guid name body).1
      { a with graph := (a.graph.external guid name body).2 } := by
  have named : a.named? info href = some a.graph.size := by
    rw [named?, reference]
    simp only [blank, Option.map_some, host, unknown, Option.getD_none]
  have appends := Graph.appends_external name body unknown
  have found := Graph.WellFormed.appended appends
  have apart : (a.graph.externalNode guid name body).interned? = none := rfl
  rw [Graph.external_fst_of_new name body unknown]
  constructor
  · exact ⟨_, by rw [TypeDesc.unfolding?, named, Option.map_some], .named found apart⟩
  · rintro _ ⟨⟩
    refine ⟨_, _, named, reference, .fresh unknown rfl blank found fun nonzero => ?_⟩
    exact (appends.guid_eq guid).trans (if_pos (Graph.nextIdentity_of_nonzero nonzero))
  · intro j old at_j
    refine .inl ?_
    rw [appends.node_eq, if_neg (Nat.ne_of_lt (Graph.lt_size_of_node? at_j)), at_j]
  · rfl

/-- A reference number that resolves names the node that the reference table calls for. -/
theorem resolveHref_resolution (regular : a.Regular) (run : resolveHref info href a = .ok id b) :
    Resolution info (.userDefined href) a id b := by
  rcases resolveHref_cases info href a with ⟨_, fault, ran⟩ | ⟨index, own, reference, slotted, ran⟩ |
    ⟨guid, name, kind, body, reference, blank, ran⟩
  · cases ran.symm.trans run
  · cases ran.symm.trans run
    exact resolveHref_of_within regular reference slotted
  · have resolution : Resolution info (.userDefined href) a (a.graph.external guid name body).1
        { a with graph := (a.graph.external guid name body).2 } := by
      cases known : a.graph.findGuid? guid with
      | some own => exact resolveHref_of_known regular reference blank known
      | none => exact resolveHref_of_unknown reference blank known
    cases ran.symm.trans run
    exact resolution

/-! ### Descriptors -/

/-- A structure around a descriptor that was resolved is interned. -/
theorem Resolution.intern (inner : Resolution info target a id b) (regular : b.Regular)
    {structural : Structural} {wrap : Unfolding → Unfolding}
    (href : desc.href? = target.href?)
    (unfolding : ∀ named, desc.unfolding? named = (target.unfolding? named).map wrap)
    (wraps : ∀ {g : Graph} {j node tree}, g.node? j = some node → node.interned? = some structural →
      g.Unfolds Node.interned? id tree → g.Unfolds Node.interned? j (wrap tree)) :
    Resolution info desc a (b.graph.intern structural).1
      { b with graph := (b.graph.intern structural).2 } := by
  have keeps : b.graph.Keeps (b.graph.intern structural).2 := Graph.intern_keeps structural
  obtain ⟨node, found, interned⟩ := regular.ordered.sound.graph.node?_intern structural
  obtain ⟨tree, same, unfolds⟩ := inner.unfolds
  constructor
  · refine ⟨wrap tree, by rw [unfolding, same, Option.map_some], ?_⟩
    exact wraps found interned (unfolds.lasts (.of_keeps keeps))
  · intro number ends
    obtain ⟨leaf, reference, named, stored, denotes⟩ := inner.denotes (href.symm.trans ends)
    exact ⟨leaf, reference, named, stored, denotes.keeps keeps⟩
  · intro j old at_j
    rcases inner.nodes at_j with same | ⟨number, guid, name, kind, ends, stored, identity, empty, filled⟩
    · exact .inl (keeps.node same)
    · exact .inr ⟨number, guid, name, kind, href.trans ends, stored, identity, empty, keeps.node filled⟩
  · rw [inner.rest]

theorem Assembler.Regular.resolve (regular : a.Regular) (run : resolve info desc a = .ok id b) :
    b.Regular ∧ a.graph.Lasts b.graph := by
  have stepped := regular.step (.resolve info desc)
  rwa [run] at stepped

/-- By induction on the descriptor: each level interns one structure around what the one below gave. -/
theorem resolve_resolution (regular : a.Regular) (run : resolve info desc a = .ok id b) :
    Resolution info desc a id b := by
  induction desc generalizing id b with
  | base primitive =>
    cases run
    have keeps : a.graph.Keeps (a.graph.intern (.primitive primitive)).2 := Graph.intern_keeps _
    obtain ⟨node, found, interned⟩ := regular.ordered.sound.graph.node?_intern (.primitive primitive)
    exact ⟨⟨_, rfl, .primitive found interned⟩, nofun, fun at_j => .inl (keeps.node at_j), rfl⟩
  | pointer target ih =>
    obtain ⟨inner, t, first, rest⟩ := exists_of_bind_ok run
    cases rest
    exact (ih first).intern (regular.resolve first).1 rfl (fun _ => rfl) .pointer
  | safeArray element ih =>
    obtain ⟨inner, t, first, rest⟩ := exists_of_bind_ok run
    cases rest
    exact (ih first).intern (regular.resolve first).1 rfl (fun _ => rfl) .array
  | fixedArray dims element ih =>
    obtain ⟨inner, t, first, rest⟩ := exists_of_bind_ok run
    cases rest
    exact (ih first).intern (regular.resolve first).1 rfl (fun _ => rfl) .array
  | userDefined href => exact resolveHref_resolution regular run

/-! ### Failures -/

/-- A reference number is lost if the table has no entry for it, or one that leads nowhere. -/
theorem TypeInfo.refers_eq_false_iff :
    info.refers a.slots href = false ↔ a.Lost info href := by
  unfold TypeInfo.refers Lost
  cases info.references.get? href with
  | none => simp
  | some target =>
    cases target with
    | within index => simp
    | external guid name kind => simp [or_iff_not_imp_left]

/-- A descriptor is lost with the reference number at its leaf. -/
theorem TypeInfo.resolves_eq_false_iff :
    info.resolves a.slots desc = false ↔ ∃ href, desc.href? = some href ∧ a.Lost info href := by
  induction desc with
  | base primitive => simp [TypeInfo.resolves, TypeDesc.href?]
  | pointer target ih | safeArray target ih | fixedArray dims target ih => exact ih
  | userDefined href => simp [TypeInfo.resolves, TypeDesc.href?, TypeInfo.refers_eq_false_iff]

/-- Resolving fails before anything is done. -/
theorem resolve_error {fault : Fault} (run : resolve info desc a = .error fault b) : b = a := by
  induction desc with
  | base primitive => cases run
  | pointer target ih | safeArray target ih | fixedArray dims target ih =>
    unfold Assemble.resolve at run
    cases first : resolve info target a with
    | ok inner t =>
      rw [ok_bind first] at run
      cases run
    | error earlier t =>
      rw [error_bind first] at run
      cases run
      exact ih first
  | userDefined href =>
    have run : resolveHref info href a = .error fault b := run
    rcases resolveHref_cases info href a with ⟨_, _, ran⟩ | ⟨_, _, _, _, ran⟩ | ⟨_, _, _, _, _, _, ran⟩
    · cases ran.symm.trans run
      rfl
    · cases ran.symm.trans run
    · cases ran.symm.trans run

/-- Resolving fails for a lost reference number and for nothing else. -/
theorem resolve_fails_iff :
    (∃ fault b, resolve info desc a = .error fault b) ↔
      ∃ href, desc.href? = some href ∧ a.Lost info href := by
  rw [← TypeInfo.resolves_eq_false_iff]
  have decided : Decided a.slots (info.resolves a.slots desc) (resolve info desc) :=
    .resolve info desc
  rcases decided.ends rfl with ⟨value, t, run, fine, _⟩ | ⟨fault, t, run, fine, _⟩
  · rw [run, fine]
    simp
  · rw [run, fine]
    simp

/-! ### Whole runs -/

/-- After any calls, and also in the middle of the next one, resolving a descriptor fails exactly when its
reference names nothing, and then changes nothing. If it succeeds, the node unfolds to the descriptor, down
to the node that the reference names, and old nodes are unchanged but for a name that is filled in. A
descriptor that is resolved at any later time gets the same node exactly when it has the same unfolding. -/
theorem descriptors_resolve_faithfully (calls : Reachable (fun _ _ => True) s) (steps : s.Leads a)
    (info : TypeInfo) (desc : TypeDesc) :
    ((∃ fault b, resolve info desc a = .error fault b) ↔
        ∃ href, desc.href? = some href ∧ a.Lost info href) ∧
      (∀ fault b, resolve info desc a = .error fault b → b = a) ∧
      ∀ id b, resolve info desc a = .ok id b →
        Resolution info desc a id b ∧
        (∀ tree, b.graph.Unfolds Node.interned? id tree ↔
          desc.unfolding? (a.named? info) = some tree) ∧
        ∀ c info' desc' id' d, b.Leads c → resolve info' desc' c = .ok id' d →
          (∀ tree, d.graph.Unfolds Node.interned? id tree ↔
            desc.unfolding? (a.named? info) = some tree) ∧
          (id' = id ↔ desc'.unfolding? (c.named? info') = desc.unfolding? (a.named? info)) := by
  have regular : a.Regular := by
    obtain ⟨strict, leads⟩ := calls.leads
    exact Leads.regular (leads.trans steps)
  refine ⟨resolve_fails_iff, fun _ _ => resolve_error, fun id b resolved => ?_⟩
  have resolution := resolve_resolution regular resolved
  obtain ⟨tree, same, unfolds⟩ := resolution.unfolds
  have only : ∀ {g : Graph} {tree}, g.Unfolds Node.interned? id tree →
      ∀ other, g.Unfolds Node.interned? id other ↔ some tree = some other := by
    intro g tree here other
    rw [Option.some.injEq]
    exact ⟨fun there => (here.unique there).symm, fun same => same ▸ here⟩
  refine ⟨resolution, same ▸ only unfolds, fun c info' desc' id' d later resolved' => ?_⟩
  obtain ⟨regular_b, _⟩ := regular.resolve resolved
  obtain ⟨regular_c, lasts_c⟩ := later.regular_and_lasts regular_b
  obtain ⟨regular_d, lasts_d⟩ := regular_c.resolve resolved'
  -- Both nodes unfold in the last graph, where the first one has not changed.
  have still := unfolds.lasts (lasts_c.trans lasts_d)
  obtain ⟨tree', same', unfolds'⟩ := (resolve_resolution regular_c resolved').unfolds
  refine ⟨same ▸ only still, ?_⟩
  rw [same, same', Option.some.injEq]
  constructor
  · rintro rfl
    exact still.unique unfolds'
  · rintro rfl
    exact still.injective regular_d.ordered.sound.graph unfolds'

/-- The run that adds one library. -/
def mixedRun : Assembler := Call.run {} (.addLibrary mixedLibrary)

/-- A safe array of pointers to the type that is referred to. -/
def handles : TypeDesc := .safeArray (.pointer (.userDefined 0))

/-- The descriptor gets the same node again after the library was added a second time. -/
theorem mixedRun_resolved :
    ∃ id b d, resolve (pointerInfo .zero (.within 2)) handles mixedRun = .ok id b ∧
      resolve (pointerInfo .zero (.within 2)) handles (Call.run b (.addLibrary mixedLibrary)) =
        .ok id d ∧
      ∀ tree, d.graph.Unfolds Node.interned? id tree ↔
        some (.array (.pointer (.named 1)) .safe) = some tree := by
  have calls : Reachable (fun _ _ => True) mixedRun := .step _ (.start false) trivial
  obtain ⟨_, _, faithful⟩ :=
    descriptors_resolve_faithfully calls .refl (pointerInfo .zero (.within 2)) handles
  have first : resolve (pointerInfo .zero (.within 2)) handles mixedRun = .ok 6 _ :=
    eq_ok_of_value? (by decide +kernel)
  obtain ⟨_, _, later⟩ := faithful _ _ first
  have again := Call.run_leads (.addLibrary mixedLibrary)
    (left (resolve (pointerInfo .zero (.within 2)) handles mixedRun))
  obtain ⟨id', value⟩ : ∃ id', value? (resolve (pointerInfo .zero (.within 2)) handles (Call.run
      (left (resolve (pointerInfo .zero (.within 2)) handles mixedRun)) (.addLibrary mixedLibrary))) =
      some id' := Option.isSome_iff_exists.mp (by decide +kernel)
  have second := eq_ok_of_value? value
  obtain ⟨still, same⟩ := later _ _ _ _ _ again second
  obtain rfl : id' = 6 := same.mpr (by decide +kernel)
  have unfolding : handles.unfolding? (mixedRun.named? (pointerInfo .zero (.within 2))) =
      some (.array (.pointer (.named 1)) .safe) := by decide +kernel
  rw [unfolding] at still
  exact ⟨6, _, _, first, second, still⟩

/-- A structural body that was handed in for a type defined elsewhere is another node than the interned
one. If unfolding goes through it as well, a reference to it does not unfold to a node that it names, and
two nodes unfold to the same built-in type. -/
theorem handed_structures_differ :
    (¬ ∀ a, Reachable (fun _ _ => True) a → ∀ info desc id b, resolve info desc a = .ok id b →
      ∃ tree, desc.unfolding? (a.named? info) = some tree ∧ b.graph.Unfolds Node.structure? id tree) ∧
    ¬ ∀ a, Reachable (fun _ _ => True) a → ∀ info desc id b info' desc' id' c,
      resolve info desc a = .ok id b → resolve info' desc' b = .ok id' c →
      (∃ tree, c.graph.Unfolds Node.structure? id tree ∧ c.graph.Unfolds Node.structure? id' tree) →
      id' = id := by
  have run : Reachable (fun _ _ => True) handingRun := by
    unfold handingRun
    exact .step _ (.step _ (.step _ (.start false) trivial) trivial) trivial
  have first : resolve (pointerInfo .zero (.external (.ofBytes [1]) "First" .typedef)) (.userDefined 0)
      handingRun = .ok 0 handingRun := by rfl
  constructor
  · intro faithful
    obtain ⟨tree, same, unfolds⟩ := faithful _ run _ _ _ _ first
    obtain rfl : tree = .named 0 := Option.some.inj (same.symm.trans rfl)
    cases unfolds with
    | named found shut =>
      cases found
      cases shut
  · intro unique
    have second : resolve (pointerInfo .zero (.within 0)) (.base .i4) handingRun = .ok 3 _ :=
      eq_ok_of_value? (by decide +kernel)
    have same := unique _ run _ _ _ _ _ _ _ _ first second
      ⟨.primitive .i4, .primitive rfl rfl, .primitive rfl rfl⟩
    cases same

end ComTypes

import ComTypes.Proofs.Graph.Needed
import ComTypes.Proofs.Proxy.Frame
import ComTypes.Proofs.Render.Forward

/-!
# Rendering interfaces and what they need

With only interfaces to be rendered, the roots that are interfaces are kept, and with them those that are needed
for them. So exactly the needed roots are rendered, and an incomplete root that is not needed does no harm
(`interfaces_only_selects_closure`). Whatever the body of a rendered declaration names is needed too, or it is
an interface. It is rendered if it is a root, and a declaration of the graph itself is a root as long as it is in
use.
-/

namespace ComTypes

namespace Graph

variable {g : Graph} {roots : List TypeId} {id target : TypeId}

/-- Through pointers and arrays, the body of a declaration names another declaration. -/
def NamesDeclaration (g : Graph) (id target : TypeId) : Prop :=
  (∃ t ∈ g.bodyReferences id, g.Leads throughStructure t target) ∧
    (g.body? target).any Body.isDeclaration

theorem isDeclaration_of_needed (needed : g.Needed roots id) :
    (g.body? id).any Body.isDeclaration = true := by
  cases needed with
  | interface _ interface => exact any_body?_mono Body.isDeclaration_of_isInterface interface
  | named _ named => exact any_body?_mono Body.isDeclaration_of_isData named.2

/-- What a needed type names is needed too, or it is an interface. -/
theorem Needed.names (needed : g.Needed roots id) (names : g.NamesDeclaration id target) :
    g.Needed roots target ∨ (g.body? target).any Body.isInterface := by
  obtain ⟨leads, declares⟩ := names
  obtain ⟨body, found, holds⟩ := (Option.any_eq_true _ _).mp declares
  cases body with
  | interface => exact .inr (by rw [found]; rfl)
  | record | typedef | enumeration => exact .inl (.named needed ⟨leads, by rw [found]; rfl⟩)
  | structural => cases holds

/-- A declaration of the graph itself is a root, unless it is out of use. -/
theorem mem_roots_of_declaration (declares : (g.body? target).any Body.isDeclaration)
    (own : g.isExternal target = false) (used : (g.node? target).any (·.retired) = false) :
    target ∈ g.roots := by
  obtain ⟨body, known, holds⟩ := (Option.any_eq_true _ _).mp declares
  obtain ⟨node, found, rfl⟩ := Option.map_eq_some_iff.mp known
  rw [isExternal, found, Option.any_some] at own
  rw [found, Option.any_some] at used
  rw [mem_roots_iff, found, Option.any_some, Node.isDeclaration, used, own, holds]
  rfl

end Graph

/-- Where callers keep off records, what a root names is in use. -/
theorem used_of_named {a : Assembler} (run : Reachable (fun a call => call.KeepsOff a) a)
    {id target : TypeId} (root : id ∈ a.graph.roots) (names : a.graph.NamesDeclaration id target) :
    (a.graph.node? target).any (·.retired) = false := by
  obtain ⟨⟨t, member, leads⟩, declares⟩ := names
  obtain ⟨node, found, holds⟩ := (Option.any_eq_true _ _).mp (Graph.mem_roots_iff.mp root)
  rw [Bool.and_eq_true] at holds
  obtain ⟨body, known, _⟩ := (Option.any_eq_true _ _).mp declares
  obtain ⟨last, found', _⟩ := Option.map_eq_some_iff.mp known
  have named : t ∈ node.body.targets := by
    rw [Graph.bodyReferences, Graph.body?, found] at member
    exact Body.references_subset_targets member
  have used := (run.reserving.tidy trivial).in_use found holds.1 named
    (Graph.reaches_iff_leads.mpr leads) found'
  rw [found', Option.any_some, used]

namespace Renderer

variable {r : Renderer} (only : r.options.interfacesOnly = true)
include only

theorem select_eq (g : Graph) (roots : List TypeId) :
    r.options.select g roots = roots.filter (g.Needed roots ·) := by
  rw [RenderOptions.select, if_pos only, Graph.interfacesAndReachable_eq]

theorem declared_eq (g : Graph) (roots : List TypeId) :
    Graph.declared (r.items g roots) = roots.filter (g.Needed roots ·) := by
  rw [Renderer.items, select_eq only, Graph.declared_plan, List.filter_eq_self]
  intro id member
  exact Graph.isDeclaration_of_needed (of_decide_eq_true (List.mem_filter.mp member).2)

theorem declare_iff {g : Graph} {roots : List TypeId} {id : TypeId} :
    .declare id ∈ r.items g roots ↔ id ∈ roots ∧ g.Needed roots id := by
  rw [← Graph.mem_declared, declared_eq only, List.mem_filter, decide_eq_true_iff]

/-- What a rendered declaration names is a root if it is the graph's own and in use, and then it is rendered. -/
theorem declare_of_names {g : Graph} {id target : TypeId} (rendered : .declare id ∈ r.items g g.roots)
    (names : g.NamesDeclaration id target) (own : g.isExternal target = false)
    (used : (g.node? target).any (·.retired) = false) : .declare target ∈ r.items g g.roots := by
  rw [declare_iff only] at rendered ⊢
  have kept := Graph.mem_roots_of_declaration names.2 own used
  rcases rendered.2.names names with needed | interface
  · exact ⟨kept, needed⟩
  · exact ⟨kept, .interface kept interface⟩

end Renderer

/-- With only interfaces to be rendered, the search for what they need ends in every graph whose bodies name
types of the graph and whose chains of pointers and arrays come to an end. It ends in one way only, and the roots
that it finds are the ones to be rendered. These are exactly the needed roots, and they are declared in their
order. The rendering of roots that the graph has succeeds unless one of these is incomplete. When all roots of
a graph are given, whatever the body of a rendered declaration names is rendered too, unless it is defined
elsewhere or out of use. Where callers keep off records, chains come to an end and the latter does not happen. -/
theorem interfaces_only_selects_closure {r : Renderer} (only : r.options.interfacesOnly = true) :
    (∀ (g : Graph) (roots : List TypeId), g.Founded →
      (∃ result, (∀ other, (Graph.Worklist.start g roots).Ends g other ↔ other = result) ∧
        r.options.select g roots = roots.filter (· ∈ result)) ∧
      Graph.declared (r.items g roots) = roots.filter (g.Needed roots ·) ∧
      (∀ text, (r.render g roots).1 = .ok text →
        text = sourceText ((r.items g roots).flatMap (RenderOptions.itemLines (r.scope g)))) ∧
      ((∀ id ∈ roots, id < g.size) → ((∃ text, (r.render g roots).1 = .ok text) ↔
        r.options.bestEffort = true ∨
          ∀ id ∈ roots, g.Needed roots id → (g.node? id).any (·.isParsed))) ∧
      (roots = g.roots → ∀ id target, .declare id ∈ r.items g roots → g.NamesDeclaration id target →
        g.isExternal target = false → (g.node? target).any (·.retired) = false →
        .declare target ∈ r.items g roots)) ∧
    (∀ a, Reachable (fun a call => call.KeepsOff a) a → a.graph.Founded ∧
      ∀ id target, .declare id ∈ r.items a.graph a.graph.roots → a.graph.NamesDeclaration id target →
        a.graph.isExternal target = false → .declare target ∈ r.items a.graph a.graph.roots) := by
  refine ⟨fun g roots founded =>
      ⟨?_, Renderer.declared_eq only g roots, fun text => Renderer.text_eq, fun _ => ?_, ?_⟩,
    fun a run => ⟨?_, fun id target rendered names own => ?_⟩⟩
  · obtain ⟨result, ends, all⟩ := Graph.Worklist.ends_with_needed founded roots
    refine ⟨result, ends, ?_⟩
    rw [Renderer.select_eq only]
    exact List.filter_congr fun id _ => decide_eq_decide.mpr (all id).symm
  · rw [Renderer.render_ok_iff, Renderer.select_eq only]
    simp
  · rintro rfl id target rendered names own used
    exact Renderer.declare_of_names only rendered names own used
  · exact run.reserving.sound.graph.founded (Policy.reserving.bounded_of_guarded trivial)
  · have root : id ∈ a.graph.roots := ((Renderer.declare_iff only).mp rendered).1
    exact Renderer.declare_of_names only rendered names own (used_of_named run root names)

/-! ### A record that is named -/

/-- Render interfaces and what they need. -/
def interfacesOnly : Renderer := { options := { interfacesOnly := true } }

/-- The interface of a proxy is rendered together with the record that its method takes, and for these two the
search ends. -/
theorem record_rendered_with_interface :
    let g := (Call.run {} (.withRecord (.ofBytes [1]))).graph
    (∃ result, (Graph.Worklist.start g g.roots).Ends g result) ∧
      (∃ text, (interfacesOnly.render g g.roots).1 = .ok text) ∧
      Item.declare 1 ∈ interfacesOnly.items g g.roots := by
  have run : Reachable (fun a call => call.KeepsOff a) (Call.run {} (.withRecord (.ofBytes [1]))) := by
    refine .step _ (.start false) ?_
    show Guid.isZero _ = false
    decide
  generalize made : Call.run {} (.withRecord (.ofBytes [1])) = a at run ⊢
  have names : a.graph.NamesDeclaration 0 1 := by
    subst made
    exact ⟨⟨1, by decide +kernel, .here 1⟩, by decide +kernel⟩
  have rendered : Item.declare 0 ∈ interfacesOnly.items a.graph a.graph.roots := by
    subst made
    decide +kernel
  have own : a.graph.isExternal 1 = false := by
    subst made
    decide +kernel
  have complete : ∀ id ∈ a.graph.roots, (a.graph.node? id).any (·.isParsed) := by
    subst made
    decide +kernel
  have inside : ∀ id ∈ a.graph.roots, id < a.graph.size := by
    subst made
    decide +kernel
  obtain ⟨general, built⟩ := interfaces_only_selects_closure (r := interfacesOnly) rfl
  obtain ⟨founded, closed⟩ := built a run
  obtain ⟨⟨result, ends, _⟩, _, _, succeeds, _⟩ := general a.graph a.graph.roots founded
  refine ⟨⟨result, (ends result).mpr rfl⟩, ?_, closed 0 1 rendered names own⟩
  exact (succeeds inside).mpr (.inr fun id root _ => complete id root)

/-- A proxy whose method takes a pointer to an interface. -/
def handleProxy : Bytes := ProxyImage.encode
  { baseIid := .zero
    procOffsets := [0]
    procFormat := [0x33, 0x42, 3, 0, 0, 0, 0, 0, 0, 0, 0, 1, 0x08, 0, 0, 0, 0, 0]
    typeFormat := [0x2F, 0x5A] ++ Encode.guid (.ofBytes [2]) }

/-- A caller hands in a pointer to the record of a proxy in place of the interface that a method of another
proxy takes. Then the first proxy is decoded again and has lost its record. -/
def handedRecord : Assembler :=
  Call.run (Call.run (Call.run (Call.run {} (.withRecord (.ofBytes [1])))
    (.external (.ofBytes [2]) "Handle" (.structural (.pointer 1))))
    (.addProxy handleProxy (.ofBytes [3]) (some "IUser") fun _ _ => none))
    (.addProxy bareProxy (.ofBytes [1]) none fun _ _ => none)

/-- The method still takes the record, which is out of use and is not rendered. -/
theorem handedRecord_not_rendered :
    Reachable (fun _ call => ∀ bytes iid name names,
        call = .addProxy bytes iid name names → iid.isZero = false) handedRecord ∧
      handedRecord.graph.Founded ∧
      (∃ text, (interfacesOnly.render handedRecord.graph handedRecord.graph.roots).1 = .ok text) ∧
      Item.declare 5 ∈ interfacesOnly.items handedRecord.graph handedRecord.graph.roots ∧
      handedRecord.graph.NamesDeclaration 5 1 ∧ handedRecord.graph.isExternal 1 = false ∧
      Item.declare 1 ∉ interfacesOnly.items handedRecord.graph handedRecord.graph.roots := by
  refine ⟨?_, ?_, ⟨_, Renderer.render_of_clear (by decide +kernel)⟩, by decide +kernel,
    ⟨⟨6, by decide +kernel, ?_⟩, by decide +kernel⟩, by decide +kernel, by decide +kernel⟩
  · refine .step _ (.step _ (.step _ (.step _ (.start false) ?_) ?_) ?_) ?_
    · rintro _ _ _ _ ⟨⟩
      decide
    · rintro _ _ _ _ ⟨⟩
    · rintro _ _ _ _ ⟨⟩
      decide
    · rintro _ _ _ _ ⟨⟩
      decide
  · have inside : ∀ node ∈ handedRecord.graph.nodes.toList,
        ∀ t ∈ node.body.targets, t < handedRecord.graph.size := by decide +kernel
    have earlier : ∀ id < handedRecord.graph.size,
        ∀ next ∈ (handedRecord.graph.body? id).bind Graph.throughStructure, next < id := by decide +kernel
    refine ⟨fun found => inside _ (Array.mem_toList_iff.mpr (Array.mem_of_getElem? found)), fun id _ => ?_⟩
    exact Graph.exists_endsIn_of_earlier (fun leads => earlier _ (Graph.lt_size_of_leads leads) _ leads) id
  · have first : (handedRecord.graph.body? 6).bind Graph.throughStructure = some 4 := by decide +kernel
    have second : (handedRecord.graph.body? 4).bind Graph.throughStructure = some 1 := by decide +kernel
    exact .next first (.next second (.here 1))

end ComTypes

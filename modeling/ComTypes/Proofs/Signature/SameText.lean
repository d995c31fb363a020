import ComTypes.Proofs.Signature.Library
import ComTypes.Proofs.Signature.Proxy

/-!
# Both descriptions give the same text

The graphs of the type library and of the proxy differ in the documentation of the interface, in the
places of its methods in the v-table and in the name that the base brings along. None of this is
shown, as long as the name of the base is the one that is known for its IID.
-/

namespace ComTypes

namespace Graph.Parallel

variable {iids : IidNames} {first first' : Node} {g g' : Graph}

theorem looksLike (parallel : g.Parallel iids first first' g') (like : first.LooksLike iids first') :
    g.LooksLike iids g' where
  size_eq := parallel.size_eq
  nodes {id node node'} found found' := by
    by_cases zero : id = 0
    · subst zero
      cases parallel.first.symm.trans found
      cases parallel.first'.symm.trans found'
      exact like
    · exact (parallel.others zero found found').1

/-- The first node is the only root. -/
theorem roots_eq (parallel : g.Parallel iids first first' g') (root : first.isRoot = true) :
    g.roots = [0] := by
  obtain ⟨count, size⟩ : ∃ count, g.size = count + 1 :=
    Nat.exists_eq_add_one.mpr (lt_size_of_node? parallel.first)
  have head : (g.node? 0).any Node.isRoot = true := by
    rw [parallel.first]
    exact root
  have tail : ∀ id ∈ (List.range count).map Nat.succ, ¬ (g.node? id).any Node.isRoot = true := by
    intro id inside
    obtain ⟨before, below, rfl⟩ := List.mem_map.mp inside
    have bound : before + 1 < g.size := by
      have := List.mem_range.mp below
      omega
    obtain ⟨node, found⟩ := exists_node_of_lt bound
    obtain ⟨node', found'⟩ := exists_node_of_lt (parallel.size_eq ▸ bound)
    have unrooted := (parallel.others (Nat.succ_ne_zero before) found found').2.2
    rw [found]
    simp [unrooted]
  show g.ids.filter (fun id => (g.node? id).any Node.isRoot) = [0]
  rw [ids, size, List.range_succ_eq_map, List.filter_cons, if_pos head, List.filter_eq_nil_iff.mpr tail]

end Graph.Parallel

namespace Signature

/-- The node of the interface looks the same in both graphs, if its definition does. -/
theorem first_looksLike (iids : IidNames) (signature : Signature) (memberId : UInt16 → Int32)
    (name : String) {definition definition' : Interface} (base : definition.base = definition'.base)
    (dispatch : definition.dispatch = false) (dispatch' : definition'.dispatch = false)
    (methods : definition.methods.map ComTypes.Method.shown =
      definition'.methods.map ComTypes.Method.shown) :
    Node.LooksLike iids
      { signature.libraryNode memberId definition (signature.declared name) with state := .complete }
      { Assemble.defined definition' (signature.declared signature.name) with state := .complete } where
  shown := by
    have body : (Body.interface definition).shown = (Body.interface definition').shown := by
      simp only [Body.shown, base, dispatch, dispatch', methods]
    let blank : Node := { (signature.declared "").shown with state := .complete }
    exact congrArg (fun body => { blank with body }) body
  baseName separator id := rfl
  named _ := rfl

theorem dispatch_definition (signature : Signature) (name : Base → String) (offset : Method → Int32)
    (g : Graph) : (signature.definition name offset g).1.dispatch = false := rfl

/-- The two graphs differ in nothing that is shown. -/
theorem graphs_parallel {iids : IidNames} (signature : Signature) (memberId : UInt16 → Int32)
    (known : signature.BaseKnown iids) :
    ∃ first first', (signature.libraryGraph memberId).Parallel iids first first' signature.proxyGraph ∧
      first.LooksLike iids first' ∧ first.isParsed = true ∧ first.isRoot = true := by
  obtain ⟨base, methods, name, parallel⟩ :=
    definition_parallel signature known (libraryOffset memberId) proxyOffset
  have finished := finished_parallel parallel (signature.libraryNode memberId) Assemble.defined
  have like := first_looksLike iids signature memberId name base (dispatch_definition ..)
    (dispatch_definition ..) methods
  exact ⟨_, _, finished, like, rfl, rfl⟩

/-- The type library and the proxy of a signature are both added to a new graph without a fault. The
interface is the only root of either graph, and it is rendered to the same text with any settings. -/
theorem same_text (iids : IidNames) (signature : Signature) (memberId : UInt16 → Int32) (inherited : Nat)
    (strict strict' : Bool) (injective : Function.Injective memberId) (fits : signature.Fits inherited)
    (known : signature.BaseKnown iids) :
    ∃ library a b, Library.decode (signature.libraryImage memberId) = .ok library ∧
      Assemble.addLibrary library { strict } = .ok [0] a ∧
      Assemble.addProxy (signature.proxyImage inherited).encode signature.iid (some signature.name)
        signature.procedureNames { strict := strict' } = .ok 0 b ∧
      a.graph.roots = [0] ∧ b.graph.roots = [0] ∧
      ∀ options : RenderOptions, ∃ text, options.render iids a.graph a.graph.roots = .ok text ∧
        options.render iids b.graph b.graph.roots = .ok text := by
  obtain ⟨a, added, graph⟩ := addLibrary_eq fits injective strict
  obtain ⟨b, added', graph'⟩ := addProxy_eq fits strict'
  obtain ⟨first, first', parallel, like, parsed, root⟩ := graphs_parallel signature memberId known
  rw [← graph, ← graph'] at parallel
  have alike := parallel.looksLike like
  have roots := parallel.roots_eq root
  have roots' : b.graph.roots = [0] := by rw [← alike.roots_eq, roots]
  refine ⟨_, a, b, decode_libraryImage fits, added, added', roots, roots', fun options => ?_⟩
  have complete : ∀ id ∈ a.graph.roots, (a.graph.node? id).any (·.isParsed) = true := by
    intro id inside
    rw [roots, List.mem_singleton] at inside
    rw [inside, parallel.first]
    exact parsed
  obtain ⟨text, rendered⟩ := options.exists_render iids complete
  refine ⟨text, rendered, ?_⟩
  rw [← alike.roots_eq, ← options.render_eq alike, rendered]

/-- An interface with one method, behind the three of its base. -/
def fooSignature : Signature where
  iid := IidNames.coreIid 0x11111111
  name := "IFoo"
  base := some ⟨IidNames.coreIid 0, "IUnknown", by decide⟩
  methods := [
    { number := 3
      name := "Get"
      params := [⟨some "value", .i4, false, true, false⟩, ⟨some "result", .i4, true, false, true⟩]
      result := .hresult }]
  nonzero := by decide
  distinct := by decide

theorem fooSignature_fits : fooSignature.Fits 3 where
  name := by decide
  base := by decide
  methodNames := by decide
  paramNames := by decide
  entries := by decide
  slots := by decide
  offsets := by decide

theorem fooSignature_known : fooSignature.BaseKnown .wellKnown := by
  unfold BaseKnown
  decide

theorem fooSignature_same_text :
    ∃ library a b, Library.decode (fooSignature.libraryImage procedureId) = .ok library ∧
      Assemble.addLibrary library { strict := true } = .ok [0] a ∧
      Assemble.addProxy (fooSignature.proxyImage 3).encode fooSignature.iid (some "IFoo")
        fooSignature.procedureNames { strict := false } = .ok 0 b ∧
      a.graph.roots = [0] ∧ b.graph.roots = [0] ∧
      ∀ options : RenderOptions, ∃ text, options.render .wellKnown a.graph a.graph.roots = .ok text ∧
        options.render .wellKnown b.graph b.graph.roots = .ok text :=
  same_text .wellKnown fooSignature procedureId 3 true false procedureId_injective fooSignature_fits
    fooSignature_known

end Signature

end ComTypes

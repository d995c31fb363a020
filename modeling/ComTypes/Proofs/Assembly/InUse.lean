import ComTypes.Proofs.Assembly.OwnNode
import ComTypes.Proofs.Proxy.Frame

/-!
# Nodes that are in use

Only records of proxies are ever taken out of use. A node that is found by a GUID, or that a type info has
been given, is no such record, so it stays in use (`Reachable.inUse`).
-/

namespace ComTypes

open Assembler Assemble

variable {r r' : Regime} {a b s t : Assembler} {id : TypeId} {index : Nat}

/-- What a GUID or a type info leads to is in use, and not kept for a proxy. -/
structure Assembler.InUse (a : Assembler) : Prop where
  guid : ∀ {guid id}, a.graph.findGuid? guid = some id → ¬ a.Reserved id
  slots : ∀ {index id}, a.slots.get? index = some id → ¬ a.Reserved id
  anonymous : ∀ {key id}, a.anonymous.get? key = some id → ¬ a.Reserved id

namespace Assembler.InUse

theorem not_retired (inUse : a.InUse) (slotted : a.slots.get? index = some id) {node : Node}
    (found : a.graph.node? id = some node) : node.retired = false := by
  cases gone : node.retired with
  | false => rfl
  | true => exact absurd (.inl ⟨node, found, gone⟩) (inUse.slots slotted)

/-- A GUID that leads to an old node led there before, and a new node with a GUID is no record. -/
theorem guid_after (inUse : s.InUse) (before : s.Sound r) (after : t.Sound r')
    (grows : s.graph.Grows t.graph)
    (reserves : ∀ {j}, t.Reserved j → s.Reserved j ∨ s.graph.size ≤ j ∧ t.graph.IsRecord j)
    {guid : Guid} (known : t.graph.findGuid? guid = some id) : ¬ t.Reserved id := by
  intro reserved
  obtain ⟨nonzero, node, found, identity⟩ := (after.graph.findGuid_iff guid id).mp known
  rcases reserves reserved with old | ⟨_, node', found', position, _⟩
  · obtain ⟨first, found_first⟩ := Graph.exists_node_of_lt (before.reserved_lt old)
    obtain ⟨again, found_again, same, _⟩ := grows.kept found_first
    cases found.symm.trans found_again
    have known : s.graph.findGuid? guid = some id :=
      (before.graph.findGuid_iff guid id).mpr ⟨nonzero, first, found_first, same.symm.trans identity⟩
    exact inUse.guid known old
  · cases found.symm.trans found'
    cases position.symm.trans identity

/-- Giving a type info its node keeps nodes in use. -/
theorem seats (inUse : s.InUse) (sound : s.Sound r) (advance : s.Advance r t)
    (seats : s.Seats index id t) : t.InUse := by
  have free : ¬ s.Reserved id := by
    rcases seats.origin with ⟨guid, known⟩ | ⟨key, known⟩ | ⟨j, known⟩ | new
    · exact inUse.guid known
    · exact inUse.anonymous known
    · exact inUse.slots known
    · intro reserved
      exact absurd (sound.reserved_lt reserved) (new ▸ Nat.lt_irrefl _)
  constructor
  · intro guid j known
    exact inUse.guid_after sound advance.sound advance.graph.grows
      (fun reserved => .inl (advance.reserved reserved)) known
  · intro i j known reserved
    rw [seats.slots] at known
    split at known
    · cases known
      exact free (advance.reserved reserved)
    · exact inUse.slots known (advance.reserved reserved)
  · intro key j known reserved
    rcases seats.anonymous known with old | rfl
    · exact inUse.anonymous old (advance.reserved reserved)
    · exact free (advance.reserved reserved)

/-- So does what leaves the nodes of type infos alone and reserves new records only. -/
theorem passes (inUse : s.InUse) (before : s.Sound r) (after : t.Sound r')
    (grows : s.graph.Grows t.graph)
    (reserves : ∀ {j}, t.Reserved j → s.Reserved j ∨ s.graph.size ≤ j ∧ t.graph.IsRecord j)
    (slots : t.slots = s.slots) (anonymous : t.anonymous = s.anonymous) : t.InUse := by
  have old : ∀ {j}, j < s.graph.size → t.Reserved j → s.Reserved j := by
    intro j inside reserved
    exact (reserves reserved).resolve_right fun new => absurd inside (Nat.not_lt.mpr new.1)
  constructor
  · intro guid j known
    exact inUse.guid_after before after grows reserves known
  · intro i j known reserved
    rw [slots] at known
    exact inUse.slots known (old (before.slots known).editable.lt_size reserved)
  · intro key j known reserved
    rw [anonymous] at known
    exact inUse.anonymous known (old (before.anonymous known).editable.lt_size reserved)

end Assembler.InUse

/-- After every call, what a GUID, an index or a library position leads to is in use. -/
theorem Call.run_inUse (ordered : a.Ordered .unrestricted) (inUse : a.InUse) (call : Call) :
    (call.run a).InUse := by
  have sound := ordered.sound
  have respects := call.respects_unrestricted a
  have after := (call.run_ordered ordered respects).sound
  cases call with
  | addLibrary library =>
    have start : (a.begun library).InUse :=
      ⟨inUse.guid, fun {_ _} stored => by simp [begun] at stored, inUse.anonymous⟩
    exact (addLibrary_keeps (fun sound advance seats inUse => inUse.seats sound advance seats) sound
      start).left
  | addTypeInfo info index names =>
    rcases addTypeInfo_cases sound info index names with same | ⟨id, seats, _⟩
    · show (left (Assemble.addTypeInfo info index names a)).InUse
      rwa [same]
    · exact inUse.seats sound (addTypeInfo_advance sound info index names).left seats
  | addProxy bytes iid name names =>
    dsimp only [Call.run] at after ⊢
    rcases addProxy_cases ordered bytes iid name names with ⟨fault, _, run⟩ | ⟨image, _, draws, _⟩
    · rw [run]
      exact inUse
    · exact inUse.passes sound after draws.grows draws.reserves draws.slots draws.anonymous
  | external | externalInterface =>
    have advance := Call.run_advance ordered respects not_false
    exact inUse.passes sound after advance.graph.grows
      (fun reserved => .inl (advance.reserved reserved)) rfl rfl

theorem Reachable.inUse (run : Reachable (fun _ _ => True) a) : a.InUse := by
  induction run with
  | start strict =>
    constructor
    · intro guid id known
      simp [Graph.findGuid?, Table.get?] at known
    · intro index id known
      simp [Table.get?] at known
    · intro key id known
      simp [Table.get?] at known
  | step call before _ ih => exact call.run_inUse before.in_order ih

end ComTypes

import ComTypes.Proofs.Proxy.Draws
import ComTypes.Proofs.Proxy.Visible

/-!
# Decoding a proxy leaves other types alone

Records are kept under the IID of a proxy, and its interface is found by its IID. As long as the IID is not
zero the two agree: the records under an IID are those that the last decode into its interface has left
(`Traced.credits`). So a decode changes its interface and these records, and nothing else
(`decode_changes_own_records`). Proxies with a zero IID get an interface each and share one entry, so that
each of them takes over the records of the one before it (`zero_iid_takes_records`).
-/

namespace ComTypes

open Assembler Assemble

variable {r r' : Regime} {a b : Assembler} {iid : Guid} {made : TypeId → List TypeId}

/-! ### Who left which records -/

/-- The records that the last decode into each node has left, after a call. -/
def Call.credit (a : Assembler) (made : TypeId → List TypeId) : Call → TypeId → List TypeId
  | addProxy bytes iid name names =>
    match ProxyImage.decode bytes with
    | .ok _ => Function.update made (a.host iid)
        (recordsOf (left (Assemble.addProxy bytes iid name names a)).proxyRecords iid).values
    | .error _ => made
  | addLibrary _ | addTypeInfo .. | external .. | externalInterface .. => made

/-- A run of calls, with the records that the last decode into each node has left there. -/
inductive Traced : Assembler → (TypeId → List TypeId) → Prop
  | start (strict : Bool) : Traced { strict } fun _ => []
  | step {a : Assembler} {made : TypeId → List TypeId} (call : Call) :
      Traced a made → Traced (call.run a) (call.credit a made)

theorem Traced.reachable (run : Traced a made) : Reachable (fun _ _ => True) a := by
  induction run with
  | start strict => exact .start strict
  | step call _ ih => exact .step call ih trivial

/-- The records that are kept under an IID are those left in its interface. -/
structure Assembler.Credits (a : Assembler) (made : TypeId → List TypeId) : Prop where
  fresh : ∀ {id}, a.graph.size ≤ id → made id = []
  kept : ∀ {iid}, iid.isZero = false → (recordsOf a.proxyRecords iid).values = made (a.host iid)

namespace Assembler.Credits

/-- An interface that is added has no records yet. -/
theorem host_eq (credits : a.Credits made) (sound : a.Sound r) (sound' : b.Sound r')
    (grows : a.graph.Grows b.graph) (iid : Guid) : made (b.host iid) = made (a.host iid) := by
  cases known : a.graph.findGuid? iid with
  | some id =>
    rw [host_of_known known, host_of_known (grows.findGuid sound.graph sound'.graph known)]
  | none =>
    have before : a.host iid = a.graph.size := by rw [host, known, Option.getD_none]
    have after : a.graph.size ≤ b.host iid := by
      cases later : b.graph.findGuid? iid with
      | none =>
        rw [host, later]
        exact grows.size_le
      | some id =>
        rw [host_of_known later]
        by_contra inside
        obtain ⟨node, found⟩ := Graph.exists_node_of_lt (Nat.lt_of_not_le inside)
        obtain ⟨nonzero, _, again, identity⟩ := (sound'.graph.findGuid_iff iid id).mp later
        obtain ⟨node', found', kept, _⟩ := grows.kept found
        cases again.symm.trans found'
        have earlier := (sound.graph.findGuid_iff iid id).mpr
          ⟨nonzero, node, found, kept.symm.trans identity⟩
        cases known.symm.trans earlier
    rw [before, credits.fresh after, credits.fresh (Nat.le_refl _)]

/-- A call that leaves the records alone. -/
theorem advance (credits : a.Credits made) (sound : a.Sound r) (sound' : b.Sound r')
    (grows : a.graph.Grows b.graph) (records : b.proxyRecords = a.proxyRecords) :
    b.Credits made where
  fresh outside := credits.fresh (Nat.le_trans grows.size_le outside)
  kept nonzero := by rw [records, credits.kept nonzero, credits.host_eq sound sound' grows]

/-- A proxy was decoded. -/
theorem draws (credits : a.Credits made) (sound : a.Sound r) (sound' : b.Sound r')
    (draws : a.Draws iid (a.host iid) b) :
    b.Credits (Function.update made (a.host iid) (recordsOf b.proxyRecords iid).values) := by
  obtain ⟨node, found, identity⟩ := draws.node
  refine ⟨fun {id} outside => ?_, fun {other} nonzero => ?_⟩
  · have different : id ≠ a.host iid := by
      rintro rfl
      exact absurd (Graph.lt_size_of_node? found) (Nat.not_lt.mpr outside)
    rw [Function.update_of_ne different]
    exact credits.fresh (Nat.le_trans draws.grows.size_le outside)
  · by_cases same : other = iid
    · subst same
      rw [Graph.nextIdentity_of_nonzero nonzero] at identity
      have known := (sound'.graph.findGuid_iff other _).mpr ⟨nonzero, node, found, identity⟩
      rw [host_of_known known, Function.update_self]
    · -- The interface of another IID is another node.
      have different : b.host other ≠ a.host iid := by
        intro same_host
        cases known : b.graph.findGuid? other with
        | none =>
          rw [host, known, Option.getD_none] at same_host
          exact Nat.lt_irrefl _ (same_host ▸ Graph.lt_size_of_node? found)
        | some id =>
          rw [host_of_known known] at same_host
          obtain ⟨_, _, again, named⟩ := (sound'.graph.findGuid_iff other id).mp known
          rw [same_host] at again
          cases again.symm.trans found
          rcases a.graph.nextIdentity_cases (some iid) with index | ⟨guid, own, _, guided⟩
          · cases (identity.trans index).symm.trans named
          · cases own
            cases (identity.trans guided).symm.trans named
            exact same rfl
      rw [draws.records same, credits.kept nonzero, Function.update_of_ne different,
        credits.host_eq sound sound' draws.grows]

end Assembler.Credits

/-- A proxy whose image does not decode changes nothing; any other is drawn up, whether or not that is
reported as a failure. -/
theorem addProxy_cases (ordered : a.Ordered .unrestricted) (bytes : Bytes) (iid : Guid)
    (name : Option String) (names : NameLookup) :
    (∃ fault, ProxyImage.decode bytes = .error fault ∧
        addProxy bytes iid name names a = .error fault a) ∨
      ∃ image, ProxyImage.decode bytes = .ok image ∧
        a.Draws iid (a.host iid) (left (addProxy bytes iid name names a)) ∧
        (addProxy bytes iid name names a =
            .ok (a.host iid) (left (addProxy bytes iid name names a)) ∨
          ∃ fault, addProxy bytes iid name names a =
            .error fault (left (addProxy bytes iid name names a))) := by
  unfold addProxy
  cases ProxyImage.decode bytes with
  | error fault => exact .inl ⟨fault, rfl, rfl⟩
  | ok image =>
    obtain ⟨draws, _, ended⟩ := addProxyImage_draws ordered image iid name names
    exact .inr ⟨image, rfl, draws, ended⟩

/-- The call decodes a proxy. -/
def Call.IsProxy : Call → Prop
  | addProxy .. => True
  | addLibrary _ | addTypeInfo .. | external .. | externalInterface .. => False

/-- Other calls advance the assembler. -/
theorem Call.run_advance {p : Policy} (ordered : a.Ordered p) {call : Call}
    (respects : call.Respects p a) (other : ¬ call.IsProxy) :
    a.Advance (p.regime a) (call.run a) := by
  have sound := ordered.sound
  cases call with
  | addLibrary library => exact (addLibrary_advance sound library).left
  | addTypeInfo info index names => exact (addTypeInfo_advance sound info index names).left
  | addProxy => exact absurd trivial other
  | external guid name body =>
    obtain ⟨advance, _⟩ := Graph.external_advance guid name sound.graph
      (fun new _ _ => (respects new).1) (fun new => (respects new).2)
    exact .withGraph sound advance
  | externalInterface iid name =>
    have declares : (Body.interface {}).isDeclaration = true := rfl
    obtain ⟨advance, _⟩ := Graph.external_blank_advance iid (name.getD "") sound.graph declares rfl
    exact .withGraph sound advance

/-- One call keeps track of the records. -/
theorem Call.run_credits (ordered : a.Ordered .unrestricted) (credits : a.Credits made)
    (call : Call) : (call.run a).Credits (call.credit a made) := by
  have respects := call.respects_unrestricted a
  have after := (call.run_ordered ordered respects).sound
  have advanced : ¬ call.IsProxy → (call.run a).Credits made := by
    intro other
    have advance := Call.run_advance ordered respects other
    exact credits.advance ordered.sound after advance.graph.grows advance.records_eq
  cases call with
  | addProxy bytes iid name names =>
    dsimp only [Call.run, credit] at after ⊢
    rcases addProxy_cases ordered bytes iid name names with
      ⟨fault, undecoded, run⟩ | ⟨image, decoded, draws, _⟩
    · rw [undecoded, run]
      exact credits
    · rw [decoded]
      exact credits.draws ordered.sound after draws
  | addLibrary | addTypeInfo | external | externalInterface => exact advanced not_false

/-- In every run the records under an IID are those left in its interface. -/
theorem Traced.credits (run : Traced a made) : a.Credits made := by
  induction run with
  | start strict => exact ⟨fun _ => rfl, fun _ => rfl⟩
  | step call before ih => exact call.run_credits before.reachable.in_order ih

/-! ### Reserved nodes are records -/

/-- Nodes that are out of use or kept for a proxy are structures. -/
def Assembler.Shaped (a : Assembler) : Prop :=
  ∀ id, a.Reserved id → ∃ node fields, a.graph.node? id = some node ∧ node.body = .record .struct fields

theorem Call.KeepsOff.respects {call : Call} (keeps : call.KeepsOff a) :
    call.Respects .reserving a := by
  cases call with
  | external guid name body =>
    refine fun new => ⟨trivial, fun t member _ => ?_⟩
    obtain ⟨inside, apart⟩ := keeps new t member
    exact ⟨inside, fun last reached closed => apart last reached closed.2⟩
  | addProxy bytes iid name names => exact fun _ => keeps
  | addLibrary | addTypeInfo | externalInterface => trivial

theorem Assembler.Shaped.advance (shaped : a.Shaped)
    (advance : a.Advance (Policy.reserving.regime a) b) : b.Shaped := by
  intro id reserved
  have before := advance.reserved reserved
  rw [advance.graph.closed_eq ⟨trivial, before⟩]
  exact shaped id before

theorem Assembler.Shaped.draws (shaped : a.Shaped) (ordered : b.Ordered .reserving)
    (nonzero : iid.isZero = false) (draws : a.Draws iid (a.host iid) b) : b.Shaped := by
  intro id reserved
  have other : id ≠ a.host iid := by
    rintro rfl
    obtain ⟨node, found, index, _⟩ := ordered.sound.graph.closed_node ⟨trivial, reserved⟩
    obtain ⟨_, again, identity⟩ := draws.node
    cases again.symm.trans found
    rw [Graph.nextIdentity_of_nonzero nonzero, index] at identity
    cases identity
  obtain ⟨node, found, ⟨fields, shape⟩ | ⟨before, old, known, same⟩⟩ := draws.reserved other reserved
  · exact ⟨node, fields, found, shape⟩
  · obtain ⟨_, fields, again, shape⟩ := shaped id before
    cases again.symm.trans known
    exact ⟨node, fields, found, same.trans shape⟩

/-- A call that keeps off the records reserves structures only. -/
theorem Call.run_shaped (all : a.Ordered .unrestricted) (ordered : a.Ordered .reserving)
    (shaped : a.Shaped) (call : Call) (keeps : call.KeepsOff a) : (call.run a).Shaped := by
  have after := call.run_ordered ordered keeps.respects
  have advanced : ¬ call.IsProxy → (call.run a).Shaped := fun other =>
    shaped.advance (Call.run_advance ordered keeps.respects other)
  cases call with
  | addProxy bytes iid name names =>
    dsimp only [Call.run] at after ⊢
    rcases addProxy_cases all bytes iid name names with ⟨fault, _, run⟩ | ⟨image, _, draws, _⟩
    · rw [run]
      exact shaped
    · exact shaped.draws after keeps draws
  | addLibrary | addTypeInfo | external | externalInterface => exact advanced not_false

/-- Where callers keep off the records, the assembler stays in order. -/
theorem Reachable.reserving (run : Reachable (fun a call => call.KeepsOff a) a) :
    a.Ordered .reserving :=
  (run.mono fun _ _ keeps => keeps.respects).ordered

/-- Where callers keep off the records, reserved nodes are structures in every run. -/
theorem Reachable.shaped (run : Reachable (fun a call => call.KeepsOff a) a) : a.Shaped := by
  induction run with
  | start strict =>
    intro id reserved
    exact absurd ((Assembler.start_ordered .unrestricted strict).sound.reserved_lt reserved)
      (Nat.not_lt_zero _)
  | step call before keeps ih =>
    have all : Reachable (fun _ _ => True) _ := before.mono fun _ _ _ => trivial
    exact call.run_shaped all.in_order before.reserving ih keeps

/-! ### What a decode changes -/

/-- An interface other than that of the IID is no record, and leads to none that is kept under the
IID. -/
theorem not_own_record {j : TypeId} {node : Node} {definition : Interface}
    (run : Reachable (fun a call => call.KeepsOff a) a) (found : a.graph.node? j = some node)
    (interface : node.body = .interface definition) (other : j ≠ a.host iid) :
    ¬ a.Reserved j ∧ ∀ t ∈ node.body.targets, ∀ last, a.graph.Reaches t last →
      last ∉ (recordsOf a.proxyRecords iid).values ∧
        ∃ node', a.graph.node? last = some node' ∧ node'.retired = false := by
  have ordered := run.reserving
  have tidy := ordered.tidy trivial
  have free : ¬ a.Reserved j := by
    intro reserved
    obtain ⟨_, fields, again, shape⟩ := run.shaped j reserved
    cases again.symm.trans found
    cases interface.symm.trans shape
  have used : node.retired = false := by
    cases gone : node.retired with
    | false => rfl
    | true => exact absurd (.inl ⟨node, found, gone⟩) free
  have declares : node.isDeclaration = true := by
    rw [Node.isDeclaration, used, interface]
    rfl
  refine ⟨free, fun t named last reached => ⟨fun member => ?_, ?_⟩⟩
  · -- A record is led to by the interface it belongs to and by records of the same interface.
    obtain ⟨owner, kept, indexed | among⟩ :=
      tidy.owned found declares t named last reached (.inr ⟨iid, member⟩)
    · cases ordered.sound.records.apart kept member
      exact other (host_of_known indexed).symm
    · exact free (.inr ⟨owner, among⟩)
  · have graph := ordered.sound.graph
    have inside := reached.lt_size (graph.targets_lt trivial) (graph.targets_lt trivial found t named)
    obtain ⟨node', found'⟩ := Graph.exists_node_of_lt inside
    exact ⟨node', found', tidy.in_use found declares named reached found'⟩

/-- An image that does not decode changes nothing. Any other changes, of the nodes that were there, only
the one it is built into and the records kept under its IID, whether or not it is reported as a failure.
Unless the IID is zero, these are records that the last decode into this node has left. No other interface
leads to them where callers keep off records, so what its methods refer to is in use and unchanged. -/
theorem decode_changes_own_records (run : Traced a made) (bytes : Bytes) (iid : Guid)
    (name : Option String) (names : NameLookup) :
    (∀ fault, ProxyImage.decode bytes = .error fault →
      addProxy bytes iid name names a = .error fault a) ∧
    ∀ image, ProxyImage.decode bytes = .ok image → ∃ b,
      (addProxy bytes iid name names a = .ok (a.host iid) b ∨
        ∃ fault, addProxy bytes iid name names a = .error fault b) ∧
      (∀ j node, a.graph.node? j = some node → j ≠ a.host iid →
        j ∉ (recordsOf a.proxyRecords iid).values → b.graph.node? j = some node) ∧
      (iid.isZero = false ∨ (recordsOf a.proxyRecords iid).values = [] →
        ∀ j node, a.graph.node? j = some node → j ≠ a.host iid → j ∉ made (a.host iid) →
          b.graph.node? j = some node) ∧
      (Reachable (fun a call => call.KeepsOff a) a → ∀ j node definition,
        a.graph.node? j = some node → node.body = .interface definition → j ≠ a.host iid →
          b.graph.node? j = some node ∧ ∀ t ∈ node.body.targets, ∀ last, a.graph.Reaches t last →
            ∃ node', a.graph.node? last = some node' ∧ node'.retired = false ∧
              (last ≠ a.host iid → b.graph.node? last = some node')) := by
  have ordered := run.reachable.in_order
  rcases addProxy_cases ordered bytes iid name names with
    ⟨fault, undecoded, failed⟩ | ⟨image, decoded, draws, ended⟩
  · refine ⟨fun other same => ?_, fun image same => ?_⟩
    · cases undecoded.symm.trans same
      exact failed
    · cases undecoded.symm.trans same
  · refine ⟨fun other same => ?_, fun _ _ => ⟨_, ended, fun j node found => draws.untouched found,
      fun own j node found other foreign => ?_, fun kept j node definition found interface other => ?_⟩⟩
    · cases decoded.symm.trans same
    · apply draws.untouched found other
      rcases own with nonzero | none
      · rwa [run.credits.kept nonzero]
      · rw [none]
        exact List.not_mem_nil
    · obtain ⟨free, leads⟩ := not_own_record kept found interface other
      refine ⟨draws.untouched found other fun member => free (.inr ⟨iid, member⟩),
        fun t named last reached => ?_⟩
      obtain ⟨foreign, node', found', used⟩ := leads t named last reached
      exact ⟨node', found', used, fun different => draws.untouched found' different foreign⟩

/-! ### Proxies that follow each other -/

/-- A proxy whose method takes a record. -/
def Call.withRecord (iid : Guid) : Call := .addProxy structProxy iid none fun _ _ => none

/-- Two proxies with different IIDs. -/
def decodedBoth : Assembler :=
  Call.run (Call.run {} (.withRecord (.ofBytes [1]))) (.withRecord (.ofBytes [2]))

/-- When the first is decoded again and has lost its record, the second is left alone, with its record
and the types that both use. -/
theorem decodedBoth_second_kept :
    ∃ b, addProxy bareProxy (.ofBytes [1]) none (fun _ _ => none) decodedBoth = .ok 0 b ∧
      ∀ j ∈ [2, 3, 4, 5], b.graph.node? j = decodedBoth.graph.node? j := by
  have run : Traced decodedBoth _ := .step _ (.step _ (.start false))
  have added : addProxy bareProxy (.ofBytes [1]) none (fun _ _ => none) decodedBoth = .ok 0 _ :=
    eq_ok_of_value? (by decide +kernel)
  have frame := decode_changes_own_records run bareProxy (.ofBytes [1]) none fun _ _ => none
  refine ⟨_, added, fun j member => ?_⟩
  cases decoded : ProxyImage.decode bareProxy with
  | error fault => cases (frame.1 fault decoded).symm.trans added
  | ok image =>
    obtain ⟨b, ended, _, unchanged, _⟩ := frame.2 image decoded
    rw [added] at ended
    obtain ⟨_, rfl⟩ : 0 = decodedBoth.host (.ofBytes [1]) ∧ _ = b := by simpa using ended
    have inside : ∀ j ∈ [2, 3, 4, 5], j < decodedBoth.graph.size := by decide +kernel
    have apart : ∀ j ∈ [2, 3, 4, 5], j ≠ decodedBoth.host (.ofBytes [1]) ∧
        j ∉ Call.credit (Call.run {} (.withRecord (.ofBytes [1])))
          (Call.credit {} (fun _ => []) (.withRecord (.ofBytes [1]))) (.withRecord (.ofBytes [2]))
          (decodedBoth.host (.ofBytes [1])) := by decide +kernel
    obtain ⟨node, found⟩ := Graph.exists_node_of_lt (inside j member)
    rw [found]
    exact unchanged (.inl (by decide)) j node found (apart j member).1 (apart j member).2

/-- Two proxies with a zero IID: the second is decoded into a node of its own, and takes the record of the
first out of use, which the method of the first still takes. -/
theorem zero_iid_takes_records :
    ∃ made b, Traced (Call.run {} (.withRecord .zero)) made ∧
      addProxy bareProxy .zero none (fun _ _ => none) (Call.run {} (.withRecord .zero)) = .ok 4 b ∧
      1 ∉ made 4 ∧
      ((Call.run {} (.withRecord .zero)).graph.node? 1).any (fun node => !node.retired) ∧
      (b.graph.node? 1).any (·.retired) ∧ (b.graph.node? 0).any (1 ∈ ·.body.targets) := by
  refine ⟨_, _, .step _ (.start false), eq_ok_of_value? ?_, ?_, ?_, ?_, ?_⟩
  · decide +kernel
  · decide +kernel
  · decide +kernel
  · decide +kernel
  · decide +kernel

end ComTypes

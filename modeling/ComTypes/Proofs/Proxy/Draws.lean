import ComTypes.Proofs.Assembly.Strictness
import ComTypes.Proofs.Proxy.Bases

/-!
# What drawing up a proxy touches

A proxy is decoded into the node of its IID, or into a new one (`Assembler.host`). Besides that node it
touches only the records that were kept under the IID, and it makes records of new nodes only
(`Assembler.Draws`, `addProxyImage_draws`). This holds for every image, also where a procedure fails to
decode and where that is an error.
-/

namespace ComTypes

open Assembler Assemble

variable {r : Regime} {a b s t : Assembler} {id : TypeId}

/-! ### The interface and its base -/

/-- The node that a proxy with this IID is decoded into. -/
def Assembler.host (a : Assembler) (iid : Guid) : TypeId :=
  (a.graph.findGuid? iid).getD a.graph.size

theorem host_of_known {iid : Guid} (known : a.graph.findGuid? iid = some id) : a.host iid = id := by
  rw [host, known, Option.getD_some]

/-- Declaring the interface of a proxy leaves other nodes alone. -/
theorem declare_frame {iid : Guid} {name : String} (sound : a.Sound r)
    (run : declare iid name (.interface {}) a = .ok id b) :
    b = { a with graph := b.graph, changed := b.changed } ∧ id = a.host iid ∧
      (∃ node, b.graph.node? id = some node ∧ node.identity = a.graph.nextIdentity (some iid)) ∧
      ∀ {j node}, a.graph.node? j = some node → j ≠ id → b.graph.node? j = some node := by
  unfold host
  cases known : a.graph.findGuid? iid with
  | some own =>
    obtain ⟨changed, declared⟩ := declare_of_known name (.interface {}) known
    cases declared.symm.trans run
    obtain ⟨nonzero, node, found, identity⟩ := (sound.graph.findGuid_iff iid id).mp known
    have named : node.identity = a.graph.nextIdentity (some iid) :=
      identity.trans (Graph.nextIdentity_of_nonzero nonzero).symm
    exact ⟨rfl, rfl, ⟨_, Graph.node?_modify_self _ found, named⟩,
      fun found other => (Graph.node?_modify_of_ne _ other.symm).trans found⟩
  | none =>
    cases (declare_of_unknown name (.interface {}) known).symm.trans run
    have declares : (Body.interface {}).isDeclaration = true := rfl
    have appends := a.graph.appends_add (some iid) name declares
    refine ⟨rfl, rfl, ⟨_, Graph.WellFormed.appended appends, rfl⟩, fun {j node} found other => ?_⟩
    rw [appends.node_eq, if_neg other, found]

theorem imageBase_resolved (image : ProxyImage) (a : Assembler) :
    ∃ base b, imageBase image a = .ok base b ∧ a.Resolved b := by
  unfold imageBase
  split
  · exact ⟨none, a, rfl, .refl a⟩
  · have declares : (Body.interface {}).isDeclaration = true := rfl
    exact ⟨_, _, rfl, (Resolving.external image.baseIid "" declares rfl).resolved a⟩

/-! ### Reserved nodes -/

theorem Assembler.Sound.reserved_lt (sound : a.Sound r) (reserved : a.Reserved id) :
    id < a.graph.size := by
  rcases reserved with ⟨node, found, _⟩ | among
  · exact Graph.lt_size_of_node? found
  · exact sound.recorded_lt among

/-- What is reserved after the procedures of a proxy have been decoded has the body of a record, or the
one that it had before. -/
theorem body_of_reserved {p : Policy} {iid : Guid} {methods : List Method} {kept failed last : Walker}
    (sound : a.Sound (p.regime a))
    (decoded : Walk.Decoded (p.regime a) (Walk.startOf a iid) methods kept failed last)
    (reserved : (afterDecode a iid last).Reserved id) :
    ∃ node, last.finish.node? id = some node ∧ ((∃ fields, node.body = .record .struct fields) ∨
      a.Reserved id ∧ ∃ before, a.graph.node? id = some before ∧ node.body = before.body) := by
  have finished : ∀ {before}, failed.graph.node? id = some before →
      ∃ node, last.finish.node? id = some node ∧ node.body = before.body := fun {before} known => by
    rw [decoded.node?_finish, known]
    split
    · exact ⟨_, rfl, rfl⟩
    · exact ⟨before, rfl, rfl⟩
  by_cases met : id ∈ failed.recordIds
  · obtain ⟨before, fields, known, shape⟩ := decoded.whole.shaped id met List.not_mem_nil
    obtain ⟨node, found, body⟩ := finished known
    exact ⟨node, found, .inl ⟨fields, body.trans shape⟩⟩
  · have old : a.Reserved id := by
      rcases reserved_cases decoded reserved with stays | old | ⟨out, _⟩
      · exact absurd (decoded.broken.recordIds_subset stays) met
      · exact old
      · rcases List.mem_append.mp out with added | previous
        · exact absurd (decoded.mem_failed.mpr (.inl added)) met
        · exact .inr ⟨iid, decoded.whole.previous previous⟩
    obtain ⟨before, known⟩ := Graph.exists_node_of_lt (sound.reserved_lt old)
    obtain ⟨node, found, body⟩ := finished (decoded.whole.untouched known fun member =>
      absurd member met)
    exact ⟨node, found, .inr ⟨old, before, known, body⟩⟩

/-! ### The whole proxy -/

/-- The interface of a proxy was drawn up in its node. It and the records that were kept under its IID
are touched, and only new nodes become records. -/
structure Assembler.Draws (iid : Guid) (id : TypeId) (s t : Assembler) : Prop where
  host : id = s.host iid
  grows : s.graph.Grows t.graph
  node : ∃ node, t.graph.node? id = some node ∧ node.identity = s.graph.nextIdentity (some iid)
  strict : t.strict = s.strict
  slots : t.slots = s.slots
  anonymous : t.anonymous = s.anonymous
  records : ∀ {other}, other ≠ iid → recordsOf t.proxyRecords other = recordsOf s.proxyRecords other
  recorded : ∀ {j}, j < s.graph.size → t.Recorded j → s.Recorded j
  untouched : ∀ {j node}, s.graph.node? j = some node → j ≠ id →
    j ∉ (recordsOf s.proxyRecords iid).values → t.graph.node? j = some node
  /-- A reserved node has the body of a record, or the one that it had as a reserved node before. -/
  reserved : ∀ {j}, j ≠ id → t.Reserved j → ∃ node, t.graph.node? j = some node ∧
    ((∃ fields, node.body = .record .struct fields) ∨
      s.Reserved j ∧ ∃ before, s.graph.node? j = some before ∧ node.body = before.body)
  /-- What is reserved was so before, or is a new record. -/
  reserves : ∀ {j}, t.Reserved j → s.Reserved j ∨ s.graph.size ≤ j ∧ t.graph.IsRecord j

/-- A change to the node itself goes unnoticed. -/
theorem Assembler.Draws.modify {iid : Guid} (draws : s.Draws iid id t) {change : Node → Node}
    (identity : ∀ node, (change node).identity = node.identity)
    (retired : ∀ node, (change node).retired = node.retired)
    (body : ∀ node, t.graph.node? id = some node →
      ((change node).body = node.body ∧ (change node).external = node.external) ∨
        (change node).body.isDeclaration = true) :
    s.Draws iid id { t with graph := t.graph.modify id change } where
  host := draws.host
  grows := draws.grows.trans (.of_modify identity body)
  node := by
    obtain ⟨node, found, named⟩ := draws.node
    exact ⟨_, Graph.node?_modify_self change found, (identity node).trans named⟩
  strict := draws.strict
  slots := draws.slots
  anonymous := draws.anonymous
  records := draws.records
  recorded := draws.recorded
  untouched found other foreign :=
    (Graph.node?_modify_of_ne _ other.symm).trans (draws.untouched found other foreign)
  reserved {j} other reserved := by
    have same := Graph.node?_modify_of_ne (g := t.graph) change other.symm
    have before : t.Reserved j :=
      reserved.imp_left fun ⟨node, found, gone⟩ => ⟨node, same.symm.trans found, gone⟩
    obtain ⟨node, found, shape⟩ := draws.reserved other before
    exact ⟨node, same.trans found, shape⟩
  reserves {j} reserved := by
    have before : t.Reserved j := by
      refine reserved.imp_left fun ⟨node, found, gone⟩ => ?_
      rcases Graph.of_node?_modify found with ⟨_, before⟩ | ⟨rfl, old, before, rfl⟩
      · exact ⟨node, before, gone⟩
      · exact ⟨old, before, (retired old).symm.trans gone⟩
    exact (draws.reserves before).imp_right fun new => ⟨new.1, new.2.grows (.of_modify identity body)⟩

/-- A decode draws up the interface of the IID. -/
theorem drawn_draws (ordered : a.Ordered .unrestricted) (image : ProxyImage) (iid : Guid)
    (name : Option String) (names : NameLookup) :
    ∃ issues b, drawn image iid name names a = .ok (a.host iid, issues) b ∧
      a.Draws iid (a.host iid) b := by
  obtain ⟨id, b, declared⟩ := Succeeds.declare iid (proxyName a iid name) (.interface {}) a
  obtain ⟨rest, rfl, ⟨node, found, identity⟩, frame⟩ := declare_frame ordered.sound declared
  have hosts := declare_hosts ordered iid (proxyName a iid name)
  rw [declared] at hosts
  have first : Outcome (a.Advance _) (Declared _ iid (.interface {}))
      (declare iid (proxyName a iid name) (.interface {}) a) :=
    declare_advance ordered.sound (.of_no_targets rfl rfl)
  rw [declared] at first
  obtain ⟨base, c, named, resolved⟩ := imageBase_resolved image b
  have second := imageBase_advance hosts.1.sound image
  rw [named] at second
  have keeps := (imageBase_again named).1
  have ordered' := hosts.1.advance second.1
  obtain ⟨kept, failed, decoded⟩ := Walk.methods_decoded image names image.procOffsets.zipIdx
    (Walk.startOf_sound ordered'.sound iid)
  have same : c.proxyRecords = a.proxyRecords := by rw [resolved.rest, rest]
  have grows := first.1.graph.grows.trans second.1.graph.grows
  have proxied := proxyMethods_eq image iid names c
  generalize Walk.methods image names image.procOffsets.zipIdx (Walk.startOf c iid) = walked
    at decoded proxied
  obtain ⟨⟨methods, issues⟩, last⟩ := walked
  have run : drawn image iid name names a = .ok (a.host iid, issues) { afterDecode c iid last with
      graph := last.finish.modify (a.host iid) (defined { methods, base }) } := by
    unfold drawn modifyNode
    rw [get_bind, ok_bind declared, ok_bind named, ok_bind proxied]
    rfl
  have draws : a.Draws iid (a.host iid) (afterDecode c iid last) := by
    refine ⟨rfl, grows.trans decoded.grows, ?_, ?_, ?_, ?_, fun {other} different => ?_,
      fun {j} inside among => ?_, fun {j node} found other foreign => ?_,
      fun {j} other reserved => ?_, fun {j} reserved => ?_⟩
    · obtain ⟨node', found', kept, _⟩ := (second.1.graph.grows.trans decoded.grows).kept found
      exact ⟨node', found', kept.trans identity⟩
    · show c.strict = a.strict
      rw [resolved.rest, rest]
    · show c.slots = a.slots
      rw [resolved.rest, rest]
    · show c.anonymous = a.anonymous
      rw [resolved.rest, rest]
    · rw [afterDecode, recordsOf_insert, if_neg different, same]
    · obtain ⟨other, member⟩ := recorded_old decoded (Nat.lt_of_lt_of_le inside grows.size_le) among
      exact ⟨other, same ▸ member⟩
    · exact node?_finish_of_foreign decoded (keeps.node (frame found other)) (same ▸ foreign)
    · obtain ⟨node, found, record | ⟨reserved, middle, known, body⟩⟩ :=
        body_of_reserved ordered'.sound decoded reserved
      · exact ⟨node, found, .inl record⟩
      · have before := first.1.reserved (second.1.reserved reserved)
        obtain ⟨old, found_old⟩ := Graph.exists_node_of_lt (ordered.sound.reserved_lt before)
        cases (keeps.node (frame found_old other)).symm.trans known
        exact ⟨node, found, .inr ⟨before, middle, found_old, body⟩⟩
    · rcases reserved_or_new decoded reserved with before | ⟨new, record⟩
      · exact .inl (first.1.reserved (second.1.reserved before))
      · exact .inr ⟨Nat.le_trans grows.size_le new, record⟩
  exact ⟨issues, _, run, draws.modify (fun _ => rfl) (fun _ => rfl) fun _ _ => .inr rfl⟩

/-- Adding a proxy draws up its interface, whether or not a procedure that fails is reported as a
failure. -/
theorem addProxyImage_draws (ordered : a.Ordered .unrestricted) (image : ProxyImage) (iid : Guid)
    (name : Option String) (names : NameLookup) :
    a.Draws iid (a.host iid) (left (addProxyImage image iid name names a)) ∧
      (left (addProxyImage image iid name names a)).Settled (a.host iid) ∧
      (addProxyImage image iid name names a =
          .ok (a.host iid) (left (addProxyImage image iid name names a)) ∨
        ∃ fault, addProxyImage image iid name names a =
          .error fault (left (addProxyImage image iid name names a))) := by
  obtain ⟨issues, b, run, draws⟩ := drawn_draws ordered image iid name names
  obtain ⟨node, found, _⟩ := draws.node
  have ended : (b.settled (a.host iid) issues).Ended (a.host iid) := ended_settled found
  obtain ⟨last, found_last, state, _⟩ := ended
  have settled : (b.settled (a.host iid) issues).Settled (a.host iid) := ⟨last, found_last, state⟩
  have whole : a.Draws iid (a.host iid) (b.settled (a.host iid) issues) :=
    draws.modify (fun _ => rfl) (fun _ => rfl) fun _ _ => .inl ⟨rfl, rfl⟩
  rw [addProxyImage_eq_settling]
  rcases settling_cases run with done | ⟨fault, done⟩
  · rw [done]
    exact ⟨whole, settled, .inl rfl⟩
  · rw [done]
    exact ⟨whole, settled, .inr ⟨fault, rfl⟩⟩

end ComTypes

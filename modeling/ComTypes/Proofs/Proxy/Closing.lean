import ComTypes.Proofs.Assembly.Order
import ComTypes.Proofs.Proxy.Walk

/-!
# What decoding a proxy leaves

When the procedures of a proxy have been decoded, the records that the last, failing one added are
taken out of use, and so are the records of the previous decode that were not met again. What is
reserved afterwards among the nodes that were there before was reserved before
(`reserved_old`), and what the methods and records that stay lead to is reserved only if it is one of the
records that stay (`met_of_reserved`). So the assembler is sound (`sound_afterDecode`) and tidy
(`tidy_afterDecode`) again.
-/

namespace ComTypes

/-! ### Taking records out of use -/

namespace Graph

variable {g : Graph} {r : Regime} {ids : List TypeId}

/-- A node out of use. -/
def shelved (node : Node) : Node := { node with retired := true, name := "" }

/-- Take nodes out of use. -/
def retireAll (g : Graph) (ids : List TypeId) : Graph := ids.foldl retire g

theorem IsRecord.retire_eq {id : TypeId} (h : g.IsRecord id) :
    g.retire id = g.modify id shelved := by
  obtain ⟨node, found, index, _⟩ := h
  refine retire_eq_modify ?_
  rw [found, Option.bind_some, Node.guid?, index]
  rfl

theorem modify_shelved_grows (id : TypeId) : g.Grows (g.modify id shelved) :=
  .of_modify (fun _ => rfl) fun _ _ => .inl ⟨rfl, rfl⟩

theorem retireAll_cons {id : TypeId} (h : g.IsRecord id) :
    g.retireAll (id :: ids) = (g.modify id shelved).retireAll ids := by
  rw [← h.retire_eq]
  rfl

/-- The records that are left are still records when the first one is out of use. -/
theorem records_tail {id : TypeId} (records : ∀ j ∈ id :: ids, g.IsRecord j) :
    ∀ j ∈ ids, (g.modify id shelved).IsRecord j := fun j member =>
  (records j (List.mem_cons_of_mem _ member)).grows (modify_shelved_grows id)

/-- Retiring records keeps all nodes in place. -/
theorem retireAll_grows (records : ∀ id ∈ ids, g.IsRecord id) : g.Grows (g.retireAll ids) := by
  induction ids generalizing g with
  | nil => exact .refl g
  | cons id rest ih =>
    rw [retireAll_cons (records id List.mem_cons_self)]
    exact (modify_shelved_grows id).trans (ih (records_tail records))

theorem retireAll_wellFormed (wf : g.WellFormed r) (records : ∀ id ∈ ids, g.IsRecord id) :
    (g.retireAll ids).WellFormed r := by
  induction ids generalizing g with
  | nil => exact wf
  | cons id rest ih =>
    rw [retireAll_cons (records id List.mem_cons_self)]
    exact ih (wf.modify (fun _ => rfl) fun _ _ => .inl ⟨rfl, rfl⟩) (records_tail records)

/-- Records are shelved, and other nodes are left alone. -/
theorem node?_retireAll (records : ∀ id ∈ ids, g.IsRecord id) (j : TypeId) :
    (g.retireAll ids).node? j = if j ∈ ids then (g.node? j).map shelved else g.node? j := by
  induction ids generalizing g with
  | nil => simp [retireAll]
  | cons id rest ih =>
    rw [retireAll_cons (records id List.mem_cons_self), ih (records_tail records), node?_modify]
    by_cases first : id = j
    · have twice : shelved ∘ shelved = shelved := rfl
      simp [first, Option.map_map, twice]
    · simp [first, Ne.symm first]

end Graph

/-! ### What decoding leaves -/

namespace Walk

open Walker

/-- The walker that a proxy starts with. -/
def startOf (a : Assembler) (iid : Guid) : Walker :=
  { graph := a.graph, previous := recordsOf a.proxyRecords iid }

/-- The nodes that are taken out of use in the end. -/
def dropped (kept failed : Walker) : List TypeId :=
  failed.discarded kept.created.length ++ failed.previousIds

theorem startOf_sound {r : Regime} {a : Assembler} (sound : a.Sound r) (iid : Guid) :
    (startOf a iid).Sound r where
  graph := sound.graph.loosen fun _ closed => closed.1
  isRecord id member := by
    have inside : id ∈ (startOf a iid).previousIds := by simpa [startOf, recordIds] using member
    exact sound.records.isRecord iid id inside
  ids := by simpa [startOf, recordIds, previousIds] using sound.records.values iid
  keys := sound.records.keys iid
  agree := ⟨rfl, rfl, List.nodup_nil⟩

variable {r : Regime} {w kept failed last : Walker} {methods : List Method} {id : TypeId}

namespace Decoded

variable (decoded : Decoded r w methods kept failed last)

include decoded

theorem whole : w.Stage r failed := decoded.succeeded.trans decoded.broken

/-- Discarding what the failing procedure has added leaves the accounts of the walker before it. -/
theorem last_accounts : last =
    { failed with
      graph := failed.graph.retireAll (failed.discarded kept.created.length)
      current := kept.current
      created := kept.created
      memo := kept.memo } := by
  rw [decoded.last_eq]
  exact Agree.discardSince decoded.succeeded.sound.agree decoded.broken.sound.agree decoded.broken.memo

/-- The table that is kept holds the records of the methods that were kept. -/
theorem current_eq : last.current = kept.current := by rw [decoded.last_accounts]

theorem recordIds_split : failed.recordIds =
    (failed.discarded kept.created.length).reverse ++ kept.recordIds :=
  Walker.recordIds_split decoded.succeeded.sound.agree decoded.broken.sound.agree decoded.broken.memo

/-- A record that was met when decoding failed was met before, or it is discarded. -/
theorem mem_failed : id ∈ failed.recordIds ↔
    id ∈ failed.discarded kept.created.length ∨ id ∈ kept.recordIds := by
  rw [decoded.recordIds_split, List.mem_append, List.mem_reverse]

/-- The decode ends by retiring the records that no method uses. -/
theorem finish_eq : last.finish = failed.graph.retireAll (dropped kept failed) := by
  rw [decoded.last_accounts]
  simp [finish, dropped, Graph.retireAll, previousIds, Table.values, List.foldl_append,
    List.foldl_map]

theorem dropped_records : ∀ id ∈ dropped kept failed, failed.graph.IsRecord id := by
  intro id member
  refine decoded.broken.sound.isRecord id ?_
  rcases List.mem_append.mp member with added | previous
  · exact List.mem_append_right _ (decoded.mem_failed.mpr (.inl added))
  · exact List.mem_append_left _ previous

/-- A record that stays is not dropped. -/
theorem notMem_dropped (met : id ∈ kept.recordIds) : id ∉ dropped kept failed := by
  have nodup := List.nodup_append.mp decoded.broken.sound.ids
  have apart := nodup.2.1
  rw [decoded.recordIds_split] at apart
  intro member
  rcases List.mem_append.mp member with added | previous
  · exact (List.nodup_append.mp apart).2.2 id (List.mem_reverse.mpr added) id met rfl
  · exact nodup.2.2 id previous id (decoded.mem_failed.mpr (.inr met)) rfl

/-- What is dropped was kept from the previous decode or is newer than the records that stay. -/
theorem dropped_origin (member : id ∈ dropped kept failed) :
    id ∈ w.previousIds ∨ kept.graph.size ≤ id := by
  rcases List.mem_append.mp member with added | previous
  · rcases decoded.broken.origin id (decoded.mem_failed.mpr (.inl added)) with met | reused | new
    · exact absurd member (decoded.notMem_dropped met)
    · exact .inl (decoded.succeeded.previous reused)
    · exact .inr new
  · exact .inl (decoded.whole.previous previous)

/-- No record of the previous decode is forgotten. -/
theorem previous_covered (member : id ∈ w.previousIds) :
    id ∈ kept.recordIds ∨ id ∈ dropped kept failed := by
  rcases decoded.whole.covered id member with previous | met
  · exact .inr (List.mem_append_right _ previous)
  · exact (decoded.mem_failed.mp met).symm.imp_right (List.mem_append_left _)

theorem grows : w.graph.Grows last.finish := by
  rw [decoded.finish_eq]
  exact decoded.whole.graph.grows.trans (Graph.retireAll_grows decoded.dropped_records)

theorem kept_grows : kept.graph.Grows last.finish := by
  rw [decoded.finish_eq]
  exact decoded.broken.graph.grows.trans (Graph.retireAll_grows decoded.dropped_records)

theorem wellFormed : last.finish.WellFormed (failed.regime r) := by
  rw [decoded.finish_eq]
  exact Graph.retireAll_wellFormed decoded.broken.sound.graph decoded.dropped_records

theorem node?_finish (j : TypeId) :
    last.finish.node? j = if j ∈ dropped kept failed then
      (failed.graph.node? j).map Graph.shelved else failed.graph.node? j := by
  rw [decoded.finish_eq]
  exact Graph.node?_retireAll decoded.dropped_records j

end Decoded

end Walk

/-! ### The assembler afterwards -/

namespace Assemble

open Assembler Walk

/-- The assembler with what decoding a proxy has left. -/
def afterDecode (a : Assembler) (iid : Guid) (last : Walker) : Assembler :=
  { a with graph := last.finish, proxyRecords := a.proxyRecords.insert iid last.current }

theorem recordsOf_insert (records : Table Guid (Table Nat TypeId)) (iid other : Guid)
    (table : Table Nat TypeId) :
    recordsOf (records.insert iid table) other =
      if other = iid then table else recordsOf records other := by
  unfold recordsOf
  rw [Table.get?_insert]
  split <;> rfl

section

variable {p : Policy} {a : Assembler} {iid : Guid} {kept failed last : Walker}
  {methods : List Method} {id : TypeId}

/-- The records that stay are those met before the failure. -/
theorem mem_records_iff {r : Regime} (decoded : Decoded r (startOf a iid) methods kept failed last) :
    id ∈ (recordsOf (afterDecode a iid last).proxyRecords iid).values ↔ id ∈ kept.recordIds := by
  rw [afterDecode, recordsOf_insert, if_pos rfl, decoded.current_eq,
    decoded.succeeded.sound.agree.current_values]

theorem mem_records_of_ne {other : Guid} (different : other ≠ iid) :
    id ∈ (recordsOf (afterDecode a iid last).proxyRecords other).values ↔
      id ∈ (recordsOf a.proxyRecords other).values := by
  rw [afterDecode, recordsOf_insert, if_neg different]

variable (sound : a.Sound (p.regime a))
  (decoded : Decoded (p.regime a) (startOf a iid) methods kept failed last)

include decoded

/-- A record that was met was kept for the proxy before, or it is new. -/
theorem origin_of_met (met : id ∈ kept.recordIds) :
    id ∈ (recordsOf a.proxyRecords iid).values ∨ a.graph.size ≤ id := by
  rcases decoded.succeeded.origin id met with none | previous | new
  · exact absurd none List.not_mem_nil
  · exact .inl previous
  · exact .inr new

/-- What is reserved afterwards: the records that stay, what was reserved before, and new nodes that
were dropped. -/
theorem reserved_cases (h : (afterDecode a iid last).Reserved id) :
    id ∈ kept.recordIds ∨ a.Reserved id ∨
      (id ∈ dropped kept failed ∧ kept.graph.size ≤ id) := by
  rcases h with ⟨node, found, gone⟩ | ⟨other, member⟩
  · rw [afterDecode, decoded.node?_finish] at found
    by_cases out : id ∈ dropped kept failed
    · rcases decoded.dropped_origin out with previous | new
      · exact .inr (.inl (.inr ⟨iid, previous⟩))
      · exact .inr (.inr ⟨out, new⟩)
    · rw [if_neg out] at found
      exact .inr (.inl (.inl (decoded.whole.graph.retired found gone)))
  · by_cases same : other = iid
    · subst same
      exact .inl ((mem_records_iff decoded).mp member)
    · exact .inr (.inl (.inr ⟨other, (mem_records_of_ne same).mp member⟩))

/-- What is reserved afterwards was so before, or is a new record. -/
theorem reserved_or_new (h : (afterDecode a iid last).Reserved id) :
    a.Reserved id ∨ a.graph.size ≤ id ∧ last.finish.IsRecord id := by
  rcases reserved_cases decoded h with met | reserved | ⟨out, new⟩
  · rcases origin_of_met decoded met with previous | new
    · exact .inl (.inr ⟨iid, previous⟩)
    · have record := decoded.succeeded.sound.isRecord id (List.mem_append_right _ met)
      exact .inr ⟨new, record.grows decoded.kept_grows⟩
  · exact .inl reserved
  · have record := decoded.dropped_records id out
    rw [decoded.finish_eq]
    exact .inr ⟨Nat.le_trans decoded.succeeded.graph.grows.size_le new,
      record.grows (Graph.retireAll_grows decoded.dropped_records)⟩

/-- Of the old nodes, only those are reserved that were so before. -/
theorem reserved_old (old : id < a.graph.size) (h : (afterDecode a iid last).Reserved id) :
    a.Reserved id :=
  (reserved_or_new decoded h).resolve_right fun new => absurd old (Nat.not_lt.mpr new.1)

/-- What the kept methods and records lead to is reserved only if it is a kept record. -/
theorem met_of_reserved (guarded : p.guarded) {t : TypeId}
    (named : kept.graph.Nameable (kept.regime (p.regime a)) t)
    (reached : last.finish.Reaches t id) (h : (afterDecode a iid last).Reserved id) :
    id ∈ kept.recordIds := by
  have bounded : p.bounded := p.bounded_of_guarded guarded
  obtain ⟨inside, apart⟩ := named bounded
  have wf := decoded.succeeded.sound.graph
  have before := decoded.kept_grows.reaches (wf.targets_lt bounded) reached inside
  rcases reserved_cases decoded h with met | reserved | ⟨_, new⟩
  · exact met
  · by_contra unmet
    exact apart id before ⟨⟨guarded, reserved⟩, unmet⟩
  · exact absurd (before.lt_size (wf.targets_lt bounded) inside) (Nat.not_lt.mpr new)

include sound

/-- What could be named before can still be named. -/
theorem nameable_afterDecode (named : a.graph.Nameable (p.regime a) id) :
    last.finish.Nameable (p.regime (afterDecode a iid last)) id := by
  intro bounded
  obtain ⟨inside, apart⟩ := named bounded
  refine ⟨Nat.lt_of_lt_of_le inside decoded.grows.size_le, fun t reached closed => ?_⟩
  have before := decoded.grows.reaches (sound.graph.targets_lt bounded) reached inside
  have old := before.lt_size (sound.graph.targets_lt bounded) inside
  exact apart t before ⟨closed.1, reserved_old decoded old closed.2⟩

theorem isSlot_afterDecode (slot : a.graph.IsSlot (p.regime a) id) :
    last.finish.IsSlot (p.regime (afterDecode a iid last)) id where
  editable := slot.editable.grows decoded.grows
  free closed := slot.free ⟨closed.1, reserved_old decoded slot.editable.lt_size closed.2⟩
  nameable := nameable_afterDecode sound decoded slot.nameable

/-- A reserved node is a record. -/
theorem isRecord_of_reserved (guarded : p.guarded) (h : (afterDecode a iid last).Reserved id) :
    last.finish.IsRecord id := by
  rcases reserved_or_new decoded h with reserved | ⟨_, record⟩
  · exact (sound.graph.closed_node ⟨guarded, reserved⟩).grows decoded.grows
  · exact record

/-- The graph is in order after a decode, with the records that are kept now closed. -/
theorem wellFormed_afterDecode :
    last.finish.WellFormed (p.regime (afterDecode a iid last)) := by
  refine decoded.wellFormed.reclose
    (fun closed => isRecord_of_reserved sound decoded closed.1 closed.2)
    fun bounded j node guid found identity t reached closed => ?_
  by_cases old : j < a.graph.size
  · obtain ⟨before, found_before⟩ := Graph.exists_node_of_lt old
    obtain ⟨after, found_after, same, _⟩ := decoded.grows.kept found_before
    rw [found] at found_after
    cases found_after
    have named := sound.graph.guid_nameable found_before (same.symm.trans identity)
    exact (nameable_afterDecode sound decoded named bounded).2 t reached closed
  · -- A new node with a GUID declares something, so it leads nowhere, and it is no record.
    have failed_found : ∃ before, failed.graph.node? j = some before ∧
        before.identity = node.identity ∧ before.body = node.body := by
      rw [decoded.node?_finish] at found
      split at found
      · obtain ⟨before, known, rfl⟩ := Option.map_eq_some_iff.mp found
        exact ⟨before, known, rfl, rfl⟩
      · exact ⟨node, found, rfl, rfl⟩
    obtain ⟨before, known, same_identity, same_body⟩ := failed_found
    have unmet : j ∉ failed.recordIds := by
      intro met
      obtain ⟨record, found', index, _⟩ :=
        decoded.broken.sound.isRecord j (List.mem_append_right _ met)
      rw [known] at found'
      cases found'
      rw [same_identity, identity] at index
      cases index
    rcases decoded.whole.plain (Nat.le_of_not_lt old) known unmet with ⟨declares, _⟩ | ⟨_, index⟩
    · rw [same_body] at declares
      rw [reached.eq_of_declaration found declares] at closed
      obtain ⟨record, found', index, _⟩ := isRecord_of_reserved sound decoded closed.1 closed.2
      rw [found] at found'
      cases found'
      rw [identity] at index
      cases index
    · rw [same_identity, identity] at index
      cases index

theorem keepsApart_afterDecode :
    last.finish.KeepsApart (afterDecode a iid last).proxyRecords := by
  have before := sound.records
  -- A record of this proxy is not one of another: it was its own before, or it is new.
  have apart : ∀ {other j}, other ≠ iid → j ∈ kept.recordIds →
      j ∉ (recordsOf a.proxyRecords other).values := by
    intro other j different met member
    rcases origin_of_met decoded met with previous | new
    · exact different (before.apart member previous)
    · exact absurd (before.isRecord other j member).lt_size (Nat.not_lt.mpr new)
  refine ⟨fun other j member => ?_, fun other => ?_, fun other => ?_,
    fun {one two j} first second => ?_⟩
  · by_cases same : other = iid
    · subst same
      have met := (mem_records_iff decoded).mp member
      exact (decoded.succeeded.sound.isRecord j (List.mem_append_right _ met)).grows
        decoded.kept_grows
    · exact (before.isRecord other j ((mem_records_of_ne same).mp member)).grows decoded.grows
  · rw [afterDecode, recordsOf_insert]
    split
    · rw [decoded.current_eq, decoded.succeeded.sound.agree.current_keys]
      exact decoded.succeeded.sound.agree.keys
    · exact before.keys other
  · rw [afterDecode, recordsOf_insert]
    split
    · rw [decoded.current_eq, decoded.succeeded.sound.agree.current_values]
      exact (List.nodup_append.mp decoded.succeeded.sound.ids).2.1
    · exact before.values other
  · by_cases here : one = iid <;> by_cases there : two = iid
    · rw [here, there]
    · subst here
      exact absurd ((mem_records_of_ne there).mp second)
        (apart there ((mem_records_iff decoded).mp first))
    · subst there
      exact absurd ((mem_records_of_ne here).mp first)
        (apart here ((mem_records_iff decoded).mp second))
    · exact before.apart ((mem_records_of_ne here).mp first) ((mem_records_of_ne there).mp second)

/-- The assembler is sound after a decode. -/
theorem sound_afterDecode : (afterDecode a iid last).Sound (p.regime (afterDecode a iid last)) where
  graph := wellFormed_afterDecode sound decoded
  slots known := isSlot_afterDecode sound decoded (sound.slots known)
  anonymous known := isSlot_afterDecode sound decoded (sound.anonymous known)
  unnamed known := decoded.grows.index_kept (sound.unnamed known)
  records := keepsApart_afterDecode sound decoded

omit sound in
/-- A record that stays is complete, in use, and leads to open nodes only. -/
theorem kept_node (met : id ∈ kept.recordIds) :
    ∃ node, last.finish.node? id = some node ∧ node.retired = false ∧ node.state = .complete ∧
      ∀ t ∈ node.body.targets, kept.graph.Nameable (kept.regime (p.regime a)) t := by
  obtain ⟨node, found, used, complete, targets⟩ :=
    (decoded.filled id met List.not_mem_nil).filled
  obtain ⟨node', found', alike⟩ := decoded.broken.alike found fun _ => met
  refine ⟨node', ?_, alike.retired.trans used, alike.state.trans complete, ?_⟩
  · rw [decoded.node?_finish, if_neg (decoded.notMem_dropped met)]
    exact found'
  · rwa [alike.body]

omit sound in
/-- An old node that is no record of this proxy is as before. -/
theorem node?_finish_of_foreign {node : Node} (found : a.graph.node? id = some node)
    (other : id ∉ (recordsOf a.proxyRecords iid).values) : last.finish.node? id = some node := by
  have old := Graph.lt_size_of_node? found
  have unmet : id ∉ failed.recordIds := by
    intro met
    rcases decoded.whole.origin id met with none | previous | new
    · exact List.not_mem_nil none
    · exact other previous
    · exact absurd old (Nat.not_lt.mpr new)
  have stays : id ∉ dropped kept failed := by
    intro out
    rcases decoded.dropped_origin out with previous | new
    · exact other previous
    · exact absurd (Nat.lt_of_lt_of_le old decoded.succeeded.graph.grows.size_le)
        (Nat.not_lt.mpr new)
  rw [decoded.node?_finish, if_neg stays]
  exact decoded.whole.untouched found fun met => absurd met unmet

omit sound in
theorem untouched_node {node : Node} (found : a.graph.node? id = some node)
    (other : id ∉ (recordsOf a.proxyRecords iid).values) :
    ∃ node', last.finish.node? id = some node' ∧ node.Alike node' :=
  ⟨node, node?_finish_of_foreign decoded found other, .refl node⟩

omit sound in
/-- Dropped records are out of use. -/
theorem retired_of_dropped {node : Node} (out : id ∈ dropped kept failed)
    (found : last.finish.node? id = some node) : node.retired = true := by
  rw [decoded.node?_finish, if_pos out] at found
  obtain ⟨before, _, rfl⟩ := Option.map_eq_some_iff.mp found
  rfl

omit sound in
/-- A new declaration that is no record names nothing. -/
theorem targets_of_new {node : Node} (found : last.finish.node? id = some node)
    (new : a.graph.size ≤ id) (unmet : id ∉ kept.recordIds) (declares : node.isDeclaration = true) :
    node.body.targets = [] := by
  simp only [Node.isDeclaration, Bool.and_eq_true, Bool.not_eq_true'] at declares
  have stays : id ∉ dropped kept failed := by
    intro out
    have gone := retired_of_dropped decoded out found
    rw [declares.1] at gone
    cases gone
  have other : id ∉ failed.recordIds := by
    rw [decoded.mem_failed, not_or]
    exact ⟨fun added => stays (List.mem_append_left _ added), unmet⟩
  rw [decoded.node?_finish, if_neg stays] at found
  rcases decoded.whole.plain new found other with ⟨_, blank⟩ | ⟨structural, _⟩
  · exact blank
  · rw [structural] at declares
    cases declares.2

/-- The interface of the proxy must not lead to reserved nodes while it is decoded. -/
theorem tidy_afterDecode (guarded : p.guarded) (tidy : a.Tidy) {owner : TypeId}
    (indexed : a.graph.findGuid? iid = some owner)
    (free : ∀ {node}, a.graph.node? owner = some node →
      ∀ t ∈ node.body.targets, a.graph.Nameable (p.regime a) t) :
    (afterDecode a iid last).Tidy := by
  have bounded := p.bounded_of_guarded guarded
  refine ⟨fun other j member => ?_, fun {j node'} found' declares t named u reached reserved => ?_⟩
  · by_cases same : other = iid
    · subst same
      obtain ⟨node, found, used, complete, _⟩ :=
        kept_node decoded ((mem_records_iff decoded).mp member)
      exact ⟨node, found, used, complete⟩
    · have before := (mem_records_of_ne same).mp member
      obtain ⟨node, found, used, complete⟩ := tidy.complete other j before
      obtain ⟨node', found', alike⟩ := untouched_node decoded found fun own =>
        same (sound.records.apart before own)
      exact ⟨node', found', alike.retired.trans used, alike.state.trans complete⟩
  · by_cases met : j ∈ kept.recordIds
    · obtain ⟨node, found, _, _, targets⟩ := kept_node decoded met
      have same := found.symm.trans found'
      cases same
      have own := met_of_reserved decoded guarded (targets t named) reached reserved
      exact ⟨iid, (mem_records_iff decoded).mpr own, .inr ((mem_records_iff decoded).mpr met)⟩
    by_cases new : a.graph.size ≤ j
    · rw [targets_of_new decoded found' new met declares] at named
      cases named
    have inside := Nat.lt_of_not_le new
    obtain ⟨node, found⟩ := Graph.exists_node_of_lt inside
    have foreign : j ∉ (recordsOf a.proxyRecords iid).values := by
      intro previous
      rcases decoded.previous_covered previous with again | out
      · exact met again
      · have gone := retired_of_dropped decoded out found'
        simp [Node.isDeclaration, gone] at declares
    obtain ⟨after, found_after, alike⟩ := untouched_node decoded found foreign
    have same := found_after.symm.trans found'
    cases same
    -- The declaration and what it leads to are as before, so it belongs to some proxy; it is not
    -- this one, whose interface leads to nothing reserved.
    have declared : node.isDeclaration = true := by
      rwa [Node.isDeclaration, ← alike.retired, ← alike.body]
    rw [alike.body] at named
    have t_inside := sound.graph.targets_lt bounded found t named
    have before := decoded.grows.reaches (sound.graph.targets_lt bounded) reached t_inside
    have old := before.lt_size (sound.graph.targets_lt bounded) t_inside
    have reserved_before := reserved_old decoded old reserved
    obtain ⟨other, member, belongs⟩ := tidy.owned found declared t named u before reserved_before
    by_cases this : other = iid
    · subst this
      rcases belongs with interface | record
      · have itself := interface.symm.trans indexed
        cases itself
        exact absurd ⟨guarded, reserved_before⟩ ((free found t named bounded).2 u before)
      · exact absurd record foreign
    · refine ⟨other, (mem_records_of_ne this).mpr member, belongs.imp (fun h => ?_) fun h => ?_⟩
      · exact decoded.grows.findGuid sound.graph (wellFormed_afterDecode sound decoded) h
      · exact (mem_records_of_ne this).mpr h

end

end Assemble

end ComTypes

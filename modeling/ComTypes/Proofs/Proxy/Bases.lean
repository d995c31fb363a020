import ComTypes.Proofs.Assembly.Bases
import ComTypes.Proofs.Proxy.AddAgain

/-!
# Bases of proxies, and of every run

Decoding a proxy gives other bodies to its own records only, so bases stay interfaces. The base that a
proxy names is looked up by its IID and not checked, so it is an interface if the IID is new, that of the
proxy itself, or known as one. With that, runs whose type infos do not take the place of a base, and
whose callers hand in interfaces with bases that are interfaces, keep every base an interface
(`bases_are_interfaces`).
-/

namespace ComTypes

open Assembler

namespace Assemble

open Walk Walker

variable {p : Policy} {a b : Assembler} {iid : Guid} {id : TypeId}

/-! ### Decoding -/

section Decoding

variable {kept failed last : Walker} {methods : List Method}
  (based : a.Based) (decoded : Decoded (p.regime a) (startOf a iid) methods kept failed last)

include decoded

/-- Taking records out of use leaves their bodies. -/
theorem body_of_finish {node : Node} (found : last.finish.node? id = some node) :
    ∃ before, failed.graph.node? id = some before ∧ node.body = before.body := by
  rw [decoded.node?_finish] at found
  split at found
  · obtain ⟨before, known, rfl⟩ := Option.map_eq_some_iff.mp found
    exact ⟨before, known, rfl⟩
  · exact ⟨node, found, rfl⟩

/-- No base is added. -/
theorem isBase_of_finish (base : last.finish.IsBase id) : a.graph.IsBase id := by
  obtain ⟨j, node, found, named⟩ := base
  obtain ⟨before, known, same⟩ := body_of_finish decoded found
  rw [same] at named
  by_cases met : j ∈ failed.recordIds
  · obtain ⟨_, fields, again, shape⟩ := decoded.whole.shaped j met List.not_mem_nil
    cases again.symm.trans known
    rw [shape] at named
    cases named
  by_cases inside : j < a.graph.size
  · obtain ⟨old, found_old⟩ := Graph.exists_node_of_lt inside
    obtain ⟨_, again, alike⟩ := decoded.whole.alike found_old fun member => absurd member met
    cases again.symm.trans known
    exact ⟨j, old, found_old, alike.body ▸ named⟩
  · rw [(decoded.whole.plain (Nat.le_of_not_lt inside) known met).base?] at named
    cases named

/-- A record that stays is no interface. -/
theorem not_isInterface_of_met (met : id ∈ kept.recordIds) : ¬ last.finish.IsInterface id := by
  rintro ⟨node, found, interface⟩
  obtain ⟨before, known, same⟩ := body_of_finish decoded found
  obtain ⟨_, fields, again, shape⟩ :=
    decoded.whole.shaped id (decoded.broken.recordIds_subset met) List.not_mem_nil
  cases again.symm.trans known
  rw [same, shape] at interface
  cases interface

/-- Only new nodes become records. -/
theorem recorded_old (inside : id < a.graph.size) (among : (afterDecode a iid last).Recorded id) :
    a.Recorded id := by
  obtain ⟨other, member⟩ := among
  by_cases same : other = iid
  · subst same
    rcases origin_of_met decoded ((mem_records_iff decoded).mp member) with previous | new
    · exact ⟨other, previous⟩
    · exact absurd inside (Nat.not_lt.mpr new)
  · exact ⟨other, (mem_records_of_ne same).mp member⟩

include based

/-- Interfaces are still interfaces after a decode. -/
theorem isInterface_finish (interface : a.graph.IsInterface id) : last.finish.IsInterface id := by
  obtain ⟨node, found, shape⟩ := interface
  obtain ⟨node', found', alike⟩ := untouched_node decoded found fun member =>
    based.records ⟨iid, member⟩ ⟨node, found, shape⟩
  exact ⟨node', found', alike.body ▸ shape⟩

/-- A decode leaves bases interfaces. -/
theorem afterDecode_based (sound : a.Sound (p.regime a)) : (afterDecode a iid last).Based where
  bases base := isInterface_finish based decoded (based.bases (isBase_of_finish decoded base))
  records := by
    rintro id ⟨other, member⟩
    by_cases same : other = iid
    · subst same
      exact not_isInterface_of_met decoded ((mem_records_iff decoded).mp member)
    · have before := (mem_records_of_ne same).mp member
      obtain ⟨node, found, _⟩ := sound.records.isRecord other id before
      obtain ⟨node', found', alike⟩ := untouched_node decoded found fun own =>
        same (sound.records.apart before own)
      rintro ⟨_, again, interface⟩
      cases again.symm.trans found'
      exact based.records ⟨other, before⟩ ⟨node, found, alike.body ▸ interface⟩
  slots known among := based.slots known
    (recorded_old decoded (sound.slots known).editable.lt_size among)
  anonymous known among := based.anonymous known
    (recorded_old decoded (sound.anonymous known).editable.lt_size among)

end Decoding

/-! ### The interface and its base -/

/-- What declaring the interface of a proxy leaves. -/
structure Heads (a : Assembler) (iid : Guid) (id : TypeId) (b : Assembler) : Prop where
  own : b.graph.IsInterface id
  interfaces : ∀ {j}, a.graph.IsInterface j → b.graph.IsInterface j
  known : ∀ {guid t}, b.graph.findGuid? guid = some t →
    t = id ∨ guid ≠ iid ∧ a.graph.findGuid? guid = some t

theorem declare_heads (sound : a.Sound (p.regime a)) {name : String}
    (run : declare iid name (.interface {}) a = .ok id b) : Heads a iid id b := by
  cases known : a.graph.findGuid? iid with
  | some other =>
    obtain ⟨changed, again⟩ := declare_of_known name (.interface {}) known
    cases again.symm.trans run
    obtain ⟨_, node, found, _⟩ := (sound.graph.findGuid_iff iid id).mp known
    have own : (a.graph.modify id (redeclared name (.interface {}))).IsInterface id :=
      ⟨_, Graph.node?_modify_self _ found, rfl⟩
    refine ⟨own, ?_, fun {guid t} listed => ?_⟩
    · rintro j ⟨old, found_old, interface⟩
      by_cases here : id = j
      · exact here ▸ own
      · exact ⟨old, (Graph.node?_modify_of_ne _ here).trans found_old, interface⟩
    · rw [Graph.findGuid?_modify] at listed
      by_cases same : guid = iid
      · subst same
        exact .inl (Option.some.inj (listed.symm.trans known))
      · exact .inr ⟨same, listed⟩
  | none =>
    cases (declare_of_unknown name (.interface {}) known).symm.trans run
    have declares : (Body.interface {}).isDeclaration = true := rfl
    have h := a.graph.appends_add (some iid) name declares
    refine ⟨⟨_, Graph.WellFormed.appended h, rfl⟩, h.isInterface, fun {guid t} listed => ?_⟩
    rw [h.guid_eq] at listed
    split at listed
    · exact .inl (Option.some.inj listed).symm
    · refine .inr ⟨?_, listed⟩
      rintro rfl
      rw [known] at listed
      cases listed

/-- The base of a proxy image is an interface, if the node known under its IID is one. -/
theorem imageBase_isInterface (ordered : a.Ordered p) {image : ProxyImage}
    (kind : ∀ t, a.graph.findGuid? image.baseIid = some t → a.graph.IsInterface t) :
    ∃ base b, imageBase image a = .ok base b ∧ b.Ordered p ∧ a.Resolved b ∧
      ∀ t, base = some t → b.graph.IsInterface t := by
  have advance := imageBase_advance ordered.sound image
  unfold imageBase at advance ⊢
  cases zero : image.baseIid.isZero with
  | true => exact ⟨none, a, rfl, ordered, .refl a, fun t same => by cases same⟩
  | false =>
    rw [zero] at advance
    have declares : (Body.interface {}).isDeclaration = true := rfl
    have resolved := (Resolving.external image.baseIid "" declares rfl).resolved a
    refine ⟨some (a.graph.external image.baseIid "" (.interface {})).1,
      { a with graph := (a.graph.external image.baseIid "" (.interface {})).2 }, rfl,
      ordered.advance advance.1, resolved, fun t same => ?_⟩
    cases known : a.graph.findGuid? image.baseIid with
    | some other =>
      rw [Graph.external_of_found _ _ known, Option.some.injEq] at same
      subst same
      exact resolved.restates.isInterface (kind other known)
    | none =>
      rw [Graph.external_fst_of_new _ _ known, Option.some.injEq] at same
      subst same
      exact ⟨_, Graph.WellFormed.appended (Graph.appends_external "" (.interface {}) known), rfl⟩

/-- The node known under the IID of the base, if there is one, is an interface or that of the proxy. -/
def BaseSuits (image : ProxyImage) (iid : Guid) (a : Assembler) : Prop :=
  ∀ t, a.graph.findGuid? image.baseIid = some t → image.baseIid = iid ∨ a.graph.IsInterface t

theorem drawn_based (ordered : a.Ordered p) (based : a.Based) {image : ProxyImage}
    (suits : BaseSuits image iid a) (name : Option String) (names : NameLookup) :
    Outcome Based (fun _ _ => True) (drawn image iid name names a) := by
  have heading : ∃ id b, declare iid (proxyName a iid name) (Definition.interface false).blank a =
      .ok id b ∧ Grounded (.interface false) id b :=
    declare_grounded ordered.sound based (fun _ _ other => by cases other) _
  obtain ⟨id, b, run, grounded⟩ := heading
  have declared : declare iid (proxyName a iid name) (.interface {}) a = .ok id b := run
  have heads := declare_heads ordered.sound declared
  have hosted : Outcome (Ordered p) (Hosts p iid) (.ok id b) := declared ▸ declare_hosts ordered iid _
  -- The declaration may be what the IID of the base now stands for.
  have kind : ∀ t, b.graph.findGuid? image.baseIid = some t → b.graph.IsInterface t := by
    intro t listed
    rcases heads.known listed with rfl | ⟨other, before⟩
    · exact heads.own
    · exact heads.interfaces ((suits t before).resolve_left other)
  obtain ⟨base, c, named, ordered, resolved, interface⟩ := imageBase_isInterface hosted.1 kind
  have based := grounded.based.resolved hosted.1.sound resolved
  obtain ⟨kept, failed, decoded⟩ := Walk.methods_decoded image names image.procOffsets.zipIdx
    (Walk.startOf_sound ordered.sound iid)
  have after := afterDecode_based based decoded ordered.sound
  have free : ¬ c.Recorded id := by
    rw [resolved.rest]
    exact grounded.free
  obtain ⟨node, found, _⟩ := resolved.restates.isInterface heads.own
  unfold drawn modifyNode
  rw [get_bind, ok_bind declared, ok_bind named, ok_bind (proxyMethods_eq image iid names c)]
  refine ⟨after.rests (.of_define (fun among => ?_) (fun _ => rfl) (fun other => by cases other)
    fun t same => isInterface_finish based decoded (interface t same)), trivial⟩
  exact free (recorded_old decoded (Graph.lt_size_of_node? found) among)

theorem addProxy_based (ordered : a.Ordered p) (based : a.Based) {bytes : Bytes}
    (suits : ∀ image, ProxyImage.decode bytes = .ok image → BaseSuits image iid a)
    (name : Option String) (names : NameLookup) :
    Outcome Based (fun _ _ => True) (addProxy bytes iid name names a) := by
  unfold addProxy
  cases decoded : ProxyImage.decode bytes with
  | ok image =>
    change Outcome Based _ (addProxyImage image iid name names a)
    rw [addProxyImage_eq_settling]
    exact settling_based (drawn_based ordered based (suits image decoded) name names)
  | error fault => exact Outcome.of_throw based

end Assemble

/-! ### Runs -/

/-- The call does not take a base away, and the bases that it brings are interfaces: a type info of
another kind does not take the place of a base, the base of a proxy is not known as something else, and
an interface that is handed in for a type defined elsewhere names an interface, or itself. -/
def Call.Suits (a : Assembler) : Call → Prop
  | addLibrary library => Assemble.librarySuits library a = true
  | addTypeInfo info index _ => ∀ attr definition, info.header = .ok (attr, definition) →
      a.suits definition ((a.waiting? index).or (a.seat? attr.guid index)) = true
  | addProxy bytes iid _ _ => ∀ image, ProxyImage.decode bytes = .ok image →
      Assemble.BaseSuits image iid a
  | external guid _ body => a.graph.findGuid? guid = none →
      ∀ b, body.base? = some b → a.graph.IsInterface b ∨ b = a.graph.size
  | externalInterface .. => True

theorem external_based {r : Regime} {a : Assembler} (sound : a.Sound r) (based : a.Based) {guid : Guid}
    (name : String) {body : Body} (suits : a.graph.findGuid? guid = none →
      ∀ b, body.base? = some b → a.graph.IsInterface b ∨ b = a.graph.size) :
    Assembler.Based { a with graph := (a.graph.external guid name body).2 } := by
  cases known : a.graph.findGuid? guid with
  | some id =>
    rw [Graph.external_of_found name body known]
    refine based.rests (.of_touch fun node => ?_)
    split <;> rfl
  | none =>
    have h := Graph.appends_external name body known
    refine based.rests (.of_appends h sound.recorded_lt fun b named => ?_)
    rcases suits known b named with interface | rfl
    · exact h.isInterface interface
    · exact ⟨_, Graph.WellFormed.appended h, Body.isInterface_of_base? named⟩

/-- One call keeps every base an interface. -/
theorem Call.run_based {p : Policy} {a : Assembler} (ordered : a.Ordered p) (based : a.Based)
    (call : Call) (suits : call.Suits a) : (call.run a).Based := by
  cases call with
  | addLibrary library => exact (Assemble.addLibrary_based ordered.sound based suits).left
  | addTypeInfo info index names =>
    have added : Outcome Assembler.Based (fun _ _ => True)
        (Assemble.addTypeInfo info index names a) := by
      unfold Assemble.addTypeInfo
      cases header : info.header with
      | ok found =>
        exact Assemble.build_based ordered.sound based info names (suits found.1 found.2 header)
      | error fault => exact Outcome.of_throw based
    exact added.left
  | addProxy bytes iid name names =>
    exact (Assemble.addProxy_based ordered based suits name names).left
  | external guid name body => exact external_based ordered.sound based name suits
  | externalInterface iid name =>
    exact external_based ordered.sound based _ fun _ b named => by cases named

/-- In runs of suitable calls all bases are interfaces. -/
theorem Reachable.based {a : Assembler} (run : Reachable (fun a call => call.Suits a) a) :
    a.Based := by
  induction run with
  | start strict =>
    refine ⟨?_, ?_, fun {_ _} known => ?_, fun {_ _} known => ?_⟩
    · rintro id ⟨j, node, found, _⟩
      simp [Graph.node?] at found
    · rintro id ⟨iid, member⟩
      simp [recordsOf, Table.get?, Table.values, Table.empty] at member
    · simp [Table.get?] at known
    · simp [Table.get?] at known
  | step call before suits ih =>
    have ordered := (before.mono fun _ _ _ => trivial : Reachable (fun _ _ => True) _).in_order
    exact call.run_based ordered ih suits

/-- The base of an interface is an interface. -/
theorem bases_are_interfaces {a : Assembler} (run : Reachable (fun a call => call.Suits a) a)
    {id b : TypeId} {node : Node} {definition : Interface} (found : a.graph.node? id = some node)
    (shape : node.body = .interface definition) (base : definition.base = some b) :
    ∃ other, a.graph.node? b = some other ∧ other.body.isInterface = true := by
  refine run.based.bases ⟨id, node, found, ?_⟩
  rw [shape]
  exact base

/-- A run with an interface that is handed in, a proxy with the same base, and a library that gives the
GUID of the proxy to a type definition. -/
def basedRun : Assembler :=
  Call.run (Call.run (Call.run (Call.run {}
    (.externalInterface (.ofBytes [3]) none))
    (.external (.ofBytes [4]) "IDerived" (.interface { base := some 0 })))
    (.addProxy listImage.encode (.ofBytes [1]) (some "IList") .none))
    (.addLibrary mixedLibrary)

theorem basedRun_base :
    basedRun.graph.body? 1 = some (.interface { base := some 0 }) ∧
      ∃ other, basedRun.graph.node? 0 = some other ∧ other.body.isInterface = true := by
  have decodes : ProxyImage.decode listImage.encode = .ok listImage := by decide +kernel
  have run : Reachable (fun a call => call.Suits a) basedRun := by
    unfold basedRun
    refine .step _ (.step _ (.step _ (.step _ (.start false) trivial) ?_) ?_) ?_
    · intro _ b named
      cases named
      exact .inl ⟨_, rfl, rfl⟩
    · intro image decoded t known
      cases decodes.symm.trans decoded
      cases known
      exact .inr ⟨_, rfl, rfl⟩
    · change Assemble.librarySuits mixedLibrary _ = true
      decide +kernel
  have derived : basedRun.graph.body? 1 = some (.interface { base := some 0 }) := by decide +kernel
  obtain ⟨node, found, shape⟩ := Option.map_eq_some_iff.mp derived
  exact ⟨derived, bases_are_interfaces run found shape rfl⟩

/-- An interface that is handed in with a record as its base. -/
def handedBase : Assembler :=
  Call.run (Call.run {}
    (.external (.ofBytes [1]) "Record" (.record .struct [])))
    (.external (.ofBytes [2]) "IDerived" (.interface { base := some 0 }))

/-- An interface whose base a library gives to a type definition. -/
def redeclaredBase : Assembler :=
  Call.run (Call.run (Call.run {}
    (.externalInterface (.ofBytes [1]) none))
    (.external (.ofBytes [2]) "IDerived" (.interface { base := some 0 })))
    (.addLibrary mixedLibrary)

/-- Runs lead to interfaces whose base is not one, both where bodies are handed in and where a base is
declared again. -/
theorem bases_unchecked :
    (Reachable (fun _ _ => True) handedBase ∧ handedBase.graph.IsBase 0 ∧
      ¬ handedBase.graph.IsInterface 0) ∧
    Reachable (fun _ _ => True) redeclaredBase ∧ redeclaredBase.graph.IsBase 0 ∧
      ¬ redeclaredBase.graph.IsInterface 0 := by
  refine ⟨⟨?_, Graph.isBase_iff.mp (by decide +kernel), ?_⟩, ?_,
    Graph.isBase_iff.mp (by decide +kernel), ?_⟩
  · exact .step _ (.step _ (.start false) trivial) trivial
  · rw [← Graph.any_isInterface]
    decide +kernel
  · exact .step _ (.step _ (.step _ (.start false) trivial) trivial) trivial
  · rw [← Graph.any_isInterface]
    decide +kernel

end ComTypes

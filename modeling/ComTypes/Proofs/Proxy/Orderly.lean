import Mathlib.Data.List.Perm.Subperm
import Mathlib.Tactic.Ring
import ComTypes.Proofs.Assembly.AddAgain
import ComTypes.Proofs.Proxy.Calls
import ComTypes.Proofs.Proxy.Decode

/-!
# Decodes are orderly

Whatever bytes an image has, its decode ends, and the accounts of the walker are coherent at every call
(`walks_coherent_and_finite`). The number of calls is bounded by what they expand: each expansion gives
rise to a call for every byte of the type format at most, and each call to no more calls than there are
levels until the next expansion (`Walk.Bounded`). As no offset is expanded twice, the sizes of the formats
bound the whole decode.
-/

namespace ComTypes

namespace Walk

open Walker

variable {r : Regime} {format : Bytes} {first levels offset : Nat} {w : Walker}

/-! ### How many calls there are -/

/-- The number of calls is bounded by what they expand, where `tops` calls are not made by another one. -/
def Bounded (format : Bytes) (depth tops : Nat) (calls : List TypeCall) : Prop :=
  calls.length ≤ depth * (tops + format.length * (expansions format calls).length)

theorem Bounded.nil (depth tops : Nat) : Bounded format depth tops [] := Nat.zero_le _

theorem Bounded.append {depth tops more : Nat} {first second : List TypeCall}
    (left : Bounded format depth tops first) (right : Bounded format depth more second) :
    Bounded format depth (tops + more) (first ++ second) := by
  unfold Bounded at left right ⊢
  rw [List.length_append, expansions_append, List.length_append]
  refine Nat.le_trans (Nat.add_le_add left right) (Nat.le_of_eq ?_)
  ring

/-- If each item makes the calls of one walk, all make those of as many walks as there are items. -/
theorem along_bounded {α β : Type} {step : α → Walk β} {made : α → Walker → List TypeCall}
    {depth : Nat} {items : List α}
    (each : ∀ item ∈ items, ∀ t, Bounded format depth 1 (made item t)) (w : Walker) :
    Bounded format depth items.length (along step made items w) := by
  induction items generalizing w with
  | nil => exact .nil depth 0
  | cons item rest ih =>
    rw [along, List.length_cons, Nat.add_comm]
    refine (each item List.mem_cons_self w).append ?_
    cases step item w with
    | error fault t => exact .nil depth _
    | ok value t => exact ih (fun other member => each other (List.mem_cons_of_mem _ member)) t

/-- A structure makes up for the calls of its members, as it is expanded itself. -/
theorem formCalls_bounded
    (inner : ∀ offset w, Bounded format (levels + 1) 1 (calls format levels offset w))
    {form : TypeForm} (fits : form.Fits format) (w : Walker) :
    (formCalls (type format levels) offset (calls format levels) w form).length ≤
      (levels + 1) * (1 + format.length * ((opened offset form).length + (expansions format
        (formCalls (type format levels) offset (calls format levels) w form)).length)) := by
  have direct : ∀ target, (calls format levels target w).length ≤ (levels + 1) *
      (1 + format.length * (0 + (expansions format (calls format levels target w)).length)) := by
    intro target
    rw [Nat.zero_add]
    exact inner target w
  cases form with
  | base | interfacePointer | simplePointer => exact Nat.zero_le _
  | pointer target => exact direct target
  | fixedArray total element elementAt =>
    cases element with
    | base => exact Nat.zero_le _
    | described target => exact direct target
  | struct size members =>
    have each : ∀ member ∈ members.items, ∀ t,
        Bounded format (levels + 1) 1 (memberCalls (calls format levels) member t) := by
      intro member _ t
      cases member with
      | base => exact .nil _ _
      | described target => exact inner target t
    have fewer : members.items.length ≤ format.length := fits
    refine Nat.le_trans (along_bounded each _) (Nat.mul_le_mul_left _ ?_)
    simp only [opened, List.length_singleton, formCalls, Nat.mul_add]
    omega

/-- One walk of the type format makes a bounded number of calls. -/
theorem calls_bounded (format : Bytes) (levels offset : Nat) (w : Walker) :
    Bounded format (levels + 1) 1 (calls format levels offset w) := by
  induction levels generalizing offset w with
  | zero => simp [Bounded, calls]
  | succ levels ih =>
    -- One more call is made up for by one more level.
    have more : ∀ {n expanded : Nat}, n ≤ (levels + 1) * (1 + format.length * expanded) →
        n + 1 ≤ (levels + 1 + 1) * (1 + format.length * expanded) := by
      intro n expanded inner
      rw [Nat.succ_mul]
      omega
    rw [Bounded, calls, List.length_cons]
    apply more
    rw [expansions_cons, List.length_append]
    cases met : w.memo.get? offset with
    | some known => exact Nat.zero_le _
    | none =>
      cases parsed : TypeForm.parse format offset with
      | error fault => exact Nat.zero_le _
      | ok form =>
        refine Nat.le_trans (formCalls_bounded ih (TypeForm.parse_fits parsed).2 w) ?_
        cases form <;> simp [TypeCall.expands, met, parsed, opened]

/-- The number of parameters that the procedure at an offset describes. -/
def parameterCount (image : ProxyImage) (offset : Nat) : Nat :=
  match Procedure.parse image.procFormat offset with
  | .ok procedure => procedure.entries.items.length
  | .error _ => 0

/-- A procedure makes a walk for each of its entries. -/
theorem procedureCalls_bounded (image : ProxyImage) (offset : Nat) (w : Walker) :
    Bounded image.typeFormat (maxDepth + 2) (parameterCount image offset)
      (procedureCalls image offset w) := by
  unfold procedureCalls parameterCount
  cases Procedure.parse image.procFormat offset with
  | error fault => exact .nil _ _
  | ok procedure =>
    refine along_bounded (fun entry _ t => ?_) w
    cases entry.type with
    | base => exact .nil _ _
    | described offset => exact calls_bounded _ _ offset t

theorem flatMap_procedureCalls_bounded (image : ProxyImage) (entries : List (Nat × Walker)) :
    Bounded image.typeFormat (maxDepth + 2)
      (entries.map fun (offset, _) => parameterCount image offset).sum
      (entries.flatMap fun (offset, w) => procedureCalls image offset w) := by
  induction entries with
  | nil => exact .nil _ _
  | cons entry rest ih => exact (procedureCalls_bounded image entry.1 entry.2).append ih

/-- Offsets expanded once each are no more than the format has bytes. -/
theorem length_expansions_le {calls : List TypeCall} (nodup : (expansions format calls).Nodup) :
    (expansions format calls).length ≤ format.length := by
  have inside : expansions format calls ⊆ List.range format.length := by
    intro offset member
    obtain ⟨call, among, rfl⟩ := List.mem_map.mp member
    have expands := (List.mem_filter.mp among).2
    unfold TypeCall.expands at expands
    split at expands
    next parsed => exact List.mem_range.mpr (TypeForm.parse_fits parsed).1
    next => cases expands
  simpa using (nodup.subperm inside).length_le

/-! ### A whole decode -/

/-- Each procedure is begun in a walk that proceeds from the start. -/
theorem begun_proceed {image : ProxyImage} {names : NameLookup} {slots : List (UInt16 × Nat)}
    (sound : w.Sound r) (kept : w.Kept image.typeFormat first) {entry : Nat × Walker}
    (member : entry ∈ begun image names slots w) : w.Proceeds r image.typeFormat first entry.2 := by
  induction slots generalizing w with
  | nil => cases member
  | cons slot rest ih =>
    unfold begun at member
    split at member
    · exact ih sound kept member
    · rcases List.mem_cons.mp member with rfl | later
      · exact .refl sound kept
      · have ended := procedure_keeps sound kept names slot.1.toNat
        cases run : procedure image names slot.1.toNat w with
        | error fault t =>
          rw [run] at later
          cases later
        | ok method t =>
          rw [run] at later ended
          have after := ih ended.1.1.sound ended.1.2 later
          exact (proceeds_progress r image.typeFormat first).trans ended.1 after

/-- Each call of a procedure is entered in a walk that proceeds from its start, below the nesting limit. -/
theorem procedureCalls_proceed {image : ProxyImage} (sound : w.Sound r)
    (kept : w.Kept image.typeFormat first) {call : TypeCall}
    (member : call ∈ procedureCalls image offset w) :
    w.Proceeds r image.typeFormat first call.entered ∧ call.levels ≤ maxDepth + 1 := by
  have progress := proceeds_progress r image.typeFormat first
  unfold procedureCalls at member
  cases parsed : Procedure.parse image.procFormat offset with
  | error fault =>
    rw [parsed] at member
    cases member
  | ok procedure =>
    rw [parsed] at member
    obtain ⟨entry, _, t, before, made, _⟩ := exists_of_mem_along progress (.refl sound kept)
      (fun entry _ t before =>
        entryType_keeps (type_keeps _ _ _) before.1.sound before.2 entry) member
    cases described : entry.type with
    | base =>
      rw [described] at made
      cases made
    | described offset =>
      rw [described] at made
      obtain ⟨after, fewer⟩ := calls_proceed before.1.sound before.2 made
      exact ⟨progress.trans before after, fewer⟩

/-- Discarding what was added from `s` to `t` leaves the accounts of `s`. -/
def Restores (s t : Walker) : Prop :=
  (t.discardSince s.created.length).created = s.created ∧
    (t.discardSince s.created.length).current = s.current ∧
    (t.discardSince s.created.length).memo = s.memo

/-- What is discarded after a failure leaves the collections as they were. -/
theorem restores_of_stage {s t : Walker} (sound : s.Sound r) (stage : s.Stage r t) : Restores s t := by
  rw [Restores, Agree.discardSince sound.agree stage.sound.agree stage.memo]
  exact ⟨rfl, rfl, rfl⟩

/-- What holds of the decode of an image that begins with a given walker. -/
structure Orderly (image : ProxyImage) (names : NameLookup) (start : Walker) : Prop where
  /-- The accounts are coherent whenever a call is entered or left. -/
  coherent : ∀ call ∈ decodeCalls image names image.procOffsets.zipIdx start,
    call.entered.Coherent ∧ (call.left image.typeFormat).Coherent
  /-- What the procedures and the calls come to depends on the listed calls only. -/
  complete : ∀ answer, (∀ call ∈ decodeCalls image names image.procOffsets.zipIdx start,
      Answered image.typeFormat answer call) →
    (∀ entry ∈ begun image names image.procOffsets.zipIdx start, ∀ procedure,
      Procedure.parse image.procFormat entry.1 = .ok procedure →
      method (answer (maxDepth + 1)) names procedure entry.2 =
        method (typeAt image.typeFormat) names procedure entry.2) ∧
    ∀ call ∈ decodeCalls image names image.procOffsets.zipIdx start, ∀ levels form,
      call.levels = levels + 1 → call.entered.memo.get? call.offset = none →
      TypeForm.parse image.typeFormat call.offset = .ok form →
      formType (answer levels) call.offset form call.entered =
        formType (type image.typeFormat levels) call.offset form call.entered
  /-- No offset is expanded twice. -/
  once : (expansions image.typeFormat
    (decodeCalls image names image.procOffsets.zipIdx start)).Nodup
  nesting : ∀ call ∈ decodeCalls image names image.procOffsets.zipIdx start,
    call.levels ≤ maxDepth + 1
  /-- The number of calls is bounded by the sizes of the formats. -/
  ends : (decodeCalls image names image.procOffsets.zipIdx start).length ≤ (maxDepth + 2) *
    (((begun image names image.procOffsets.zipIdx start).map fun (offset, _) =>
      parameterCount image offset).sum + image.typeFormat.length * image.typeFormat.length)
  /-- Discarding the records since a procedure began is possible at any time, and when it ended. -/
  restored : ∀ entry ∈ begun image names image.procOffsets.zipIdx start,
    Restores entry.2 (left (procedure image names entry.1 entry.2)) ∧
    ∀ call ∈ procedureCalls image entry.1 entry.2, Restores entry.2 call.entered ∧
      Restores entry.2 (call.left image.typeFormat) ∧
      Restores call.entered (call.left image.typeFormat)
  /-- The node that a call builds for an array has as many elements as fill it. -/
  filled : ∀ call ∈ decodeCalls image names image.procOffsets.zipIdx start,
    ∀ total element elementAt id size w',
      TypeForm.parse image.typeFormat call.offset = .ok (.fixedArray total element elementAt) →
      type image.typeFormat call.levels call.offset call.entered = .ok (id, size) w' →
      size = total ∧ ∃ target bound,
        w'.graph.body? id = some (.structural (.array target bound)) ∧
        bound.Fills image.typeFormat total element
  /-- Every array among the new nodes has the bound of an array that the format describes. -/
  tiled : ∀ call ∈ decodeCalls image names image.procOffsets.zipIdx start,
    ∀ id node element bound, start.graph.size ≤ id →
      (call.left image.typeFormat).graph.node? id = some node →
      node.body = .structural (.array element bound) → bound.Tiles image.typeFormat

/-- A walker that has met no records yet. -/
theorem Sound.orderly {start : Walker} (sound : start.Sound r) (none : start.memo = .empty)
    (image : ProxyImage) (names : NameLookup) : Orderly image names start := by
  have progress := proceeds_progress r image.typeFormat start.graph.size
  have created : start.created = [] := by simp [sound.agree.created, none]
  have kept : start.Kept image.typeFormat start.graph.size :=
    { named := fun k offset met => by simp [created] at met
      sized := fun offset found known => by simp [none] at known
      tiled := fun late found _ =>
        absurd (Graph.lt_size_of_node? found) (Nat.not_lt.mpr late) }
  have leaves : ∀ {call : TypeCall}, start.Proceeds r image.typeFormat start.graph.size call.entered →
      call.entered.Proceeds r image.typeFormat start.graph.size (call.left image.typeFormat) :=
    fun {call} before => (type_keeps image.typeFormat start.graph.size call.levels call.entered
      call.offset before.1.sound before.2).left
  have entered : ∀ call ∈ decodeCalls image names image.procOffsets.zipIdx start,
      start.Proceeds r image.typeFormat start.graph.size call.entered ∧
        call.levels ≤ maxDepth + 1 := by
    intro call member
    obtain ⟨entry, among, inside⟩ := List.mem_flatMap.mp member
    have before := begun_proceed sound kept among
    obtain ⟨after, fewer⟩ := procedureCalls_proceed before.1.sound before.2 inside
    exact ⟨progress.trans before after, fewer⟩
  have once := nodup_expansions image names image.procOffsets.zipIdx sound
  rw [created, List.nil_append] at once
  refine
    { coherent := fun call member => ?_
      complete := fun answer all => decodeCalls_complete all
      once := once
      nesting := fun call member => (entered call member).2
      ends := ?_
      restored := fun entry member => ?_
      filled := fun call member total element elementAt id size w' parsed built => ?_
      tiled := fun call member id node element bound late found body => ?_ }
  · have before := (entered call member).1
    have after := leaves before
    exact ⟨before.1.sound.agree.coherent before.1.sound.ids before.2.named,
      after.1.sound.agree.coherent after.1.sound.ids after.2.named⟩
  · refine Nat.le_trans (flatMap_procedureCalls_bounded image _) (Nat.mul_le_mul_left _ ?_)
    exact Nat.add_le_add_left (Nat.mul_le_mul_left _ (length_expansions_le once)) _
  · have begins := begun_proceed sound kept member
    have ended := (procedure_keeps begins.1.sound begins.2 names entry.1).left
    refine ⟨restores_of_stage begins.1.sound ended.1, fun call among => ?_⟩
    have before := (procedureCalls_proceed begins.1.sound begins.2 among).1
    have after := leaves (progress.trans begins before)
    exact ⟨restores_of_stage begins.1.sound before.1,
      restores_of_stage begins.1.sound (progress.trans before after).1,
      restores_of_stage before.1.sound after.1⟩
  · have before := (entered call member).1
    exact type_fills before.1.sound before.2 parsed built
  · exact (leaves (entered call member).1).2.tiled late found body

/-- The walker with which the procedures of an image are begun, when the image is added to an
assembler. -/
def startFor (image : ProxyImage) (iid : Guid) (name : Option String) (a : Assembler) : Walker :=
  startOf (left (Assemble.imageBase image
    (left (Assemble.declare iid (Assemble.proxyName a iid name) (.interface {}) a)))) iid

/-- Whatever image is added to an assembler that can be reached, its decode ends after a number of calls
that its formats bound, and none of its loops over members is cut short. Whenever a call is entered or left
the accounts of the walker are coherent. No offset is expanded twice, discarding records restores the
accounts, and the elements of the arrays that were made fill them. -/
theorem walks_coherent_and_finite {a : Assembler} (run : Reachable (fun _ _ => True) a)
    (image : ProxyImage) (iid : Guid) (name : Option String) (names : NameLookup) :
    Orderly image names (startFor image iid name a) ∧
    ∀ (entries : Nat) (layout : Option Cursor) (c : Cursor), c.rest.length < entries →
      TypeForm.membersFrom entries layout c = TypeForm.membersFrom (c.rest.length + 1) layout c := by
  constructor
  · have declared := (Assemble.declare_hosts run.in_order iid (Assemble.proxyName a iid name)).left
    have based := (Assemble.imageBase_advance declared.sound image).left
    exact Sound.orderly (startOf_sound (declared.advance based).sound iid) rfl image names
  · exact fun entries layout c enough => TypeForm.membersFrom_enough enough (Nat.lt_succ_self _)

/-- A procedure that takes a structure with a pointer to itself and an array of four short integers, and a
procedure that takes a pointer to the same structure, which is cut off behind it. -/
def cyclicImage : ProxyImage where
  baseIid := .zero
  procOffsets := [0, 18]
  procFormat := [0x33, 0x42, 3, 0, 0, 0, 0, 0, 0, 0, 0, 1, 0x08, 0, 0, 0, 0, 0] ++
    [0x33, 0x42, 4, 0, 0, 0, 0, 0, 0, 0, 0, 2, 0x08, 0, 0, 0, 14, 0]
  typeFormat := [0x1A, 3, 16, 0, 0, 0, 8, 0, 0x36, 0x4C, 0, 7, 0, 0x5B] ++ [0x12, 0, 0xF0, 0xFF] ++
    [0x1D, 1, 8, 0, 0x06, 0x5B]

theorem cyclicImage_orderly :
    Orderly cyclicImage .none (startFor cyclicImage (.ofBytes [1]) none {}) ∧
      (decodeCalls cyclicImage .none cyclicImage.procOffsets.zipIdx
        (startFor cyclicImage (.ofBytes [1]) none {})).map (·.offset) = [0, 14, 0, 18, 14, 0] ∧
      expansions cyclicImage.typeFormat (decodeCalls cyclicImage .none cyclicImage.procOffsets.zipIdx
        (startFor cyclicImage (.ofBytes [1]) none {})) = [0] ∧
      TypeForm.membersFrom 50 none ⟨20, [0x06, 0x5B]⟩ =
        TypeForm.membersFrom 3 none ⟨20, [0x06, 0x5B]⟩ := by
  obtain ⟨orderly, enough⟩ :=
    walks_coherent_and_finite (.start false) cyclicImage (.ofBytes [1]) none .none
  refine ⟨orderly, ?_, ?_, enough 50 none ⟨20, [0x06, 0x5B]⟩ (by decide)⟩
  · decide +kernel
  · decide +kernel

end Walk

end ComTypes

import ComTypes.Proofs.Proxy.Tally

/-!
# The calls of a decode

Building a type calls itself for the types that the description refers to. `Walk.calls` lists the calls in
the order in which they are entered, each with the walker that it meets, and `Walk.decodeCalls` those of a
whole decode: procedure by procedure and parameter by parameter, up to the first that fails. No call is
missing from the list: the procedures and the calls come to the same if all listed calls are answered in
another way that agrees with what they come to (`decodeCalls_complete`).

Every call proceeds from the walker of the call around it (`calls_proceed`). The records that a walk adds
stand at the offsets where its calls expand a structure, in the same order (`created_left_type`), so no
offset is expanded twice in a decode (`nodup_expansions`).
-/

namespace ComTypes

/-- A call that builds the type at an offset. -/
structure TypeCall where
  levels : Nat
  offset : Nat
  /-- The walker that the call meets. -/
  entered : Walker

namespace TypeCall

/-- The walker that the call leaves. -/
def left (format : Bytes) (call : TypeCall) : Walker :=
  ComTypes.left (Walk.type format call.levels call.offset call.entered)

/-- Whether the call opens a record: a structure is described at the offset and has not been met. -/
def expands (format : Bytes) (call : TypeCall) : Bool :=
  match call.levels, call.entered.memo.get? call.offset, TypeForm.parse format call.offset with
  | _ + 1, none, .ok (.struct _ _) => true
  | _, _, _ => false

end TypeCall

/-- The offsets that are expanded into records by some calls, in their order. -/
def expansions (format : Bytes) (calls : List TypeCall) : List Nat :=
  (calls.filter (·.expands format)).map (·.offset)

@[simp] theorem expansions_nil (format : Bytes) : expansions format [] = [] := rfl

@[simp] theorem expansions_append (format : Bytes) (calls more : List TypeCall) :
    expansions format (calls ++ more) = expansions format calls ++ expansions format more := by
  simp [expansions]

/-- A call expands its own structure, if it has not been met, before the calls that it makes. -/
theorem expansions_cons (format : Bytes) (call : TypeCall) (rest : List TypeCall) :
    expansions format (call :: rest) =
      (if call.expands format then [call.offset] else []) ++ expansions format rest := by
  by_cases expands : call.expands format = true <;> simp [expansions, expands]

namespace Walk

/-! ### Calls -/

/-- What the steps for the items of a list give rise to, up to the first that fails. -/
def along {α β γ : Type} (step : α → Walk β) (made : α → Walker → List γ) :
    List α → Walker → List γ
  | [], _ => []
  | item :: rest, w => made item w ++
    match step item w with
    | .ok _ w' => along step made rest w'
    | .error _ _ => []

/-- The calls for a member of a structure. -/
def memberCalls (inner : Nat → Walker → List TypeCall) : StructMember → Walker → List TypeCall
  | .base _, _ => []
  | .described target, w => inner target w

/-- The calls for a description that stands at an offset. -/
def formCalls (build : Nat → Walk (TypeId × Nat)) (offset : Nat) (inner : Nat → Walker → List TypeCall)
    (w : Walker) : TypeForm → List TypeCall
  | .pointer target | .fixedArray _ (.described target) _ => inner target w
  | .struct size members =>
    along (memberType build) (memberCalls inner) members.items (left (openRecord offset size w))
  | .base .. | .interfacePointer _ | .simplePointer _ | .fixedArray _ (.base ..) _ => []

/-- The calls that building the type at an offset comes to, itself included, in the order in which they
are entered. -/
def calls (format : Bytes) : (levels offset : Nat) → Walker → List TypeCall
  | 0, offset, w => [⟨0, offset, w⟩]
  | levels + 1, offset, w => ⟨levels + 1, offset, w⟩ ::
    match w.memo.get? offset, TypeForm.parse format offset with
    | none, .ok form => formCalls (type format levels) offset (calls format levels) w form
    | _, _ => []

/-- The calls for the type of a parameter. -/
def paramCalls (format : Bytes) : ParamType → Walker → List TypeCall
  | .base .., _ => []
  | .described offset, w => calls format (Walker.maxDepth + 1) offset w

/-- The calls for the procedure at an offset. -/
def procedureCalls (image : ProxyImage) (offset : Nat) (w : Walker) : List TypeCall :=
  match Procedure.parse image.procFormat offset with
  | .ok procedure => along (entryType (typeAt image.typeFormat))
      (fun entry => paramCalls image.typeFormat entry.type) procedure.entries.items w
  | .error _ => []

/-- The procedures that are begun, each with the walker that it meets. -/
def begun (image : ProxyImage) (names : NameLookup) :
    List (UInt16 × Nat) → Walker → List (Nat × Walker)
  | [], _ => []
  | (offset, _) :: rest, w =>
    if offset = Procedure.inherited then begun image names rest w
    else (offset.toNat, w) ::
      match procedure image names offset.toNat w with
      | .ok _ w' => begun image names rest w'
      | .error _ _ => []

/-- The calls of a decode. -/
def decodeCalls (image : ProxyImage) (names : NameLookup) (slots : List (UInt16 × Nat))
    (w : Walker) : List TypeCall :=
  (begun image names slots w).flatMap fun (offset, w) => procedureCalls image offset w

open Walker

variable {r : Regime} {format : Bytes} {first levels offset : Nat} {w : Walker}

/-! ### Where calls come from -/

/-- What a list of steps gives rise to comes from one of them, in a state that the steps before it have
reached. -/
theorem exists_of_mem_along {α β γ : Type} {step : α → Walk β} {made : α → Walker → List γ}
    {R : Walker → Walker → Prop} (progress : Progress R) {items : List α} {x : γ} (start : R w w)
    (each : ∀ item ∈ items, ∀ t, R w t → Outcome (R t) (fun _ _ => True) (step item t))
    (member : x ∈ along step made items w) :
    ∃ item ∈ items, ∃ t, R w t ∧ x ∈ made item t ∧ made item t ⊆ along step made items w := by
  induction items generalizing w with
  | nil => cases member
  | cons item rest ih =>
    rw [along, List.mem_append] at member
    rcases member with here | later
    · exact ⟨item, List.mem_cons_self, w, start, here, List.subset_append_left _ _⟩
    · have stepped := each item List.mem_cons_self w start
      rw [along]
      cases run : step item w with
      | error fault w' =>
        rw [run] at later
        cases later
      | ok value w' =>
        rw [run] at later stepped
        obtain ⟨other, among, t, after, made, part⟩ := ih (progress.here stepped.1)
          (fun item member t after =>
            each item (List.mem_cons_of_mem _ member) t (progress.trans stepped.1 after)) later
        exact ⟨other, List.mem_cons_of_mem _ among, t, progress.trans stepped.1 after, made,
          List.Subset.trans part (List.subset_append_right _ _)⟩

/-- The calls for a description are those of the types that it refers to. -/
theorem exists_of_mem_formCalls {build : Nat → Walk (TypeId × Nat)}
    {made : Nat → Walker → List TypeCall} {form : TypeForm} {call : TypeCall}
    (member : call ∈ formCalls build offset made w form) :
    ∃ target t, call ∈ made target t ∧ made target t ⊆ formCalls build offset made w form := by
  cases form with
  | base | interfacePointer | simplePointer => cases member
  | pointer target => exact ⟨target, w, member, List.Subset.refl _⟩
  | fixedArray total element elementAt =>
    cases element with
    | base => cases member
    | described target => exact ⟨target, w, member, List.Subset.refl _⟩
  | struct size members =>
    have anywhere : Progress fun _ _ : Walker => True := ⟨fun _ _ => trivial, fun _ => trivial⟩
    obtain ⟨item, _, t, _, made, part⟩ := exists_of_mem_along anywhere trivial
      (fun _ _ _ _ => Outcome.of_left trivial) member
    cases item with
    | base => cases made
    | described target => exact ⟨target, t, made, part⟩

/-- With a call, the calls that it gives rise to are listed. -/
theorem formCalls_subset_calls {call : TypeCall} (member : call ∈ calls format levels offset w)
    {deeper : Nat} (deep : call.levels = deeper + 1) {form : TypeForm}
    (unmet : call.entered.memo.get? call.offset = none)
    (parsed : TypeForm.parse format call.offset = .ok form) :
    formCalls (type format deeper) call.offset (calls format deeper) call.entered form ⊆
      calls format levels offset w := by
  induction levels generalizing offset w with
  | zero =>
    rw [calls, List.mem_singleton] at member
    subst member
    cases deep
  | succ levels ih =>
    rw [calls, List.mem_cons] at member
    rcases member with rfl | inner
    · cases deep
      rw [calls, unmet, parsed]
      exact List.subset_cons_self _ _
    · split at inner
      next form' unmet' parsed' =>
        obtain ⟨target, t, among, part⟩ := exists_of_mem_formCalls inner
        rw [calls, unmet', parsed']
        exact List.Subset.trans (ih among) (List.Subset.trans part (List.subset_cons_self _ _))
      next => cases inner

theorem formCalls_subset_procedureCalls {image : ProxyImage} {call : TypeCall}
    (member : call ∈ procedureCalls image offset w) {deeper : Nat} (deep : call.levels = deeper + 1)
    {form : TypeForm} (unmet : call.entered.memo.get? call.offset = none)
    (parsed : TypeForm.parse image.typeFormat call.offset = .ok form) :
    formCalls (type image.typeFormat deeper) call.offset (calls image.typeFormat deeper) call.entered
      form ⊆ procedureCalls image offset w := by
  unfold procedureCalls at member ⊢
  cases parses : Procedure.parse image.procFormat offset with
  | error fault =>
    rw [parses] at member
    cases member
  | ok procedure =>
    rw [parses] at member
    have anywhere : Progress fun _ _ : Walker => True := ⟨fun _ _ => trivial, fun _ => trivial⟩
    obtain ⟨entry, _, t, _, made, part⟩ := exists_of_mem_along anywhere trivial
      (fun _ _ _ _ => Outcome.of_left trivial) member
    refine List.Subset.trans ?_ part
    cases described : entry.type with
    | base =>
      rw [described] at made
      cases made
    | described target =>
      rw [described] at made
      exact formCalls_subset_calls made deep unmet parsed

/-! ### No call is missed -/

/-- The call is answered with what it comes to. -/
def Answered (format : Bytes) (answer : Nat → Nat → Walk (TypeId × Nat)) (call : TypeCall) : Prop :=
  answer call.levels call.offset call.entered = type format call.levels call.offset call.entered

theorem bind_eq_bind {α β : Type} {step step' : Walk α} {next : α → Walk β}
    (same : step w = step' w) : (step >>= next) w = (step' >>= next) w := by
  show EStateM.bind step next w = EStateM.bind step' next w
  rw [EStateM.bind, EStateM.bind, same]

theorem map_eq_map {α β : Type} {step step' : Walk α} {f : α → β} (same : step w = step' w) :
    (f <$> step) w = (f <$> step') w := by
  rw [map_eq_pure_bind, map_eq_pure_bind]
  exact bind_eq_bind same

/-- Steps that agree wherever they are taken. -/
theorem mapM_eq_mapM {α β γ : Type} {step step' : α → Walk β} {made : α → Walker → List γ}
    {agree : γ → Prop} (each : ∀ item t, (∀ x ∈ made item t, agree x) → step' item t = step item t)
    {items : List α} (all : ∀ x ∈ along step made items w, agree x) :
    items.mapM step' w = items.mapM step w := by
  induction items generalizing w with
  | nil => rfl
  | cons item rest ih =>
    rw [along] at all
    have here := each item w fun x member => all x (List.mem_append_left _ member)
    rw [List.mapM_cons, List.mapM_cons]
    cases run : step item w with
    | error fault t => rw [error_bind run, error_bind (here.trans run)]
    | ok value t =>
      rw [run] at all
      rw [ok_bind run, ok_bind (here.trans run)]
      exact bind_eq_bind (ih fun x member => all x (List.mem_append_right _ member))

section

variable {answer : Nat → Nat → Walk (TypeId × Nat)}

theorem mem_calls_self (format : Bytes) (levels offset : Nat) (w : Walker) :
    ⟨levels, offset, w⟩ ∈ calls format levels offset w := by
  cases levels <;> exact List.mem_cons_self

theorem memberType_answered {member : StructMember}
    (all : ∀ call ∈ memberCalls (calls format levels) member w, Answered format answer call) :
    memberType (answer levels) member w = memberType (type format levels) member w := by
  cases member with
  | base => rfl
  | described target => exact map_eq_map (all _ (mem_calls_self format levels target w))

/-- What a call comes to depends on the calls below it, and these are listed. -/
theorem formType_answered {form : TypeForm}
    (all : ∀ call ∈ formCalls (type format levels) offset (calls format levels) w form,
      Answered format answer call) :
    formType (answer levels) offset form w = formType (type format levels) offset form w := by
  cases form with
  | base | interfacePointer | simplePointer => rfl
  | pointer target => exact bind_eq_bind (all _ (mem_calls_self format levels target w))
  | fixedArray total element elementAt =>
    cases element with
    | base => rfl
    | described target => exact bind_eq_bind (all _ (mem_calls_self format levels target w))
  | struct size members =>
    obtain ⟨id, graph, previous, run⟩ := openRecord_enters offset size w
    have started : left (openRecord offset size w) = { w.enter offset size id with graph, previous } := by
      rw [run]
      rfl
    show (openRecord offset size >>= _) w = (openRecord offset size >>= _) w
    rw [ok_bind run, ok_bind run]
    rw [formCalls, started] at all
    exact bind_eq_bind (mapM_eq_mapM (fun member t => memberType_answered) all)

theorem paramType_answered {type : ParamType}
    (all : ∀ call ∈ paramCalls format type w, Answered format answer call) :
    paramType (answer (maxDepth + 1)) type w = paramType (typeAt format) type w := by
  cases type with
  | base => rfl
  | described offset => exact map_eq_map (all _ (mem_calls_self format _ offset w))

/-- A procedure is decoded by the answers to the calls that it makes. -/
theorem method_answered {image : ProxyImage} {names : NameLookup} {procedure : Procedure}
    (parsed : Procedure.parse image.procFormat offset = .ok procedure)
    (all : ∀ call ∈ procedureCalls image offset w, Answered image.typeFormat answer call) :
    method (answer (maxDepth + 1)) names procedure w =
      method (typeAt image.typeFormat) names procedure w := by
  rw [procedureCalls, parsed] at all
  exact bind_eq_bind (mapM_eq_mapM (fun entry t here => bind_eq_bind (paramType_answered here)) all)

/-- What the procedures and the calls of a decode come to depends on the listed calls only. -/
theorem decodeCalls_complete {image : ProxyImage} {names : NameLookup} {slots : List (UInt16 × Nat)}
    (all : ∀ call ∈ decodeCalls image names slots w, Answered image.typeFormat answer call) :
    (∀ entry ∈ begun image names slots w, ∀ procedure,
      Procedure.parse image.procFormat entry.1 = .ok procedure →
      method (answer (maxDepth + 1)) names procedure entry.2 =
        method (typeAt image.typeFormat) names procedure entry.2) ∧
    ∀ call ∈ decodeCalls image names slots w, ∀ levels form, call.levels = levels + 1 →
      call.entered.memo.get? call.offset = none →
      TypeForm.parse image.typeFormat call.offset = .ok form →
      formType (answer levels) call.offset form call.entered =
        formType (type image.typeFormat levels) call.offset form call.entered := by
  constructor
  · intro entry member procedure parsed
    exact method_answered parsed fun call among =>
      all call (List.mem_flatMap.mpr ⟨entry, member, among⟩)
  · intro call member levels form deep unmet parsed
    obtain ⟨entry, among, inside⟩ := List.mem_flatMap.mp member
    refine formType_answered fun below belongs => all below (List.mem_flatMap.mpr ⟨entry, among, ?_⟩)
    exact formCalls_subset_procedureCalls inside deep unmet parsed belongs

end

/-! ### Where calls are entered -/

/-- Every call proceeds from where the first one was entered, and has no more levels. -/
theorem calls_proceed (sound : w.Sound r) (kept : w.Kept format first) {call : TypeCall}
    (member : call ∈ calls format levels offset w) :
    w.Proceeds r format first call.entered ∧ call.levels ≤ levels := by
  have progress := proceeds_progress r format first
  induction levels generalizing w offset with
  | zero =>
    rw [calls, List.mem_singleton] at member
    subst member
    exact ⟨.refl sound kept, Nat.le_refl 0⟩
  | succ levels ih =>
    rw [calls, List.mem_cons] at member
    rcases member with rfl | inner
    · exact ⟨.refl sound kept, Nat.le_refl _⟩
    · split at inner
      next form unmet parsed =>
        have below : ∀ {target t}, w.Proceeds r format first t → call ∈ calls format levels target t →
            w.Proceeds r format first call.entered ∧ call.levels ≤ levels + 1 := by
          intro target t before among
          obtain ⟨after, fewer⟩ := ih before.1.sound before.2 among
          exact ⟨progress.trans before after, Nat.le_succ_of_le fewer⟩
        cases form with
        | pointer target => exact below (.refl sound kept) inner
        | fixedArray total element elementAt =>
          cases element with
          | base => cases inner
          | described target => exact below (.refl sound kept) inner
        | struct size members =>
          have opened := (openRecord_keeps sound kept unmet parsed).left
          obtain ⟨item, _, t, after, made, _⟩ := exists_of_mem_along progress
            (.refl opened.1.sound opened.2) (fun item _ t after =>
              (memberType_keeps (type_keeps format first levels) after.1.sound after.2 item).imp
                (fun _ h => h) fun _ _ _ _ => trivial) inner
          cases item with
          | base => cases made
          | described target => exact below (progress.trans opened after) made
        | base | interfacePointer | simplePointer => cases inner
      next => cases inner

/-! ### Which offsets are expanded -/

/-- A step that adds no records. -/
theorem created_left_bind {α β : Type} {step : Walk α} {next : α → Walk β}
    (silent : ∀ value t, (left (next value t)).created = t.created) (w : Walker) :
    (left ((step >>= next) w)).created = (left (step w)).created := by
  cases run : step w with
  | ok value t =>
    rw [ok_bind run]
    exact silent value t
  | error fault t =>
    rw [error_bind run]
    rfl

theorem created_left_mapM {α β : Type} {step : α → Walk β} {made : α → Walker → List TypeCall}
    (each : ∀ item t, (left (step item t)).created = t.created ++ expansions format (made item t))
    (items : List α) (w : Walker) :
    (left (items.mapM step w)).created =
      w.created ++ expansions format (along step made items w) := by
  induction items generalizing w with
  | nil => simp [along, left, pure, EStateM.pure]
  | cons item rest ih =>
    have stepped := each item w
    rw [List.mapM_cons, along]
    cases run : step item w with
    | error fault t =>
      rw [run] at stepped
      rw [error_bind run, List.append_nil]
      exact stepped
    | ok value t =>
      rw [run] at stepped
      have silent : (left ((rest.mapM step >>= fun values => pure (value :: values)) t)).created =
          (left (rest.mapM step t)).created := created_left_bind (fun _ _ => rfl) t
      rw [ok_bind run, silent, ih]
      show t.created ++ _ = _
      rw [show t.created = w.created ++ expansions format (made item w) from stepped]
      simp

/-- The offsets that a form at an offset expands itself. -/
def opened (offset : Nat) : TypeForm → List Nat
  | .struct .. => [offset]
  | _ => []

/-- The records that building types adds stand where its calls expand a structure. -/
def Expands (format : Bytes) (levels : Nat) : Prop :=
  ∀ offset w, (left (type format levels offset w)).created =
    w.created ++ expansions format (calls format levels offset w)

theorem created_left_memberType (inner : Expands format levels) (member : StructMember)
    (w : Walker) : (left (memberType (type format levels) member w)).created =
      w.created ++ expansions format (memberCalls (calls format levels) member w) := by
  cases member with
  | base p => simp [memberCalls, memberType, primitive, onGraph, left]
  | described target =>
    rw [memberType, map_eq_pure_bind]
    exact (created_left_bind (fun _ _ => rfl) w).trans (inner target w)

theorem created_left_formType (inner : Expands format levels) (offset : Nat) (form : TypeForm)
    (w : Walker) : (left (formType (type format levels) offset form w)).created =
      w.created ++ (opened offset form ++
        expansions format (formCalls (type format levels) offset (calls format levels) w form)) := by
  cases form with
  | base | interfacePointer | simplePointer => exact (List.append_nil _).symm
  | pointer target => exact (created_left_bind (fun _ _ => rfl) w).trans (inner target w)
  | fixedArray total element elementAt =>
    have silent : ∀ (found : TypeId × Nat) t, (left ((do
        return (← fixedArray total found elementAt, total) : Walk (TypeId × Nat)) t)).created =
        t.created := by
      intro found t
      unfold fixedArray
      split <;> rfl
    refine (created_left_bind silent w).trans ?_
    cases element with
    | base => exact (List.append_nil _).symm
    | described target => exact inner target w
  | struct size members =>
    obtain ⟨id, graph, previous, run⟩ := openRecord_enters offset size w
    have silent : ∀ (types : List TypeId) t, (left ((do
        check members.fault
        closeRecord id types
        return (id, size) : Walk (TypeId × Nat)) t)).created = t.created := by
      intro types t
      cases members.fault <;> rfl
    have walked := created_left_mapM (created_left_memberType inner) members.items
      { w.enter offset size id with graph, previous }
    show (left ((openRecord offset size >>= _) w)).created = _
    rw [ok_bind run]
    refine (created_left_bind silent _).trans (walked.trans ?_)
    simp [formCalls, run, enter, opened, left]

/-- The offsets at which a walk adds records are those that its calls expand. -/
theorem created_left_type (format : Bytes) (levels : Nat) : Expands format levels := by
  induction levels with
  | zero =>
    intro offset w
    exact (List.append_nil _).symm
  | succ levels ih =>
    intro offset w
    rw [type, calls, expansions_cons, get_bind]
    cases met : w.memo.get? offset with
    | some known => simp [TypeCall.expands, met, left, pure, EStateM.pure]
    | none =>
      cases parsed : TypeForm.parse format offset with
      | error fault =>
        simp [TypeCall.expands, met, parsed, lift]
        rfl
      | ok form =>
        refine (created_left_formType ih offset form w).trans ?_
        cases form <;> simp [TypeCall.expands, met, parsed, opened]

/-- The offsets that a procedure adds are those of the structures it expands, in this order. -/
theorem created_left_procedure (image : ProxyImage) (names : NameLookup) (offset : Nat)
    (w : Walker) : (left (procedure image names offset w)).created =
      w.created ++ expansions image.typeFormat (procedureCalls image offset w) := by
  have entry : ∀ (entry : ParamEntry) t, (left (entryType (typeAt image.typeFormat) entry t)).created =
      t.created ++ expansions image.typeFormat (paramCalls image.typeFormat entry.type t) := by
    intro entry t
    refine (created_left_bind (fun _ _ => rfl) t).trans ?_
    cases entry.type with
    | base p byReference => cases byReference <;> exact (List.append_nil _).symm
    | described offset =>
      rw [paramType, map_eq_pure_bind]
      exact (created_left_bind (fun _ _ => rfl) t).trans (created_left_type _ _ offset t)
  unfold procedure procedureCalls
  cases Procedure.parse image.procFormat offset with
  | error fault => exact (List.append_nil _).symm
  | ok parsed =>
    show (left (method (typeAt image.typeFormat) names parsed w)).created = _
    refine (created_left_bind (fun entries t => ?_) w).trans (created_left_mapM entry _ w)
    cases parsed.entries.fault with
    | some fault => rfl
    | none =>
      show (left ((resultType entries >>= fun returnType =>
        pure (typedMethod names parsed.number entries returnType)) t)).created = _
      refine (created_left_bind (fun _ _ => rfl) t).trans ?_
      unfold resultType
      cases (entries.filter (·.1.isReturn)).getLast? <;> rfl

/-- No offset is expanded twice in a decode. -/
theorem nodup_expansions (image : ProxyImage) (names : NameLookup) (slots : List (UInt16 × Nat))
    (sound : w.Sound r) :
    (w.created ++ expansions image.typeFormat (decodeCalls image names slots w)).Nodup := by
  induction slots generalizing w with
  | nil =>
    rw [decodeCalls, begun, List.flatMap_nil, expansions_nil, List.append_nil]
    exact sound.agree.created_nodup
  | cons entry rest ih =>
    obtain ⟨offset, slot⟩ := entry
    unfold decodeCalls at ih ⊢
    unfold begun
    by_cases skipped : offset = Procedure.inherited
    · rw [if_pos skipped]
      exact ih sound
    · rw [if_neg skipped, List.flatMap_cons, expansions_append, ← List.append_assoc,
        ← created_left_procedure image names]
      have stage := procedure_stage sound image names offset.toNat
      cases run : procedure image names offset.toNat w with
      | error fault after =>
        rw [run] at stage
        rw [List.flatMap_nil, expansions_nil, List.append_nil]
        exact stage.sound.agree.created_nodup
      | ok method after =>
        rw [run] at stage
        exact ih stage.1.sound

end Walk

end ComTypes

/-!
# Outcomes of steps

A step of assembling, walking or reading ends with a value or a fault, and leaves a state behind in
either case. `Outcome` says what holds of that state however the step ended, and what holds of the
value if there is one.

What a step may do to its state is given as a relation `R`. If `R` is a `Progress`, steps that keep
to it can be put one behind the other (`Progress.bind`), and so can the steps for the items of a list
(`Progress.mapM`, `Progress.foldlM`), as long as what they found out about earlier values is lasting.
-/

namespace ComTypes

variable {ε σ α β : Type}

/-- Looking at the state. -/
theorem get_bind (next : σ → EStateM ε σ α) (s : σ) : (get >>= next) s = next s s := rfl

/-- Changing the state. -/
theorem modify_bind (change : σ → σ) (next : PUnit → EStateM ε σ α) (s : σ) :
    (modify change >>= next) s = next () (change s) := rfl

/-- A step that has ended with a value. -/
theorem ok_bind {first : EStateM ε σ α} {s t : σ} {value : α} (run : first s = .ok value t)
    (next : α → EStateM ε σ β) : (first >>= next) s = next value t := by
  show EStateM.bind first next s = _
  rw [EStateM.bind, run]

/-- A step that has failed. -/
theorem error_bind {first : EStateM ε σ α} {s t : σ} {fault : ε} (run : first s = .error fault t)
    (next : α → EStateM ε σ β) : (first >>= next) s = .error fault t := by
  show EStateM.bind first next s = _
  rw [EStateM.bind, run]

/-- If two steps end with a value, so does the first of them. -/
theorem exists_of_bind_ok {first : EStateM ε σ α} {next : α → EStateM ε σ β} {s u : σ} {result : β}
    (run : (first >>= next) s = .ok result u) :
    ∃ value t, first s = .ok value t ∧ next value t = .ok result u := by
  cases ran : first s with
  | ok value t =>
    rw [ok_bind ran] at run
    exact ⟨value, t, rfl, run⟩
  | error fault t =>
    rw [error_bind ran] at run
    cases run

/-- A step for the only item of a list. -/
theorem ok_mapM_singleton {step : β → EStateM ε σ α} {item : β} {s t : σ} {value : α}
    (run : step item s = .ok value t) : [item].mapM step s = .ok [value] t := by
  rw [List.mapM_cons, ok_bind run]
  rfl

/-- `reached` holds of the state left behind, and `post` of the value if there is one. -/
def Outcome (reached : σ → Prop) (post : α → σ → Prop) : EStateM.Result ε σ α → Prop
  | .ok value state => reached state ∧ post value state
  | .error _ state => reached state

/-- The state that a step leaves, whether it succeeds or fails. -/
def left : EStateM.Result ε σ α → σ
  | .ok _ state => state
  | .error _ state => state

/-- The value of a step, if it succeeds. -/
def value? : EStateM.Result ε σ α → Option α
  | .ok value _ => some value
  | .error _ _ => none

theorem eq_ok_of_value? {result : EStateM.Result ε σ α} {value : α}
    (h : value? result = some value) : result = .ok value (left result) := by
  cases result with
  | ok =>
    cases h
    rfl
  | error => cases h

namespace Outcome

variable {reached reached' : σ → Prop} {post post' : α → σ → Prop} {s : σ}

/-- What holds of every outcome may be weakened. -/
theorem imp {result : EStateM.Result ε σ α} (h : Outcome reached post result)
    (state : ∀ t, reached t → reached' t)
    (value : ∀ v t, reached t → post v t → post' v t) : Outcome reached' post' result := by
  cases result with
  | ok v t => exact ⟨state t h.1, value v t h.1 h.2⟩
  | error _ t => exact state t h

theorem and {result : EStateM.Result ε σ α} (h : Outcome reached post result)
    (h' : Outcome reached' post' result) :
    Outcome (fun t => reached t ∧ reached' t) (fun v t => post v t ∧ post' v t) result := by
  cases result with
  | ok v t => exact ⟨⟨h.1, h'.1⟩, h.2, h'.2⟩
  | error _ t => exact ⟨h, h'⟩

theorem left {result : EStateM.Result ε σ α} (h : Outcome reached post result) :
    reached (ComTypes.left result) := by
  cases result with
  | ok _ t => exact h.1
  | error _ t => exact h

theorem of_left {result : EStateM.Result ε σ α} (h : reached (ComTypes.left result)) :
    Outcome reached (fun _ _ => True) result := by
  cases result with
  | ok _ t => exact ⟨h, trivial⟩
  | error _ t => exact h

theorem of_pure {v : α} (reach : reached s) (value : post v s) :
    Outcome reached post ((pure v : EStateM ε σ α) s) := ⟨reach, value⟩

theorem of_throw {e : ε} (reach : reached s) :
    Outcome reached post ((throw e : EStateM ε σ α) s) := reach

/-- The second step starts where the first one ended. -/
theorem bind {first : EStateM ε σ α} {next : α → EStateM ε σ β} {final : β → σ → Prop}
    (h : Outcome reached post (first s))
    (k : ∀ v t, reached t → post v t → Outcome reached final (next v t)) :
    Outcome reached final ((first >>= next) s) := by
  show Outcome reached final (EStateM.bind first next s)
  unfold EStateM.bind
  cases run : first s with
  | ok v t =>
    rw [run] at h
    exact k v t h.1 h.2
  | error e t =>
    rw [run] at h
    exact h

/-- Looking at the state. -/
theorem of_get {next : σ → EStateM ε σ β} {final : β → σ → Prop}
    (h : Outcome reached final (next s s)) : Outcome reached final ((get >>= next) s) := h

/-- Changing the state. -/
theorem of_modify {change : σ → σ} {next : PUnit → EStateM ε σ β} {final : β → σ → Prop}
    (h : Outcome reached final (next () (change s))) :
    Outcome reached final ((modify change >>= next) s) := h

theorem map {step : EStateM ε σ α} {f : α → β} {final : β → σ → Prop}
    (h : Outcome reached post (step s))
    (k : ∀ v t, reached t → post v t → final (f v) t) :
    Outcome reached final ((f <$> step) s) := by
  show Outcome reached final (EStateM.map f step s)
  unfold EStateM.map
  cases run : step s with
  | ok v t =>
    rw [run] at h
    exact ⟨h.1, k v t h.1 h.2⟩
  | error e t =>
    rw [run] at h
    exact h

end Outcome

/-- A relation between the states before and after a step that steps in a row keep to as well. It
need not relate every state to itself, only those that a step has led to. -/
structure Progress (R : σ → σ → Prop) : Prop where
  trans : ∀ {s t u}, R s t → R t u → R s u
  here : ∀ {s t}, R s t → R t t

namespace Progress

variable {R : σ → σ → Prop} {post : α → σ → Prop} {s : σ}

/-- What holds from a later state on holds from an earlier one on. -/
theorem since (progress : Progress R) {t : σ} {result : EStateM.Result ε σ α} (before : R s t)
    (h : Outcome (R t) post result) : Outcome (R s) post result :=
  h.imp (fun _ after => progress.trans before after) (fun _ _ _ value => value)

/-- After one step that progresses the next goes on from there. -/
theorem bind (progress : Progress R) {first : EStateM ε σ α} {next : α → EStateM ε σ β}
    {final : β → σ → Prop} (h : Outcome (R s) post (first s))
    (k : ∀ v t, R s t → post v t → Outcome (R t) final (next v t)) :
    Outcome (R s) final ((first >>= next) s) :=
  h.bind fun v t before value => progress.since before (k v t before value)

theorem bind_modify (progress : Progress R) {change : σ → σ} {next : PUnit → EStateM ε σ β}
    {final : β → σ → Prop} (before : R s (change s))
    (h : Outcome (R (change s)) final (next () (change s))) :
    Outcome (R s) final ((modify change >>= next) s) :=
  .of_modify (progress.since before h)

section Lists

variable {γ : Type} {f : γ → EStateM ε σ α} {items : List γ}

/-- The values that steps give for the items of a list. What holds of a value must last, and what
each successful step keeps holds in the end. -/
theorem mapM_keeping (progress : Progress R) {kept : σ → Prop} (start : R s s) (before : kept s)
    (each : ∀ item ∈ items, ∀ t, R s t → kept t →
      Outcome (R t) (fun v u => post v u ∧ kept u) (f item t))
    (lasting : ∀ v t u, post v t → R t u → post v u) :
    Outcome (R s) (fun values t => (∀ v ∈ values, post v t) ∧ kept t) (items.mapM f s) := by
  induction items generalizing s with
  | nil => exact ⟨start, fun v member => absurd member List.not_mem_nil, before⟩
  | cons item rest ih =>
    rw [List.mapM_cons]
    refine progress.bind (each item List.mem_cons_self s start before)
      fun v t first ⟨value, during⟩ => ?_
    have later := ih (progress.here first) during fun i member u after =>
      each i (List.mem_cons_of_mem _ member) u (progress.trans first after)
    refine progress.bind later fun values u after ⟨others, last⟩ => ?_
    refine Outcome.of_pure (progress.here after) ⟨fun w member => ?_, last⟩
    rcases List.mem_cons.mp member with rfl | member
    · exact lasting w t u value after
    · exact others w member

/-- Steps that progress do so in a row, and what holds of each value lasts. -/
theorem mapM (progress : Progress R) (start : R s s)
    (each : ∀ item ∈ items, ∀ t, R s t → Outcome (R t) post (f item t))
    (lasting : ∀ v t u, post v t → R t u → post v u) :
    Outcome (R s) (fun values t => ∀ v ∈ values, post v t) (items.mapM f s) := by
  have all : Outcome (R s) (fun values t => (∀ v ∈ values, post v t) ∧ True) (items.mapM f s) :=
    progress.mapM_keeping start trivial
      (fun item member t before _ => (each item member t before).imp (fun _ h => h)
        fun _ _ _ value => ⟨value, trivial⟩) lasting
  exact all.imp (fun _ h => h) fun _ _ _ values => values.1

/-- Nothing is asked of the values. -/
theorem mapM_reached (progress : Progress R) (start : R s s)
    (each : ∀ item ∈ items, ∀ t, R s t → Outcome (R t) (fun _ _ => True) (f item t)) :
    Outcome (R s) (fun _ _ => True) (items.mapM f s) :=
  (progress.mapM start each fun _ _ _ h _ => h).imp (fun _ h => h) fun _ _ _ _ => trivial

end Lists

/-- A fold over a list: what holds of the accumulated value at one item holds at the next. -/
theorem foldlM (progress : Progress R) {γ : Type} {f : α → γ → EStateM ε σ α} {items : List γ}
    {initial : α} (start : R s s) (holds : post initial s)
    (each : ∀ item ∈ items, ∀ v t, R s t → post v t → Outcome (R t) post (f v item t)) :
    Outcome (R s) post (items.foldlM f initial s) := by
  induction items generalizing s initial with
  | nil => exact ⟨start, holds⟩
  | cons item rest ih =>
    rw [List.foldlM_cons]
    refine progress.bind (each item List.mem_cons_self initial s start holds)
      fun v t before value => ?_
    exact ih (progress.here before) value fun i member w u after =>
      each i (List.mem_cons_of_mem _ member) w u (progress.trans before after)

end Progress

end ComTypes

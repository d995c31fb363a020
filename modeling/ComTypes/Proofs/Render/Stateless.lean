import ComTypes.Render.Renderer

/-!
# A renderer has no memory

A renderer is used over and over: its settings change, names of interfaces come and go, and types are
rendered, with success or without. The only thing it keeps from one rendering for the next is the
formatter it made last, and that is the one that the format of the last rendering calls for
(`Renderer.Keeps`). So every rendering gives what a new renderer with the same settings and names gives,
and a formatter is made exactly where the format differs from that of the rendering before
(`renders_like_new`).
-/

namespace ComTypes

/-- A dialect and a treatment of comments. -/
abbrev Format := Dialect × Bool

/-- A use of a renderer. -/
inductive Use where
  | configure (change : RenderOptions → RenderOptions)
  /-- Edit the known interface names. -/
  | rename (change : IidNames → IidNames)
  | render (g : Graph) (roots : List TypeId)

/-- A rendering that is asked for, with the settings and names at that time. -/
structure Request where
  options : RenderOptions
  iids : IidNames
  graph : Graph
  roots : List TypeId

namespace Request

/-- The format that the settings ask for. -/
def format (request : Request) : Format := (request.options.dialect, request.options.hideComments)

/-- What a new renderer with the same settings and names returns. -/
def answerOfNew (request : Request) : Except Fault String :=
  (Renderer.render { options := request.options, iids := request.iids } request.graph
    request.roots).1

end Request

/-- The renderings that a list of uses asks for, from given settings and names on. -/
def requests (options : RenderOptions) (iids : IidNames) : List Use → List Request
  | [] => []
  | .configure change :: rest => requests (change options) iids rest
  | .rename change :: rest => requests options (change iids) rest
  | .render graph roots :: rest => ⟨options, iids, graph, roots⟩ :: requests options iids rest

/-- How many formats of a list differ from the one before, which for the first is `last`. -/
def changesAfter (last : Option Format) (formats : List Format) : Nat :=
  ((last :: formats.map some).zip formats).countP fun (before, format) => before ≠ some format

theorem changesAfter_cons (last : Option Format) (format : Format) (formats : List Format) :
    changesAfter last (format :: formats) =
      (if last = some format then 0 else 1) + changesAfter (some format) formats := by
  by_cases same : last = some format
  · simp [changesAfter, same]
  · simp [changesAfter, same, Nat.add_comm]

namespace Renderer

/-- Use a renderer as listed. Returns what the renderings gave, and the renderer as it is left. -/
def run (r : Renderer) : List Use → List (Except Fault String) × Renderer
  | [] => ([], r)
  | .configure change :: rest => run { r with options := change r.options } rest
  | .rename change :: rest => run { r with iids := change r.iids } rest
  | .render g roots :: rest =>
    let (answer, r) := r.render g roots
    let (answers, left) := run r rest
    (answer :: answers, left)

/-- The format that the settings ask for. -/
def format (r : Renderer) : Format := (r.options.dialect, r.options.hideComments)

/-- The formatter at hand is the one that the last format calls for. -/
def Keeps (r : Renderer) (last : Option Format) : Prop :=
  r.lastFormatter = last.map fun format => .make format.1 format.2

theorem suits_make {r : Renderer} {format : Format} :
    r.suits (.make format.1 format.2) = true ↔ format = r.format := by
  rw [Prod.ext_iff, suits, Bool.and_eq_true]
  exact and_congr decide_eq_true_iff decide_eq_true_iff

/-- The formatter suits the settings, and it is made only if the format has changed. -/
theorem Keeps.formatter_eq {r : Renderer} {last : Option Format} (keeps : r.Keeps last) :
    r.formatter = (.make r.options.dialect r.options.hideComments, { r with
      lastFormatter := some (.make r.options.dialect r.options.hideComments)
      formatChanges := r.formatChanges + if last = some r.format then 0 else 1 }) := by
  unfold formatter
  rw [keeps]
  cases last with
  | none => rfl
  | some format =>
    by_cases same : format = r.format
    · have suits : r.suits (.make format.1 format.2) = true := suits_make.mpr same
      subst same
      have found : r.lastFormatter = some (.make r.options.dialect r.options.hideComments) := keeps
      simp only [Option.map_some, Option.filter_some, suits, if_true, Nat.add_zero, ← found]
      rfl
    · have other : r.suits (.make format.1 format.2) = false :=
        Bool.eq_false_iff.mpr fun suits => same (suits_make.mp suits)
      simp only [Option.map_some, Option.filter_some, other, Option.some.injEq, same, if_false,
        Bool.false_eq_true]

/-- One rendering gives what a new renderer gives, and leaves the formatter for its own format. -/
theorem Keeps.render_eq {r : Renderer} {last : Option Format} (keeps : r.Keeps last) (g : Graph)
    (roots : List TypeId) :
    (r.render g roots).1 = Request.answerOfNew ⟨r.options, r.iids, g, roots⟩ ∧
      (r.render g roots).2.options = r.options ∧ (r.render g roots).2.iids = r.iids ∧
      (r.render g roots).2.Keeps (some r.format) ∧
      (r.render g roots).2.formatChanges =
        r.formatChanges + if last = some r.format then 0 else 1 := by
  have new : Keeps { options := r.options, iids := r.iids } none := rfl
  unfold Request.answerOfNew render
  rw [keeps.formatter_eq, new.formatter_eq]
  exact ⟨rfl, rfl, rfl, rfl, rfl⟩

/-- Every rendering of a run gives what a new renderer gives, and formatters are made where the format
changes. -/
theorem Keeps.run_eq {r : Renderer} {last : Option Format} (keeps : r.Keeps last) (uses : List Use) :
    (r.run uses).1 = (requests r.options r.iids uses).map Request.answerOfNew ∧
      (r.run uses).2.formatChanges = r.formatChanges +
        changesAfter last ((requests r.options r.iids uses).map Request.format) := by
  induction uses generalizing r last with
  | nil => exact ⟨rfl, rfl⟩
  | cons use rest ih =>
    cases use with
    | configure change => exact ih (r := { r with options := change r.options }) keeps
    | rename change => exact ih (r := { r with iids := change r.iids }) keeps
    | render g roots =>
      obtain ⟨answer, options, iids, kept, made⟩ := keeps.render_eq g roots
      obtain ⟨answers, changes⟩ := ih kept
      rw [options, iids] at answers changes
      simp only [run, requests, List.map_cons, changesAfter_cons]
      refine ⟨?_, ?_⟩
      · rw [answer, answers]
      · rw [changes, made, Nat.add_assoc]
        rfl

end Renderer

/-- A renderer has no memory: whatever it is used for, every rendering gives what a new renderer with the
settings and names of that time gives, and the number of formatters made is the number of renderings
whose format differs from that of the rendering before, the first one included. -/
theorem renders_like_new (options : RenderOptions) (iids : IidNames) (uses : List Use) :
    (Renderer.run { options, iids } uses).1 =
        (requests options iids uses).map Request.answerOfNew ∧
      (Renderer.run { options, iids } uses).2.formatChanges =
        changesAfter none ((requests options iids uses).map Request.format) := by
  have new : Renderer.Keeps { options, iids } none := rfl
  obtain ⟨answers, changes⟩ := new.run_eq uses
  exact ⟨answers, by rw [changes, Nat.zero_add]⟩

end ComTypes

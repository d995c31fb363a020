import ComTypes.Render.Declaration
import Mathlib.Data.List.DropRight

/-!
# Text inside comments

Documentation, attributes and messages come from outside and are written into comments. `commentEnds` counts
where a text ends a block comment. Two texts that are put together can end one only within each of them or
at the seam (`commentEnds_append`), and a text that has been made safe ends none, whatever it holds
(`commentEnds_commentSafe`). So a comment around such texts ends where its last characters end it, and line
comments stay on their lines (`comments_hold_their_text`).
-/

namespace ComTypes

namespace Text

/-! ### Ends of block comments -/

/-- How often a text has the end of a block comment. -/
def commentEnds : List Char → Nat
  | [] => 0
  | c :: rest => (if c = '*' ∧ rest.head? = some '/' then 1 else 0) + commentEnds rest

theorem commentEnds_cons_of_ne {c : Char} (other : c ≠ '*') (text : List Char) :
    commentEnds (c :: text) = commentEnds text := by
  rw [commentEnds, if_neg fun star => other star.1, Nat.zero_add]

/-- Texts that are put together end a comment where each of them does, and at the seam. -/
theorem commentEnds_append (first second : List Char) :
    commentEnds (first ++ second) = commentEnds first + commentEnds second +
      if first.getLast? = some '*' ∧ second.head? = some '/' then 1 else 0 := by
  induction first with
  | nil => simp [commentEnds]
  | cons c rest ih =>
    cases rest with
    | nil => simp [commentEnds, Nat.add_comm]
    | cons d rest =>
      have last : (c :: d :: rest).getLast? = (d :: rest).getLast? := List.getLast?_cons_cons
      have pair : ∀ text, commentEnds (c :: d :: text) =
          (if c = '*' ∧ d = '/' then 1 else 0) + commentEnds (d :: text) := by
        intro text
        rw [commentEnds, List.head?_cons]
        simp only [Option.some.injEq]
      rw [List.cons_append, List.cons_append, pair, pair, ← List.cons_append, ih, last]
      omega

/-- A seam without a star before it ends no comment. -/
theorem commentEnds_append_of_getLast {first : List Char} (last : first.getLast? ≠ some '*')
    (second : List Char) : commentEnds (first ++ second) = commentEnds first + commentEnds second := by
  rw [commentEnds_append, if_neg fun seam => last seam.1, Nat.add_zero]

/-- A seam without a slash behind it ends no comment. -/
theorem commentEnds_append_of_head {second : List Char} (head : second.head? ≠ some '/')
    (first : List Char) : commentEnds (first ++ second) = commentEnds first + commentEnds second := by
  rw [commentEnds_append, if_neg fun seam => head seam.2, Nat.add_zero]

/-- A text without a star ends no comment. -/
theorem commentEnds_of_notMem {text : List Char} (none : '*' ∉ text) : commentEnds text = 0 := by
  induction text with
  | nil => rfl
  | cons c rest ih =>
    rw [List.mem_cons, not_or] at none
    rw [commentEnds_cons_of_ne (Ne.symm none.1), ih none.2]

/-! ### Safe texts -/

/-- Replacing keeps the first character, since a replaced pair starts with the star that it is for. -/
theorem head?_replacePair (text : List Char) :
    (replacePair '*' '/' ['*', ' ', '/'] text).head? = text.head? := by
  cases text with
  | nil => rfl
  | cons c rest =>
    cases rest with
    | nil => rfl
    | cons d rest =>
      rw [replacePair]
      split
      next pair => simp [pair.1]
      next => rfl

/-- Where every pair is broken up, no comment ends. -/
theorem commentEnds_replacePair (text : List Char) :
    commentEnds (replacePair '*' '/' ['*', ' ', '/'] text) = 0 := by
  fun_induction replacePair '*' '/' ['*', ' ', '/'] text with
  | case1 => rfl
  | case2 c => simp [commentEnds]
  | case3 c d rest pair ih => simpa [commentEnds] using ih
  | case4 c d rest other ih =>
    -- A star that stays is followed by what followed it before, which is no slash.
    rw [commentEnds, ih, head?_replacePair, if_neg (by simpa using other)]

/-- Comment-safe text ends no comment. -/
theorem commentEnds_commentSafe (text : String) : commentEnds (commentSafe text).toList = 0 := by
  rw [commentSafe, String.toList_ofList]
  exact commentEnds_replacePair text.toList

/-- The text ends a block comment once, namely with these last characters. -/
structure ClosedBy (text closing : String) : Prop where
  once : commentEnds text.toList = 1
  last : closing.toList <:+ text.toList

/-- A safe text between the beginning of a comment and its end. -/
theorem ClosedBy.around {text closing : String} {start inner : List Char}
    (shape : text.toList = start ++ inner ++ closing.toList) (opens : commentEnds start = 0)
    (bare : start.getLast? ≠ some '*') (safe : commentEnds inner = 0)
    (closes : commentEnds closing.toList = 1) (apart : closing.toList.head? ≠ some '/') :
    ClosedBy text closing where
  once := by
    rw [shape, commentEnds_append_of_head apart, commentEnds_append_of_getLast bare, opens, safe, closes]
  last := by
    rw [shape]
    exact List.suffix_append _ _

/-! ### Lines -/

/-- Removing blanks at the end of a text leaves a beginning that does not end with a blank. -/
theorem prefix_trimEnd {start : List Char} {c : Char} (solid : isBlank c = false) (rest : List Char) :
    start ++ [c] <+: trimEnd (start ++ c :: rest) := by
  rw [List.append_cons start c rest]
  show _ <+: List.rdropWhile isBlank _
  induction rest using List.reverseRecOn with
  | nil =>
    have kept : List.rdropWhile isBlank (start ++ [c] ++ []) = start ++ [c] := by
      rw [List.append_nil]
      exact List.rdropWhile_concat_neg _ _ _ (by simp [solid])
    exact ⟨[], by rw [kept, List.append_nil]⟩
  | append_singleton rest d ih =>
    rw [← List.append_assoc, List.rdropWhile_concat]
    split
    · exact ih
    · simp

theorem trimEnd_subset (text : List Char) : trimEnd text ⊆ text :=
  (List.rdropWhile_prefix isBlank text).subset

end Text

open Text

/-- Cutting at line ends leaves none. -/
theorem not_lineEnd_of_mem_split {text line : List Char} (cut : line ∈ docTextLines.split text) :
    '\r' ∉ line ∧ '\n' ∉ line := by
  induction text generalizing line with
  | nil =>
    obtain rfl := List.mem_singleton.mp cut
    simp
  | cons c rest ih =>
    rw [docTextLines.split] at cut
    split at cut
    next =>
      rcases List.mem_cons.mp cut with rfl | cut
      · simp
      · exact ih cut
    next other =>
      have kept : '\r' ≠ c ∧ '\n' ≠ c := by
        constructor
        · rintro rfl
          exact other (.inl rfl)
        · rintro rfl
          exact other (.inr rfl)
      split at cut
      next =>
        obtain rfl := List.mem_singleton.mp cut
        simp [kept]
      next first others lines =>
        rcases List.mem_cons.mp cut with rfl | cut
        · obtain ⟨clean, clean'⟩ := ih (lines ▸ List.mem_cons_self)
          simp [kept, clean, clean']
        · exact ih (lines ▸ List.mem_cons_of_mem _ cut)

/-- A documentation line is a line comment, and one line. -/
theorem docComments_lines {text line : String} (member : line ∈ docComments text) :
    ['/', '/'] <+: line.toList ∧ '\r' ∉ line.toList ∧ '\n' ∉ line.toList := by
  obtain ⟨cut, among, rfl⟩ := List.mem_map.mp member
  rw [String.toList_ofList]
  obtain ⟨clean, clean'⟩ := not_lineEnd_of_mem_split among
  have inside := trimEnd_subset ('/' :: '/' :: ' ' :: cut)
  refine ⟨@prefix_trimEnd ['/'] '/' (by decide) (' ' :: cut), fun break' => ?_, fun break' => ?_⟩
  · simpa [clean] using inside break'
  · simpa [clean'] using inside break'

/-- Indentation and line ends end no comment. -/
theorem commentEnds_render (line : Line) :
    commentEnds line.render.toList = commentEnds line.text.toList := by
  unfold Line.render
  split
  next empty =>
    rw [empty]
    rfl
  next =>
    have blanks : '*' ∉ List.replicate (line.depth * Line.indentWidth) ' ' := by simp
    have last : (List.replicate (line.depth * Line.indentWidth) ' ').getLast? ≠ some '*' := fun star =>
      blanks (List.mem_of_getLast? star)
    rw [String.toList_append, String.toList_append, String.toList_ofList,
      commentEnds_append_of_head (by decide), commentEnds_append_of_getLast last,
      commentEnds_of_notMem blanks]
    simp [commentEnds]

/-- A line ends with a line break. -/
theorem getLast?_render (line : Line) : line.render.toList.getLast? = some '\n' := by
  unfold Line.render
  split
  · rfl
  · simp

/-- Lines that are put together end comments within the lines only, so here in the last one. -/
theorem commentEnds_sourceText {lines : List Line} (last : Line)
    (safe : ∀ line ∈ lines, commentEnds line.text.toList = 0) :
    commentEnds (sourceText (lines ++ [last])).toList = commentEnds last.text.toList := by
  unfold sourceText
  rw [String.toList_join]
  induction lines with
  | nil => simpa using commentEnds_render last
  | cons line rest ih =>
    have broken : line.render.toList.getLast? ≠ some '*' := by simp [getLast?_render]
    have later := ih fun other member => safe other (List.mem_cons_of_mem _ member)
    rw [List.cons_append, List.map_cons, List.flatMap_cons, commentEnds_append_of_getLast broken, later,
      commentEnds_render, safe line List.mem_cons_self, Nat.zero_add]

theorem render_suffix_sourceText (lines : List Line) (last : Line) :
    last.render.toList <:+ (sourceText (lines ++ [last])).toList := by
  unfold sourceText
  rw [String.toList_join, List.map_append, List.flatMap_append]
  simp

/-! ### Attributes -/

namespace Attributes

/-- Texts that end no comment end none when they are listed. -/
theorem commentEnds_intercalate {texts : List (List Char)} (safe : ∀ text ∈ texts, commentEnds text = 0) :
    commentEnds ([',', ' '].intercalate texts) = 0 := by
  induction texts with
  | nil => rfl
  | cons first rest ih =>
    have here := safe first List.mem_cons_self
    have later := ih fun text member => safe text (List.mem_cons_of_mem _ member)
    cases rest with
    | nil => simpa using here
    | cons second rest =>
      -- The blank behind the comma keeps the next text from making a pair with what stands before.
      rw [List.intercalate_cons_cons, commentEnds_append_of_getLast (by simp),
        commentEnds_append_of_head (by simp), here, later]
      rfl

/-- The inline attributes are closed by the end of their comment alone. -/
theorem inline_closedBy {tokens : List String} (some : tokens ≠ []) :
    ClosedBy (inline .cpp tokens) "] */ " := by
  have shape : (inline .cpp tokens).toList = "/* [".toList ++
      [',', ' '].intercalate (tokens.map fun token => (commentSafe token).toList) ++ "] */ ".toList := by
    unfold inline
    rw [if_neg (by simpa using some)]
    simp [Dialect.attributesOpen, Dialect.attributesClose, Dialect.attributeToken, Function.comp_def]
  have safe : ∀ text ∈ tokens.map fun token => (commentSafe token).toList, commentEnds text = 0 := by
    intro text member
    obtain ⟨token, _, rfl⟩ := List.mem_map.mp member
    exact commentEnds_commentSafe token
  exact .around shape (by decide) (by decide) (commentEnds_intercalate safe) (by decide) (by decide)

/-- A block of attributes is closed by the end of its comment alone, at any depth. -/
theorem block_closedBy {tokens : List String} (some : tokens ≠ []) (depth : Nat) :
    ClosedBy (sourceText ((block .cpp tokens).map (Line.indentBy depth))) "] */\n" := by
  obtain ⟨others, last, rfl⟩ := (List.eq_nil_or_concat' tokens).resolve_left some
  have lines : (block .cpp (others ++ [last])).map (Line.indentBy depth) =
      ({ depth, text := "/* [" } ::
        (others.map fun token => { depth := 1 + depth, text := commentSafe token ++ "," }) ++
        [{ depth := 1 + depth, text := commentSafe last }]) ++ [{ depth, text := "] */" }] := by
    simp [block, Dialect.attributesOpen, Dialect.attributesClose, Dialect.attributeToken, Line.indentBy]
  have opening : commentEnds "/* [".toList = 0 := by decide
  have closing : commentEnds "] */".toList = 1 := by decide
  rw [lines]
  constructor
  · refine (commentEnds_sourceText _ fun line member => ?_).trans closing
    rcases List.mem_append.mp member with member | own
    · rcases List.mem_cons.mp member with rfl | inner
      · exact opening
      · obtain ⟨token, _, rfl⟩ := List.mem_map.mp inner
        rw [String.toList_append, commentEnds_append_of_head (by decide), commentEnds_commentSafe]
        rfl
    · obtain rfl := List.mem_singleton.mp own
      exact commentEnds_commentSafe last
  · refine List.IsSuffix.trans ?_ (render_suffix_sourceText _ _)
    exact ⟨List.replicate (depth * Line.indentWidth) ' ', by simp [Line.render]⟩

end Attributes

/-! ### Placeholders -/

/-- The placeholder for a member, or for a type itself, with any message. -/
def placeholder (member : Option Nat) (message : String) : String :=
  "/* __incomplete__: " ++ (member.elim "" fun member => s!"member {member}: ") ++
    commentSafe message ++ " */"

theorem issueComment_eq (issue : Issue) :
    issueComment issue = placeholder issue.member issue.fault.message := by
  unfold issueComment placeholder
  cases issue.member <;> rfl

theorem placed_closedBy {place : String} (bare : '*' ∉ place.toList) (message : String) :
    ClosedBy ("/* __incomplete__: " ++ place ++ commentSafe message ++ " */") " */" := by
  have own : commentEnds "/* __incomplete__: ".toList = 0 := by decide
  have ended : "/* __incomplete__: ".toList.getLast? ≠ some '*' := by decide
  have opens : commentEnds ("/* __incomplete__: ".toList ++ place.toList) = 0 := by
    rw [commentEnds_append_of_getLast ended, own, commentEnds_of_notMem bare]
  have last : ("/* __incomplete__: ".toList ++ place.toList).getLast? ≠ some '*' := by
    rw [List.getLast?_append]
    cases last : place.toList.getLast? with
    | none => exact ended
    | some c =>
      rintro ⟨⟩
      exact bare (List.mem_of_getLast? last)
  refine .around ?_ opens last (commentEnds_commentSafe message) (by decide) (by decide)
  simp only [String.toList_append]

/-- A placeholder is closed by the end of its comment alone. -/
theorem placeholder_closedBy (member : Option Nat) (message : String) :
    ClosedBy (placeholder member message) " */" := by
  apply placed_closedBy
  cases member with
  | none => decide
  | some member =>
    have digits : '*' ∉ Nat.toDigits 10 member := fun star =>
      absurd (Nat.isDigit_of_mem_toDigits (by decide) (by decide) star) (by decide)
    simp [digits, toString]

/-- Text from outside cannot leave the comment that it is written into. Every documentation line is a line
comment without a line end. In C++, attributes on one line and attributes in a block, at any depth, end a
block comment just once, with their closing bracket. So does a placeholder, with its last characters and
whatever the message says. -/
theorem comments_hold_their_text :
    (∀ (s : Scope) (doc : Documentation), ∀ line ∈ s.docLines doc,
      ['/', '/'] <+: line.toList ∧ '\r' ∉ line.toList ∧ '\n' ∉ line.toList) ∧
    (∀ tokens ≠ [], ClosedBy (Attributes.inline .cpp tokens) "] */ ") ∧
    (∀ tokens ≠ [], ∀ depth,
      ClosedBy (sourceText ((Attributes.block .cpp tokens).map (Line.indentBy depth))) "] */\n") ∧
    (∀ issue, issueComment issue = placeholder issue.member issue.fault.message) ∧
    ∀ member message, ClosedBy (placeholder member message) " */" := by
  refine ⟨fun s doc line member => ?_, fun tokens some => Attributes.inline_closedBy some,
    fun tokens some depth => Attributes.block_closedBy some depth, issueComment_eq, placeholder_closedBy⟩
  unfold Scope.docLines at member
  split at member
  · cases member
  · exact docComments_lines member

/-- An issue whose message holds the end of a comment. -/
def closingIssue : Issue := ⟨some 3, .dangling (.unusableExternal "**//" .coclass)⟩

/-- Texts that would end a comment, with stars and slashes at the seams. -/
theorem closingTexts_held :
    (∀ line ∈ docComments "*/ first\r\n\rlast */\n", ['/', '/'] <+: line.toList ∧
        '\r' ∉ line.toList ∧ '\n' ∉ line.toList) ∧
      docComments "*/ first\r\n\rlast */\n" = ["// */ first", "//", "// last */", "//"] ∧
      ClosedBy (Attributes.inline .cpp ["/*/", "**//", "*", "/"]) "] */ " ∧
      Attributes.inline .cpp ["/*/", "**//", "*", "/"] = "/* [/* /, ** //, *, /] */ " ∧
      ClosedBy (sourceText ((Attributes.block .cpp ["*", "/", ""]).map (Line.indentBy 2))) "] */\n" ∧
      ClosedBy (issueComment closingIssue) " */" ∧
      issueComment closingIssue =
        "/* __incomplete__: member 3: dangling type reference: external `** //` is a CoClass */" := by
  obtain ⟨lines, inline, block, same, placeholder⟩ := comments_hold_their_text
  let documented : Documentation := { docString := "*/ first\r\n\rlast */\n" }
  refine ⟨fun line member => lines ⟨{}, #[], .cpp, false, false⟩ documented line member, ?_,
    inline _ (by simp), ?_, block _ (by simp) 2, ?_, ?_⟩
  · decide +kernel
  · decide +kernel
  · rw [same]
    exact placeholder _ _
  · decide +kernel

end ComTypes

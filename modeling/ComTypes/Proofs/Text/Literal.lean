import ComTypes.Text.Literal
import Mathlib.Logic.Function.Basic

/-!
# Literals hold their text

A character is written as a pair that starts with a backslash, or as itself if it is none of the nine that
the table lists (`escapeChar_cases`). Whoever reads the contents of a literal from left to right is between
two characters of the text when an escape is not open. So runs of backslashes pair up as they were written,
every quote stands behind a backslash that is open (`quote_escaped`), none is open in the end, and the text
comes back (`literals_hold_their_text`).
-/

namespace ComTypes.Text

/-- Whether an escape is open behind a part of a literal: the last character is a backslash that is not
itself escaped. -/
def escaping (contents : List Char) : Bool :=
  contents.foldl (fun open_ c => !open_ && c = '\\') false

theorem escaping_append (first second : List Char) :
    escaping (first ++ second) =
      second.foldl (fun open_ c => !open_ && c = '\\') (escaping first) :=
  List.foldl_append

/-- The characters that must not stand in a literal as they are. -/
def controls : List Char := ['\r', '\n', '\t', '\x0c', '\x0b', '\x08', '\x00']

/-- A character of the table becomes a pair, any other stays. -/
theorem escapeChar_cases (c : Char) :
    (∃ letter, (c, letter) ∈ escapes ∧ escapeChar c = ['\\', letter]) ∨
      (∀ letter, (c, letter) ∉ escapes) ∧ escapeChar c = [c] := by
  unfold escapeChar
  cases found : escapes.lookup c with
  | some letter =>
    obtain ⟨before, after, split, _⟩ := List.lookup_eq_some_iff.mp found
    exact .inl ⟨letter, by simp [split], rfl⟩
  | none =>
    refine .inr ⟨fun letter member => ?_, rfl⟩
    have other := List.lookup_eq_none_iff.mp found _ member
    simp at other

/-! ### Reading from left to right -/

/-- No character is escaped to a control character. -/
theorem not_control_of_mem_escapeChar {c d : Char} (member : d ∈ escapeChar c) : d ∉ controls := by
  rcases escapeChar_cases c with ⟨letter, listed, pair⟩ | ⟨unlisted, single⟩
  · have letters : ∀ entry ∈ escapes, entry.2 ∉ controls := by decide
    rw [pair, List.mem_cons, List.mem_singleton] at member
    rcases member with rfl | rfl
    · decide
    · exact letters _ listed
  · have listed : ∀ control ∈ controls, ∃ entry ∈ escapes, entry.1 = control := by simp [controls, escapes]
    rw [single, List.mem_singleton] at member
    intro control
    obtain ⟨entry, inside, same⟩ := listed d control
    exact unlisted entry.2 (member ▸ same ▸ inside)

/-- Behind a character no escape is open. -/
theorem escaping_escapeChar {start : List Char} (closed : escaping start = false) (c : Char) :
    escaping (start ++ escapeChar c) = false := by
  rw [escaping_append, closed]
  rcases escapeChar_cases c with ⟨letter, _, pair⟩ | ⟨unlisted, single⟩
  · simp [pair]
  · have other : c ≠ '\\' := by
      rintro rfl
      exact unlisted '\\' (by decide)
    simp [single, other]

/-- Escaped text leaves no escape open. -/
theorem escaping_flatMap {start : List Char} (closed : escaping start = false) (text : List Char) :
    escaping (start ++ text.flatMap escapeChar) = false := by
  induction text generalizing start with
  | nil => simpa using closed
  | cons c rest ih =>
    rw [List.flatMap_cons, ← List.append_assoc]
    exact ih (escaping_escapeChar closed c)

/-- A quote within the pair of one character stands behind the backslash. -/
theorem escaping_of_escapeChar_eq {start before after : List Char} {c : Char}
    (closed : escaping start = false) (split : escapeChar c = before ++ '"' :: after) :
    escaping (start ++ before) = true := by
  rcases escapeChar_cases c with ⟨letter, _, pair⟩ | ⟨unlisted, single⟩
  · rw [pair] at split
    rcases before with _ | ⟨d, before⟩
    · simp at split
    · obtain ⟨rfl, tail⟩ := List.cons_eq_cons.mp split
      obtain ⟨rfl, _⟩ := List.append_eq_singleton_iff.mp tail.symm |>.resolve_right (by simp)
      simp [escaping_append, closed]
  · rw [single] at split
    rcases before with _ | ⟨d, before⟩
    · obtain ⟨rfl, _⟩ := List.cons_eq_cons.mp split
      exact absurd (by decide) (unlisted '"')
    · simp at split

/-- A quote in escaped text stands behind an open escape. -/
theorem quote_escaped {start before after text : List Char} (closed : escaping start = false)
    (split : text.flatMap escapeChar = before ++ '"' :: after) :
    escaping (start ++ before) = true := by
  induction text generalizing start before with
  | nil => simp at split
  | cons c rest ih =>
    rw [List.flatMap_cons] at split
    -- The quote belongs to the first character or to what follows it.
    rcases List.append_eq_append_iff.mp split with ⟨later, rfl, tail⟩ | ⟨part, here, tail⟩
    · rw [← List.append_assoc]
      exact ih (escaping_escapeChar closed c) tail
    · cases part with
      | nil =>
        rw [List.append_nil] at here
        have closed' := escaping_escapeChar closed c
        rw [here] at closed'
        rw [← List.append_nil (start ++ before)]
        exact ih closed' tail.symm
      | cons d part =>
        obtain ⟨rfl, _⟩ := List.cons_eq_cons.mp tail
        exact escaping_of_escapeChar_eq closed here

/-! ### Reading back -/

theorem escapedBy?_of_mem {c letter : Char} (listed : (c, letter) ∈ escapes) :
    escapedBy? letter = some c := by
  have table : ∀ entry ∈ escapes, escapedBy? entry.2 = some entry.1 := by decide
  exact table _ listed

theorem unescape?_pair (letter : Char) (rest : List Char) :
    unescape? ('\\' :: letter :: rest) = (do return (← escapedBy? letter) :: (← unescape? rest)) :=
  rfl

theorem unescape?_plain {c : Char} (slash : c ≠ '\\') (quote : c ≠ '"') (rest : List Char) :
    unescape? (c :: rest) = (c :: ·) <$> unescape? rest := by
  cases rest with
  | nil => simp [unescape?, slash, quote]
  | cons d rest => rw [unescape?, if_neg slash, if_neg quote]

/-- A character that was escaped is read back. -/
theorem unescape?_escapeChar (c : Char) (rest : List Char) :
    unescape? (escapeChar c ++ rest) = (c :: ·) <$> unescape? rest := by
  rcases escapeChar_cases c with ⟨letter, listed, pair⟩ | ⟨unlisted, single⟩
  · rw [pair, List.cons_append, List.singleton_append, unescape?_pair, escapedBy?_of_mem listed]
    cases unescape? rest <;> rfl
  · have slash : c ≠ '\\' := by
      rintro rfl
      exact unlisted '\\' (by decide)
    have quote : c ≠ '"' := by
      rintro rfl
      exact unlisted '"' (by decide)
    rw [single, List.singleton_append, unescape?_plain slash quote]

/-- Escaped text is read back. -/
theorem unescape?_flatMap (text : List Char) : unescape? (text.flatMap escapeChar) = some text := by
  induction text with
  | nil => rfl
  | cons c rest ih => rw [List.flatMap_cons, unescape?_escapeChar, ih, Option.map_eq_map, Option.map_some]

theorem toList_escape (text : String) : (escape text).toList = text.toList.flatMap escapeChar :=
  String.toList_ofList

/-- A text in a literal shows no control character. Read from left to right, each of its quotes is escaped,
and no escape is left open to take the closing quote. Reading the escapes gives back the text, so different
texts are written differently. -/
theorem literals_hold_their_text :
    (∀ text : String,
      (∀ c ∈ (escape text).toList, c ∉ controls) ∧
      (∀ before after, (escape text).toList = before ++ '"' :: after → escaping before = true) ∧
      escaping (escape text).toList = false ∧
      unescape? (escape text).toList = some text.toList) ∧
    Function.Injective escape := by
  have back : ∀ text : String, unescape? (escape text).toList = some text.toList := by
    intro text
    rw [toList_escape]
    exact unescape?_flatMap text.toList
  refine ⟨fun text => ⟨fun c member => ?_, fun before after split => ?_, ?_, back text⟩, ?_⟩
  · rw [toList_escape] at member
    obtain ⟨_, _, part⟩ := List.mem_flatMap.mp member
    exact not_control_of_mem_escapeChar part
  · rw [toList_escape] at split
    rw [← List.nil_append before]
    exact quote_escaped rfl split
  · rw [toList_escape, ← List.nil_append (List.flatMap _ _)]
    exact escaping_flatMap rfl text.toList
  · intro text text' same
    have contents := (back text).symm.trans (same ▸ back text')
    exact String.toList_injective (Option.some.inj contents)

/-- A line break, and a backslash before a quote at the end of the text. -/
theorem trickyText_held :
    escape "\n\\\"" = "\\n\\\\\\\"" ∧ 'n' ∉ controls ∧
      escaping ['\\', 'n', '\\', '\\', '\\'] = true ∧
      escaping (escape "\n\\\"").toList = false ∧
      unescape? (escape "\n\\\"").toList = some ['\n', '\\', '"'] := by
  obtain ⟨clean, quotes, closed, back⟩ := literals_hold_their_text.1 "\n\\\""
  refine ⟨by decide, clean 'n' (by decide), ?_, closed, back⟩
  exact quotes ['\\', 'n', '\\', '\\', '\\'] [] (by decide)

end ComTypes.Text

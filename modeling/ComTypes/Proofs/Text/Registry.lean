import ComTypes.Proofs.Wire.RoundTrip
import Mathlib.Data.List.Forall2
import Mathlib.Logic.Function.Basic
import Mathlib.Tactic.IntervalCases

/-!
# GUIDs are read as they were written

The text of a GUID shows its bytes in another order than they are stored in, and it is read from positions
that are listed by byte. The two lists fit together: the digits of every byte stand where they are looked for
(`chars_at_textPositions`). Reading does not depend on the case of the digits (`ofText_of_spells`), and white
space and braces around the text are taken off again (`parse_decorated`). So a GUID comes back from its text
in whatever way it is decorated, and different GUIDs have different texts (`guids_read_back`).
-/

namespace ComTypes

/-! ### Digits of either case -/

namespace Hex

/-- The characters that the text of a GUID is written with, in either case. -/
def marks : List Char := "0123456789abcdefABCDEF-".toList

/-- A character is what it is in lower case, or that in upper case. -/
theorem eq_or_eq_toUpper {c d : Char} (lower : c.toLower = d) : c = d ∨ c = d.toUpper := by
  subst lower
  unfold Char.toLower
  split
  next letter =>
    right
    have shift : (c.val + ('a'.val - 'A'.val)).toNat = c.val.toNat + 32 := by
      rw [UInt32.toNat_add]
      exact Nat.mod_eq_of_lt (Nat.lt_of_le_of_lt (Nat.add_le_add_right letter.2 _) (by decide))
    have upper : 'a'.val ≤ c.val + ('a'.val - 'A'.val) ∧ c.val + ('a'.val - 'A'.val) ≤ 'z'.val := by
      rw [UInt32.le_iff_toNat_le, UInt32.le_iff_toNat_le, shift]
      exact ⟨Nat.add_le_add_right letter.1 32, Nat.add_le_add_right letter.2 32⟩
    refine Char.ext ?_
    unfold Char.toUpper
    rw [dif_pos upper]
    simp [UInt32.add_assoc]
  next => exact .inl rfl

/-- A digit has the same value in both cases. -/
theorem value?_of_toLower {c : Char} {v : Nat} (small : v < 16)
    (lower : c.toLower = Nat.digitChar v) : value? c = some v := by
  have both : ∀ v < 16, value? (Nat.digitChar v) = some v ∧
      value? (Nat.digitChar v).toUpper = some v := by decide
  rcases eq_or_eq_toUpper lower with rfl | rfl
  · exact (both v small).1
  · exact (both v small).2

theorem eq_dash {c : Char} (lower : c.toLower = '-') : c = '-' := by
  rcases eq_or_eq_toUpper lower with rfl | rfl
  · rfl
  · decide

end Hex

namespace Guid

variable {guid : Guid} {numeral : List Char}

/-! ### The text of a GUID -/

/-- The value of the byte at a place. -/
def valueAt (guid : Guid) (place : Nat) : Nat := (guid.bytes.getD place 0).toNat

/-- A byte of a GUID is less than 256. -/
theorem valueAt_lt (guid : Guid) (place : Nat) : guid.valueAt place < 256 :=
  UInt8.toNat_lt _

theorem length_chars (guid : Guid) : guid.chars.length = 36 := rfl

/-- The digits of a byte stand where they are looked for. -/
theorem chars_at_textPositions (guid : Guid) {place start : Nat}
    (listed : textPositions[place]? = some start) :
    guid.chars[start]? = some (Nat.digitChar (guid.valueAt place / 16)) ∧
      guid.chars[start + 1]? = some (Nat.digitChar (guid.valueAt place % 16)) := by
  have inside : place < 16 := (List.getElem?_eq_some_iff.mp listed).1
  interval_cases place
  all_goals
    cases listed
    exact ⟨rfl, rfl⟩

/-- There are dashes at the places of separators. -/
theorem chars_at_separators (guid : Guid) {index : Nat} (listed : index ∈ separators) :
    guid.chars[index]? = some '-' := by
  simp only [separators, List.mem_cons, List.not_mem_nil, or_false] at listed
  rcases listed with rfl | rfl | rfl | rfl
  all_goals rfl

theorem mem_intercalate_dash {groups : List (List Char)} {d : Char}
    (member : d ∈ ['-'].intercalate groups) : d = '-' ∨ ∃ group ∈ groups, d ∈ group := by
  induction groups with
  | nil => cases member
  | cons group rest ih =>
    cases rest with
    | nil =>
      rw [List.intercalate_singleton] at member
      exact .inr ⟨group, List.mem_cons_self, member⟩
    | cons next rest =>
      rw [List.intercalate_cons_cons, List.mem_append, List.mem_append, List.mem_singleton] at member
      rcases member with (first | dash) | later
      · exact .inr ⟨group, List.mem_cons_self, first⟩
      · exact .inl dash
      · obtain dash | ⟨other, among, inside⟩ := ih later
        · exact .inl dash
        · exact .inr ⟨other, List.mem_cons_of_mem _ among, inside⟩

/-- The text holds separators and digits only. -/
theorem mem_chars {d : Char} (member : d ∈ guid.chars) : d = '-' ∨ ∃ v < 16, d = Nat.digitChar v := by
  refine (mem_intercalate_dash member).imp_right ?_
  rintro ⟨_, among, inside⟩
  obtain ⟨places, _, rfl⟩ := List.mem_map.mp among
  obtain ⟨place, _, digit⟩ := List.mem_flatMap.mp inside
  have small := guid.valueAt_lt place
  rw [Hex.byte, List.mem_cons, List.mem_singleton] at digit
  rcases digit with high | low
  · exact ⟨guid.valueAt place / 16, by omega, high⟩
  · exact ⟨guid.valueAt place % 16, by omega, low⟩

/-! ### Spellings -/

/-- But for the case of its digits, this is the text of the GUID. -/
def Spells (guid : Guid) (numeral : List Char) : Prop := numeral.map Char.toLower = guid.chars

instance (guid : Guid) (numeral : List Char) : Decidable (guid.Spells numeral) :=
  inferInstanceAs (Decidable (numeral.map Char.toLower = guid.chars))

theorem toLower_of_mem_chars {d : Char} (member : d ∈ guid.chars) :
    d.toLower = d ∧ d.toUpper.toLower = d := by
  have digits : ∀ v < 16, (Nat.digitChar v).toLower = Nat.digitChar v ∧
      (Nat.digitChar v).toUpper.toLower = Nat.digitChar v := by decide
  rcases mem_chars member with rfl | ⟨v, small, rfl⟩
  · decide
  · exact digits v small

/-- The text of a GUID spells it. -/
theorem spells_text (guid : Guid) : guid.Spells guid.text.toList := by
  rw [Spells, text, String.toList_ofList]
  exact (List.map_congr_left fun d member => (toLower_of_mem_chars member).1).trans (List.map_id _)

/-- The registry form of a GUID spells it. -/
theorem spells_registry (guid : Guid) : guid.Spells guid.registry.toList := by
  rw [Spells, registry, String.toList_ofList, Hex.upper, List.map_map]
  exact (List.map_congr_left fun d member => (toLower_of_mem_chars member).2).trans (List.map_id _)

/-- The byte of a character that takes one only. -/
def ascii (c : Char) : UInt8 := UInt8.ofNat c.toNat

namespace Spells

variable (spells : guid.Spells numeral)

include spells

theorem length : numeral.length = 36 := by
  rw [← length_chars guid, ← spells, List.length_map]

/-- A numeral consists of hexadecimal digits and dashes. -/
theorem mem_marks {c : Char} (member : c ∈ numeral) : c ∈ Hex.marks := by
  have digits : ∀ v < 16, Nat.digitChar v ∈ Hex.marks ∧ (Nat.digitChar v).toUpper ∈ Hex.marks := by
    decide
  have shown : c.toLower ∈ guid.chars := spells ▸ List.mem_map_of_mem member
  rcases mem_chars shown with dash | ⟨v, small, digit⟩
  · rw [Hex.eq_dash dash]
    decide
  · rcases Hex.eq_or_eq_toUpper digit with rfl | rfl
    · exact (digits v small).1
    · exact (digits v small).2

theorem encode_eq : Utf8.encode (String.ofList numeral) = numeral.map ascii := by
  -- `List.Forall` is decided along the list; the quantifier could be decided over all characters.
  have single : ∀ c ∈ Hex.marks, String.utf8EncodeChar c = [ascii c] :=
    List.forall_iff_forall_mem.mp (by decide)
  rw [Utf8.encode, String.toList_ofList, List.map_eq_flatMap]
  exact List.flatMap_congr fun c member => single c (spells.mem_marks member)

/-- What stands at a place of the text stands there in any spelling. -/
theorem getElem? {index : Nat} {d : Char} (shown : guid.chars[index]? = some d) :
    ∃ c, numeral[index]? = some c ∧ c.toLower = d := by
  rw [← spells, List.getElem?_map] at shown
  exact Option.map_eq_some_iff.mp shown

theorem digitAt? {index v : Nat} (small : v < 16)
    (shown : guid.chars[index]? = some (Nat.digitChar v)) :
    Guid.digitAt? (numeral.map ascii) index = some v := by
  have back : ∀ c ∈ Hex.marks, Char.ofNat (ascii c).toNat = c :=
    List.forall_iff_forall_mem.mp (by decide)
  obtain ⟨c, found, lower⟩ := spells.getElem? shown
  rw [Guid.digitAt?, List.getElem?_map, found, Option.map_some, Option.bind_some,
    back c (spells.mem_marks (List.mem_of_getElem? found))]
  exact Hex.value?_of_toLower small lower

theorem byteAt {place start : Nat} (listed : textPositions[place]? = some start) :
    Guid.byteAt (numeral.map ascii) start = .ok (guid.bytes.getD place 0) := by
  obtain ⟨high, low⟩ := chars_at_textPositions guid listed
  have small := guid.valueAt_lt place
  rw [Guid.byteAt, spells.digitAt? (by omega) high, spells.digitAt? (by omega) low]
  have whole : guid.valueAt place / 16 * 16 + guid.valueAt place % 16 = guid.valueAt place := by omega
  dsimp only
  rw [whole, valueAt, UInt8.ofNat_toNat]

/-- The separators stand where they should. -/
theorem separated : separators.find? ((numeral.map ascii)[·]? ≠ some 0x2D) = none := by
  refine List.find?_eq_none.mpr fun index listed => ?_
  obtain ⟨c, found, lower⟩ := spells.getElem? (chars_at_separators guid listed)
  rw [Hex.eq_dash lower] at found
  simp only [List.getElem?_map, found, Option.map_some, ne_eq, decide_not, Bool.not_eq_true,
    Bool.not_eq_false', decide_eq_true_eq]
  rfl

end Spells

theorem mapM_ok {α β ε : Type} {f : α → Except ε β} {items : List α} {values : List β}
    (each : List.Forall₂ (fun item value => f item = .ok value) items values) :
    items.mapM f = .ok values := by
  induction each with
  | nil => rfl
  | cons first _ ih => rw [List.mapM_cons, first, ih]; rfl

theorem ofBytes_bytes (guid : Guid) : ofBytes guid.bytes = guid := by
  cases guid with
  | mk bytes length_eq => simp [ofBytes, length_eq]

/-- A GUID is read from each of its spellings. -/
theorem ofText_of_spells (spells : guid.Spells numeral) :
    ofText (Utf8.encode (String.ofList numeral)) = .ok guid := by
  have length : (numeral.map ascii).length = 36 := by rw [List.length_map, spells.length]
  have bytes : textPositions.mapM (byteAt (numeral.map ascii)) = .ok guid.bytes := by
    refine mapM_ok (List.forall₂_iff_get.mpr ⟨guid.length_eq.symm, fun place inside inside' => ?_⟩)
    have read := spells.byteAt (List.getElem?_eq_getElem inside)
    rwa [List.getD_eq_getElem?_getD, List.getElem?_eq_getElem inside'] at read
  rw [spells.encode_eq, ofText, if_neg (not_not.mpr length), spells.separated, bytes]
  exact congrArg Except.ok (ofBytes_bytes guid)

/-! ### Decorations -/

theorem dropWhile_append_of_head {p : Char → Bool} {first rest : List Char}
    (all : ∀ c ∈ first, p c = true) (solid : ∀ c ∈ rest.head?, p c = false) :
    (first ++ rest).dropWhile p = rest := by
  rw [List.dropWhile_append_of_pos all]
  cases rest with
  | nil => rfl
  | cons c rest => rw [List.dropWhile_cons, if_neg (by simp [solid c rfl])]

theorem dropEndWhile_append_of_getLast {p : Char → Bool} {start last : List Char}
    (all : ∀ c ∈ last, p c = true) (solid : ∀ c ∈ start.getLast?, p c = false) :
    Text.dropEndWhile p (start ++ last) = start := by
  rw [Text.dropEndWhile, List.reverse_append, dropWhile_append_of_head, List.reverse_reverse]
  · exact fun c member => all c (List.mem_reverse.mp member)
  · rwa [List.head?_reverse]

/-- A text with braces around it, and other characters around these. -/
def decorated (before after : List Char) (opening closing : Nat) (numeral : List Char) : String :=
  String.ofList (before ++ (List.replicate opening '\x7b' ++ (numeral ++ List.replicate closing '\x7d')) ++
    after)

/-- A numeral is read through braces and white space. -/
theorem parse_decorated (spells : guid.Spells numeral) (before after : List Char)
    (blank : ∀ c ∈ before ++ after, Text.isBlank c = true) (opening closing : Nat) :
    parse (decorated before after opening closing numeral) = .ok guid := by
  have marks : ∀ c ∈ Hex.marks, Text.isBlank c = false ∧ c ≠ '\x7b' ∧ c ≠ '\x7d' :=
    List.forall_iff_forall_mem.mp (by decide)
  have nonempty : numeral ≠ [] := by
    rintro rfl
    exact absurd spells.length (by decide)
  generalize braced : List.replicate opening '\x7b' ++ (numeral ++ List.replicate closing '\x7d') = core
  have solid : ∀ c ∈ core, Text.isBlank c = false := by
    intro c member
    simp only [← braced, List.mem_append, List.mem_replicate] at member
    rcases member with ⟨_, rfl⟩ | inside | ⟨_, rfl⟩
    · decide
    · exact (marks c (spells.mem_marks inside)).1
    · decide
  have trimmed : Text.trim (decorated before after opening closing numeral).toList = core := by
    have first : (before ++ (core ++ after)).dropWhile Text.isBlank = core ++ after := by
      refine dropWhile_append_of_head (fun c member => blank c (List.mem_append_left _ member)) ?_
      intro c first
      rw [List.head?_append_of_ne_nil _ (by simp [← braced, nonempty])] at first
      exact solid c (List.mem_of_mem_head? first)
    rw [decorated, String.toList_ofList, braced, Text.trim, List.append_assoc, first]
    exact dropEndWhile_append_of_getLast (fun c member => blank c (List.mem_append_right _ member))
      fun c last => solid c (List.mem_of_getLast? last)
  have opened : core.dropWhile (· = '\x7b') = numeral ++ List.replicate closing '\x7d' := by
    rw [← braced]
    refine dropWhile_append_of_head (fun c member => by simp [List.eq_of_mem_replicate member]) ?_
    intro c first
    rw [List.head?_append_of_ne_nil _ nonempty] at first
    simp [(marks c (spells.mem_marks (List.mem_of_mem_head? first))).2.1]
  have closed : Text.dropEndWhile (· = '\x7d') (numeral ++ List.replicate closing '\x7d') = numeral := by
    refine dropEndWhile_append_of_getLast (fun c member => by simp [List.eq_of_mem_replicate member]) ?_
    intro c last
    simp [(marks c (spells.mem_marks (List.mem_of_getLast? last))).2.2]
  rw [parse, trimmed, opened, closed]
  exact ofText_of_spells spells

theorem decorated_bare (text : String) : decorated [] [] 0 0 text.toList = text := by
  simp [decorated]

/-- The registry form is read back. -/
theorem parse_registry (guid : Guid) : parse guid.registry = .ok guid := by
  have read := parse_decorated guid.spells_registry [] [] (by simp) 0 0
  rwa [decorated_bare] at read

/-- A GUID is read from its text, in upper case, in lower case or mixed, with any number of braces around it
and any white space around these. So different GUIDs have different texts, and sixteen bytes that are read as
a GUID come back from its text. -/
theorem guids_read_back :
    (∀ (guid : Guid) (before after numeral : List Char) (opening closing : Nat),
      (∀ c ∈ before ++ after, Text.isBlank c = true) → guid.Spells numeral →
        parse (decorated before after opening closing numeral) = .ok guid) ∧
    (∀ guid : Guid, guid.Spells guid.registry.toList ∧ guid.Spells guid.text.toList) ∧
    Function.Injective registry ∧
    ∀ (bytes rest : Bytes) (pos : Nat), bytes.length = 16 →
      ∃ guid, Read.guid ⟨pos, bytes ++ rest⟩ = .ok guid ⟨pos + 16, rest⟩ ∧
        parse guid.registry = .ok guid ∧ guid.bytes = bytes := by
  refine ⟨?_, fun guid => ⟨guid.spells_registry, guid.spells_text⟩, ?_, ?_⟩
  · intro guid before after numeral opening closing blank spells
    exact parse_decorated spells before after blank opening closing
  · intro guid other same
    have read := guid.parse_registry
    rw [same, other.parse_registry] at read
    exact (Except.ok.inj read).symm
  · intro bytes rest pos length
    refine ⟨⟨bytes, length⟩, ?_, parse_registry _, rfl⟩
    have read := Reads.guid ⟨bytes, length⟩ pos rest
    rwa [Encode.length_guid] at read

/-- All sixteen bytes differ, and the digits are of both cases. -/
theorem countingGuid_read_back :
    parse "\t \x7b\x7b03020100-0504-0706-0809-0a0B0c0D0e0F\x7d\n" =
      .ok ⟨[0, 1, 2, 3, 4, 5, 6, 7, 8, 9, 10, 11, 12, 13, 14, 15], rfl⟩ ∧
    ∃ guid, Read.guid ⟨4, [0, 1, 2, 3, 4, 5, 6, 7, 8, 9, 10, 11, 12, 13, 14, 15] ++ [16]⟩ =
        .ok guid ⟨20, [16]⟩ ∧
      parse guid.registry = .ok guid ∧
      guid.bytes = [0, 1, 2, 3, 4, 5, 6, 7, 8, 9, 10, 11, 12, 13, 14, 15] := by
  constructor
  · exact guids_read_back.1 ⟨[0, 1, 2, 3, 4, 5, 6, 7, 8, 9, 10, 11, 12, 13, 14, 15], rfl⟩
      ['\t', ' '] ['\n'] "03020100-0504-0706-0809-0a0B0c0D0e0F".toList 2 1
      (List.forall_iff_forall_mem.mp (by decide)) (by decide)
  · exact guids_read_back.2.2.2 _ [16] 4 rfl

end Guid

end ComTypes

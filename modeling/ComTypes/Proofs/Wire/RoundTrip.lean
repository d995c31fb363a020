import ComTypes.Proofs.Outcome
import ComTypes.Proofs.Text.Utf16
import ComTypes.Wire.Encode

/-!
# What is written is read

`Reads read bytes value` says that a read takes exactly these bytes, whatever stands behind them, and
gives the value. Reads in a row take their bytes in a row (`Reads.bind`), so that the layout of a
record is followed field by field.
-/

namespace ComTypes

namespace Encode

theorem length_littleEndian (width n : Nat) : (littleEndian width n).length = width := by
  induction width generalizing n with
  | zero => rfl
  | succ width ih => rw [littleEndian, List.length_cons, ih]

@[simp] theorem length_u8 (n : UInt8) : (u8 n).length = 1 := rfl

@[simp] theorem length_u16 (n : UInt16) : (u16 n).length = 2 := length_littleEndian ..

@[simp] theorem length_i16 (n : Int16) : (i16 n).length = 2 := length_littleEndian ..

@[simp] theorem length_u32 (n : UInt32) : (u32 n).length = 4 := length_littleEndian ..

@[simp] theorem length_i32 (n : Int32) : (i32 n).length = 4 := length_littleEndian ..

@[simp] theorem length_guid (g : Guid) : (guid g).length = 16 := g.length_eq

@[simp] theorem length_header (tag : Bytes) (version : UInt16) :
    (header tag version).length = tag.length + 2 := by
  simp [header]

theorem length_flatMap_le {α β : Type} {f : α → List β} {most : Nat} {items : List α}
    (each : ∀ item ∈ items, (f item).length ≤ most) :
    (items.flatMap f).length ≤ most * items.length := by
  induction items with
  | nil => simp
  | cons item rest ih =>
    have here := each item List.mem_cons_self
    have others := ih fun other member => each other (List.mem_cons_of_mem _ member)
    rw [List.flatMap_cons, List.length_append, List.length_cons, Nat.mul_succ]
    omega

/-- The text has at most 65535 units, as many as can be counted. -/
def Short (text : String) : Prop := (units text).length < 0x10000

instance (text : String) : Decidable (Short text) := inferInstanceAs (Decidable (_ < _))

end Encode

/-- Looking at the position. -/
theorem position_bind {α : Type} (next : Nat → Read α) (c : Cursor) :
    (Read.position >>= next) c = next c.pos c := rfl

/-- The read takes these bytes, wherever they stand, and gives the value. -/
def Reads {α : Type} (read : Read α) (bytes : Bytes) (value : α) : Prop :=
  ∀ pos rest, read ⟨pos, bytes ++ rest⟩ = .ok value ⟨pos + bytes.length, rest⟩

namespace Reads

variable {α β : Type} {bytes bytes' : Bytes}

theorem pure (value : α) : Reads (pure value) [] value := fun _ _ => rfl

theorem bind {read : Read α} {value : α} {next : α → Read β} {value' : β}
    (first : Reads read bytes value) (second : Reads (next value) bytes' value') :
    Reads (read >>= next) (bytes ++ bytes') value' := by
  intro pos rest
  rw [List.append_assoc, ok_bind (first pos (bytes' ++ rest)), second, List.length_append,
    Nat.add_assoc]

/-- What comes last takes nothing. -/
theorem thenGive {read : Read α} {value : α} {next : α → Read β} {value' : β}
    (first : Reads read bytes value) (last : Reads (next value) [] value') :
    Reads (read >>= next) bytes value' := by
  have both := first.bind last
  rwa [List.append_nil] at both

theorem map {read : Read α} {value : α} (f : α → β) (h : Reads read bytes value) :
    Reads (f <$> read) bytes (f value) := by
  intro pos rest
  show EStateM.map f read _ = _
  rw [EStateM.map, h pos rest]

/-- A look at the position takes nothing. -/
theorem position {next : Nat → Read α} {value : α} (h : ∀ start, Reads (next start) bytes value) :
    Reads (Read.position >>= next) bytes value := fun pos rest => h pos pos rest

theorem take (bytes : Bytes) : Reads (Read.take bytes.length) bytes bytes := by
  intro pos rest
  simp [Read.take]

/-! ### Numbers -/

/-- How many numbers there are of a width in bytes. -/
def range : Nat → Nat
  | 0 => 1
  | width + 1 => 256 * range width

theorem littleEndian_littleEndian (width n : Nat) :
    Read.littleEndian (Encode.littleEndian width n) = n % range width := by
  induction width generalizing n with
  | zero => simp [Encode.littleEndian, Read.littleEndian, range, Nat.mod_one]
  | succ width ih =>
    have low : (UInt8.ofNat n).toNat = n % 256 := UInt8.toNat_ofNat'
    rw [Encode.littleEndian, Read.littleEndian, ih, low, range, Nat.mod_mul]

theorem number (width n : Nat) (small : n < range width) :
    Reads (Read.number width) (Encode.littleEndian width n) n := by
  have whole := take (Encode.littleEndian width n)
  rw [Encode.length_littleEndian] at whole
  have read := whole.map Read.littleEndian
  rwa [littleEndian_littleEndian, Nat.mod_eq_of_lt small] at read

theorem u8 (n : UInt8) : Reads Read.u8 (Encode.u8 n) n := by
  have read := (number 1 n.toNat n.toNat_lt).map UInt8.ofNat
  rw [UInt8.ofNat_toNat] at read
  simpa [Read.u8, Encode.u8, Encode.littleEndian] using read

theorem u16 (n : UInt16) : Reads Read.u16 (Encode.u16 n) n := by
  have read := (number 2 n.toNat n.toNat_lt).map UInt16.ofNat
  rwa [UInt16.ofNat_toNat] at read

theorem i16 (n : Int16) : Reads Read.i16 (Encode.i16 n) n := by
  have read := (u16 n.toUInt16).map UInt16.toInt16
  rwa [Int16.toInt16_toUInt16] at read

theorem u32 (n : UInt32) : Reads Read.u32 (Encode.u32 n) n := by
  have read := (number 4 n.toNat n.toNat_lt).map UInt32.ofNat
  rwa [UInt32.ofNat_toNat] at read

theorem i32 (n : Int32) : Reads Read.i32 (Encode.i32 n) n := by
  have read := (u32 n.toUInt32).map UInt32.toInt32
  rwa [Int32.toInt32_toUInt32] at read

theorem i64 (n : Int64) : Reads Read.i64 (Encode.i64 n) n := by
  have read := (number 8 n.toUInt64.toNat n.toUInt64.toNat_lt).map
    fun n => (UInt64.ofNat n).toInt64
  rwa [UInt64.ofNat_toNat, Int64.toInt64_toUInt64] at read

theorem guid (g : Guid) : Reads Read.guid (Encode.guid g) g := by
  have whole := take g.bytes
  rw [g.length_eq] at whole
  have read := whole.map Guid.ofBytes
  have same : Guid.ofBytes g.bytes = g := by
    cases g with
    | mk bytes length_eq => simp [Guid.ofBytes, length_eq]
  rwa [same] at read

/-! ### Texts and byte strings -/

theorem units_flatMap (units : List UInt16) : Read.units (units.flatMap Encode.u16) = units := by
  induction units with
  | nil => rfl
  | cons unit rest ih =>
    show Read.units (UInt8.ofNat unit.toNat :: UInt8.ofNat (unit.toNat / 256) ::
      rest.flatMap Encode.u16) = _
    have bound := unit.toNat_lt
    have whole : unit.toNat % 256 + 256 * (unit.toNat / 256 % 256) = unit.toNat := by omega
    have low : (UInt8.ofNat unit.toNat).toNat = unit.toNat % 256 := UInt8.toNat_ofNat'
    have high : (UInt8.ofNat (unit.toNat / 256)).toNat = unit.toNat / 256 % 256 :=
      UInt8.toNat_ofNat'
    rw [Read.units, ih, low, high, whole, UInt16.ofNat_toNat]

theorem length_flatMap_u16 (units : List UInt16) :
    (units.flatMap Encode.u16).length = units.length * 2 := by
  induction units with
  | nil => rfl
  | cons unit rest ih =>
    rw [List.flatMap_cons, List.length_append, ih, Encode.u16, Encode.length_littleEndian, List.length_cons]
    omega

theorem text (s : String) (short : Encode.Short s) :
    Reads Read.text (Encode.text s) s := by
  have count : (UInt16.ofNat (Encode.units s).length).toNat * 2 =
      ((Encode.units s).flatMap Encode.u16).length := by
    rw [length_flatMap_u16, Utf16.toNat_unit short]
  have decoded : Utf16.decode? (Read.units ((Encode.units s).flatMap Encode.u16)) =
      some s.toList := by
    rw [units_flatMap]
    exact Utf16.decode?_encode s.toList
  refine position fun start => (u16 _).bind ?_
  rw [count]
  refine (take _).thenGive ?_
  rw [decoded]
  dsimp only
  rw [String.ofList_toList]
  exact pure s

theorem toNat_count {n : Nat} (small : n < 0x100000000) : (UInt32.ofNat n).toNat = n := by
  simp only [UInt32.toNat_ofNat']
  omega

theorem blob (bytes : Bytes) (short : bytes.length < 0x100000000) :
    Reads Read.blob (Encode.blob bytes) bytes := by
  refine (u32 _).bind ?_
  rw [toNat_count short]
  exact take bytes

/-! ### Lists and headers -/

theorem times_map {γ : Type} {read : Read α} {encode : γ → Bytes} {value : γ → α} {items : List γ}
    (each : ∀ item ∈ items, Reads read (encode item) (value item)) :
    Reads (Read.times read items.length) (items.flatMap encode) (items.map value) := by
  induction items with
  | nil => exact pure []
  | cons item rest ih =>
    have others := ih fun other member => each other (List.mem_cons_of_mem _ member)
    exact (each item List.mem_cons_self).bind (others.thenGive (pure _))

theorem times {read : Read α} {encode : α → Bytes} {items : List α}
    (each : ∀ item ∈ items, Reads read (encode item) item) :
    Reads (Read.times read items.length) (items.flatMap encode) items := by
  have all : Reads (Read.times read items.length) (items.flatMap encode) (items.map id) :=
    times_map each
  rwa [List.map_id] at all

section Counted

variable {read : Read α} {encode : α → Bytes} {items : List α} {next : List α → Read β} {value' : β}

theorem counted16 (short : items.length < 0x10000)
    (each : ∀ item ∈ items, Reads read (encode item) item) (rest : Reads (next items) bytes' value') :
    Reads (Read.u16 >>= fun count => Read.times read count.toNat >>= next)
      (Encode.counted16 encode items ++ bytes') value' := by
  rw [Encode.counted16, List.append_assoc]
  refine (u16 _).bind ?_
  rw [Utf16.toNat_unit short]
  exact (times each).bind rest

theorem counted32 (short : items.length < 0x100000000)
    (each : ∀ item ∈ items, Reads read (encode item) item) (rest : Reads (next items) bytes' value') :
    Reads (Read.u32 >>= fun count => Read.times read count.toNat >>= next)
      (Encode.counted32 encode items ++ bytes') value' := by
  rw [Encode.counted32, List.append_assoc]
  refine (u32 _).bind ?_
  rw [toNat_count short]
  exact (times each).bind rest

end Counted

theorem header {tag : Bytes} (four : tag.length = 4) {version : UInt16} {versions : List UInt16}
    (known : version ∈ versions) :
    Reads (Read.header tag versions) (Encode.header tag version) version := by
  have first := take tag
  rw [four] at first
  refine first.bind ?_
  rw [if_neg fun differs => differs rfl]
  refine (u16 version).thenGive ?_
  rw [if_neg fun unknown => unknown known]
  exact pure version

/-- A whole buffer. -/
theorem whole {read : Read α} {value : α} (h : Reads read bytes value) :
    Read.whole read bytes = .ok value := by
  have run := h 0 []
  rw [List.append_nil] at run
  have ended : (read <* Read.finish).run (Cursor.start bytes) = .ok value ⟨0 + bytes.length, []⟩ := by
    show (read >>= fun value => Read.finish >>= fun _ => Pure.pure value) ⟨0, bytes⟩ = _
    rw [ok_bind run]
    rfl
  rw [Read.whole, ended]

end Reads

end ComTypes

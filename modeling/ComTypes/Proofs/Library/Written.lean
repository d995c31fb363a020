import ComTypes.Proofs.Dict
import ComTypes.Proofs.Library.RoundTrip
import ComTypes.Proofs.Wire.Frame

/-!
# Images and their encodings

A library image gives back the library it was written for, in whatever order the entries of its tables
stand and whatever entries later ones replace. A proxy image has no such freedom: it is accepted exactly
if it is the encoding of the image that comes out. `images_exact` puts the two together.
-/

namespace ComTypes

/-! ### Tables in any order -/

namespace TypeInfo

/-- The tables, as they are written, leave what the type info holds: the last entry for a key counts. -/
structure WrittenAs (info : TypeInfo) (tables : Tables) : Prop where
  references : info.references.WrittenAs tables.references
  names : info.names.WrittenAs tables.names
  memberDocs : info.memberDocs.WrittenAs tables.memberDocs

/-- Tables that are written in any order are read back. -/
theorem withTables_eq {info : TypeInfo} {tables : Tables} (written : info.WrittenAs tables) :
    info.withTables tables = info := by
  rw [withTables, Dict.writtenAs_iff.mp written.references, Dict.writtenAs_iff.mp written.names,
    Dict.writtenAs_iff.mp written.memberDocs]

theorem writtenAs_of_perm {info : TypeInfo} {tables : Tables}
    (references : tables.references.Perm info.references.entries)
    (names : tables.names.Perm info.names.entries)
    (memberDocs : tables.memberDocs.Perm info.memberDocs.entries) : info.WrittenAs tables where
  references := Dict.writtenAs_of_perm references
  names := Dict.writtenAs_of_perm names
  memberDocs := Dict.writtenAs_of_perm memberDocs

end TypeInfo

theorem Library.withTables_eq {library : Library} {tables : List TypeInfo.Tables}
    (count : tables.length = library.types.length)
    (written : ∀ entry ∈ library.types.zip tables, entry.1.WrittenAs entry.2) :
    library.withTables tables = library := by
  have types : (library.types.zip tables).map (fun entry => entry.1.withTables entry.2) =
      library.types := by
    calc
      _ = (library.types.zip tables).map (·.1) :=
        List.map_congr_left fun entry member => TypeInfo.withTables_eq (written entry member)
      _ = library.types := List.map_fst_zip (Nat.le_of_eq count.symm)
  rw [withTables, types]

/-! ### Proxy images -/

namespace ProxyImage

theorem framed : Framed read fun image bytes => image.Fits ∧ bytes = image.encode := by
  apply (Framed.header [1]).bind
  rintro version _ ⟨one, rfl⟩
  obtain rfl := List.mem_singleton.mp one
  apply Framed.guid.bind
  rintro baseIid _ rfl
  apply Framed.u16.bind
  rintro count _ rfl
  have offset : Framed Read.u16 fun n bytes => bytes = Encode.u16 n ∧ True :=
    Framed.u16.imp fun _ _ same => ⟨same, trivial⟩
  apply (offset.times_encode count.toNat).bind
  rintro procOffsets _ ⟨length, rfl, _⟩
  apply Framed.blob.bind
  rintro procFormat _ ⟨rfl, procs⟩
  apply Framed.blob.bind
  rintro typeFormat _ ⟨rfl, types⟩
  have counted : UInt16.ofNat procOffsets.length = count := by rw [length, UInt16.ofNat_toNat]
  apply Framed.pure
  exact ⟨⟨length ▸ count.toNat_lt, procs, types⟩, by simp [encode, Encode.counted16, counted]⟩

/-- A proxy image decodes exactly from its encoding. -/
theorem decode_eq_ok_iff {bytes : Bytes} {image : ProxyImage} :
    decode bytes = .ok image ↔ image.Fits ∧ bytes = image.encode := by
  constructor
  · intro run
    exact (framed.of_whole run).1
  · rintro ⟨fits, rfl⟩
    exact decode_encode fits

end ProxyImage

/-! ### Both kinds of images -/

/-- A library that fits the format is read back from its image, if its tables are written so that under
each key the last entry is the one it holds; any order of its own entries is such a way to write them.
A proxy image is accepted exactly if it is the encoding of an image that fits the format. -/
theorem images_exact :
    (∀ (library : Library) (tables : List TypeInfo.Tables), library.Fits tables →
      (∀ entry ∈ library.types.zip tables, entry.1.WrittenAs entry.2) →
      Library.decode (library.encodeWith tables) = .ok library) ∧
    (∀ (info : TypeInfo) (tables : TypeInfo.Tables),
      tables.references.Perm info.references.entries → tables.names.Perm info.names.entries →
      tables.memberDocs.Perm info.memberDocs.entries → info.WrittenAs tables) ∧
    ∀ bytes image, ProxyImage.decode bytes = .ok image ↔
      ProxyImage.Fits image ∧ bytes = image.encode := by
  refine ⟨?_, ?_, ?_⟩
  · intro library tables fits written
    rw [Library.decode_encodeWith fits, Library.withTables_eq fits.tables_count written]
  · intro info tables references names memberDocs
    exact TypeInfo.writtenAs_of_perm references names memberDocs
  · intro bytes image
    exact ProxyImage.decode_eq_ok_iff

/-- A type info with two names and a reference. -/
def namedInfo : TypeInfo where
  documentation := { name := "INamed" }
  attr := []
  funcs := [[1, 2, 3]]
  vars := []
  implTypes := []
  references := Dict.ofList [(4, .within 0)]
  names := Dict.ofList [(⟨1, 0⟩, "First"), (⟨2, 0⟩, "Second")]
  memberDocs := .empty
  customData := []

/-- The names in the wrong order, and a reference that is written twice. -/
def namedTables : TypeInfo.Tables where
  references := [(4, .external .zero "IOther" .vtable), (4, .within 0)]
  names := [(⟨2, 0⟩, "Second"), (⟨1, 0⟩, "First")]
  memberDocs := []

/-- A library of this type info. -/
def namedLibrary : Library where
  libid := .zero
  version := (1, 0)
  name := "Named"
  docString := ""
  types := [namedInfo]

theorem namedInfo_fits : namedInfo.Fits namedTables where
  name := by decide
  docString := by decide
  helpFile := by decide
  attr := by decide
  funcs_count := by decide
  funcs := by decide
  vars_count := by decide
  vars := by decide
  implTypes_count := by decide
  references_count := by decide
  references := by simp [namedTables, TypeInfo.TargetFits]; decide
  names_count := by decide
  names := by decide
  memberDocs_count := by decide
  memberDocs := by decide
  customData_count := by decide
  customData := by simp [namedInfo]

theorem namedLibrary_read_back :
    Library.decode (namedLibrary.encodeWith [namedTables]) = .ok namedLibrary := by
  apply images_exact.1
  · refine ⟨by decide, by decide, by decide, rfl, ?_⟩
    intro entry member
    obtain rfl := List.mem_singleton.mp member
    exact namedInfo_fits
  · intro entry member
    obtain rfl := List.mem_singleton.mp member
    constructor <;> exact Dict.writtenAs_iff.mpr (by decide)

end ComTypes

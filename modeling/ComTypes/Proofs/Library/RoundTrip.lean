import ComTypes.Library.Encode
import ComTypes.Proofs.Record.RoundTrip
import ComTypes.Proxy.Image

/-!
# Images are read as they were written

A library image whose texts and counts fit their fields is read back, whatever order the entries of
its tables are written in. So is a proxy image.
-/

namespace ComTypes

open Encode

namespace TypeInfo

/-- The target of a reference can be written. -/
def TargetFits : TypeReference → Prop
  | .within _ => True
  | .external _ name _ => Short name

/-- What a custom data entry is attached to can be written. -/
def CustomTargetFits : CustomTarget → Prop
  | .type => True
  | .func index | .var index => index < 0x10000
  | .param func index => func < 0x10000 ∧ index < 0x10000

/-- The value of a custom data entry can be written. -/
def CustomValueFits : CustomValue → Prop
  | .int _ => True
  | .text value => Short value

/-- The type info fits the format, with its tables as they are to be written. -/
structure Fits (info : TypeInfo) (tables : Tables) : Prop where
  name : Short info.documentation.name
  docString : Short info.documentation.docString
  helpFile : Short info.documentation.helpFile
  attr : info.attr.length < 0x100000000
  funcs_count : info.funcs.length < 0x10000
  funcs : ∀ func ∈ info.funcs, func.length < 0x100000000
  vars_count : info.vars.length < 0x10000
  vars : ∀ var ∈ info.vars, var.length < 0x100000000
  implTypes_count : info.implTypes.length < 0x10000
  references_count : tables.references.length < 0x10000
  references : ∀ entry ∈ tables.references, TargetFits entry.2
  names_count : tables.names.length < 0x100000000
  names : ∀ entry ∈ tables.names, entry.1.ordinal < 0x10000 ∧ Short entry.2
  memberDocs_count : tables.memberDocs.length < 0x100000000
  memberDocs : ∀ entry ∈ tables.memberDocs,
    Short entry.2.name ∧ Short entry.2.docString ∧ entry.2.helpFile = ""
  customData_count : info.customData.length < 0x100000000
  customData : ∀ entry ∈ info.customData,
    CustomTargetFits entry.1 ∧ CustomValueFits entry.2.value

theorem reads_documentation {doc : Documentation} (name : Short doc.name)
    (docString : Short doc.docString) (helpFile : Short doc.helpFile) :
    Reads readDocumentation (encodeDocumentation doc) doc := by
  simp only [encodeDocumentation, List.append_assoc]
  refine (Reads.text _ name).bind ?_
  refine (Reads.text _ docString).bind ?_
  refine (Reads.u32 _).bind ?_
  exact (Reads.text _ helpFile).thenGive (.pure _)

theorem reads_implType (implemented : ImplType) :
    Reads readImplType (encodeImplType implemented) implemented :=
  (Reads.u32 _).bind ((Reads.u16 _).thenGive (.pure _))

theorem reads_target {target : TypeReference} (fits : TargetFits target) :
    Reads readTarget (encodeTarget target) target := by
  refine .position fun start => ?_
  cases target with
  | within index =>
    refine (Reads.u8 0).bind ?_
    exact (Reads.u32 index).thenGive (.pure _)
  | external guid name kind =>
    simp only [encodeTarget, List.append_assoc]
    refine (Reads.u8 1).bind ?_
    refine (Reads.guid guid).bind ?_
    refine (Reads.text name fits).bind ?_
    exact (TypeAttr.reads_kind kind).thenGive (.pure _)

theorem reads_reference {entry : UInt32 × TypeReference} (fits : TargetFits entry.2) :
    Reads readReference (encodeReference entry) entry :=
  (Reads.u32 _).bind ((reads_target fits).thenGive (.pure _))

theorem reads_name {entry : NameKey × String} (ordinal : entry.1.ordinal < 0x10000)
    (name : Short entry.2) : Reads readName (encodeName entry) entry := by
  simp only [encodeName, List.append_assoc]
  refine (Reads.i32 _).bind ?_
  refine (Reads.u16 _).bind ?_
  refine (Reads.text _ name).thenGive ?_
  rw [Utf16.toNat_unit ordinal]
  exact .pure _

theorem reads_memberDoc {entry : Int32 × Documentation} (name : Short entry.2.name)
    (docString : Short entry.2.docString) (without : entry.2.helpFile = "") :
    Reads readMemberDoc (encodeMemberDoc entry) entry := by
  obtain ⟨member, doc⟩ := entry
  simp only [encodeMemberDoc, List.append_assoc]
  refine (Reads.i32 _).bind ?_
  refine (Reads.text _ name).bind ?_
  refine (Reads.text _ docString).bind ?_
  refine (Reads.u32 _).thenGive ?_
  have same : { name := doc.name, docString := doc.docString, helpContext := doc.helpContext } =
      doc := by
    cases doc
    cases without
    rfl
  rw [same]
  exact .pure _

theorem reads_customTarget {target : CustomTarget} (fits : CustomTargetFits target) :
    Reads readCustomTarget (encodeCustomTarget target) target := by
  refine .position fun start => ?_
  cases target with
  | type =>
    simp only [encodeCustomTarget, encodeCustomTarget.fields, List.append_assoc]
    refine (Reads.u8 0).bind ((Reads.u16 _).bind ((Reads.u16 _).thenGive ?_))
    exact .pure _
  | func index =>
    simp only [encodeCustomTarget, encodeCustomTarget.fields, List.append_assoc]
    refine (Reads.u8 1).bind ((Reads.u16 _).bind ((Reads.u16 _).thenGive ?_))
    rw [Utf16.toNat_unit fits]
    exact .pure _
  | param func index =>
    simp only [encodeCustomTarget, encodeCustomTarget.fields, List.append_assoc]
    refine (Reads.u8 2).bind ((Reads.u16 _).bind ((Reads.u16 _).thenGive ?_))
    rw [Utf16.toNat_unit fits.1, Utf16.toNat_unit fits.2]
    exact .pure _
  | var index =>
    simp only [encodeCustomTarget, encodeCustomTarget.fields, List.append_assoc]
    refine (Reads.u8 3).bind ((Reads.u16 _).bind ((Reads.u16 _).thenGive ?_))
    rw [Utf16.toNat_unit fits]
    exact .pure _

theorem reads_customValue {value : CustomValue} (fits : CustomValueFits value) :
    Reads readCustomValue (encodeCustomValue value) value := by
  refine .position fun start => ?_
  cases value with
  | int value =>
    refine (Reads.u8 0).bind ?_
    exact (Reads.i64 value).thenGive (.pure _)
  | text value =>
    refine (Reads.u8 1).bind ?_
    exact (Reads.text value fits).thenGive (.pure _)

theorem reads_customData {entry : CustomTarget × CustomItem} (target : CustomTargetFits entry.1)
    (value : CustomValueFits entry.2.value) : Reads readCustomData (encodeCustomData entry) entry := by
  simp only [encodeCustomData, List.append_assoc]
  refine (reads_customTarget target).bind ?_
  refine (Reads.guid _).bind ?_
  exact (reads_customValue value).thenGive (.pure _)

theorem reads_blobs {blobs : List Bytes} (count : blobs.length < 0x10000)
    (each : ∀ bytes ∈ blobs, bytes.length < 0x100000000) :
    Reads readBlobs (counted16 blob blobs) blobs := by
  refine (Reads.u16 _).bind ?_
  rw [Utf16.toNat_unit count]
  exact .times fun bytes member => .blob bytes (each bytes member)

/-- The tables of a type info may be written in any order. -/
theorem reads {info : TypeInfo} {tables : Tables} (fits : info.Fits tables) :
    Reads read (info.encodeWith tables) (info.withTables tables) := by
  simp only [encodeWith, List.append_assoc]
  refine (reads_documentation fits.name fits.docString fits.helpFile).bind ?_
  refine (Reads.blob _ fits.attr).bind ?_
  refine (reads_blobs fits.funcs_count fits.funcs).bind ?_
  refine (reads_blobs fits.vars_count fits.vars).bind ?_
  refine .counted16 fits.implTypes_count (fun item _ => reads_implType item) ?_
  refine .counted16 fits.references_count
    (fun entry member => reads_reference (fits.references entry member)) ?_
  refine .counted32 fits.names_count
    (fun entry member => reads_name (fits.names entry member).1 (fits.names entry member).2) ?_
  refine .counted32 fits.memberDocs_count (fun entry member => ?_) ?_
  · obtain ⟨name, docString, without⟩ := fits.memberDocs entry member
    exact reads_memberDoc name docString without
  rw [← List.append_nil (counted32 _ _)]
  exact .counted32 fits.customData_count (fun entry member =>
    reads_customData (fits.customData entry member).1 (fits.customData entry member).2) (.pure _)

end TypeInfo

namespace Library

/-- The library fits the format, with the tables of each type info as they are to be written. -/
structure Fits (library : Library) (tables : List TypeInfo.Tables) : Prop where
  name : Short library.name
  docString : Short library.docString
  count : library.types.length < 0x100000000
  tables_count : tables.length = library.types.length
  types : ∀ entry ∈ library.types.zip tables, entry.1.Fits entry.2

/-- The library whose tables hold what was written. -/
def withTables (library : Library) (tables : List TypeInfo.Tables) : Library :=
  { library with types := (library.types.zip tables).map fun entry => entry.1.withTables entry.2 }

theorem reads {library : Library} {tables : List TypeInfo.Tables} (fits : library.Fits tables) :
    Reads read (library.encodeWith tables) (library.withTables tables) := by
  simp only [encodeWith, List.append_assoc]
  refine (Reads.header rfl (List.mem_singleton.mpr rfl)).bind ?_
  refine (Reads.guid _).bind ?_
  refine (Reads.u16 _).bind ?_
  refine (Reads.u16 _).bind ?_
  refine (Reads.text _ fits.name).bind ?_
  refine (Reads.text _ fits.docString).bind ?_
  have count : (library.types.zip tables).length < 0x100000000 := by
    rw [List.length_zip, fits.tables_count, Nat.min_self]
    exact fits.count
  refine (Reads.u32 _).bind ?_
  rw [Reads.toNat_count count]
  have types : Reads (Read.times TypeInfo.read (library.types.zip tables).length)
      ((library.types.zip tables).flatMap fun entry => entry.1.encodeWith entry.2)
      ((library.types.zip tables).map fun entry => entry.1.withTables entry.2) :=
    .times_map fun entry member => TypeInfo.reads (fits.types entry member)
  exact types.thenGive (.pure _)

/-- A library that fits is read back with its tables as they were written. -/
theorem decode_encodeWith {library : Library} {tables : List TypeInfo.Tables}
    (fits : library.Fits tables) :
    decode (library.encodeWith tables) = .ok (library.withTables tables) :=
  (reads fits).whole

end Library

namespace ProxyImage

/-- The image fits the format. -/
structure Fits (image : ProxyImage) : Prop where
  count : image.procOffsets.length < 0x10000
  procFormat : image.procFormat.length < 0x100000000
  typeFormat : image.typeFormat.length < 0x100000000

theorem reads {image : ProxyImage} (fits : image.Fits) : Reads read image.encode image := by
  simp only [encode, List.append_assoc]
  refine (Reads.header rfl (List.mem_singleton.mpr rfl)).bind ?_
  refine (Reads.guid _).bind ?_
  refine .counted16 fits.count (fun offset _ => .u16 offset) ?_
  refine (Reads.blob _ fits.procFormat).bind ?_
  exact (Reads.blob _ fits.typeFormat).thenGive (.pure _)

/-- A proxy image that fits is read back. -/
theorem decode_encode {image : ProxyImage} (fits : image.Fits) : decode image.encode = .ok image :=
  (reads fits).whole

end ProxyImage

end ComTypes

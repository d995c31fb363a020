import ComTypes.Library.Decode

/-!
# Writing type library images

The layout that `Library.read` takes in. The three tables of a type info are unordered, so a writer
is free to put their entries in any order, and to write entries that later ones replace;
`TypeInfo.Tables` is such a choice.
-/

namespace ComTypes

namespace TypeInfo

/-- The entries of the three tables of a type info, in the order in which they are written. -/
structure Tables where
  references : List (UInt32 × TypeReference)
  names : List (NameKey × String)
  memberDocs : List (Int32 × Documentation)
deriving DecidableEq, Repr

/-- The entries of a type info's own tables, in key order. -/
def tables (info : TypeInfo) : Tables where
  references := info.references.entries
  names := info.names.entries
  memberDocs := info.memberDocs.entries

/-- The type info whose tables hold what was written; the last entry for a key counts. -/
def withTables (info : TypeInfo) (tables : Tables) : TypeInfo :=
  { info with
    references := Dict.ofList tables.references
    names := Dict.ofList tables.names
    memberDocs := Dict.ofList tables.memberDocs }

def encodeDocumentation (doc : Documentation) : Bytes :=
  Encode.text doc.name ++ Encode.text doc.docString ++ Encode.u32 doc.helpContext ++
    Encode.text doc.helpFile

def encodeImplType (implemented : ImplType) : Bytes :=
  Encode.u32 implemented.href ++ Encode.u16 implemented.flags

def encodeTarget : TypeReference → Bytes
  | .within index => Encode.u8 0 ++ Encode.u32 index
  | .external guid name kind =>
    Encode.u8 1 ++ Encode.guid guid ++ Encode.text name ++ Encode.u16 kind.code

def encodeReference (entry : UInt32 × TypeReference) : Bytes :=
  Encode.u32 entry.1 ++ encodeTarget entry.2

def encodeName (entry : NameKey × String) : Bytes :=
  Encode.i32 entry.1.member ++ Encode.u16 (UInt16.ofNat entry.1.ordinal) ++ Encode.text entry.2

/-- An entry of the member documentation in bytes; its help file is not written. -/
def encodeMemberDoc (entry : Int32 × Documentation) : Bytes :=
  Encode.i32 entry.1 ++ Encode.text entry.2.name ++ Encode.text entry.2.docString ++
    Encode.u32 entry.2.helpContext

/-- What a custom data entry is attached to, in bytes; an index without use is zero. -/
def encodeCustomTarget : CustomTarget → Bytes
  | .type => fields 0 0 0
  | .func index => fields 1 index 0
  | .param func index => fields 2 func index
  | .var index => fields 3 index 0
where
  /-- A code with two indices. -/
  fields (code : UInt8) (first second : Nat) : Bytes :=
    Encode.u8 code ++ Encode.u16 (UInt16.ofNat first) ++ Encode.u16 (UInt16.ofNat second)

def encodeCustomValue : CustomValue → Bytes
  | .int value => Encode.u8 0 ++ Encode.i64 value
  | .text value => Encode.u8 1 ++ Encode.text value

def encodeCustomData (entry : CustomTarget × CustomItem) : Bytes :=
  encodeCustomTarget entry.1 ++ Encode.guid entry.2.guid ++ encodeCustomValue entry.2.value

/-- A type info in bytes, with its tables as they are to be written. -/
def encodeWith (info : TypeInfo) (tables : Tables) : Bytes :=
  encodeDocumentation info.documentation ++ Encode.blob info.attr ++
    Encode.counted16 Encode.blob info.funcs ++ Encode.counted16 Encode.blob info.vars ++
    Encode.counted16 encodeImplType info.implTypes ++
    Encode.counted16 encodeReference tables.references ++
    Encode.counted32 encodeName tables.names ++
    Encode.counted32 encodeMemberDoc tables.memberDocs ++
    Encode.counted32 encodeCustomData info.customData

/-- A type info in bytes, with its tables in key order. -/
def encode (info : TypeInfo) : Bytes := info.encodeWith info.tables

end TypeInfo

namespace Library

/-- A library in bytes, with the tables of each type info as they are to be written. -/
def encodeWith (library : Library) (tables : List TypeInfo.Tables) : Bytes :=
  Encode.header tag 1 ++ Encode.guid library.libid ++ Encode.u16 library.version.1 ++
    Encode.u16 library.version.2 ++ Encode.text library.name ++ Encode.text library.docString ++
    Encode.counted32 (fun entry => TypeInfo.encodeWith entry.1 entry.2) (library.types.zip tables)

def encode (library : Library) : Bytes :=
  library.encodeWith (library.types.map TypeInfo.tables)

end Library

end ComTypes

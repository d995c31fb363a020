import ComTypes.Text.Hex
import ComTypes.Text.Utf8
import ComTypes.TypeKind

/-!
# Faults

What can go wrong while descriptors are decoded, assembled into a graph or rendered. Each fault
names its cause; `Fault.message` holds all the wording.
-/

namespace ComTypes

inductive CodedField where
  | typeKind | funcKind | invokeKind | varKind | reference | customTarget | customValue
deriving DecidableEq, Repr

def CodedField.name : CodedField → String
  | typeKind => "TYPEKIND"
  | funcKind => "FUNCKIND"
  | invokeKind => "INVOKEKIND"
  | varKind => "VARKIND"
  | reference => "reference kind"
  | customTarget => "custom data target"
  | customValue => "custom value kind"

inductive Malformation where
  | short (needed left : Nat)
  | nothingToPeek
  | seekPastEnd (size : Nat)
  | loneSurrogate
  | trailing (count : Nat)
  | nestedTooDeep (limit : Nat)
  | zeroDimensions
  | unknown (field : CodedField) (code : Nat)
  | beforeFormat (relative : Int)
  | note (text : String)
deriving DecidableEq, Repr

def Malformation.message : Malformation → String
  | short needed left => s!"need {needed} bytes, have {left}"
  | nothingToPeek => "need 1 byte, have 0"
  | seekPastEnd size => s!"seek past end of {size}-byte buffer"
  | loneSurrogate => "bad UTF-16: invalid utf-16: lone surrogate found"
  | trailing count => s!"{count} trailing bytes after record"
  | nestedTooDeep limit => s!"type descriptor nested deeper than {limit}"
  | zeroDimensions => "C array with zero dimensions"
  | unknown field code => s!"unknown {field.name} {code}"
  | beforeFormat relative => s!"offset {relative} points before the type format"
  | note text => text

inductive LayoutGap where
  | tag (expected found : List UInt8)
  | version (record : List UInt8) (number : UInt16)
  | vartype (code : UInt16)
  | typeInfo (kind : TypeKind)
  | nonConstant (index : Nat) (enumeration : String)
  | note (text : String)
deriving DecidableEq, Repr

def byteList (bytes : List UInt8) : String :=
  "[" ++ ", ".intercalate (bytes.map fun b => String.ofList (Hex.byte b)) ++ "]"

def LayoutGap.message : LayoutGap → String
  | tag expected found =>
    "expected `" ++ Utf8.lenient expected ++ "` record, found tag " ++ byteList found
  | version record number => "`" ++ Utf8.lenient record ++ s!"` record version {number.toNat}"
  | vartype code => "VARTYPE " ++ Hex.markedWide 4 code.toNat
  | typeInfo kind => kind.name ++ " type infos"
  | nonConstant index enumeration =>
    s!"non-constant member {index} in enum `" ++ enumeration ++ "`"
  | note text => text

inductive FormatGap where
  | oiFlags (flags : UInt8)
  | explicitHandle (code : UInt8)
  | baseType (code : UInt8)
  | nestedTooDeep (limit : Nat)
  | interfaceWithoutIid
  | typeFormat (code : UInt8)
  | simplePointer (code : UInt8)
  | conformantStruct
  | pointerWithoutLayout
  | structMember (code : UInt8)
  | arrayElement (code : UInt8)
  | arrayDivision (total element : Nat)
  | note (text : String)
deriving DecidableEq, Repr

def FormatGap.message : FormatGap → String
  | oiFlags flags => "Oi flags " ++ code flags ++ " are not an -Oif object procedure"
  | explicitHandle kind => "explicit handle " ++ code kind
  | baseType kind => "base type " ++ code kind
  | nestedTooDeep limit => s!"type nested deeper than {limit}"
  | interfaceWithoutIid => "interface pointer without a constant IID"
  | typeFormat kind => "type format " ++ code kind
  | simplePointer kind => "simple pointer to " ++ code kind
  | conformantStruct => "conformant bogus struct"
  | pointerWithoutLayout => "pointer member without a pointer layout"
  | structMember kind => "struct member " ++ code kind
  | arrayElement kind => "array element " ++ code kind
  | arrayDivision total element =>
    s!"array of {total} bytes does not divide into {element}-byte elements"
  | note text => text
where
  /-- A format character as a marked numeral. -/
  code (b : UInt8) : String := Hex.markedWide 2 b.toNat

/-- A reference that leads nowhere, or to the wrong kind of type. -/
inductive ReferenceGap where
  | missingFunction (index : Nat) (owner : String)
  | missingVariable (index : Nat) (owner : String)
  | baseNotInterface (owner : String)
  | missingLocal (href : UInt32) (owner : String) (index : Nat)
  | unusableExternal (name : String) (kind : TypeKind)
  | unknownHref (href : UInt32) (owner : String)
  | note (text : String)
deriving DecidableEq, Repr

def ReferenceGap.message : ReferenceGap → String
  | missingFunction index owner => s!"function descriptor {index} of `" ++ owner ++ "` is missing"
  | missingVariable index owner => s!"variable descriptor {index} of `" ++ owner ++ "` is missing"
  | baseNotInterface owner => "base of `" ++ owner ++ "` is not an interface"
  | missingLocal href owner index =>
    "hreftype " ++ Hex.marked href.toNat ++ " of `" ++ owner ++
      s!"` names local type {index}, which is not in the graph"
  | unusableExternal name kind => "external `" ++ name ++ "` is a " ++ kind.name
  | unknownHref href owner => "hreftype " ++ Hex.marked href.toNat ++ " of `" ++ owner ++ "`"
  | note text => text

inductive Fault where
  /-- Truncated or inconsistent bytes, with the offset at which the failing read started. -/
  | malformed (offset : Nat) (cause : Malformation)
  /-- A recognised record whose tag, version or variant is not handled. -/
  | unsupportedLayout (cause : LayoutGap)
  /-- A procedure or type format that is not handled. -/
  | unsupportedFormat (offset : Nat) (cause : FormatGap)
  /-- A type reference that does not resolve. -/
  | dangling (cause : ReferenceGap)
  /-- Rendering was asked for a type whose body is not complete. -/
  | notParsed (name : String)
deriving DecidableEq, Repr

def Fault.message : Fault → String
  | malformed offset cause =>
    "malformed descriptor at offset " ++ Hex.marked offset ++ ": " ++ cause.message
  | unsupportedLayout cause => "unsupported layout: " ++ cause.message
  | unsupportedFormat offset cause =>
    "unsupported procedure format at offset " ++ Hex.marked offset ++ ": " ++ cause.message
  | dangling cause => "dangling type reference: " ++ cause.message
  | notParsed name =>
    "`" ++ name ++ "` has not been parsed; enable best-effort rendering to format it anyway"

end ComTypes

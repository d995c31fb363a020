import ComTypes.Library.Basic
import ComTypes.Record.TypeAttr

/-!
# Reading type library images

An image is a header, the library's own data, and its type infos one after the other. In the three
tables of a type info (references, names, member documentation) the last entry for a key counts.
-/

namespace ComTypes

namespace TypeInfo

def readDocumentation : Read Documentation := do
  let name ← Read.text
  let docString ← Read.text
  let helpContext ← Read.u32
  let helpFile ← Read.text
  return { name, docString, helpContext, helpFile }

/-- Byte strings with a two-byte count in front. -/
def readBlobs : Read (List Bytes) := do
  let count ← Read.u16
  Read.times Read.blob count.toNat

def readImplType : Read ImplType := do
  let href ← Read.u32
  let flags ← Read.u16
  return ⟨href, flags⟩

/-- The target of a reference; its kind code comes first. -/
def readTarget : Read TypeReference := do
  let start ← Read.position
  let code ← Read.u8
  if code = 0 then
    return .within (← Read.u32)
  else if code = 1 then
    let guid ← Read.guid
    let name ← Read.text
    let kind ← TypeAttr.readKind
    return .external guid name kind
  else
    Read.malformed start (.unknown .reference code.toNat)

def readReference : Read (UInt32 × TypeReference) := do
  let href ← Read.u32
  let target ← readTarget
  return (href, target)

def readName : Read (NameKey × String) := do
  let member ← Read.i32
  let ordinal ← Read.u16
  let name ← Read.text
  return (⟨member, ordinal.toNat⟩, name)

/-- An entry of the member documentation; members have no help file. -/
def readMemberDoc : Read (Int32 × Documentation) := do
  let member ← Read.i32
  let name ← Read.text
  let docString ← Read.text
  let helpContext ← Read.u32
  return (member, { name, docString, helpContext })

/-- What a custom data entry is attached to: a code and two indices, used as the code demands. -/
def readCustomTarget : Read CustomTarget := do
  let start ← Read.position
  let code ← Read.u8
  let first ← Read.u16
  let second ← Read.u16
  if code = 0 then return .type
  else if code = 1 then return .func first.toNat
  else if code = 2 then return .param first.toNat second.toNat
  else if code = 3 then return .var first.toNat
  else Read.malformed start (.unknown .customTarget code.toNat)

def readCustomValue : Read CustomValue := do
  let start ← Read.position
  let code ← Read.u8
  if code = 0 then return .int (← Read.i64)
  else if code = 1 then return .text (← Read.text)
  else Read.malformed start (.unknown .customValue code.toNat)

def readCustomData : Read (CustomTarget × CustomItem) := do
  let target ← readCustomTarget
  let guid ← Read.guid
  let value ← readCustomValue
  return (target, ⟨guid, value⟩)

def read : Read TypeInfo := do
  let documentation ← readDocumentation
  let attr ← Read.blob
  let funcs ← readBlobs
  let vars ← readBlobs
  let implTypes ← Read.times readImplType (← Read.u16).toNat
  let references ← Read.times readReference (← Read.u16).toNat
  let names ← Read.times readName (← Read.u32).toNat
  let memberDocs ← Read.times readMemberDoc (← Read.u32).toNat
  let customData ← Read.times readCustomData (← Read.u32).toNat
  return {
    documentation, attr, funcs, vars, implTypes, customData
    references := Dict.ofList references
    names := Dict.ofList names
    memberDocs := Dict.ofList memberDocs }

end TypeInfo

namespace Library

def tag : Bytes := [0x54, 0x4C, 0x49, 0x42]

def read : Read Library := do
  let _ ← Read.header tag [1]
  let libid ← Read.guid
  let major ← Read.u16
  let minor ← Read.u16
  let name ← Read.text
  let docString ← Read.text
  let types ← Read.times TypeInfo.read (← Read.u32).toNat
  return { libid, version := (major, minor), name, docString, types }

def decode (bytes : Bytes) : Except Fault Library := Read.whole read bytes

end Library

end ComTypes

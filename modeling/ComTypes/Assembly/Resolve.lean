import ComTypes.Assembly.Basic
import ComTypes.Library.Basic

/-!
# Resolving type descriptors

A descriptor becomes a node: built-in types, pointers and arrays are interned, and a user-defined
type is looked up in the reference table of its type info.
-/

namespace ComTypes.Assemble

def resolveHref (info : TypeInfo) (href : UInt32) : Assemble TypeId :=
  match info.references.get? href with
  | some (.within index) => do
    match (← get).slots.get? index.toNat with
    | some id => return id
    | none => throw (.dangling (.missingLocal href info.name index.toNat))
  | some (.external guid name kind) =>
    match Body.blank? kind with
    | some body => onGraph (·.external guid name body)
    | none => throw (.dangling (.unusableExternal name kind))
  | none => throw (.dangling (.unknownHref href info.name))

def resolve (info : TypeInfo) : TypeDesc → Assemble TypeId
  | .base primitive => onGraph (·.intern (.primitive primitive))
  | .pointer target => do
    let target ← resolve info target
    onGraph (·.intern (.pointer target))
  | .safeArray element => do
    let element ← resolve info element
    onGraph (·.intern (.array element .safe))
  | .fixedArray dims element => do
    let element ← resolve info element
    onGraph (·.intern (.array element (.fixed dims)))
  | .userDefined href => resolveHref info href

end ComTypes.Assemble

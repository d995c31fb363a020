import ComTypes.Wire.Cursor
import ComTypes.Wire.Encode

/-!
# Proxy images

What a proxy file holds for one interface: the IID of its base, the place of every v-table slot's
procedure, and the procedure and type format strings.
-/

namespace ComTypes

/-- A proxy image. The base IID is zero if the interface has no base. -/
structure ProxyImage where
  baseIid : Guid
  procOffsets : List UInt16
  procFormat : Bytes
  typeFormat : Bytes
deriving DecidableEq, Repr

namespace ProxyImage

def tag : Bytes := [0x4E, 0x44, 0x52, 0x50]

def read : Read ProxyImage := do
  let _ ← Read.header tag [1]
  let baseIid ← Read.guid
  let procOffsets ← Read.times Read.u16 (← Read.u16).toNat
  let procFormat ← Read.blob
  let typeFormat ← Read.blob
  return { baseIid, procOffsets, procFormat, typeFormat }

def decode (bytes : Bytes) : Except Fault ProxyImage := Read.whole read bytes

def encode (image : ProxyImage) : Bytes :=
  Encode.header tag 1 ++ Encode.guid image.baseIid ++
    Encode.counted16 Encode.u16 image.procOffsets ++ Encode.blob image.procFormat ++
    Encode.blob image.typeFormat

end ProxyImage

end ComTypes

/-
# The frame header as the C++ server reads it

The server lays the struct `xhead_t` over the first bytes of a receive buffer.
Field offsets are those of natural alignment: every field starts at the next
multiple of its own alignment. Integer fields are little-endian, as on the host.
-/

import Xrtc.Machine.Bytes

namespace Xrtc.Base

open Xrtc.Machine

def XHEAD_SIZE : ℕ := 36

def XHEAD_MAGIC_NUM : UInt32 := 0xfb202202

/-- The struct `xhead_t`. -/
structure XHead where
  id : UInt16
  version : UInt16
  logId : UInt32
  provider : List UInt8
  magicNum : UInt32
  reserved : UInt32
  bodyLen : UInt32
  deriving DecidableEq

namespace XHead

/-- The first multiple of `alignment` not below `offset`. -/
def alignUp (offset alignment : ℕ) : ℕ := (offset + alignment - 1) / alignment * alignment

def idOffset : ℕ := 0
def versionOffset : ℕ := alignUp (idOffset + 2) 2
def logIdOffset : ℕ := alignUp (versionOffset + 2) 4
def providerOffset : ℕ := alignUp (logIdOffset + 4) 1
def magicNumOffset : ℕ := alignUp (providerOffset + 16) 4
def reservedOffset : ℕ := alignUp (magicNumOffset + 4) 4
def bodyLenOffset : ℕ := alignUp (reservedOffset + 4) 4

/-- Read a `uint16_t` field of the overlaid struct. -/
def uint16At (buffer : List UInt8) (offset : ℕ) : UInt16 :=
  UInt16.ofNat (ofLittleEndian (fieldAt buffer offset 2))

/-- Read a `uint32_t` field of the overlaid struct. -/
def uint32At (buffer : List UInt8) (offset : ℕ) : UInt32 :=
  UInt32.ofNat (ofLittleEndian (fieldAt buffer offset 4))

/-- The cast `(xhead_t*)buffer`. -/
def ofBuffer (buffer : List UInt8) : XHead where
  id := uint16At buffer idOffset
  version := uint16At buffer versionOffset
  logId := uint32At buffer logIdOffset
  provider := fieldAt buffer providerOffset 16
  magicNum := uint32At buffer magicNumOffset
  reserved := uint32At buffer reservedOffset
  bodyLen := uint32At buffer bodyLenOffset

/-- The struct has no padding: its size is the 36 bytes of the wire header. -/
example : alignUp (bodyLenOffset + 4) 4 = XHEAD_SIZE := by decide

/-- The overlay reads nothing behind the first 36 bytes, so bytes that arrive
later never change a header that is already complete. -/
theorem ofBuffer_append {first second : List UInt8} (hlen : XHEAD_SIZE ≤ first.length) :
    ofBuffer (first ++ second) = ofBuffer first := by
  have inside (offset width : ℕ) (hfits : offset + width ≤ XHEAD_SIZE) :
      fieldAt (first ++ second) offset width = fieldAt first offset width :=
    fieldAt_append_left (by omega)
  simp only [ofBuffer, uint16At, uint32At]
  rw [inside idOffset 2 (by decide), inside versionOffset 2 (by decide),
    inside logIdOffset 4 (by decide), inside providerOffset 16 (by decide),
    inside magicNumOffset 4 (by decide), inside reservedOffset 4 (by decide),
    inside bodyLenOffset 4 (by decide)]

end XHead

end Xrtc.Base

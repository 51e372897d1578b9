/-
# The checksum that routes streams

The table-driven CRC32 of the base library. Entry `i` of the table is computed
where it is needed instead of once at the first call.
-/

import Mathlib.Logic.Function.Iterate

namespace Xrtc.Base

def kCrc32Polynomial : UInt32 := 0xEDB88320

/-- One of the eight rounds for a table entry. -/
def crc32Round (c : UInt32) : UInt32 :=
  if c &&& 1 ≠ 0 then kCrc32Polynomial ^^^ (c >>> 1) else c >>> 1

def crc32Table (i : UInt32) : UInt32 := crc32Round^[8] i

def updateCrc32 (start : UInt32) (buf : List UInt8) : UInt32 :=
  buf.foldl (fun c byte => crc32Table ((c ^^^ byte.toUInt32) &&& 0xFF) ^^^ (c >>> 8))
    (start ^^^ 0xFFFFFFFF) ^^^ 0xFFFFFFFF

def computeCrc32 (str : List UInt8) : UInt32 := updateCrc32 0 str

/-- The check value of the standard: the checksum of the digits `1` to `9`. -/
example : computeCrc32 [49, 50, 51, 52, 53, 54, 55, 56, 57] = 0xCBF43926 := by decide +kernel

end Xrtc.Base

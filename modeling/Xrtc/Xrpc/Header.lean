/-
# The RPC header of the Go client

`Header` is the 36-byte frame header of `xrpc/header.go`. `marshal` writes its
fields one after the other into a caller's buffer, at the offsets the source
spells out; `bytes` is the same header as one byte string. The first theorem
says that the two agree, so that every later argument about the wire format
speaks about `bytes` and no longer about seven buffer updates.
-/

import Xrtc.Machine.Bytes

namespace Xrtc.Xrpc

open Xrtc.Machine

def HEADER_SIZE : ℕ := 36

def HEADER_MAGICNUM : UInt32 := 0xfb202202

/-- The RPC request header. -/
structure Header where
  id : UInt16 := 0
  version : UInt16 := 0
  logId : UInt32 := 0
  provider : Vector UInt8 16 := Vector.replicate 16 0
  magicNum : UInt32 := 0
  reserved : UInt32 := 0
  bodyLen : UInt32 := 0
  deriving DecidableEq

namespace Header

/-- `binary.LittleEndian.PutUint16` on the two bytes from `offset` on. -/
def putUint16 (b : List UInt8) (offset : ℕ) (value : UInt16) : List UInt8 :=
  putAt b offset (littleEndian 2 value.toNat)

/-- `binary.LittleEndian.PutUint32` on the four bytes from `offset` on. -/
def putUint32 (b : List UInt8) (offset : ℕ) (value : UInt32) : List UInt8 :=
  putAt b offset (littleEndian 4 value.toNat)

/-- Serialize the header into the first 36 bytes of `b`. -/
def marshal (h : Header) (b : List UInt8) : Except String (List UInt8) :=
  if b.length < HEADER_SIZE then
    .error "no enough buffer for header"
  else
    let b := putUint16 b 0 h.id
    let b := putUint16 b 2 h.version
    let b := putUint32 b 4 h.logId
    let b := putAt b 8 h.provider.toList
    let b := putUint32 b 24 h.magicNum
    let b := putUint32 b 28 h.reserved
    let b := putUint32 b 32 h.bodyLen
    .ok b

/-- What `Header.Write` hands to its writer: the header marshalled into a zeroed
36-byte buffer. -/
def write (h : Header) : Except String (List UInt8) :=
  h.marshal (List.replicate HEADER_SIZE 0)

/-- The header as it stands on the wire. -/
def bytes (h : Header) : List UInt8 :=
  littleEndian 2 h.id.toNat ++ littleEndian 2 h.version.toNat ++
    littleEndian 4 h.logId.toNat ++ h.provider.toList ++
    littleEndian 4 h.magicNum.toNat ++ littleEndian 4 h.reserved.toNat ++
    littleEndian 4 h.bodyLen.toNat

@[simp]
theorem length_bytes (h : Header) : h.bytes.length = HEADER_SIZE := by
  simp [bytes, HEADER_SIZE]

/-- The seven buffer updates of `marshal` write exactly `bytes`, and nothing
behind it. -/
theorem marshal_eq (h : Header) (b : List UInt8) (hlen : HEADER_SIZE ≤ b.length) :
    h.marshal b = .ok (h.bytes ++ b.drop HEADER_SIZE) := by
  rw [marshal, if_neg (by omega)]
  simp only [putUint16, putUint32]
  -- each field starts where the finished prefix ends
  rw [show b = [] ++ b from rfl, putAt_append (by simp), putAt_append (by simp),
    putAt_append (by simp), putAt_append (by simp), putAt_append (by simp),
    putAt_append (by simp), putAt_append (by simp)]
  simp [bytes, HEADER_SIZE]

theorem write_eq (h : Header) : h.write = .ok h.bytes := by
  rw [write, marshal_eq h _ (by simp)]
  simp

end Header

end Xrtc.Xrpc

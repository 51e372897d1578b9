/-
# One header, two languages

The Go client writes a header field by field; the C++ server overlays a struct.
The bridge is that the overlay of a header as written has the same fields, so
that a request travels with its log id, its magic number and its body length.
-/

import Xrtc.Base.XHead
import Xrtc.Xrpc.Request

namespace Xrtc.Xrpc

open Xrtc.Machine Xrtc.Base

theorem ofNat_littleEndian_uint16 (value : UInt16) :
    UInt16.ofNat (ofLittleEndian (littleEndian 2 value.toNat)) = value := by
  rw [ofLittleEndian_littleEndian, Nat.mod_eq_of_lt (by exact value.toNat_lt)]
  exact UInt16.ofNat_toNat

theorem ofNat_littleEndian_uint32 (value : UInt32) :
    UInt32.ofNat (ofLittleEndian (littleEndian 4 value.toNat)) = value := by
  rw [ofLittleEndian_littleEndian, Nat.mod_eq_of_lt (by exact value.toNat_lt)]
  exact UInt32.ofNat_toNat

/-- The struct a C++ server sees in the header of a Go client. -/
def Header.toXHead (h : Header) : XHead where
  id := h.id
  version := h.version
  logId := h.logId
  provider := h.provider.toList
  magicNum := h.magicNum
  reserved := h.reserved
  bodyLen := h.bodyLen

/-- **The two views of a header agree.** The struct laid over the bytes of a Go
header holds the fields of that header. -/
theorem ofBuffer_bytes (h : Header) : XHead.ofBuffer h.bytes = h.toXHead := by
  have hid : fieldAt h.bytes XHead.idOffset 2 = littleEndian 2 h.id.toNat := by
    simp only [Header.bytes, List.append_assoc]
    rw [← List.nil_append (littleEndian 2 h.id.toNat ++ _)]
    exact fieldAt_middle rfl (by simp)
  -- each further field starts where the fields in front of it end
  have hversion : fieldAt h.bytes XHead.versionOffset 2 = littleEndian 2 h.version.toNat := by
    simp only [Header.bytes, List.append_assoc]
    exact fieldAt_middle (by simp; rfl) (by simp)
  have hlogId : fieldAt h.bytes XHead.logIdOffset 4 = littleEndian 4 h.logId.toNat := by
    simp only [Header.bytes, List.append_assoc]
    rw [← List.append_assoc]
    exact fieldAt_middle (by simp; rfl) (by simp)
  have hprovider : fieldAt h.bytes XHead.providerOffset 16 = h.provider.toList := by
    simp only [Header.bytes, List.append_assoc]
    rw [← List.append_assoc, ← List.append_assoc]
    exact fieldAt_middle (by simp; rfl) (by simp)
  have hmagicNum : fieldAt h.bytes XHead.magicNumOffset 4 = littleEndian 4 h.magicNum.toNat := by
    rw [Header.bytes, List.append_assoc, List.append_assoc]
    exact fieldAt_middle (by simp; rfl) (by simp)
  have hreserved : fieldAt h.bytes XHead.reservedOffset 4 = littleEndian 4 h.reserved.toNat := by
    rw [Header.bytes, List.append_assoc]
    exact fieldAt_middle (by simp; rfl) (by simp)
  have hbodyLen : fieldAt h.bytes XHead.bodyLenOffset 4 = littleEndian 4 h.bodyLen.toNat := by
    rw [Header.bytes, fieldAt_append_right (by simp; rfl), List.take_of_length_le (by simp)]
  simp only [XHead.ofBuffer, XHead.uint16At, XHead.uint32At, hid, hversion, hlogId, hprovider,
    hmagicNum, hreserved, hbodyLen, ofNat_littleEndian_uint16, ofNat_littleEndian_uint32,
    Header.toXHead]

/-- The struct laid over the start of a request frame, or of a part of it that
has at least its header. -/
theorem ofBuffer_requestHeader (logId : UInt32) (length : ℕ) (rest : List UInt8) :
    XHead.ofBuffer ((requestHeader logId length).bytes ++ rest) =
      (requestHeader logId length).toXHead := by
  rw [XHead.ofBuffer_append (by rw [Header.length_bytes]; rfl), ofBuffer_bytes]

theorem toNat_bodyLen_requestHeader (logId : UInt32) {length : ℕ} (hlen : length < 2 ^ 32) :
    (requestHeader logId length).toXHead.bodyLen.toNat = length :=
  UInt32.toNat_ofNat_of_lt' hlen

end Xrtc.Xrpc

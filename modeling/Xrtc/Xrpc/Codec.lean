/-
# Marshalling a header and reading it back

`Header.Marshal` changes the slice of its caller and `Header.UnMarshal` changes
its receiver. This module follows both with what they leave behind: the error
they return, `none` for `nil`, next to the buffer or the header afterwards. On a
buffer that holds a header the two are inverse to each other and agree with the
struct of the C++ server; on a shorter one both fail in front of the first
assignment.
-/

import Xrtc.Xrpc.Response

namespace Xrtc.Xrpc

open Xrtc.Machine Xrtc.Base

namespace Header

/-- `binary.LittleEndian.Uint16` of the two bytes from `offset` on. -/
def uint16 (b : List UInt8) (offset : ℕ) : UInt16 :=
  UInt16.ofNat (ofLittleEndian (fieldAt b offset 2))

/-- `binary.LittleEndian.Uint32` of the four bytes from `offset` on. -/
def uint32 (b : List UInt8) (offset : ℕ) : UInt32 :=
  UInt32.ofNat (ofLittleEndian (fieldAt b offset 4))

/-- The call `h.Marshal(b)`: its error and the buffer `b` afterwards. -/
def marshalInto (h : Header) (b : List UInt8) : Option String × List UInt8 :=
  if b.length < HEADER_SIZE then
    (some "no enough buffer for header", b)
  else
    let b := putUint16 b 0 h.id
    let b := putUint16 b 2 h.version
    let b := putUint32 b 4 h.logId
    let b := putAt b 8 h.provider.toList
    let b := putUint32 b 24 h.magicNum
    let b := putUint32 b 28 h.reserved
    let b := putUint32 b 32 h.bodyLen
    (none, b)

/-- The call `h.UnMarshal(b)`: its error and the receiver `h` afterwards. -/
def unMarshalInto (h : Header) (b : List UInt8) : Option String × Header :=
  if b.length < HEADER_SIZE then
    (some "incomplete header", h)
  else
    let h := { h with id := uint16 b 0 }
    let h := { h with version := uint16 b 2 }
    let h := { h with logId := uint32 b 4 }
    let h := { h with provider := Vector.ofFn fun i => b.getD (8 + i) 0 }
    let h := { h with magicNum := uint32 b 24 }
    let h := { h with reserved := uint32 b 28 }
    let h := { h with bodyLen := uint32 b 32 }
    (none, h)

/-- A call that succeeds leaves the buffer that `marshal` computes. -/
theorem marshalInto_of_ok {h : Header} {b written : List UInt8}
    (hmarshal : h.marshal b = .ok written) : h.marshalInto b = (none, written) := by
  rw [marshal] at hmarshal
  split at hmarshal
  · cases hmarshal
  · rename_i hlong
    cases hmarshal
    rw [marshalInto, if_neg hlong]

theorem marshalInto_eq (h : Header) {b : List UInt8} (hlen : HEADER_SIZE ≤ b.length) :
    h.marshalInto b = (none, h.bytes ++ b.drop HEADER_SIZE) :=
  marshalInto_of_ok (h.marshal_eq b hlen)

/-- A call that succeeds overwrites every field of its receiver. -/
theorem unMarshalInto_of_ok {found : Header} {b : List UInt8} (h : Header)
    (hread : unMarshal b = .ok found) : h.unMarshalInto b = (none, found) := by
  rw [unMarshal] at hread
  split at hread
  · cases hread
  · rename_i hlong
    cases hread
    rw [unMarshalInto, if_neg hlong]
    rfl

theorem exists_unMarshal {b : List UInt8} (hlen : HEADER_SIZE ≤ b.length) :
    ∃ h, unMarshal b = .ok h := by
  rw [unMarshal, if_neg (not_lt.mpr hlen)]
  exact ⟨_, rfl⟩

/-! ## The round trips -/

/-- A marshalled header is read back by both sides, and nothing behind it is
touched. -/
theorem unMarshalInto_marshalInto (h before : Header) {b : List UInt8}
    (hlen : HEADER_SIZE ≤ b.length) :
    ∃ written, h.marshalInto b = (none, written) ∧
      before.unMarshalInto written = (none, h) ∧ written.length = b.length ∧
      written.drop HEADER_SIZE = b.drop HEADER_SIZE ∧ XHead.ofBuffer written = h.toXHead := by
  have hbytes : h.bytes.length = HEADER_SIZE := h.length_bytes
  refine ⟨h.bytes ++ b.drop HEADER_SIZE, h.marshalInto_eq hlen, ?_, ?_, ?_, ?_⟩
  · exact unMarshalInto_of_ok before (unMarshal_bytes h _)
  · rw [List.length_append, hbytes, List.length_drop]
    exact Nat.add_sub_cancel' hlen
  · rw [List.drop_left' hbytes]
  · rw [XHead.ofBuffer_append hbytes.ge, ofBuffer_bytes]

/-- What is read out of a buffer is written as the first 36 bytes of it, into
whatever buffer it goes. -/
theorem marshalInto_unMarshalInto (before : Header) {b : List UInt8}
    (hlen : HEADER_SIZE ≤ b.length) :
    ∃ h, before.unMarshalInto b = (none, h) ∧
      ∀ target : List UInt8, HEADER_SIZE ≤ target.length →
        ∃ written, h.marshalInto target = (none, written) ∧
          written.take HEADER_SIZE = b.take HEADER_SIZE ∧
          written.drop HEADER_SIZE = target.drop HEADER_SIZE := by
  obtain ⟨h, hread⟩ := exists_unMarshal hlen
  refine ⟨h, unMarshalInto_of_ok before hread, ?_⟩
  intro target htarget
  have hbytes : h.bytes.length = HEADER_SIZE := h.length_bytes
  refine ⟨h.bytes ++ target.drop HEADER_SIZE, h.marshalInto_eq htarget, ?_, ?_⟩
  · rw [List.take_left' hbytes, bytes_unMarshal hread]
  · rw [List.drop_left' hbytes]

/-- **The header codec.** On buffers of at least 36 bytes `Marshal` and
`UnMarshal` undo each other and leave the bytes behind the header alone, and the
C++ struct laid over the marshalled bytes has the fields of the header. On shorter
buffers both fail and change nothing. -/
theorem marshal_unMarshal_codec :
    (∀ (h before : Header) (b : List UInt8), HEADER_SIZE ≤ b.length →
      ∃ written, h.marshalInto b = (none, written) ∧
        before.unMarshalInto written = (none, h) ∧ written.length = b.length ∧
        written.drop HEADER_SIZE = b.drop HEADER_SIZE ∧
        XHead.ofBuffer written = h.toXHead) ∧
    (∀ (before : Header) (b : List UInt8), HEADER_SIZE ≤ b.length →
      ∃ h, before.unMarshalInto b = (none, h) ∧
        ∀ target : List UInt8, HEADER_SIZE ≤ target.length →
          ∃ written, h.marshalInto target = (none, written) ∧
            written.take HEADER_SIZE = b.take HEADER_SIZE ∧
            written.drop HEADER_SIZE = target.drop HEADER_SIZE) ∧
    ∀ (h : Header) (b : List UInt8), b.length < HEADER_SIZE →
      h.marshalInto b = (some "no enough buffer for header", b) ∧
        h.unMarshalInto b = (some "incomplete header", h) := by
  refine ⟨?_, ?_, ?_⟩
  · intro h before b hlen
    exact h.unMarshalInto_marshalInto before hlen
  · intro before b hlen
    exact before.marshalInto_unMarshalInto hlen
  · intro h b hshort
    rw [marshalInto, unMarshalInto, if_pos hshort, if_pos hshort]
    exact ⟨rfl, rfl⟩

end Header

end Xrtc.Xrpc

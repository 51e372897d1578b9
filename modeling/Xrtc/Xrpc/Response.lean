/-
# Responses as the Go client reads them

`ReadResponse` reads a header, checks its magic number, and reads as many bytes
behind it as the header announces. The connection may deliver the bytes in any
pieces. A header that is followed by the body it announces is read back field by
field, and nothing behind the body is touched. Conversely, what is accepted is
the encoding of what is returned, and every other stream is refused.
-/

import Xrtc.Machine.Reader
import Xrtc.Xrpc.Wire

namespace Xrtc.Xrpc

open Xrtc.Machine Xrtc.Base

namespace Header

/-- `Header.UnMarshal`. -/
def unMarshal (b : List UInt8) : Except String Header :=
  if b.length < HEADER_SIZE then
    .error "incomplete header"
  else
    .ok
      { id := UInt16.ofNat (ofLittleEndian (fieldAt b 0 2))
        version := UInt16.ofNat (ofLittleEndian (fieldAt b 2 2))
        logId := UInt32.ofNat (ofLittleEndian (fieldAt b 4 4))
        provider := Vector.ofFn fun i => b.getD (8 + i) 0
        magicNum := UInt32.ofNat (ofLittleEndian (fieldAt b 24 4))
        reserved := UInt32.ofNat (ofLittleEndian (fieldAt b 28 4))
        bodyLen := UInt32.ofNat (ofLittleEndian (fieldAt b 32 4)) }

end Header

/-- The text of a read error. -/
def readErrorText : ReadError → String
  | .eof => "EOF"
  | .unexpectedEof => "unexpected EOF"

/-- `Header.Read`, with the rest of the stream. -/
def Header.read (reader : Reader) : Except String (Header × Reader) := do
  let (buf, reader) ← (readFull HEADER_SIZE reader).mapError readErrorText
  let header ← unMarshal buf
  return (header, reader)

structure Response where
  header : Header
  body : List UInt8
  deriving DecidableEq

/-- `ReadResponse`, with the rest of the stream. -/
def readResponse (reader : Reader) : Except String (Response × Reader) := do
  let (header, reader) ← Header.read reader
  if header.magicNum ≠ HEADER_MAGICNUM then
    .error ("invalid magic num: " ++ String.ofList (Nat.toDigits 16 header.magicNum.toNat))
  else
    let (body, reader) ← (readFull header.bodyLen.toNat reader).mapError readErrorText
    return (⟨header, body⟩, reader)

/-! ## What is written is read back -/

/-- The fields that the Go code and the C++ struct find in a buffer are the same. -/
theorem unMarshal_eq {b : List UInt8} {h : Header} (hlen : HEADER_SIZE ≤ b.length)
    (hhead : XHead.ofBuffer b = h.toXHead) : Header.unMarshal b = .ok h := by
  have hprovider : fieldAt b 8 16 = h.provider.toList := congrArg XHead.provider hhead
  rw [Header.unMarshal, if_neg (not_lt.mpr hlen)]
  congr 1
  obtain ⟨id, version, logId, provider, magicNum, reserved, bodyLen⟩ := h
  rw [Header.mk.injEq]
  refine ⟨congrArg XHead.id hhead, congrArg XHead.version hhead, congrArg XHead.logId hhead, ?_,
    congrArg XHead.magicNum hhead, congrArg XHead.reserved hhead, congrArg XHead.bodyLen hhead⟩
  ext i hi
  have hsize : HEADER_SIZE = 36 := rfl
  have hbyte : (fieldAt b 8 16)[i]? = some provider[i] := by
    rw [hprovider]
    simp [hi]
  rw [fieldAt, List.getElem?_take_of_lt hi, List.getElem?_drop] at hbyte
  simp [List.getD, hbyte]

theorem unMarshal_bytes (h : Header) (rest : List UInt8) :
    Header.unMarshal (h.bytes ++ rest) = .ok h := by
  have hlen : h.bytes.length = HEADER_SIZE := h.length_bytes
  apply unMarshal_eq
  · rw [List.length_append, hlen]
    exact Nat.le_add_right _ _
  · rw [XHead.ofBuffer_append hlen.ge, ofBuffer_bytes]

theorem read_header_bytes {h : Header} {rest : List UInt8} {reader : Reader}
    (hreader : reader.flatten = h.bytes ++ rest) :
    ∃ behind, Header.read reader = .ok (h, behind) ∧ behind.flatten = rest := by
  have hlen : h.bytes.length = HEADER_SIZE := h.length_bytes
  obtain ⟨behind, hfull, hbehind⟩ := @readFull_of_le reader HEADER_SIZE (by
    rw [hreader, List.length_append, hlen]
    exact Nat.le_add_right _ _)
  rw [hreader, ← hlen, List.take_left] at hfull
  rw [hreader, ← hlen, List.drop_left] at hbehind
  refine ⟨behind, ?_, hbehind⟩
  have hunMarshal := unMarshal_bytes h []
  rw [List.append_nil] at hunMarshal
  rw [Header.read, ← hlen, hfull]
  simp only [Except.mapError, bind, Except.bind, hunMarshal, pure, Except.pure]

/-- **A response is read back**, whatever pieces it comes in and whatever stands
behind it. -/
theorem readResponse_bytes {h : Header} {body rest : List UInt8} {reader : Reader}
    (hmagic : h.magicNum = HEADER_MAGICNUM) (hbody : h.bodyLen.toNat = body.length)
    (hreader : reader.flatten = h.bytes ++ (body ++ rest)) :
    ∃ behind, readResponse reader = .ok (⟨h, body⟩, behind) ∧ behind.flatten = rest := by
  obtain ⟨middle, hheader, hmiddle⟩ := read_header_bytes hreader
  obtain ⟨behind, hfull, hbehind⟩ := @readFull_of_le middle body.length (by
    rw [hmiddle, List.length_append]
    exact Nat.le_add_right _ _)
  rw [hmiddle, List.take_left] at hfull
  rw [hmiddle, List.drop_left] at hbehind
  refine ⟨behind, ?_, hbehind⟩
  rw [readResponse, hheader]
  simp only [bind, Except.bind, hmagic, ne_eq, not_true, if_false, hbody, hfull, Except.mapError,
    pure, Except.pure]

/-! ## What is read was written so -/

theorem littleEndian_ofNat_uint16 {field : List UInt8} (hlen : field.length = 2) :
    littleEndian 2 (UInt16.ofNat (ofLittleEndian field)).toNat = field := by
  have hlt : ofLittleEndian field < 2 ^ 16 := by
    have hbound := ofLittleEndian_lt field
    rw [hlen] at hbound
    exact hbound
  rw [UInt16.toNat_ofNat_of_lt' hlt]
  nth_rewrite 1 [← hlen]
  exact littleEndian_ofLittleEndian field

theorem littleEndian_ofNat_uint32 {field : List UInt8} (hlen : field.length = 4) :
    littleEndian 4 (UInt32.ofNat (ofLittleEndian field)).toNat = field := by
  have hlt : ofLittleEndian field < 2 ^ 32 := by
    have hbound := ofLittleEndian_lt field
    rw [hlen] at hbound
    exact hbound
  rw [UInt32.toNat_ofNat_of_lt' hlt]
  nth_rewrite 1 [← hlen]
  exact littleEndian_ofLittleEndian field

/-- The sixteen bytes that `copy(h.Provider[:], b[8:24])` takes. -/
theorem toList_provider {b : List UInt8} (hlen : HEADER_SIZE ≤ b.length) :
    (Vector.ofFn fun i : Fin 16 => b.getD (8 + i) 0).toList = fieldAt b 8 16 := by
  have hsize : HEADER_SIZE = 36 := rfl
  refine List.ext_getElem ?_ ?_
  · rw [Vector.length_toList, length_fieldAt (by omega)]
  · intro i hi hfield
    rw [Vector.length_toList] at hi
    simp only [Vector.getElem_toList, Vector.getElem_ofFn, fieldAt, List.getElem_take,
      List.getElem_drop]
    rw [List.getD, List.getElem?_eq_getElem (by omega), Option.getD_some]

/-- **The header is a bijection with its bytes**: what `UnMarshal` reads out of a
buffer is written back as the first 36 bytes of it. -/
theorem bytes_unMarshal {b : List UInt8} {h : Header} (hread : Header.unMarshal b = .ok h) :
    h.bytes = b.take HEADER_SIZE := by
  have hsize : HEADER_SIZE = 36 := rfl
  rw [Header.unMarshal] at hread
  split at hread
  · cases hread
  rename_i hlong
  cases hread
  rw [Header.bytes, toList_provider (not_lt.mp hlong),
    littleEndian_ofNat_uint16 (length_fieldAt (by omega)),
    littleEndian_ofNat_uint16 (length_fieldAt (by omega)),
    littleEndian_ofNat_uint32 (length_fieldAt (by omega)),
    littleEndian_ofNat_uint32 (length_fieldAt (by omega)),
    littleEndian_ofNat_uint32 (length_fieldAt (by omega)),
    littleEndian_ofNat_uint32 (length_fieldAt (by omega))]
  -- the seven fields stand side by side
  rw [fieldAt_append_fieldAt b 0 2 2, fieldAt_append_fieldAt b 0 4 4, fieldAt_append_fieldAt b 0 8 16,
    fieldAt_append_fieldAt b 0 24 4, fieldAt_append_fieldAt b 0 28 4,
    fieldAt_append_fieldAt b 0 32 4]
  rfl

/-- The steps of a read that succeeds. -/
theorem read_header_eq_ok {reader middle : Reader} {h : Header}
    (hread : Header.read reader = .ok (h, middle)) :
    HEADER_SIZE ≤ reader.flatten.length ∧ h.bytes = reader.flatten.take HEADER_SIZE ∧
      middle.flatten = reader.flatten.drop HEADER_SIZE := by
  rw [Header.read] at hread
  cases hfull : readFull HEADER_SIZE reader with
  | error e =>
      rw [hfull] at hread
      cases hread
  | ok found =>
      obtain ⟨buf, behind⟩ := found
      simp only [hfull, Except.mapError, bind, Except.bind, pure, Except.pure] at hread
      cases hunMarshal : Header.unMarshal buf with
      | error e =>
          rw [hunMarshal] at hread
          cases hread
      | ok header =>
          rw [hunMarshal] at hread
          cases hread
          obtain ⟨hlen, rfl, hbehind⟩ := readFull_eq_ok hfull
          refine ⟨hlen, ?_, hbehind⟩
          rw [bytes_unMarshal hunMarshal, List.take_take, Nat.min_self]

theorem readResponse_eq_ok {reader behind : Reader} {resp : Response}
    (hread : readResponse reader = .ok (resp, behind)) :
    resp.header.magicNum = HEADER_MAGICNUM ∧ resp.body.length = resp.header.bodyLen.toNat ∧
      reader.flatten = resp.header.bytes ++ (resp.body ++ behind.flatten) := by
  rw [readResponse] at hread
  cases hheader : Header.read reader with
  | error e =>
      rw [hheader] at hread
      cases hread
  | ok found =>
      obtain ⟨header, middle⟩ := found
      simp only [hheader, bind, Except.bind, pure, Except.pure] at hread
      split at hread
      · cases hread
      rename_i hmagic
      cases hfull : readFull header.bodyLen.toNat middle with
      | error e =>
          rw [hfull] at hread
          cases hread
      | ok found =>
          obtain ⟨body, rest⟩ := found
          rw [hfull] at hread
          cases hread
          obtain ⟨-, hbytes, hmiddle⟩ := read_header_eq_ok hheader
          obtain ⟨hlen, hbody, hbehind⟩ := readFull_eq_ok hfull
          refine ⟨not_not.mp hmagic, ?_, ?_⟩
          · rw [hbody, List.length_take_of_le hlen]
          · rw [hbytes, hbody, hbehind, List.take_append_drop, hmiddle, List.take_append_drop]

/-! ## The codec law -/

/-- The magic number in the first bytes of a stream. -/
def magicNumOf (stream : List UInt8) : UInt32 := UInt32.ofNat (ofLittleEndian (fieldAt stream 24 4))

/-- The body length in the first bytes of a stream. -/
def bodyLenOf (stream : List UInt8) : UInt32 := UInt32.ofNat (ofLittleEndian (fieldAt stream 32 4))

/-- A stream without the magic number, or with less than a header and the body
that it announces, is refused. -/
theorem readResponse_of_malformed {reader : Reader}
    (hbad : magicNumOf reader.flatten ≠ HEADER_MAGICNUM ∨
      reader.flatten.length < HEADER_SIZE + (bodyLenOf reader.flatten).toNat) :
    ∃ error, readResponse reader = .error error := by
  cases hread : readResponse reader with
  | error e => exact ⟨e, rfl⟩
  | ok found =>
      obtain ⟨resp, behind⟩ := found
      obtain ⟨hmagic, hbody, hstream⟩ := readResponse_eq_ok hread
      have hhead : XHead.ofBuffer reader.flatten = resp.header.toXHead := by
        rw [hstream, XHead.ofBuffer_append resp.header.length_bytes.ge, ofBuffer_bytes]
      have hmagicNum : magicNumOf reader.flatten = resp.header.magicNum :=
        congrArg XHead.magicNum hhead
      have hbodyLen : bodyLenOf reader.flatten = resp.header.bodyLen :=
        congrArg XHead.bodyLen hhead
      rw [hmagicNum, hbodyLen, hstream, List.length_append, List.length_append,
        Header.length_bytes, hbody] at hbad
      rcases hbad with hwrong | hshort
      · exact absurd hmagic hwrong
      · omega

/-- **The codec law.** What a request writes is read back from in front of any
suffix, what is accepted was the encoding of what is returned, and a stream with
a wrong magic number or a missing byte is refused. -/
theorem readResponse_codec :
    (∀ (logId : UInt32) (body suffix : List UInt8), ∃ frame,
      (newRequest (some body) logId).write = .ok frame ∧
        ∀ reader : Reader, reader.flatten = frame ++ suffix →
          ∃ header behind,
            readResponse reader = .ok (⟨header, body.take header.bodyLen.toNat⟩, behind) ∧
            header = (newRequest (some body) logId).header ∧
            header.bodyLen.toNat = body.length % 2 ^ 32 ∧ behind.flatten = suffix) ∧
    (∀ (reader behind : Reader) (resp : Response), readResponse reader = .ok (resp, behind) →
      ∃ head, resp.header.marshal (List.replicate HEADER_SIZE 0) = .ok head ∧
        reader.flatten = (head ++ resp.body) ++ behind.flatten) ∧
    ∀ reader : Reader,
      magicNumOf reader.flatten ≠ HEADER_MAGICNUM ∨
        reader.flatten.length < HEADER_SIZE + (bodyLenOf reader.flatten).toNat →
      ∃ error, readResponse reader = .error error := by
  refine ⟨?_, ?_, ?_⟩
  · intro logId body suffix
    have hbodyLen : (requestHeader logId body.length).bodyLen.toNat = body.length % 2 ^ 32 :=
      UInt32.toNat_ofNat'
    refine ⟨_, newRequest_write_take logId body, ?_⟩
    intro reader hreader
    rw [List.append_assoc] at hreader
    obtain ⟨behind, hread, hbehind⟩ := readResponse_bytes (h := requestHeader logId body.length)
      rfl (by rw [hbodyLen, List.length_take_of_le (Nat.mod_le _ _)]) hreader
    refine ⟨requestHeader logId body.length, behind, ?_, rfl, hbodyLen, hbehind⟩
    rw [hread, hbodyLen]
  · intro reader behind resp hread
    obtain ⟨-, -, hstream⟩ := readResponse_eq_ok hread
    refine ⟨resp.header.bytes, resp.header.write_eq, ?_⟩
    rw [hstream, List.append_assoc]
  · intro reader hbad
    exact readResponse_of_malformed hbad

end Xrtc.Xrpc

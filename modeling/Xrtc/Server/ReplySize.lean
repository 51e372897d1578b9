/-
# The size of a reply

`_response_server_offer` allocates `MAX_RES_BUF` bytes behind the header, and copies
the JSON text there whatever its length is. The text holds the offer that an RTC
worker made for the message. Nothing on the way checks a length, so the copy stays in
the buffer only because an offer is short: its lines are bounded, and a JSON string
takes at most twice as many bytes as the text in it.

What the JSON writer does is an argument. It is assumed to write the members without
whitespace, in the order of their keys, and to escape what has to be escaped.
-/

import Xrtc.Pc.OfferSize
import Xrtc.Server.SignalingWorker
import Xrtc.Stream.RtcStreamManager

namespace Xrtc.Stream

open Xrtc.Machine Xrtc.Base Xrtc.Pc

/-- `PushStream::create_offer`, with the certificates by address and the credentials
that are drawn. A push stream receives only. -/
def PushStream.createOffer (certificates : Addr → Certificate) (params : IceParameters)
    (stream : PushStream) : List UInt8 :=
  RTCOfferAnswerOptions.createOffer
    { sendAudio := false
      sendVideo := false
      recvAudio := stream.audio
      recvVideo := stream.video }
    (stream.certificate.map certificates) params

/-- It is short. Without a certificate there is none. -/
theorem PushStream.fits_createOffer {certificates : Addr → Certificate} {params : IceParameters}
    (hparams : params.Drawn)
    (hcertificates : ∀ addr mid fp, certificates addr mid = some fp → fp.Bounded)
    (stream : PushStream) : Fits 1295 (stream.createOffer certificates params) := by
  rw [createOffer]
  cases stream.certificate with
  | none => exact fits_nil _
  | some addr => exact RTCOfferAnswerOptions.fits_createOffer _ hparams (hcertificates addr)

end Xrtc.Stream

namespace Xrtc.Server

open Xrtc.Machine Xrtc.Base Xrtc.Pc Xrtc.Stream

/-- The arguments of `create_push_stream` for a message. -/
def RtcWorker.pushCall (msg : RtcMsg) (addr : Addr) : PushCall where
  uid := msg.uid
  streamName := msg.streamName
  audio := msg.audio ≠ 0
  video := msg.video ≠ 0
  logId := (msg.logId % 2 ^ 32).toNat
  certificate := msg.certificate
  addr := addr

/-- `RtcWorker::_process_push`, with the message that is sent back. -/
def RtcWorker.processPush (createOffer : PushStream → List UInt8) (m : RtcStreamManager)
    (msg : RtcMsg) (addr : Addr) : RtcStreamManager × Option RtcMsg :=
  let (m, ret, offer) := m.createPushStream createOffer (pushCall msg addr)
  if ret ≠ 0 then (m, none) else (m, some { msg with sdp := offer })

/-! ## The JSON text -/

/-- A byte in a JSON string. -/
def escaped (c : UInt8) : Text :=
  if c = 13 then
    ascii "\\r"
  else if c = 10 then
    ascii "\\n"
  else if c = 34 then
    ascii "\\\""
  else if c = 92 then
    ascii "\\\\"
  else
    [c]

def quoted (text : Text) : Text := ascii "\"" ++ text.flatMap escaped ++ ascii "\""

/-- The members without whitespace, in the order of their keys. -/
def ResRoot.compact (root : ResRoot) : Text :=
  ascii "\x7b\"err_msg\":" ++ quoted (ascii root.errMsg) ++ ascii ",\"err_no\":" ++
    decimal root.errNo ++ ascii ",\"offer\":" ++ quoted root.offer ++ ascii "\x7d"

/-- What is relied on of `Json::writeString` with an empty indentation: it writes
members of plain characters like this. -/
def WritesCompact (writeString : ResRoot → List UInt8) : Prop :=
  ∀ root : ResRoot, (∀ c ∈ root.errMsg.toList, 32 ≤ c.toNat ∧ c.toNat ≤ 126) →
    (∀ c ∈ root.offer, isPlain c = true) → writeString root = root.compact

theorem length_escaped_le (c : UInt8) : (escaped c).length ≤ 2 := by
  rw [escaped]
  split
  · decide
  split
  · decide
  split
  · decide
  split
  · decide
  · exact Nat.le_succ 1

/-- A string takes at most twice as many bytes as its text, and the quotes. -/
theorem length_quoted_le (text : Text) : (quoted text).length ≤ 2 * text.length + 2 := by
  have hbody : (text.flatMap escaped).length ≤ 2 * text.length := by
    induction text with
    | nil => exact le_rfl
    | cons c text ih =>
        rw [List.flatMap_cons, List.length_append, List.length_cons]
        have hc := length_escaped_le c
        omega
  have hquotes : (quoted text).length = 1 + (text.flatMap escaped).length + 1 := by
    rw [quoted, List.length_append, List.length_append]
    rfl
  omega

theorem length_compact_le {root : ResRoot} (herrMsg : root.errMsg.toList.length ≤ 19)
    (herrNo : root.errNo.natAbs < 10 ^ 10) (hoffer : root.offer.length ≤ 1295) :
    root.compact.length ≤ MAX_RES_BUF := by
  have hmessage := length_quoted_le (ascii root.errMsg)
  have hnumber := length_decimal_le (by decide) herrNo
  have htext := length_quoted_le root.offer
  have hascii : (ascii root.errMsg).length = root.errMsg.toList.length := List.length_map _
  have hkeys : (ascii "\x7b\"err_msg\":").length = 11 ∧ (ascii ",\"err_no\":").length = 10 ∧
      (ascii ",\"offer\":").length = 9 ∧ (ascii "\x7d").length = 1 := by decide
  simp only [ResRoot.compact, List.length_append]
  rw [MAX_RES_BUF]
  omega

/-! ## The reply to a push message -/

theorem printable_resRoot (msg : RtcMsg) :
    (∀ c ∈ (SignalingWorker.resRoot msg).errMsg.toList, 32 ≤ c.toNat ∧ c.toNat ≤ 126) ∧
      (SignalingWorker.resRoot msg).errMsg.toList.length ≤ 19 := by
  have hprintable {text : String}
      (hall : (text.toList.all fun c => decide (32 ≤ c.toNat ∧ c.toNat ≤ 126)) = true) :
      ∀ c ∈ text.toList, 32 ≤ c.toNat ∧ c.toNat ≤ 126 :=
    fun c hc => of_decide_eq_true (List.all_eq_true.mp hall c hc)
  rw [SignalingWorker.resRoot]
  split
  · refine ⟨@hprintable "process sdp error" (by decide), ?_⟩
    show "process sdp error".toList.length ≤ 19
    decide
  · refine ⟨@hprintable "process sdp success" (by decide), ?_⟩
    show "process sdp success".toList.length ≤ 19
    decide

theorem fits_offer_resRoot {msg : RtcMsg} (hsdp : Fits 1295 msg.sdp) :
    Fits 1295 (SignalingWorker.resRoot msg).offer := by
  rw [SignalingWorker.resRoot]
  split
  · exact fits_nil _
  · exact hsdp

theorem errNo_resRoot (msg : RtcMsg) : (SignalingWorker.resRoot msg).errNo = msg.errNo := by
  rw [SignalingWorker.resRoot]
  split
  · rfl
  · rfl

/-- The reply to a message with a short offer. -/
theorem length_writeString_le {writeString : ResRoot → List UInt8}
    (hwrites : WritesCompact writeString) {msg : RtcMsg}
    (herrNo : -2 ^ 31 ≤ msg.errNo ∧ msg.errNo < 2 ^ 31) (hsdp : Fits 1295 msg.sdp) :
    (writeString (SignalingWorker.resRoot msg)).length ≤ MAX_RES_BUF := by
  obtain ⟨hprintable, hshort⟩ := printable_resRoot msg
  have hoffer := fits_offer_resRoot hsdp
  have hsmall : (SignalingWorker.resRoot msg).errNo.natAbs < 10 ^ 10 := by
    rw [errNo_resRoot]
    omega
  rw [hwrites _ hprintable hoffer.plain]
  exact length_compact_le hshort hsmall hoffer.length_le

/-- **The reply fits into its buffer**: an RTC worker sends a push message back with an
offer such that the text copied behind the header has at most `MAX_RES_BUF` bytes, and
the copy never leaves the buffer. -/
theorem reply_fits (writeString : ResRoot → List UInt8) (hwrites : WritesCompact writeString)
    (certificates : Addr → Certificate) (params : IceParameters) (hparams : params.Drawn)
    (hcertificates : ∀ addr mid fp, certificates addr mid = some fp → fp.Bounded)
    (m : RtcStreamManager) (msg : RtcMsg) (herrNo : -2 ^ 31 ≤ msg.errNo ∧ msg.errNo < 2 ^ 31)
    (addr : Addr) :
    ∃ reply,
      (RtcWorker.processPush (PushStream.createOffer certificates params) m msg addr).2 =
        some reply ∧
      (writeString (SignalingWorker.resRoot reply)).length ≤ MAX_RES_BUF ∧
      ∀ c : TcpConnection, XHEAD_SIZE ≤ c.querybuf.buf.length → ∃ resMsg,
        SignalingWorker.replyFrame c (writeString (SignalingWorker.resRoot reply)) =
          .ok resMsg := by
  let reply : RtcMsg :=
    { msg with
      sdp := PushStream.createOffer certificates params (RtcWorker.pushCall msg addr).stream }
  have hsdp : Fits 1295 reply.sdp := PushStream.fits_createOffer hparams hcertificates _
  have hlength := @length_writeString_le writeString hwrites reply herrNo hsdp
  refine ⟨reply, rfl, hlength, ?_⟩
  intro c hheader
  rw [SignalingWorker.replyFrame, dif_pos ⟨hlength, hheader⟩]
  exact ⟨_, rfl⟩

/-- A message for both media. -/
def pushBoth : RtcMsg where
  cmdno := CMDNO_PUSH
  streamName := ascii "xrtc"
  audio := 1
  video := 1
  uid := 7
  certificate := some 1
  logId := 0

theorem reply_fits_pushBoth :
    ∃ reply,
      (RtcWorker.processPush (PushStream.createOffer
        (fun _ _ => some RTCOfferAnswerOptions.someFingerprint)
        RTCOfferAnswerOptions.someParameters) {} pushBoth 2).2 = some reply ∧
      (ResRoot.compact (SignalingWorker.resRoot reply)).length ≤ MAX_RES_BUF ∧
      ∀ c : TcpConnection, XHEAD_SIZE ≤ c.querybuf.buf.length → ∃ resMsg,
        SignalingWorker.replyFrame c (ResRoot.compact (SignalingWorker.resRoot reply)) =
          .ok resMsg := by
  apply reply_fits ResRoot.compact (fun _ _ _ => rfl) _ _ (drawn_createRandomIceCredentials _ _)
  · intro addr mid fp hfp
    rw [← Option.some.inj hfp]
    exact ⟨by decide, by decide⟩
  · exact ⟨by decide, by decide⟩

end Xrtc.Server

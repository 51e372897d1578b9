/-
# A reply as the client reads it

The reply to a request starts with the request's own header, copied out of the
receive buffer long after it came in. By then further bytes may have arrived and
the buffer may have grown. This module follows one descriptor through any run of
the worker's reads, up to the reply: the header that is copied is the one that
was sent, the frame that is queued announces the length of its own body, and the
Go client reads it back as the header of its request and that body, with nothing
left over.
-/

import Xrtc.Server.Delivery
import Xrtc.Xrpc.Response

namespace Xrtc.Server

open Xrtc.Machine Xrtc.Base
open TcpConnection (LOOP_BOUND BelowSentinel Rejected Complete requests frameCall)

/-! ## The frame -/

/-- The header of a request with another body length. -/
def replyHeader (h : Xrpc.Header) (length : ℕ) : Xrpc.Header :=
  { h with bodyLen := UInt32.ofNat length }

/-- Overwriting the body length of a header gives the header of the reply. -/
theorem putAt_bodyLen (h : Xrpc.Header) {length : ℕ} (hlen : length < 2 ^ 32) :
    putAt h.bytes XHead.bodyLenOffset (littleEndian 4 length) = (replyHeader h length).bytes := by
  have hlength : (UInt32.ofNat length).toNat = length := UInt32.toNat_ofNat_of_lt' hlen
  rw [Xrpc.Header.bytes, putAt_append (by simp; rfl), List.drop_of_length_le (by simp),
    List.append_nil, Xrpc.Header.bytes, replyHeader, hlength]

/-- The frame that is queued where the buffer starts with a request's header. -/
theorem replyFrame_of_header {c : TcpConnection} {h : Xrpc.Header} {rest resBody : List UInt8}
    (hbuf : c.querybuf.buf = h.bytes ++ rest) (hlen : resBody.length ≤ MAX_RES_BUF) :
    ∃ resMsg, SignalingWorker.replyFrame c resBody = .ok resMsg ∧
      resMsg.bytes = (replyHeader h resBody.length).bytes ++ resBody := by
  have hheader : h.bytes.length = XHEAD_SIZE := h.length_bytes
  have hlong : XHEAD_SIZE ≤ c.querybuf.buf.length := by
    rw [hbuf, List.length_append, hheader]
    exact Nat.le_add_right _ _
  have hbound : MAX_RES_BUF < 2 ^ 32 := by decide
  rw [SignalingWorker.replyFrame, dif_pos ⟨hlen, hlong⟩]
  refine ⟨_, rfl, ?_⟩
  simp only [hbuf, ← hheader, List.take_left]
  rw [putAt_bodyLen h (lt_of_le_of_lt hlen hbound)]

/-- The Go client reads these bytes, in whatever pieces they come, as `resBody`
under the header of the request, and nothing is left. -/
def RepliesTo (request : Xrpc.Header) (resBody bytes : List UInt8) : Prop :=
  ∀ reader : Reader, reader.flatten = bytes →
    ∃ response rest, Xrpc.readResponse reader = .ok (response, rest) ∧
      response.body = resBody ∧ response.header.bodyLen.toNat = resBody.length ∧
      response.header.id = request.id ∧ response.header.version = request.version ∧
      response.header.logId = request.logId ∧ response.header.provider = request.provider ∧
      response.header.magicNum = request.magicNum ∧
      response.header.reserved = request.reserved ∧ rest.flatten = []

/-- **What is queued is read back.** -/
theorem repliesTo_frame {h : Xrpc.Header} {resBody : List UInt8}
    (hmagic : h.magicNum = XHEAD_MAGIC_NUM) (hlen : resBody.length ≤ MAX_RES_BUF) :
    RepliesTo h resBody ((replyHeader h resBody.length).bytes ++ resBody) := by
  have hbound : MAX_RES_BUF < 2 ^ 32 := by decide
  have hbodyLen : (replyHeader h resBody.length).bodyLen.toNat = resBody.length :=
    UInt32.toNat_ofNat_of_lt' (lt_of_le_of_lt hlen hbound)
  have hmagic' : (replyHeader h resBody.length).magicNum = Xrpc.HEADER_MAGICNUM := hmagic
  intro reader hreader
  obtain ⟨rest, hread, hrest⟩ := @Xrpc.readResponse_bytes _ resBody [] reader hmagic' hbodyLen
    (by rw [hreader, List.append_nil])
  exact ⟨_, rest, hread, rfl, hbodyLen, rfl, rfl, rfl, rfl, rfl, rfl, hrest⟩

/-! ## The descriptor up to the reply -/

/-- A read of one descriptor leaves the others alone. -/
theorem SignalingWorker.readConn_others {w next : SignalingWorker} {fd other : ℤ} {fuel : ℕ}
    {e : ReadEvent} {made : List RequestCall} (hw : w.Consistent)
    (hread : w.readConn fuel fd e = .ok (next, made)) (hne : other ≠ fd) :
    next.lookup other = w.lookup other := by
  cases hlookup : w.lookup fd with
  | none =>
      rw [readConn_of_lookup_none hw hlookup] at hread
      cases hread
      rfl
  | some c =>
      obtain ⟨hkept, hclosed⟩ := readConn_spec fuel e hw hlookup
      cases houtcome : c.readConn e.ret fuel e.now e.result with
      | kept last calls =>
          obtain ⟨w', hw', -, -, hothers⟩ := hkept last calls houtcome
          rw [hw'] at hread
          cases hread
          exact hothers other hne
      | closed calls =>
          obtain ⟨w', hw', -, -, hothers⟩ := hclosed calls houtcome
          rw [hw'] at hread
          cases hread
          exact hothers other hne
      | aborted | overrun | looping =>
          obtain ⟨addr, -, -, -, -, hafter⟩ := @readConn_of_lookup w fd c fuel e hw hlookup
          rw [hafter, houtcome, afterRead] at hread
          cases hread

namespace Reception

/-- On one descriptor the kernel answers within what was asked for. -/
def AnsweredOn (fd : ℤ) (s : Reception) (event : ℤ × ReadEvent) : Prop :=
  event.1 = fd → ∀ c, s.worker.lookup fd = some c → c.Answers event.2.result

instance (c : TcpConnection) : DecidablePred c.Answers
  | .data _ => inferInstanceAs (Decidable (_ ∧ _))
  | .wouldBlock | .endOfFile | .failed => inferInstanceAs (Decidable True)

instance (fd : ℤ) (s : Reception) (event : ℤ × ReadEvent) : Decidable (s.AnsweredOn fd event) :=
  haveI : Decidable (∀ c ∈ s.worker.lookup fd, c.Answers event.2.result) := inferInstance
  inferInstanceAs (Decidable (event.1 = fd → ∀ c ∈ s.worker.lookup fd, c.Answers event.2.result))

/-- As long as the descriptor is open, its connection holds what was received. -/
structure Holds (fd : ℤ) (received : List UInt8) (s : Reception) : Prop where
  consistent : s.worker.Consistent
  follows : ∀ c, s.worker.lookup fd = some c → Follows received (some c) (s.callsOn fd)

variable {fd : ℤ} {stream received : List UInt8} {s next last : Reception}
  {event : ℤ × ReadEvent} {events : List (ℤ × ReadEvent)} {fuel : ℕ}

/-- A stream with a right header and few enough bytes behind the body. -/
theorem benign_of_header {h : Xrpc.Header} {body extra : List UInt8}
    (hlen : h.bodyLen.toNat = body.length) (hbody : body.length < 2 ^ 30)
    (hextra : extra.length < 65499) : Benign (h.bytes ++ (body ++ extra)) := by
  have hheader : h.bytes.length = XHEAD_SIZE := h.length_bytes
  have hsize : XHEAD_SIZE = 36 := rfl
  have hsentinel : PROCESSED_SENTINEL = 65535 := rfl
  intro received hpart
  have hle := hpart.length_le
  rw [List.length_append, List.length_append, hheader] at hle
  have hhead (hlong : XHEAD_SIZE ≤ received.length) : XHead.ofBuffer received = h.toXHead := by
    obtain ⟨rest, hrest⟩ := hpart
    rw [← @XHead.ofBuffer_append received rest hlong, hrest,
      XHead.ofBuffer_append hheader.ge, Xrpc.ofBuffer_bytes]
  have hbodyLen : h.toXHead.bodyLen.toNat = body.length := hlen
  refine ⟨?_, ?_⟩
  · intro hlong _
    rw [hhead hlong, hbodyLen]
    omega
  · intro hlong _
    rw [hhead hlong, hbodyLen]
    omega

/-- **One read on the descriptor.** -/
theorem Holds.read_self {e : ReadEvent} (hbenign : Benign stream) (hs : s.Holds fd received)
    (hpart : received ++ e.result.bytes <+: stream) (hanswered : s.AnsweredOn fd (fd, e))
    (hstep : s.step (fuel + LOOP_BOUND) (fd, e) = some next) :
    next.Holds fd (received ++ e.result.bytes) := by
  cases hlookup : s.worker.lookup fd with
  | none =>
      rw [Reception.step, SignalingWorker.readConn_of_lookup_none hs.consistent hlookup] at hstep
      cases hstep
      refine ⟨hs.consistent, ?_⟩
      intro c hc
      rw [hlookup] at hc
      cases hc
  | some c =>
      obtain ⟨hwaiting, htally, hbuf⟩ := hs.follows c hlookup
      have hanswers := hanswered rfl c hlookup
      have hsmall := bytesExpected_lt hbenign ((List.prefix_append _ _).trans hpart) hwaiting hbuf
      have htame := hwaiting.tame_of_lt hsmall hanswers (by rw [hbuf]; exact (hbenign _ hpart).1)
      obtain ⟨outcome, hread, hserved⟩ := hwaiting.served_of_tame e.ret e.now htally hanswers htame
      obtain ⟨hkept, hclosed⟩ :=
        SignalingWorker.readConn_spec (fuel + LOOP_BOUND) e hs.consistent hlookup
      cases hserved with
      | @kept last made waiting tally buf_eq _ =>
          obtain ⟨w, hw, hconsistent, hself, -⟩ := hkept last made (hread fuel)
          rw [Reception.step, hw] at hstep
          cases hstep
          refine ⟨hconsistent, ?_⟩
          intro c' hc'
          rw [hself] at hc'
          cases hc'
          rw [callsOn_self s fd w made]
          exact ⟨waiting, tally, by rw [buf_eq, hbuf]⟩
      | @closed made _ _ =>
          obtain ⟨w, hw, hconsistent, hself, -⟩ := hclosed made (hread fuel)
          rw [Reception.step, hw] at hstep
          cases hstep
          refine ⟨hconsistent, ?_⟩
          intro c' hc'
          rw [hself] at hc'
          cases hc'
      | aborted refused => exact absurd refused.1 (not_le.mpr hsmall)

/-- A read on another descriptor. -/
theorem Holds.read_other {other : ℤ} {e : ReadEvent} (hs : s.Holds fd received)
    (hne : fd ≠ other) (hstep : s.step fuel (other, e) = some next) : next.Holds fd received := by
  rw [Reception.step] at hstep
  split at hstep
  · rename_i w made hread
    cases hstep
    refine ⟨(SignalingWorker.readConn_keeps hs.consistent hread).1, ?_⟩
    intro c hc
    rw [SignalingWorker.readConn_others hs.consistent hread hne] at hc
    rw [callsOn_of_ne s hne w made]
    exact hs.follows c hc
  · cases hstep

/-- **A whole run** of reads, on this and on other descriptors. -/
theorem Holds.run (hbenign : Benign stream) (hs : s.Holds fd received)
    (hpart : received ++ receivedOn fd events <+: stream)
    (hanswered : RunMeets (step (fuel + LOOP_BOUND)) (AnsweredOn fd) s events)
    (hrun : Machine.run (step (fuel + LOOP_BOUND)) s events = some last) :
    last.Holds fd (received ++ receivedOn fd events) := by
  induction events generalizing s received with
  | nil =>
      cases hrun
      simpa [receivedOn] using hs
  | cons event events ih =>
      obtain ⟨next, hstep, hrest⟩ := run_cons_eq_some.mp hrun
      obtain ⟨n, e⟩ := event
      rw [receivedOn_cons, ← List.append_assoc] at hpart ⊢
      refine ih ?_ hpart (hanswered.2 next hstep) hrest
      by_cases hself : n = fd
      · subst hself
        rw [receivedOn_self] at hpart ⊢
        exact hs.read_self hbenign ((List.prefix_append _ _).trans hpart) hanswered.1 hstep
      · rw [receivedOn_of_ne (Ne.symm hself), List.append_nil]
        exact hs.read_other (Ne.symm hself) hstep

/-- The requests of a whole frame with bytes behind it. -/
theorem requests_frame {h : Xrpc.Header} {body : List UInt8} (extra : List UInt8)
    (hmagic : h.magicNum = XHEAD_MAGIC_NUM) (hlen : h.bodyLen.toNat = body.length) :
    requests (h.bytes ++ (body ++ extra)) = [⟨h.bytes, body⟩] := by
  have hheader : h.bytes.length = XHEAD_SIZE := h.length_bytes
  have hhead : XHead.ofBuffer (h.bytes ++ (body ++ extra)) = h.toXHead := by
    rw [XHead.ofBuffer_append hheader.ge, Xrpc.ofBuffer_bytes]
  have hbodyLen : h.toXHead.bodyLen.toNat = body.length := hlen
  have hcomplete : Complete (h.bytes ++ (body ++ extra)) := by
    refine ⟨?_, ?_⟩
    · rw [hhead, hbodyLen, List.length_append, List.length_append, hheader]
      omega
    · rw [hhead]
      exact hmagic
  rw [requests, if_pos hcomplete, frameCall, hhead, hbodyLen, ← hheader, List.take_left,
    fieldAt_append_right rfl, List.take_left]

/-- **A reply answers its request.** A request frame with a body below `2 ^ 30`
bytes comes in on a new connection, with fewer than 65499 bytes behind it, in
whatever reads and between whatever reads of other descriptors. As long as its
connection is in the table, the request has been made once, and a reply body
that fits is queued on the connection in a message that the client reads back as
that body under the header of the request. -/
theorem reply_repliesTo (writeString : ResRoot → List UInt8) (fuel : ℕ) (w : SignalingWorker)
    (fd : ℤ) (now : ℕ) (h : Xrpc.Header) (body extra : List UInt8)
    (events : List (ℤ × ReadEvent)) (last : Reception) (addr : Addr) (msg : RtcMsg)
    (hw : w.Consistent) (hfd : 0 < fd) (hfresh : w.lookup fd = some (SignalingWorker.fresh fd now))
    (hmagic : h.magicNum = XHEAD_MAGIC_NUM) (hlen : h.bodyLen.toNat = body.length)
    (hbody : body.length < 2 ^ 30) (hextra : extra.length < 65499)
    (hreceived : receivedOn fd events = h.bytes ++ (body ++ extra))
    (hanswered : RunMeets (step (fuel + LOOP_BOUND)) (AnsweredOn fd) { worker := w } events)
    (hrun : run (step (fuel + LOOP_BOUND)) { worker := w } events = some last)
    (hentry : last.worker.connAt fd = some addr) (hconn : msg.conn = some addr)
    (hmsg : msg.fd = fd)
    (hres : (writeString (SignalingWorker.resRoot msg)).length ≤ MAX_RES_BUF) :
    last.callsOn fd = [⟨h.bytes, body⟩] ∧
      ∃ c resMsg next, last.worker.heap addr = some c ∧
        last.worker.responseServerOffer writeString msg = .ok (next, some addr) ∧
        next.heap addr = some (SignalingWorker.addReply c resMsg) ∧
        RepliesTo h (writeString (SignalingWorker.resRoot msg)) resMsg.bytes := by
  have hstart : Holds fd [] { worker := w } := by
    refine ⟨hw, ?_⟩
    intro c hc
    rw [hfresh] at hc
    cases hc
    exact follows_fresh fd now
  have hwhole : [] ++ receivedOn fd events = h.bytes ++ (body ++ extra) := by
    rw [List.nil_append, hreceived]
  have hlast := hstart.run (benign_of_header hlen hbody hextra) (hwhole ▸ List.prefix_rfl)
    hanswered hrun
  rw [hwhole] at hlast
  obtain ⟨c, hc, hcfd⟩ := hlast.consistent.entry fd hfd.le addr hentry
  have hfollows := hlast.follows c
    ((SignalingWorker.lookup_eq_some_iff hlast.consistent).mpr ⟨hfd.le, hcfd, addr, hentry, hc⟩)
  refine ⟨hfollows.calls_eq.trans (requests_frame extra hmagic hlen), ?_⟩
  obtain ⟨resMsg, hframe, hbytes⟩ := replyFrame_of_header hfollows.2.2 hres
  refine ⟨c, resMsg, last.worker.store addr (SignalingWorker.addReply c resMsg), hc, ?_,
    Function.update_self _ _ _, ?_⟩
  · have hindex := SignalingWorker.connAt_lt hentry
    have hsize := hlast.consistent.size_lt
    have htoSize := toSize_of_nonneg hfd.le (by omega)
    rw [SignalingWorker.responseServerOffer, hconn]
    simp only [hmsg]
    rw [if_neg (by rw [htoSize]; omega), if_neg (not_not.mpr hentry), SignalingWorker.deref, hc]
    simp only [Option.elim_some, bind, Except.bind, hframe]
  · rw [hbytes]
    exact repliesTo_frame hmagic hres

/-- A worker with one new connection, at address 100 under the number 5. -/
def oneConn : SignalingWorker where
  conns := (List.replicate 10 none).set 5 (some 100)
  heap := Function.update (fun _ => none) 100 (some (SignalingWorker.fresh 5 0))

/-- A request with a body of two bytes, which come one by one, and a byte behind it. -/
def chatty : List (ℤ × ReadEvent) :=
  [(5, { result := .data (Xrpc.requestHeader 9 2).bytes }), (5, { result := .data [123] }),
    (5, { result := .wouldBlock }), (5, { result := .data [125] }), (5, { result := .data [0] })]

/-- The answer to the push request behind these bytes. -/
def chattyAnswer : RtcMsg :=
  { SignalingWorker.processPush 0 100 5 ⟨1, [97], 1, 1⟩ 9 with sdp := [118] }

theorem reply_repliesTo_chatty :
    ∃ last c resMsg next,
      run (step (0 + LOOP_BOUND)) { worker := oneConn } chatty = some last ∧
      last.callsOn 5 = [⟨(Xrpc.requestHeader 9 2).bytes, [123, 125]⟩] ∧
      last.worker.heap 100 = some c ∧
      last.worker.responseServerOffer (fun _ => [91, 93]) chattyAnswer =
        .ok (next, some 100) ∧
      next.heap 100 = some (SignalingWorker.addReply c resMsg) ∧
      RepliesTo (Xrpc.requestHeader 9 2) [91, 93] resMsg.bytes := by
  obtain ⟨w, hnew, hw, -, -, hlookup, -⟩ := SignalingWorker.newConn_spec
    (SignalingWorker.consistent_empty 0) (by decide : (1 : ℤ) ≤ 5) (by decide)
    (rfl : ({} : SignalingWorker).heap 100 = none) 0
  have hone : ({} : SignalingWorker).newConn 5 true true 100 0 = .ok oneConn := rfl
  cases hone.symm.trans hnew
  have hentry : (run (step (0 + LOOP_BOUND)) { worker := oneConn } chatty).map
      (fun last => last.worker.connAt 5) = some (some 100) := by decide +kernel
  obtain ⟨last, hrun, hlast⟩ := Option.map_eq_some_iff.mp hentry
  obtain ⟨hcalls, c, resMsg, next, hc, hqueued, hnext, hreplies⟩ :=
    reply_repliesTo (fun _ => [91, 93]) 0 oneConn 5 0 (Xrpc.requestHeader 9 2) [123, 125] [0] chatty
      last 100 chattyAnswer hw (by decide) hlookup (by decide) (by decide)
      (by decide) (by decide) (by decide) (by decide +kernel) hrun hlast rfl rfl (by decide)
  exact ⟨last, c, resMsg, next, hrun, hcalls, hc, hqueued, hnext, hreplies⟩

end Reception

end Xrtc.Server

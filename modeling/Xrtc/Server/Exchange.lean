/-
# One push, from the form to the offer

The browser sends a form to the HTTP server. `pushAction` makes a request of it, which
travels as JSON in a frame to a signaling worker, as a message through the RTC server to
an RTC worker, and back as a JSON reply in a frame; the offer in it goes to the browser
in a JSON document. The other modules are about one leg each. Here the legs are put
together: for every form that is accepted, the document that the browser gets holds
the very offer that the RTC worker has made for the stream of that name.

The network is an argument: it takes the bytes of a request and hands over the reply in
some pieces, or fails. So are the two sides of the JSON library of the server, with
what it promises about texts of the grammar, and the certificates and credentials.
-/

import Mathlib.Data.Bool.AllAny
import Xrtc.Action.Marshal
import Xrtc.Server.Answering
import Xrtc.Server.ReplySize
import Xrtc.Server.Requests

namespace Xrtc.Action

open Xrtc.Machine Xrtc.Xrpc

/-- What a connection to the backend makes of the bytes that are sent: an error of the
selector, the dialer or the writer, or the pieces in which an answer comes. -/
abbrev Network := List UInt8 → Except GoString Reader

/-- `Client.Do`. -/
def clientDo (net : Network) (req : Request) : Except GoString Response := do
  let bytes ← req.write.mapError constant
  let reader ← net bytes
  let (resp, _) ← (readResponse reader).mapError constant
  return resp

/-- `framework.Call` for the service of this client, or without one. -/
def call (syntaxError : Text → GoString) (client : Option Network) (logId : UInt32) : Backend :=
  fun req =>
    match client with
    | none => (some (constant "no xrpc client found"), {})
    | some net =>
        match clientDo net (newRequest (some (marshalPushReq req)) logId) with
        | .error err => (some err, {})
        | .ok resp => unmarshalPushResp syntaxError resp.body

end Xrtc.Action

namespace Xrtc.Base

open Xrtc.Machine Xrtc.Machine.Json

/-- A member of an object as the library holds it. -/
def JsonCpp.Holds (lib : JsonCpp) (value : lib.Value) : Json → Prop
  | .number literal => ∀ n, readInt literal = some n →
      (-2 ^ 31 ≤ n ∧ n < 2 ^ 31 → lib.intValue value = some n) ∧
        (0 ≤ n ∧ n < 2 ^ 64 → lib.uint64Value value = some n.toNat)
  | .string s => lib.stringValue value = some s
  | .null | .bool _ | .array _ | .object _ => True

/-- The library reads JSON: an object whose keys are different is parsed, and its
members are found under their keys. -/
def JsonCpp.ReadsJson (lib : JsonCpp) : Prop :=
  ∀ text members, Denotes 1 text (.object members) → (members.map Prod.fst).Nodup →
    ∃ root, lib.parse text = some root ∧
      ∀ (key : String) (v : Json), (∀ c ∈ key.toList, c.toNat < 128) → (ascii key, v) ∈ members →
        ∃ value, lib.find root key = some value ∧ lib.Holds value v

end Xrtc.Base

namespace Xrtc.Server

open Xrtc.Machine Xrtc.Machine.Json Xrtc.Machine.Utf8 Xrtc.Base Xrtc.Pc Xrtc.Stream
open Xrtc.Action (XrtcPushReq marshalPushReq)
open TcpConnection (LOOP_BOUND)

/-- What the server side of an exchange depends on. -/
structure ServerSide where
  lib : JsonCpp
  writeString : ResRoot → List UInt8
  /-- The certificates by address, and the one that the RTC server hands out. -/
  certificates : Addr → Certificate
  certificate : Addr
  /-- The credentials that are drawn for the offer. -/
  params : IceParameters
  /-- The streams of the RTC worker, and the address for the new one. -/
  streams : RtcStreamManager
  streamAddr : Addr

namespace ServerSide

/-- The offer for a message. -/
def offer (side : ServerSide) (msg : RtcMsg) : List UInt8 :=
  PushStream.createOffer side.certificates side.params (RtcWorker.pushCall msg side.streamAddr).stream

/-- The message of a request: through the RTC server, which gives it a certificate, to
the RTC worker and back. -/
def rtcReply (side : ServerSide) (msg : RtcMsg) : Option RtcMsg :=
  (RtcWorker.processPush (PushStream.createOffer side.certificates side.params) side.streams
    { msg with certificate := some side.certificate } side.streamAddr).2

/-- The bytes that are queued on the connection under `fd` for the requests that came
in on it. -/
def answer (side : ServerSide) (s : Reception) (origin : SignalingWorker.RequestOrigin) :
    Option (List UInt8) :=
  match s.callsOn origin.fd with
  | [call] =>
      match SignalingWorker.processRequest side.lib (fun _ => true) origin call with
      | ⟨some 0, [msg]⟩ =>
          (side.rtcReply msg).bind fun reply =>
            match s.worker.responseServerOffer side.writeString reply with
            | .ok (next, some addr) =>
                (next.heap addr).bind fun c => c.replyMsgs.getLast?.map ReplyMsg.bytes
            | _ => none
      | _ => none
  | _ => none

end ServerSide

/-- The request that the message of a push carries. -/
def pushRequest (req : XrtcPushReq) : SignalingWorker.PushRequest where
  uid := req.uid
  streamName := toValid req.streamName
  audio := req.audio
  video := req.video

variable {lib : JsonCpp} {req : XrtcPushReq}

/-- **The request arrives**: what the HTTP server writes for a push is read as that
push, with every byte of the name that begins no character replaced. -/
theorem isPush_marshalPushReq (hreads : lib.ReadsJson) (hcmdno : req.cmdno = CMDNO_PUSH)
    (huid : req.uid < 2 ^ 64) (haudio : -2 ^ 31 ≤ req.audio ∧ req.audio < 2 ^ 31)
    (hvideo : -2 ^ 31 ≤ req.video ∧ req.video < 2 ^ 31) :
    SignalingWorker.IsPush lib (marshalPushReq req) (pushRequest req) := by
  have hkeys : (req.members.map Prod.fst).Nodup := by
    change [ascii "cmdno", ascii "uid", ascii "stream_name", ascii "audio", ascii "video"].Nodup
    decide
  obtain ⟨root, hparse, hmembers⟩ := hreads _ _ (Action.denotes_marshalPushReq 0 req) hkeys
  have hint (key : String) (n : ℤ) (hkey : ∀ c ∈ key.toList, c.toNat < 128)
      (hmem : (ascii key, Json.number (decimal n)) ∈ req.members)
      (hn : -2 ^ 31 ≤ n ∧ n < 2 ^ 31) : (lib.find root key).bind lib.intValue = some n := by
    obtain ⟨value, hfind, hholds⟩ := hmembers key _ hkey hmem
    rw [hfind, Option.bind_some]
    exact (hholds n (readInt_decimal n)).1 hn
  obtain ⟨uid, hfindUid, hholdsUid⟩ := hmembers "uid" (.number (decimal req.uid))
    (List.all_iff_forall_prop.mp (by decide))
    (by simp [XrtcPushReq.members])
  obtain ⟨name, hfindName, hholdsName⟩ :=
    hmembers "stream_name" (.string (toValid req.streamName))
      (List.all_iff_forall_prop.mp (by decide))
      (by simp [XrtcPushReq.members])
  refine ⟨root, hparse, ?_, ?_, ?_, ?_, ?_⟩
  · exact hint "cmdno" CMDNO_PUSH (List.all_iff_forall_prop.mp (by decide))
      (by simp [XrtcPushReq.members, hcmdno]) (by decide)
  · rw [hfindUid, Option.bind_some]
    exact (hholdsUid req.uid (readInt_decimal _)).2 (by omega)
  · rw [hfindName, Option.bind_some]
    exact hholdsName
  · exact hint "audio" req.audio (List.all_iff_forall_prop.mp (by decide))
      (by simp [XrtcPushReq.members]) haudio
  · exact hint "video" req.video (List.all_iff_forall_prop.mp (by decide))
      (by simp [XrtcPushReq.members]) hvideo

/-! ## The reply as JSON -/

theorem stringText_escaped {text : Text} (hplain : ∀ c ∈ text, isPlain c = true) :
    StringText (text.flatMap escaped) text := by
  induction text with
  | nil => exact .nil
  | cons c text ih =>
      obtain ⟨hc, htext⟩ := List.forall_mem_cons.mp hplain
      have hrest := ih htext
      rw [List.flatMap_cons, escaped]
      split
      next heq => exact heq ▸ .escape rfl hrest
      split
      next heq => exact heq ▸ .escape rfl hrest
      split
      next heq => exact heq ▸ .escape rfl hrest
      split
      next heq => exact heq ▸ .escape rfl hrest
      next hreturn hfeed hquote hbackslash =>
        have hrange : 32 ≤ c ∧ c ≤ 126 := by simpa [isPlain, hreturn, hfeed] using hc
        refine .visible (UInt8.lt_of_le_of_lt hrange.2 (by decide)) ?_ hrest
        simp [isVisible, hrange.1, hquote, hbackslash]

theorem compact_eq (root : ResRoot) :
    root.compact =
      compactObject
        [(ascii "err_msg", quoted (ascii root.errMsg)), (ascii "err_no", decimal root.errNo),
          (ascii "offer", quoted root.offer)] := by
  simp only [ResRoot.compact, compactObject, List.map_cons, List.map_nil,
    List.intercalate_cons_cons, List.intercalate_singleton, List.append_assoc]
  rfl

/-- **The reply is JSON** for the number, the message and the offer in it. -/
theorem denotes_compact (depth : ℕ) {root : ResRoot}
    (herrMsg : ∀ c ∈ ascii root.errMsg, isPlain c = true)
    (hoffer : ∀ c ∈ root.offer, isPlain c = true) :
    Denotes (depth + 1) root.compact
      (.object [(ascii "err_msg", .string (ascii root.errMsg)),
        (ascii "err_no", .number (decimal root.errNo)), (ascii "offer", .string root.offer)]) := by
  rw [compact_eq]
  exact denotes_compactObject
    (.cons (member_of_denotes "err_msg" (by decide) (denotes_string (stringText_escaped herrMsg)))
    (.cons (member_of_denotes "err_no" (by decide) (denotes_decimal depth _))
    (.cons (member_of_denotes "offer" (by decide) (denotes_string (stringText_escaped hoffer)))
      .nil)))

/-! ## The exchange -/

/-- What is promised about the server side: its JSON library reads and writes JSON, the
credentials are as they are drawn, and the fingerprints of certificates are short. -/
structure ServerSide.Sound (side : ServerSide) : Prop where
  documented : side.lib.Documented
  reads : side.lib.ReadsJson
  writes : WritesCompact side.writeString
  params : side.params.Drawn
  certificates : ∀ addr mid fp, side.certificates addr mid = some fp → fp.Bounded

/-- These bytes have come in on a new connection, in whatever reads and between whatever
reads of other connections, and the connection is still there. -/
structure Arrival (fuel : ℕ) (origin : SignalingWorker.RequestOrigin) (bytes : List UInt8)
    (w : SignalingWorker) (events : List (ℤ × ReadEvent)) (last : Reception) : Prop where
  consistent : w.Consistent
  positive : 0 < origin.fd
  fresh : ∃ now, w.lookup origin.fd = some (SignalingWorker.fresh origin.fd now)
  received : Reception.receivedOn origin.fd events = bytes
  answered : RunMeets (Reception.step (fuel + LOOP_BOUND)) (Reception.AnsweredOn origin.fd)
    { worker := w } events
  ran : run (Reception.step (fuel + LOOP_BOUND)) { worker := w } events = some last
  entry : last.worker.connAt origin.fd = some origin.addr

/-- The connection holds what was received, and the request behind it was made once. -/
theorem Arrival.holds {fuel : ℕ} {origin : SignalingWorker.RequestOrigin} {body : List UInt8}
    {logId : UInt32} {w : SignalingWorker} {events : List (ℤ × ReadEvent)} {last : Reception}
    (harrival : Arrival fuel origin (Xrpc.requestFrame logId body) w events last)
    (hbody : body.length < 2 ^ 30) :
    last.callsOn origin.fd = [⟨(Xrpc.requestHeader logId body.length).bytes, body⟩] ∧
      last.worker.Consistent ∧
      ∃ c, last.worker.heap origin.addr = some c ∧
        c.querybuf.buf = (Xrpc.requestHeader logId body.length).bytes ++ body := by
  have hlen : (Xrpc.requestHeader logId body.length).bodyLen.toNat = body.length :=
    Xrpc.toNat_bodyLen_requestHeader logId (by omega)
  obtain ⟨now, hfresh⟩ := harrival.fresh
  have hstart : Reception.Holds origin.fd [] { worker := w } := by
    refine ⟨harrival.consistent, ?_⟩
    intro c hc
    rw [hfresh] at hc
    cases hc
    exact Reception.follows_fresh origin.fd now
  have hwhole : [] ++ Reception.receivedOn origin.fd events =
      (Xrpc.requestHeader logId body.length).bytes ++ (body ++ []) := by
    rw [List.nil_append, harrival.received, List.append_nil, Xrpc.requestFrame]
  have hlast := hstart.run
    (@Reception.benign_of_header _ _ [] hlen hbody (by decide))
    (hwhole ▸ List.prefix_rfl) harrival.answered harrival.ran
  rw [hwhole] at hlast
  have hfd := harrival.positive
  obtain ⟨c, hc, hcfd⟩ := hlast.consistent.entry origin.fd hfd.le origin.addr harrival.entry
  have hfollows := hlast.follows c
    ((SignalingWorker.lookup_eq_some_iff hlast.consistent).mpr
      ⟨hfd.le, hcfd, origin.addr, harrival.entry, hc⟩)
  refine ⟨hfollows.calls_eq.trans (Reception.requests_frame [] rfl hlen), hlast.consistent, c, hc, ?_⟩
  rw [hfollows.2.2, List.append_nil]

/-- The request that a form asks for, with this user. -/
def formRequest (form : Action.Form) (uid : ℕ) : XrtcPushReq where
  cmdno := Action.CMDNO_PUSH
  uid := uid
  streamName := (form "streamName").getD []
  audio := Action.mediaFlag ((form "audio").getD [])
  video := Action.mediaFlag ((form "video").getD [])

/-- The message that the signaling worker makes of it. -/
def requestMsg (side : ServerSide) (origin : SignalingWorker.RequestOrigin) (logId : UInt32)
    (req : XrtcPushReq) : RtcMsg :=
  { SignalingWorker.processPush origin.worker origin.addr origin.fd (pushRequest req) logId with
    certificate := some side.certificate }

/-- The body of the reply. -/
def ServerSide.replyBody (side : ServerSide) (msg : RtcMsg) : List UInt8 :=
  side.writeString { errNo := 0, errMsg := "process sdp success", offer := side.offer msg }

variable {side : ServerSide} {origin : SignalingWorker.RequestOrigin} {logId : UInt32}

theorem ServerSide.Sound.fits_offer (hside : side.Sound) (msg : RtcMsg) :
    Fits 1295 (side.offer msg) :=
  PushStream.fits_createOffer hside.params hside.certificates _

/-- The reply is short, and its JSON holds the offer. -/
theorem ServerSide.Sound.replyBody_spec (hside : side.Sound) (msg : RtcMsg) :
    (side.replyBody msg).length ≤ MAX_RES_BUF ∧
      Denotes Action.maxNestingDepth (side.replyBody msg)
        (.object [(ascii "err_msg", .string (ascii "process sdp success")),
          (ascii "err_no", .number (decimal 0)), (ascii "offer", .string (side.offer msg))]) := by
  have hfits := hside.fits_offer msg
  have hprintable : ∀ c ∈ "process sdp success".toList, 32 ≤ c.toNat ∧ c.toNat ≤ 126 :=
    List.all_iff_forall_prop.mp (by decide)
  have hplain : ∀ c ∈ ascii "process sdp success", isPlain c = true :=
    List.all_eq_true.mp (by decide)
  have hwritten : side.replyBody msg = _ := hside.writes _ hprintable hfits.plain
  rw [hwritten]
  have hlength : "process sdp success".toList.length ≤ 19 := by decide
  exact ⟨length_compact_le hlength (show (0 : ℤ).natAbs < 10 ^ 10 by decide) hfits.length_le,
    denotes_compact 9999 hplain hfits.plain⟩

/-- A reply is queued on the connection that its message names. -/
theorem responseServerOffer_of_entry {writeString : ResRoot → List UInt8} {w : SignalingWorker}
    {msg : RtcMsg} {addr : Addr} {c : TcpConnection} {resMsg : ReplyMsg} (hw : w.Consistent)
    (hfd : 0 < msg.fd) (hentry : w.connAt msg.fd = some addr) (hconn : msg.conn = some addr)
    (hc : w.heap addr = some c)
    (hframe : SignalingWorker.replyFrame c (writeString (SignalingWorker.resRoot msg)) = .ok resMsg) :
    w.responseServerOffer writeString msg =
      .ok (w.store addr (SignalingWorker.addReply c resMsg), some addr) := by
  have hindex := SignalingWorker.connAt_lt hentry
  have hsize := hw.size_lt
  have htoSize := toSize_of_nonneg hfd.le (by omega)
  rw [SignalingWorker.responseServerOffer, hconn]
  simp only
  rw [if_neg (by rw [htoSize]; omega), if_neg (not_not.mpr hentry), SignalingWorker.deref, hc]
  simp only [Option.elim_some, bind, Except.bind, hframe]

/-- **The server answers** a request that has arrived. -/
theorem Arrival.answer {fuel : ℕ} {w : SignalingWorker} {events : List (ℤ × ReadEvent)}
    {last : Reception} (hside : side.Sound)
    (harrival : Arrival fuel origin (Xrpc.requestFrame logId (marshalPushReq req)) w events last)
    (hbody : (marshalPushReq req).length < 2 ^ 30) (hcmdno : req.cmdno = CMDNO_PUSH)
    (huid : req.uid < 2 ^ 64) (haudio : -2 ^ 31 ≤ req.audio ∧ req.audio < 2 ^ 31)
    (hvideo : -2 ^ 31 ≤ req.video ∧ req.video < 2 ^ 31) :
    side.answer last origin =
      some ((replyHeader (Xrpc.requestHeader logId (marshalPushReq req).length)
        (side.replyBody (requestMsg side origin logId req)).length).bytes ++
          side.replyBody (requestMsg side origin logId req)) := by
  obtain ⟨hcalls, hconsistent, c, hc, hbuf⟩ := harrival.holds hbody
  have hpush := isPush_marshalPushReq hside.reads hcmdno huid haudio hvideo
  have hprocess := @SignalingWorker.processRequest_of_isPush side.lib (fun _ => true) origin
    ⟨(Xrpc.requestHeader logId (marshalPushReq req).length).bytes, marshalPushReq req⟩ _
    hside.documented hpush
  rw [if_pos rfl, SignalingWorker.pushMsg, Xrpc.ofBuffer_bytes] at hprocess
  obtain ⟨hshort, -⟩ := hside.replyBody_spec (requestMsg side origin logId req)
  obtain ⟨resMsg, hframe, hbytes⟩ := replyFrame_of_header hbuf hshort
  let reply : RtcMsg :=
    { requestMsg side origin logId req with
      sdp := side.offer (requestMsg side origin logId req) }
  have hreply : side.rtcReply (SignalingWorker.processPush origin.worker origin.addr origin.fd
      (pushRequest req) logId) = some reply := rfl
  have hqueued : last.worker.responseServerOffer side.writeString reply =
      .ok (last.worker.store origin.addr (SignalingWorker.addReply c resMsg), some origin.addr) :=
    responseServerOffer_of_entry hconsistent harrival.positive harrival.entry rfl hc hframe
  have hheap : (last.worker.store origin.addr (SignalingWorker.addReply c resMsg)).heap origin.addr =
      some (SignalingWorker.addReply c resMsg) := Function.update_self _ _ _
  have hqueue : (SignalingWorker.addReply c resMsg).replyMsgs.getLast? = some resMsg := by
    rw [SignalingWorker.addReply, List.getLast?_append, List.getLast?_singleton, Option.some_or]
  have hlogId : (Xrpc.requestHeader logId (marshalPushReq req).length).toXHead.logId = logId := rfl
  rw [hlogId] at hprocess
  simp only [ServerSide.answer, hcalls, hprocess, hreply, Option.bind_some, hqueued, hheap, hqueue,
    Option.map_some, hbytes]

/-- The form names a user by this number, and a stream. -/
structure Accepts (form : Action.Form) (uid : ℕ) : Prop where
  user : ∃ s, form "uid" = some s ∧ IsDecimal s uid
  range : 1 ≤ uid ∧ uid ≤ 2 ^ 61 - 1
  streamName : (form "streamName").getD [] ≠ []

theorem Accepts.execute {form : Action.Form} {uid : ℕ} (hform : Accepts form uid)
    (quote : Action.GoString → Action.GoString) {backend : Action.Backend}
    {resp : Action.XrtcPushResp} (hbackend : backend (formRequest form uid) = (none, resp))
    (hresp : resp.errNo = 0) :
    Action.execute quote backend form =
      (.returned,
        { documents := [{ errNo := 0, errMsg := "success", data := some ⟨"offer", resp.offer⟩ }]
          calls := [formRequest form uid] }) := by
  obtain ⟨s, hs, hdecimal⟩ := hform.user
  have hparse : parseUint ((form "uid").getD []) 61 = (uid, none) := by
    rw [hs]
    exact (parseUint_eq_none_iff (by decide)).mpr ⟨hdecimal, hform.range.2⟩
  have hpos := hform.range.1
  have hvalid : ¬ ((none : Option NumError) ≠ none ∨ uid ≤ 0) := by
    simp only [ne_eq, not_true, false_or]
    omega
  simp only [Action.execute, hparse, if_neg hvalid, Action.afterUid, if_neg hform.streamName]
  rw [← formRequest, Action.callBackend, hbackend]
  simp only [hresp, ne_eq, not_true, if_false, List.nil_append]

end Xrtc.Server

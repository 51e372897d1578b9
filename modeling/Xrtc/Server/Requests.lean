/-
# What becomes of a request body

`_process_request` parses the body, reads its command number and, for a push
request, four fields. A field that cannot be converted is an exception, which is
caught; a field that is missing is null and converts to a default. Behind a
command number other than that of a push the function ends without returning a
value. The result says for which bodies the function does what its caller
relies on.
-/

import Xrtc.Base.JsonCpp
import Xrtc.Server.SignalingWorker

namespace Xrtc.Server.SignalingWorker

open Xrtc.Machine Xrtc.Base

/-- What a call returned, if it returned a value, and the messages it sent. -/
structure RequestOutcome where
  ret : Option ℤ
  sent : List RtcMsg := []
  deriving DecidableEq

/-- The connection on whose behalf a request is processed. -/
structure RequestOrigin where
  worker : ℕ
  addr : Addr
  fd : ℤ

/-- `root[key].asInt()`. -/
def readInt (lib : JsonCpp) (root : lib.Value) (key : String) : Except String ℤ :=
  lib.index root key >>= lib.asInt

/-- The `try` block of `_process_push`. -/
def pushFields (lib : JsonCpp) (root : lib.Value) : Except String PushRequest := do
  let uid ← lib.index root "uid" >>= lib.asUInt64
  let streamName ← lib.index root "stream_name" >>= lib.asString
  let audio ← readInt lib root "audio"
  let video ← readInt lib root "video"
  return { uid := uid, streamName := streamName, audio := audio, video := video }

/-- The message for the fields of a request. -/
def pushMsg (origin : RequestOrigin) (call : RequestCall) (request : PushRequest) : RtcMsg :=
  processPush origin.worker origin.addr origin.fd request (XHead.ofBuffer call.header).logId

/-- `_process_push`. `send` is whether `RtcServer::send_rtc_msg` succeeds; a send
that fails returns -1 and counts as none. -/
def processPushRoot (lib : JsonCpp) (send : RtcMsg → Bool) (origin : RequestOrigin)
    (call : RequestCall) (root : lib.Value) : RequestOutcome :=
  match pushFields lib root with
  | .error _ => { ret := some (-1) }
  | .ok request =>
      if send (pushMsg origin call request) then
        { ret := some 0, sent := [pushMsg origin call request] }
      else
        { ret := some (-1) }

/-- `_process_request`. -/
def processRequest (lib : JsonCpp) (send : RtcMsg → Bool) (origin : RequestOrigin)
    (call : RequestCall) : RequestOutcome :=
  match lib.parse call.body with
  | none => { ret := some (-1) }
  | some root =>
      match readInt lib root "cmdno" with
      | .error _ => { ret := some (-1) }
      | .ok cmdno =>
          if cmdno = CMDNO_PUSH then
            processPushRoot lib send origin call root
          else
            -- the end of the function, without a `return`
            { ret := none }

/-! ## When the outcome is the right one -/

/-- The body is an object with the command number of a push and with all four
fields, each of its kind. -/
def IsPush (lib : JsonCpp) (body : List UInt8) (request : PushRequest) : Prop :=
  ∃ root, lib.parse body = some root ∧
    (lib.find root "cmdno").bind lib.intValue = some CMDNO_PUSH ∧
    (lib.find root "uid").bind lib.uint64Value = some request.uid ∧
    (lib.find root "stream_name").bind lib.stringValue = some request.streamName ∧
    (lib.find root "audio").bind lib.intValue = some request.audio ∧
    (lib.find root "video").bind lib.intValue = some request.video

variable {lib : JsonCpp} {send : RtcMsg → Bool} {origin : RequestOrigin} {call : RequestCall}
  {root : lib.Value} {request : PushRequest} {key : String}

/-- A member of the right kind is read as what it holds. -/
theorem index_bind_of_held {α : Type} {held : lib.Value → Option α} {n : α}
    {convert : lib.Value → Except String α} (hlib : lib.Documented)
    (hconvert : ∀ {value n}, held value = some n → convert value = .ok n)
    (hheld : (lib.find root key).bind held = some n) :
    lib.index root key >>= convert = .ok n := by
  obtain ⟨member, hfind, hmember⟩ := Option.bind_eq_some_iff.mp hheld
  rw [hlib.index_of_find hfind]
  exact hconvert hmember

theorem readInt_of_held {n : ℤ} (hlib : lib.Documented)
    (hheld : (lib.find root key).bind lib.intValue = some n) : readInt lib root key = .ok n :=
  index_bind_of_held hlib hlib.asInt_of_intValue hheld

/-- A push request is read as such. -/
theorem IsPush.reads (hlib : lib.Documented) (hpush : IsPush lib call.body request) :
    ∃ root, lib.parse call.body = some root ∧ readInt lib root "cmdno" = .ok CMDNO_PUSH ∧
      pushFields lib root = .ok request := by
  obtain ⟨root, hparse, hcmdno, huid, hstreamName, haudio, hvideo⟩ := hpush
  refine ⟨root, hparse, readInt_of_held hlib hcmdno, ?_⟩
  rw [pushFields, index_bind_of_held hlib hlib.asUInt64_of_uint64Value huid,
    index_bind_of_held hlib hlib.asString_of_stringValue hstreamName, readInt_of_held hlib haudio,
    readInt_of_held hlib hvideo]
  rfl

theorem processRequest_of_read {cmdno : ℤ} (hparse : lib.parse call.body = some root)
    (hcmdno : readInt lib root "cmdno" = .ok cmdno) :
    processRequest lib send origin call =
      if cmdno = CMDNO_PUSH then processPushRoot lib send origin call root else { ret := none } := by
  rw [processRequest, hparse]
  simp only [hcmdno]

/-- A push request goes out, and the result is that of the send. -/
theorem processRequest_of_isPush (hlib : lib.Documented) (hpush : IsPush lib call.body request) :
    processRequest lib send origin call =
      if send (pushMsg origin call request) then
        { ret := some 0, sent := [pushMsg origin call request] }
      else
        { ret := some (-1) } := by
  obtain ⟨root, hparse, hcmdno, hfields⟩ := hpush.reads hlib
  rw [processRequest_of_read hparse hcmdno, if_pos rfl, processPushRoot]
  simp only [hfields]

end Xrtc.Server.SignalingWorker

/-
# Replies and the connections they belong to

A reply comes back to its worker long after the request was made. By then the
connection may be gone, and its address and its descriptor number may both have
been given to another one. The system here runs the callbacks of one worker
together with the messages that are on their way. Every connection object gets a
serial number when it is created; nothing in the program depends on it, and it
serves only to say to which object a message belongs and on which one its reply
was queued.
-/

import Xrtc.Server.ConnTable

namespace Xrtc.Server

open Xrtc.Machine Xrtc.Base

/-- A message on its way, with the serial number of the connection it is for. -/
structure Pending where
  msg : RtcMsg
  origin : ℕ
  deriving DecidableEq

/-- A reply that was queued: for which connection, and on which one. -/
structure Queued where
  origin : ℕ
  target : ℕ
  deriving DecidableEq

/-- One worker, the messages on their way, and the serial numbers. -/
structure Exchange where
  worker : SignalingWorker
  serial : Addr → ℕ := fun _ => 0
  born : ℕ := 0
  inFlight : List Pending := []
  queued : List Queued := []

/-- The callbacks of the worker. The kernel's answers, the allocator's choices,
the results of the requests and the order of the replies are free. -/
inductive Callback
  | newConn (fd : ℤ) (setup peer : Bool) (addr : Addr) (now : ℕ)
  | read (fd : ℤ) (e : ReadEvent) (sent : ℕ → Option SignalingWorker.PushRequest)
  | write (fd : ℤ) (now : ℕ) (results : List WriteResult)
  | timeout (addr : Addr) (now : ℕ)
  | reply (index : ℕ) (sdp : List UInt8)

namespace Exchange

def start (timeout : ℤ) : Exchange := { worker := { connectionTimeoutMs := timeout } }

/-- The messages that the requests of one read event send. `sent` says what each
of them was parsed to, if it was a push request. -/
def pushed (addr : Addr) (fd : ℤ) (sent : ℕ → Option SignalingWorker.PushRequest)
    (calls : List RequestCall) : List RtcMsg :=
  calls.zipIdx.filterMap fun call => (sent call.2).map fun root =>
    SignalingWorker.processPush 0 addr fd root (XHead.ofBuffer call.1.header).logId

/-- The messages of a read event on a descriptor, for the connection the table
has there. -/
def messages (s : Exchange) (fd : ℤ) (sent : ℕ → Option SignalingWorker.PushRequest)
    (calls : List RequestCall) : List Pending :=
  match s.worker.connAt fd with
  | none => []
  | some addr => (pushed addr fd sent calls).map fun msg => ⟨msg, s.serial addr⟩

/-- One callback. A descriptor that is still in the table is not handed out
again, nor is an address that is in use. -/
def step (writeString : ResRoot → List UInt8) (fuel : ℕ) (s : Exchange) :
    Callback → Option Exchange
  | .newConn fd setup peer addr now =>
      if (s.worker.heap addr).isSome ∨ (s.worker.connAt fd).isSome ∨ fd ≥ 2 ^ 31 then
        none
      else
        match s.worker.newConn fd setup peer addr now with
        | .error _ => none
        | .ok w =>
            some { s with
              worker := w
              serial := Function.update s.serial addr s.born
              born := s.born + 1 }
  | .read fd e sent =>
      match s.worker.readConn fuel fd e with
      | .error _ => none
      | .ok (w, calls) =>
          some { s with worker := w, inFlight := s.inFlight ++ s.messages fd sent calls }
  | .write fd now results =>
      match s.worker.writeConn fd now results with
      | .error _ => none
      | .ok (w, _) => some { s with worker := w }
  | .timeout addr now =>
      match s.worker.processTimeout addr now with
      | .error _ => none
      | .ok w => some { s with worker := w }
  | .reply index sdp =>
      match s.inFlight[index]? with
      | none => none
      | some pending =>
          match s.worker.responseServerOffer writeString { pending.msg with sdp := sdp } with
          | .error _ => none
          | .ok (w, target) =>
              some { s with
                worker := w
                inFlight := s.inFlight.eraseIdx index
                queued := s.queued ++
                  target.toList.map fun addr => ⟨pending.origin, s.serial addr⟩ }

/-- A new connection does not get both the address and the number that a message
on its way still names. -/
def NoReuse (s : Exchange) : Callback → Prop
  | .newConn fd setup peer addr _ =>
      setup = true → peer = true →
        ∀ pending ∈ s.inFlight, ¬ (pending.msg.conn = some addr ∧ pending.msg.fd = fd)
  | .read _ _ _ | .write _ _ _ | .timeout _ _ | .reply _ _ => True

/-- The pair of address and number finds the right object or none. -/
structure Matched (s : Exchange) : Prop where
  consistent : s.worker.Consistent
  origin : ∀ pending ∈ s.inFlight, ∀ addr, pending.msg.conn = some addr → 0 ≤ pending.msg.fd →
    s.worker.connAt pending.msg.fd = some addr → s.serial addr = pending.origin
  queued : ∀ reply ∈ s.queued, reply.target = reply.origin

variable {writeString : ResRoot → List UInt8} {fuel : ℕ} {s next : Exchange}

theorem matched_start (timeout : ℤ) : (start timeout).Matched where
  consistent := SignalingWorker.consistent_empty timeout
  origin := by
    intro pending hpending
    cases hpending
  queued := by
    intro reply hreply
    cases hreply

/-- A callback after which the table has no new entry. -/
theorem Matched.of_shrinks {w : SignalingWorker} (hmatched : s.Matched) (hw : w.Consistent)
    (hshrinks : s.worker.Shrinks w) : Matched { s with worker := w } := by
  refine ⟨hw, ?_, hmatched.queued⟩
  intro pending hpending addr hconn hfd hentry
  exact hmatched.origin pending hpending addr hconn hfd (hshrinks _ hfd addr hentry)

/-- Every message names the connection it was sent for. -/
theorem mem_messages {fd : ℤ} {sent : ℕ → Option SignalingWorker.PushRequest}
    {calls : List RequestCall} {pending : Pending} (hmem : pending ∈ s.messages fd sent calls) :
    ∃ addr, s.worker.connAt fd = some addr ∧ pending.msg.conn = some addr ∧
      pending.origin = s.serial addr := by
  unfold messages at hmem
  split at hmem
  · cases hmem
  · rename_i addr haddr
    obtain ⟨msg, hmsg, rfl⟩ := List.mem_map.mp hmem
    obtain ⟨call, -, hcall⟩ := List.mem_filterMap.mp hmsg
    obtain ⟨root, -, rfl⟩ := Option.map_eq_some_iff.mp hcall
    exact ⟨addr, haddr, rfl, rfl⟩

theorem Matched.newConn {w : SignalingWorker} {fd : ℤ} {setup peer : Bool} {addr : Addr} {now : ℕ}
    (hmatched : s.Matched) (hnoReuse : s.NoReuse (.newConn fd setup peer addr now))
    (hfree : s.worker.heap addr = none) (hlt : fd < 2 ^ 31)
    (hnew : s.worker.newConn fd setup peer addr now = .ok w) :
    Matched { s with
      worker := w
      serial := Function.update s.serial addr s.born
      born := s.born + 1 } := by
  obtain ⟨hw, hentries⟩ := SignalingWorker.newConn_cases hmatched.consistent hlt hfree hnew
  refine ⟨hw, ?_, hmatched.queued⟩
  intro pending hpending a hconn hfd hentry
  rcases hentries _ hfd a hentry with ⟨hn, rfl, hsetup, hpeer⟩ | ⟨hdiff, hold⟩
  · exact absurd ⟨hconn, hn⟩ (hnoReuse hsetup hpeer pending hpending)
  · exact (Function.update_of_ne hdiff _ _).trans
      (hmatched.origin pending hpending a hconn hfd hold)

theorem Matched.read {w : SignalingWorker} {fd : ℤ} {e : ReadEvent} {calls : List RequestCall}
    {sent : ℕ → Option SignalingWorker.PushRequest} (hmatched : s.Matched)
    (hread : s.worker.readConn fuel fd e = .ok (w, calls)) :
    Matched { s with worker := w, inFlight := s.inFlight ++ s.messages fd sent calls } := by
  obtain ⟨hw, hshrinks, -⟩ := SignalingWorker.readConn_keeps hmatched.consistent hread
  refine ⟨hw, ?_, hmatched.queued⟩
  intro pending hpending addr hconn hfd hentry
  rcases List.mem_append.mp hpending with hold | hnew
  · exact hmatched.origin pending hold addr hconn hfd (hshrinks _ hfd addr hentry)
  · obtain ⟨sender, -, hsender, horigin⟩ := mem_messages hnew
    rw [hsender] at hconn
    cases hconn
    exact horigin.symm

theorem Matched.reply {w : SignalingWorker} {pending : Pending} {index : ℕ} {sdp : List UInt8}
    {target : Option Addr} (hmatched : s.Matched) (hpending : s.inFlight[index]? = some pending)
    (hreply : s.worker.responseServerOffer writeString { pending.msg with sdp := sdp } =
      .ok (w, target)) :
    Matched { s with
      worker := w
      inFlight := s.inFlight.eraseIdx index
      queued := s.queued ++
        target.toList.map fun addr => ⟨pending.origin, s.serial addr⟩ } := by
  obtain ⟨hw, hshrinks, htarget⟩ :=
    SignalingWorker.responseServerOffer_keeps hmatched.consistent hreply
  refine ⟨hw, ?_, ?_⟩
  · intro other hother addr hconn hfd hentry
    exact hmatched.origin other (List.mem_of_mem_eraseIdx hother) addr hconn hfd
      (hshrinks _ hfd addr hentry)
  · intro reply hmem
    rcases List.mem_append.mp hmem with hold | hnew
    · exact hmatched.queued reply hold
    · obtain ⟨addr, haddr, rfl⟩ := List.mem_map.mp hnew
      obtain ⟨hconn, hfd, hentry⟩ := htarget addr (Option.mem_toList.mp haddr)
      exact hmatched.origin pending (List.mem_of_getElem? hpending) addr hconn hfd hentry

/-- **One callback** keeps the pairs matched. -/
theorem Matched.step {action : Callback} (hmatched : s.Matched) (hnoReuse : s.NoReuse action)
    (hstep : s.step writeString fuel action = some next) : next.Matched := by
  cases action with
  | newConn fd setup peer addr now =>
      simp only [Exchange.step] at hstep
      split at hstep
      · cases hstep
      · rename_i henabled
        push Not at henabled
        split at hstep
        · cases hstep
        · rename_i w hw
          cases hstep
          exact hmatched.newConn hnoReuse (by simpa using henabled.1) henabled.2.2 hw
  | read fd e sent =>
      simp only [Exchange.step] at hstep
      split at hstep
      · cases hstep
      · rename_i w calls hread
        cases hstep
        exact hmatched.read hread
  | write fd now results =>
      simp only [Exchange.step] at hstep
      split at hstep
      · cases hstep
      · rename_i w sent hwrite
        cases hstep
        obtain ⟨hw, hshrinks⟩ := SignalingWorker.writeConn_keeps hmatched.consistent hwrite
        exact hmatched.of_shrinks hw hshrinks
  | timeout addr now =>
      simp only [Exchange.step] at hstep
      split at hstep
      · cases hstep
      · rename_i w htimeout
        cases hstep
        obtain ⟨hw, hshrinks⟩ := SignalingWorker.processTimeout_keeps hmatched.consistent htimeout
        exact hmatched.of_shrinks hw hshrinks
  | reply index sdp =>
      simp only [Exchange.step] at hstep
      split at hstep
      · cases hstep
      · rename_i pending hpending
        split at hstep
        · cases hstep
        · rename_i w target hreply
          cases hstep
          exact hmatched.reply hpending hreply

/-- **Replies reach their own connection.** In every run in which no connection
gets the address and the number that a message on its way still names, every
reply that is queued is queued on the connection whose request it answers. -/
theorem queued_on_origin (writeString : ResRoot → List UInt8) (fuel : ℕ) (timeout : ℤ)
    (actions : List Callback) (last : Exchange)
    (hnoReuse : RunMeets (step writeString fuel) NoReuse (start timeout) actions)
    (hrun : run (step writeString fuel) (start timeout) actions = some last) :
    ∀ reply ∈ last.queued, reply.target = reply.origin := by
  have hmatched : last.Matched := by
    refine run_preserves_of_meets Matched ?_ (matched_start timeout) hnoReuse hrun
    intro s next action hs hguard hstep
    exact hs.step hguard hstep
  exact hmatched.queued

/-- Every request is a push request for the stream `a`. -/
def pushOnce : ℕ → Option SignalingWorker.PushRequest :=
  fun _ => some { uid := 1, streamName := [97], audio := 1, video := 1 }

/-- A connection, its request, and the reply. -/
def answered : List Callback :=
  [.newConn 5 true true 100 0,
    .read 5 { result := .data (Xrpc.requestHeader 9 0).bytes } pushOnce,
    .reply 0 []]

theorem answered_queued_on_origin :
    ∃ last, run (step (fun _ => [123, 125]) 3) (start 1000) answered = some last ∧
      last.queued.length = 1 ∧ ∀ reply ∈ last.queued, reply.target = reply.origin := by
  have hqueued : (run (step (fun _ => [123, 125]) 3) (start 1000) answered).map
      Exchange.queued = some [⟨0, 0⟩] := by decide +kernel
  obtain ⟨last, hrun, hlast⟩ := Option.map_eq_some_iff.mp hqueued
  refine ⟨last, hrun, by rw [hlast]; rfl, ?_⟩
  refine queued_on_origin _ 3 1000 answered last ⟨?_, ?_⟩ hrun
  · intro _ _ pending hpending
    cases hpending
  · intro _ _
    exact ⟨trivial, fun _ _ => ⟨trivial, fun _ _ => trivial⟩⟩

/-- The client closes before its reply is there, and another one gets both its
descriptor number and its address. -/
def takeover : List Callback :=
  [.newConn 5 true true 100 0,
    .read 5 { result := .data (Xrpc.requestHeader 9 0).bytes } pushOnce,
    .read 5 { result := .endOfFile } pushOnce,
    .newConn 5 true true 100 0,
    .read 5 { result := .data (Xrpc.requestHeader 10 0).bytes } pushOnce,
    .reply 0 []]

theorem takeover_queued_elsewhere :
    ∃ last, run (step (fun _ => [123, 125]) 3) (start 1000) takeover = some last ∧
      ∃ reply ∈ last.queued, reply.target ≠ reply.origin := by
  have hqueued : (run (step (fun _ => [123, 125]) 3) (start 1000) takeover).map
      Exchange.queued = some [⟨0, 1⟩] := by decide +kernel
  obtain ⟨last, hrun, hlast⟩ := Option.map_eq_some_iff.mp hqueued
  refine ⟨last, hrun, ⟨0, 1⟩, ?_, by decide⟩
  rw [hlast]
  exact List.mem_singleton_self _

end Exchange

end Xrtc.Server

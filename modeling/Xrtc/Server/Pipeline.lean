/-
# From a signaling worker to an RTC worker and back

A push request takes three hops: the signaling worker hands it to the RTC
server, the server to the RTC worker that its stream name selects, and that
worker back to the signaling worker it came from. Each hop is a mailbox, and
each thread goes through its half steps one at a time: push, write a token, read
a token, pop. A step of a thread is determined by where the thread stands; what
the certificate generator and the peer connection answer is an argument.

Beside the state of the program the model keeps a record: what entered the
server's queue and in which order, what became of it there, what every RTC
worker has processed and every signaling worker has responded to, which
connections have been closed and which replies were given, and how often a pop
found its queue empty.
-/

import Xrtc.Base.Crc32
import Xrtc.Machine.Mailbox
import Xrtc.Machine.Run
import Xrtc.Server.SignalingWorker

namespace Xrtc.Server

open Xrtc.Machine Xrtc.Base

/-- `RtcServerOptions`, whose only member is an `int`. -/
structure RtcServerOptions where
  workerNum : ℤ
  isInt : -2 ^ 31 ≤ workerNum ∧ workerNum < 2 ^ 31

theorem RtcServerOptions.isInt_one : -2 ^ 31 ≤ (1 : ℤ) ∧ (1 : ℤ) < 2 ^ 31 := by decide

/-- `RtcServer::_get_worker`: the index of the worker, with `workers` for
`_workers.size()`. The remainder is taken in unsigned arithmetic. -/
def getWorker (workers : ℕ) (options : RtcServerOptions) (streamName : List UInt8) : Option ℕ :=
  if workers = 0 ∨ workers ≠ toSize options.workerNum then
    none
  else
    some ((computeCrc32 streamName).toNat % (options.workerNum % 2 ^ 32).toNat)

/-- A message as it was when it entered the server's queue, and its place in the
order of entry. -/
structure Label where
  id : ℕ
  request : RtcMsg
  deriving DecidableEq

/-- A message on its way: what it was, and the two fields that are filled in. -/
structure Parcel where
  label : Label
  certificate : Option Addr := none
  sdp : List UInt8 := []
  deriving DecidableEq

/-- The message as the program sees it. -/
def Parcel.msg (p : Parcel) : RtcMsg :=
  { p.label.request with certificate := p.certificate, sdp := p.sdp }

/-- Where the thread of the RTC server stands. -/
inductive ServerPc
  | idle
  /-- A token has been read. -/
  | notified
  | popped (p : Parcel)
  /-- The certificate is there and the worker has been found. -/
  | passed (worker : ℕ) (p : Parcel)
  /-- The message is in the worker's queue, the token not yet in its pipe. -/
  | pushed (worker : ℕ)
  deriving DecidableEq

/-- Where the thread of an RTC worker stands. -/
inductive WorkerPc
  | idle
  | notified
  | popped (p : Parcel)
  /-- The offer has been made. -/
  | made (p : Parcel)
  /-- The message is in the signaling worker's queue, the token not yet in its pipe. -/
  | pushed (signaling : ℕ)
  deriving DecidableEq

/-- Where the thread of a signaling worker stands. -/
inductive SignalingPc
  | idle
  /-- The message is in the server's queue, the token not yet in its pipe. -/
  | sending
  | notified
  | popped (p : Parcel)
  deriving DecidableEq

/-- What does not change: the number of signaling workers, the number of RTC
workers that were created, and the options. -/
structure PipelineConfig where
  signalingNum : ℕ
  workers : ℕ
  options : RtcServerOptions

structure Pipeline where
  serverPc : ServerPc := .idle
  server : Mailbox Parcel := {}
  workerPc : ℕ → WorkerPc := fun _ => .idle
  worker : ℕ → Mailbox Parcel := fun _ => {}
  signalingPc : ℕ → SignalingPc := fun _ => .idle
  signaling : ℕ → Mailbox Parcel := fun _ => {}
  entered : List Label := []
  /-- What the server has made of each message it popped. -/
  checked : List (Label × Bool) := []
  processed : ℕ → List Parcel := fun _ => []
  /-- The calls of `_response_server_offer`. -/
  responded : ℕ → List Parcel := fun _ => []
  /-- The requests whose connection has been removed. -/
  closed : List Label := []
  /-- What was queued on the connection that a request came from. -/
  replies : List (Label × ResRoot) := []
  nullPops : ℕ := 0

inductive PipelineAction
  /-- `_process_push` on a signaling worker, up to the push. -/
  | send (s : ℕ) (addr : Addr) (fd : ℤ) (root : SignalingWorker.PushRequest) (logId : UInt32)
  /-- The acceptor notifies a signaling worker of a new connection. -/
  | newConn (s : ℕ)
  /-- A signaling worker removes the connection at an address. -/
  | close (s : ℕ) (addr : Addr)
  /-- The next step of a signaling worker. -/
  | signaling (s : ℕ)
  /-- The next step of the server. `certificate` is what the generator has. -/
  | server (certificate : Option Addr)
  /-- The next step of an RTC worker. `offer` is what `create_offer` returns. -/
  | worker (w : ℕ) (offer : List UInt8)

namespace Pipeline

/-- The RTC worker a message is for. -/
def route (cfg : PipelineConfig) (label : Label) : Option ℕ :=
  getWorker cfg.workers cfg.options label.request.streamName

/-- The thread of signaling worker `s` moves on, with its mailbox. -/
def setSignaling (x : Pipeline) (s : ℕ) (pc : SignalingPc) (m : Mailbox Parcel) : Pipeline :=
  { x with
    signalingPc := Function.update x.signalingPc s pc
    signaling := Function.update x.signaling s m }

def setServer (x : Pipeline) (pc : ServerPc) (m : Mailbox Parcel) : Pipeline :=
  { x with serverPc := pc, server := m }

def setWorker (x : Pipeline) (w : ℕ) (pc : WorkerPc) (m : Mailbox Parcel) : Pipeline :=
  { x with
    workerPc := Function.update x.workerPc w pc
    worker := Function.update x.worker w m }

/-- A pop that yields a null pointer. -/
def missed (x : Pipeline) : Pipeline := { x with nullPops := x.nullPops + 1 }

/-! ## The signaling workers -/

/-- `_process_push` and `RtcServer::push_msg`. -/
def send (x : Pipeline) (s : ℕ) (request : RtcMsg) : Pipeline :=
  let label : Label := ⟨x.entered.length, request⟩
  { x.setSignaling s .sending (x.signaling s) with
    server := x.server.push { label := label }
    entered := x.entered ++ [label] }

/-- The rest of `RtcServer::send_rtc_msg`. -/
def notifyServer (x : Pipeline) (s : ℕ) : Pipeline :=
  { x.setSignaling s .idle (x.signaling s) with server := x.server.notify .item }

/-- `_remove_conn` on the connection at `addr`. The requests that came from it
are recorded. -/
def close (x : Pipeline) (s : ℕ) (addr : Addr) : Pipeline :=
  { x with
    closed := x.closed ++ x.entered.filter fun label =>
      label.request.worker = some s ∧ label.request.conn = some addr }

/-- `_response_server_offer`. A reply reaches the connection it is for only where
that connection is still there and its descriptor is not zero. -/
def respond (x : Pipeline) (s : ℕ) (p : Parcel) : Pipeline :=
  { x.setSignaling s .idle (x.signaling s) with
    responded := Function.update x.responded s (x.responded s ++ [p])
    replies :=
      if 0 < p.label.request.fd ∧ p.label ∉ x.closed then
        x.replies ++ [(p.label, SignalingWorker.resRoot p.msg)]
      else
        x.replies }

/-- The next step of a signaling worker: the rest of a send, or one notification
through `_process_notify` and `_process_rtc_msg`. -/
def signalingStep (x : Pipeline) (s : ℕ) : Option Pipeline :=
  match x.signalingPc s with
  | .sending => some (x.notifyServer s)
  | .idle =>
      match (x.signaling s).pipe with
      | [] => none
      | .other :: notices =>
          some (x.setSignaling s .idle { x.signaling s with pipe := notices })
      | .item :: notices =>
          some (x.setSignaling s .notified { x.signaling s with pipe := notices })
  | .notified =>
      match (x.signaling s).queue with
      | [] => some (x.setSignaling s .idle (x.signaling s)).missed
      | p :: rest => some (x.setSignaling s (.popped p) { x.signaling s with queue := rest })
  | .popped p =>
      if p.label.request.cmdno = CMDNO_PUSH then
        some (x.respond s p)
      else
        some (x.setSignaling s .idle (x.signaling s))

/-! ## The server -/

/-- The certificate is there and the worker has been found. -/
def accept (x : Pipeline) (w : ℕ) (p : Parcel) (certificate : Addr) : Pipeline :=
  { x with
    serverPc := .passed w { p with certificate := some certificate }
    checked := x.checked ++ [(p.label, true)] }

/-- `_process_rtc_msg` returns without handing the message on. -/
def reject (x : Pipeline) (p : Parcel) : Pipeline :=
  { x with serverPc := .idle, checked := x.checked ++ [(p.label, false)] }

/-- `RtcWorker::push_msg`. -/
def handOver (x : Pipeline) (w : ℕ) (p : Parcel) : Pipeline :=
  { x with
    serverPc := .pushed w
    worker := Function.update x.worker w ((x.worker w).push p) }

/-- The rest of `RtcWorker::send_rtc_msg`. -/
def notifyWorker (x : Pipeline) (w : ℕ) : Pipeline :=
  { x with
    serverPc := .idle
    worker := Function.update x.worker w ((x.worker w).notify .item) }

/-- The next step of the server: one notification through `_process_notify` and
`_process_rtc_msg`. A null pointer would be dereferenced by the log line there;
the record of null pops stands for that. -/
def serverStep (cfg : PipelineConfig) (x : Pipeline) (certificate : Option Addr) :
    Option Pipeline :=
  match x.serverPc with
  | .idle =>
      match x.server.pipe with
      | [] => none
      | .other :: notices => some (x.setServer .idle { x.server with pipe := notices })
      | .item :: notices => some (x.setServer .notified { x.server with pipe := notices })
  | .notified =>
      match x.server.queue with
      | [] => some (x.setServer .idle x.server).missed
      | p :: rest => some (x.setServer (.popped p) { x.server with queue := rest })
  | .popped p =>
      match certificate, route cfg p.label with
      | some certificate, some w => some (x.accept w p certificate)
      | _, _ => some (x.reject p)
  | .passed w p => some (x.handOver w p)
  | .pushed w => some (x.notifyWorker w)

/-! ## The RTC workers -/

/-- `RtcWorker::_process_push`, up to the offer. `create_push_stream` returns zero
whatever the offer is. -/
def make (x : Pipeline) (w : ℕ) (p : Parcel) (offer : List UInt8) : Pipeline :=
  { x.setWorker w (.made { p with sdp := offer }) (x.worker w) with
    processed := Function.update x.processed w (x.processed w ++ [{ p with sdp := offer }]) }

/-- `SignalingServerWorker::push_rtc_msg`. -/
def giveBack (x : Pipeline) (w s : ℕ) (p : Parcel) : Pipeline :=
  { x.setWorker w (.pushed s) (x.worker w) with
    signaling := Function.update x.signaling s ((x.signaling s).push p) }

/-- The rest of `SignalingServerWorker::send_rtc_msg`. -/
def notifySignaling (x : Pipeline) (w s : ℕ) : Pipeline :=
  { x.setWorker w .idle (x.worker w) with
    signaling := Function.update x.signaling s ((x.signaling s).notify .item) }

/-- The next step of an RTC worker: one notification through `_process_notify`,
`_process_rtc_msg` and `_process_push`. The other handlers are empty. -/
def workerStep (x : Pipeline) (w : ℕ) (offer : List UInt8) : Option Pipeline :=
  match x.workerPc w with
  | .idle =>
      match (x.worker w).pipe with
      | [] => none
      | .other :: notices => some (x.setWorker w .idle { x.worker w with pipe := notices })
      | .item :: notices => some (x.setWorker w .notified { x.worker w with pipe := notices })
  | .notified =>
      match (x.worker w).queue with
      | [] => some (x.setWorker w .idle (x.worker w)).missed
      | p :: rest => some (x.setWorker w (.popped p) { x.worker w with queue := rest })
  | .popped p =>
      if p.label.request.cmdno = CMDNO_PUSH then
        some (x.make w p offer)
      else
        some (x.setWorker w .idle (x.worker w))
  | .made p =>
      match p.label.request.worker with
      | none => some (x.setWorker w .idle (x.worker w))
      | some s => some (x.giveBack w s p)
  | .pushed s => some (x.notifySignaling w s)

/-! ## The whole system -/

def step (cfg : PipelineConfig) (x : Pipeline) : PipelineAction → Option Pipeline
  | .send s addr fd root logId =>
      if s < cfg.signalingNum ∧ x.signalingPc s = .idle then
        some (x.send s (SignalingWorker.processPush s addr fd root logId))
      else
        none
  | .newConn s =>
      if s < cfg.signalingNum then
        some (x.setSignaling s (x.signalingPc s) ((x.signaling s).notify .other))
      else
        none
  | .close s addr =>
      if s < cfg.signalingNum ∧ x.signalingPc s = .idle then some (x.close s addr) else none
  | .signaling s => if s < cfg.signalingNum then x.signalingStep s else none
  | .server certificate => x.serverStep cfg certificate
  | .worker w offer => if w < cfg.workers then x.workerStep w offer else none

/-- No pipe holds a token and no thread is inside a send or a handler. -/
structure Drained (cfg : PipelineConfig) (x : Pipeline) : Prop where
  server : x.serverPc = .idle ∧ x.server.pipe = []
  worker : ∀ w < cfg.workers, x.workerPc w = .idle ∧ (x.worker w).pipe = []
  signaling : ∀ s < cfg.signalingNum, x.signalingPc s = .idle ∧ (x.signaling s).pipe = []

instance (cfg : PipelineConfig) (x : Pipeline) : Decidable (x.Drained cfg) :=
  decidable_of_iff
    ((x.serverPc = .idle ∧ x.server.pipe = []) ∧
      (∀ w < cfg.workers, x.workerPc w = .idle ∧ (x.worker w).pipe = []) ∧
      ∀ s < cfg.signalingNum, x.signalingPc s = .idle ∧ (x.signaling s).pipe = [])
    ⟨fun h => ⟨h.1, h.2.1, h.2.2⟩, fun h => ⟨h.server, h.worker, h.signaling⟩⟩

/-! ## What a step can do -/

/-- The transitions of the system, each with the condition under which it is taken. -/
inductive Move (cfg : PipelineConfig) (x : Pipeline) : PipelineAction → Pipeline → Prop
  | send {s addr fd root logId} (hs : s < cfg.signalingNum) (hpc : x.signalingPc s = .idle) :
      Move cfg x (.send s addr fd root logId)
        (x.send s (SignalingWorker.processPush s addr fd root logId))
  | newConn {s} (hs : s < cfg.signalingNum) :
      Move cfg x (.newConn s)
        (x.setSignaling s (x.signalingPc s) ((x.signaling s).notify .other))
  | close {s addr} (hs : s < cfg.signalingNum) (hpc : x.signalingPc s = .idle) :
      Move cfg x (.close s addr) (x.close s addr)
  | notifyServer {s} (hs : s < cfg.signalingNum) (hpc : x.signalingPc s = .sending) :
      Move cfg x (.signaling s) (x.notifyServer s)
  | signalingSkip {s notices} (hs : s < cfg.signalingNum) (hpc : x.signalingPc s = .idle)
      (hpipe : (x.signaling s).pipe = .other :: notices) :
      Move cfg x (.signaling s) (x.setSignaling s .idle { x.signaling s with pipe := notices })
  | signalingRead {s notices} (hs : s < cfg.signalingNum) (hpc : x.signalingPc s = .idle)
      (hpipe : (x.signaling s).pipe = .item :: notices) :
      Move cfg x (.signaling s) (x.setSignaling s .notified { x.signaling s with pipe := notices })
  | signalingMiss {s} (hs : s < cfg.signalingNum) (hpc : x.signalingPc s = .notified)
      (hqueue : (x.signaling s).queue = []) :
      Move cfg x (.signaling s) (x.setSignaling s .idle (x.signaling s)).missed
  | signalingPop {s p rest} (hs : s < cfg.signalingNum) (hpc : x.signalingPc s = .notified)
      (hqueue : (x.signaling s).queue = p :: rest) :
      Move cfg x (.signaling s)
        (x.setSignaling s (.popped p) { x.signaling s with queue := rest })
  | respond {s p} (hs : s < cfg.signalingNum) (hpc : x.signalingPc s = .popped p)
      (hcmdno : p.label.request.cmdno = CMDNO_PUSH) :
      Move cfg x (.signaling s) (x.respond s p)
  | signalingDrop {s p} (hs : s < cfg.signalingNum) (hpc : x.signalingPc s = .popped p)
      (hcmdno : p.label.request.cmdno ≠ CMDNO_PUSH) :
      Move cfg x (.signaling s) (x.setSignaling s .idle (x.signaling s))
  | serverSkip {certificate notices} (hpc : x.serverPc = .idle)
      (hpipe : x.server.pipe = .other :: notices) :
      Move cfg x (.server certificate) (x.setServer .idle { x.server with pipe := notices })
  | serverRead {certificate notices} (hpc : x.serverPc = .idle)
      (hpipe : x.server.pipe = .item :: notices) :
      Move cfg x (.server certificate) (x.setServer .notified { x.server with pipe := notices })
  | serverMiss {certificate} (hpc : x.serverPc = .notified) (hqueue : x.server.queue = []) :
      Move cfg x (.server certificate) (x.setServer .idle x.server).missed
  | serverPop {certificate p rest} (hpc : x.serverPc = .notified)
      (hqueue : x.server.queue = p :: rest) :
      Move cfg x (.server certificate) (x.setServer (.popped p) { x.server with queue := rest })
  | accept {certificate w p} (hpc : x.serverPc = .popped p) (hroute : route cfg p.label = some w) :
      Move cfg x (.server (some certificate)) (x.accept w p certificate)
  | reject {certificate p} (hpc : x.serverPc = .popped p)
      (hfailed : certificate = none ∨ route cfg p.label = none) :
      Move cfg x (.server certificate) (x.reject p)
  | handOver {certificate w p} (hpc : x.serverPc = .passed w p) :
      Move cfg x (.server certificate) (x.handOver w p)
  | notifyWorker {certificate w} (hpc : x.serverPc = .pushed w) :
      Move cfg x (.server certificate) (x.notifyWorker w)
  | workerSkip {w offer notices} (hw : w < cfg.workers) (hpc : x.workerPc w = .idle)
      (hpipe : (x.worker w).pipe = .other :: notices) :
      Move cfg x (.worker w offer) (x.setWorker w .idle { x.worker w with pipe := notices })
  | workerRead {w offer notices} (hw : w < cfg.workers) (hpc : x.workerPc w = .idle)
      (hpipe : (x.worker w).pipe = .item :: notices) :
      Move cfg x (.worker w offer) (x.setWorker w .notified { x.worker w with pipe := notices })
  | workerMiss {w offer} (hw : w < cfg.workers) (hpc : x.workerPc w = .notified)
      (hqueue : (x.worker w).queue = []) :
      Move cfg x (.worker w offer) (x.setWorker w .idle (x.worker w)).missed
  | workerPop {w offer p rest} (hw : w < cfg.workers) (hpc : x.workerPc w = .notified)
      (hqueue : (x.worker w).queue = p :: rest) :
      Move cfg x (.worker w offer) (x.setWorker w (.popped p) { x.worker w with queue := rest })
  | make {w offer p} (hw : w < cfg.workers) (hpc : x.workerPc w = .popped p)
      (hcmdno : p.label.request.cmdno = CMDNO_PUSH) :
      Move cfg x (.worker w offer) (x.make w p offer)
  | workerDrop {w offer p} (hw : w < cfg.workers) (hpc : x.workerPc w = .popped p)
      (hcmdno : p.label.request.cmdno ≠ CMDNO_PUSH) :
      Move cfg x (.worker w offer) (x.setWorker w .idle (x.worker w))
  | discard {w offer p} (hw : w < cfg.workers) (hpc : x.workerPc w = .made p)
      (howner : p.label.request.worker = none) :
      Move cfg x (.worker w offer) (x.setWorker w .idle (x.worker w))
  | giveBack {w offer p s} (hw : w < cfg.workers) (hpc : x.workerPc w = .made p)
      (howner : p.label.request.worker = some s) :
      Move cfg x (.worker w offer) (x.giveBack w s p)
  | notifySignaling {w offer s} (hw : w < cfg.workers) (hpc : x.workerPc w = .pushed s) :
      Move cfg x (.worker w offer) (x.notifySignaling w s)

variable {cfg : PipelineConfig} {x y : Pipeline} {action : PipelineAction}

theorem signalingStep_move {s : ℕ} (hs : s < cfg.signalingNum)
    (hstep : x.signalingStep s = some y) : Move cfg x (.signaling s) y := by
  unfold signalingStep at hstep
  split at hstep
  next hpc =>
    cases hstep
    exact .notifyServer hs hpc
  next hpc =>
    split at hstep
    next => cases hstep
    next hpipe =>
      cases hstep
      exact .signalingSkip hs hpc hpipe
    next hpipe =>
      cases hstep
      exact .signalingRead hs hpc hpipe
  next hpc =>
    split at hstep
    next hqueue =>
      cases hstep
      exact .signalingMiss hs hpc hqueue
    next hqueue =>
      cases hstep
      exact .signalingPop hs hpc hqueue
  next hpc =>
    split at hstep
    next hcmdno =>
      cases hstep
      exact .respond hs hpc hcmdno
    next hcmdno =>
      cases hstep
      exact .signalingDrop hs hpc hcmdno

theorem serverStep_move {certificate : Option Addr}
    (hstep : x.serverStep cfg certificate = some y) : Move cfg x (.server certificate) y := by
  unfold serverStep at hstep
  split at hstep
  next hpc =>
    split at hstep
    next => cases hstep
    next hpipe =>
      cases hstep
      exact .serverSkip hpc hpipe
    next hpipe =>
      cases hstep
      exact .serverRead hpc hpipe
  next hpc =>
    split at hstep
    next hqueue =>
      cases hstep
      exact .serverMiss hpc hqueue
    next hqueue =>
      cases hstep
      exact .serverPop hpc hqueue
  next p hpc =>
    split at hstep
    next hroute =>
      cases hstep
      exact .accept hpc hroute
    next hfailed =>
      cases hstep
      apply Move.reject hpc
      by_contra! hboth
      obtain ⟨hcertificate, hroute⟩ := hboth
      obtain ⟨cert, hcert⟩ := Option.ne_none_iff_exists'.mp hcertificate
      obtain ⟨w, hw⟩ := Option.ne_none_iff_exists'.mp hroute
      exact hfailed cert w hcert hw
  next hpc =>
    cases hstep
    exact .handOver hpc
  next hpc =>
    cases hstep
    exact .notifyWorker hpc

theorem workerStep_move {w : ℕ} {offer : List UInt8} (hw : w < cfg.workers)
    (hstep : x.workerStep w offer = some y) : Move cfg x (.worker w offer) y := by
  unfold workerStep at hstep
  split at hstep
  next hpc =>
    split at hstep
    next => cases hstep
    next hpipe =>
      cases hstep
      exact .workerSkip hw hpc hpipe
    next hpipe =>
      cases hstep
      exact .workerRead hw hpc hpipe
  next hpc =>
    split at hstep
    next hqueue =>
      cases hstep
      exact .workerMiss hw hpc hqueue
    next hqueue =>
      cases hstep
      exact .workerPop hw hpc hqueue
  next hpc =>
    split at hstep
    next hcmdno =>
      cases hstep
      exact .make hw hpc hcmdno
    next hcmdno =>
      cases hstep
      exact .workerDrop hw hpc hcmdno
  next hpc =>
    split at hstep
    next howner =>
      cases hstep
      exact .discard hw hpc howner
    next howner =>
      cases hstep
      exact .giveBack hw hpc howner
  next hpc =>
    cases hstep
    exact .notifySignaling hw hpc

/-- Every step is one of the transitions. -/
theorem step_move (hstep : step cfg x action = some y) : Move cfg x action y := by
  cases action with
  | send s addr fd root logId =>
      simp only [step, Option.ite_none_right_eq_some, Option.some.injEq] at hstep
      obtain ⟨⟨hs, hpc⟩, rfl⟩ := hstep
      exact .send hs hpc
  | newConn s =>
      simp only [step, Option.ite_none_right_eq_some, Option.some.injEq] at hstep
      obtain ⟨hs, rfl⟩ := hstep
      exact .newConn hs
  | close s addr =>
      simp only [step, Option.ite_none_right_eq_some, Option.some.injEq] at hstep
      obtain ⟨⟨hs, hpc⟩, rfl⟩ := hstep
      exact .close hs hpc
  | signaling s =>
      simp only [step, Option.ite_none_right_eq_some] at hstep
      exact signalingStep_move hstep.1 hstep.2
  | server certificate => exact serverStep_move hstep
  | worker w offer =>
      simp only [step, Option.ite_none_right_eq_some] at hstep
      exact workerStep_move hstep.1 hstep.2

end Pipeline

end Xrtc.Server

/-
# How the signaling server stops

The process is told to stop by a signal. Its handler writes `QUIT` into the pipe of
the signaling server, and `main` waits for the server's thread. That thread closes its
pipe and its listening socket and then stops its workers one after the other: `QUIT`
into the worker's pipe, and a join. Each worker reads `QUIT` behind the notifications
that were written before, closes its pipe and leaves its loop.

The threads here are those of `SignalingServer` and its workers, with the connections
that are handed from one to the other. RTC workers notify a signaling worker whenever
they like, also after it has closed its pipe. What a connection does once it has been
taken over, and what a reply does, is the subject of other modules. A pipe holds a
bounded number of notifications, and a write to a full one waits.
-/

import Xrtc.Machine.Pool
import Xrtc.Server.SignalingServer

namespace Xrtc.Server

open Xrtc.Machine Xrtc.Base

/-- The notifications of `SignalingServer` and of `SignalingServerWorker`. -/
def QUIT : ℤ := 0
def NEW_CONN : ℤ := 1
def RTC_MSG : ℤ := 2

/-- The thread of a worker: where it stands, `_q_conn`, and its pipe. The calls of
`_new_conn` and of `_stop` are records. -/
structure WorkerThread where
  pc : MemberPc := .idle
  qConn : List ℤ := []
  pipe : List ℤ := []
  newConns : List ℤ := []
  stops : ℕ := 0

/-- The server with its thread and the threads of its workers. The calls of `_stop`,
the notifications that found no connection in `_q_conn`, and the notifications that
the server wrote into a closed pipe are records. -/
structure SignalingSystem where
  server : SignalingServer
  pc : SupervisorPc := .running
  pipe : List ℤ := []
  worker : ℕ → WorkerThread := fun _ => {}
  stops : ℕ := 0
  misses : ℕ := 0
  strayWrites : ℕ := 0

inductive SystemAction
  /-- `SignalingServer::notify`, as the signal handler calls it. -/
  | notify (msg : ℤ)
  /-- `accept_new_conn` with this descriptor, up to the push. -/
  | accept (fd : ℤ)
  /-- An RTC worker notifies signaling worker `w` of a reply. -/
  | rtcMsg (w : ℕ)
  /-- The next step of the server's thread. -/
  | server
  /-- The next step of the thread of worker `w`. -/
  | worker (w : ℕ)

namespace WorkerThread

/-- `SignalingServerWorker::notify`; the write fails where the pipe is closed. -/
def notify (t : WorkerThread) (msg : ℤ) : WorkerThread :=
  if t.pc = .gone then t else { t with pipe := t.pipe ++ [msg] }

/-- A write to the pipe does not wait. -/
def Ready (capacity : ℕ) (t : WorkerThread) : Prop := t.pc = .gone ∨ t.pipe.length < capacity

instance (capacity : ℕ) (t : WorkerThread) : Decidable (t.Ready capacity) :=
  inferInstanceAs (Decidable (_ ∨ _))

/-- `SignalingServerWorker::_process_notify`, up to the call of `consume`. -/
def processNotify (t : WorkerThread) (msg : ℤ) : WorkerThread :=
  if msg = QUIT then
    -- `_stop`: the pipe is closed and the loop ends
    { t with pc := .gone, stops := t.stops + 1 }
  else if msg = NEW_CONN then
    { t with pc := .notified }
  else
    t

/-- The next step of the thread, and whether `consume` found nothing. -/
def step (t : WorkerThread) : Option (WorkerThread × Bool) :=
  match t.pc with
  | .gone => none
  | .idle =>
      match t.pipe with
      | [] => none
      | msg :: rest => some (processNotify { t with pipe := rest } msg, false)
  | .notified =>
      match t.qConn with
      | [] => some ({ t with pc := .idle }, true)
      | fd :: rest =>
          some ({ t with pc := .idle, qConn := rest, newConns := t.newConns ++ [fd] }, false)

end WorkerThread

namespace SignalingSystem

def set (x : SignalingSystem) (w : ℕ) (t : WorkerThread) : SignalingSystem :=
  { x with worker := Function.update x.worker w t }

/-- `notify` on worker `w`, called by the server. -/
def notifyWorker (x : SignalingSystem) (w : ℕ) (msg : ℤ) : SignalingSystem :=
  { x.set w ((x.worker w).notify msg) with
    strayWrites := x.strayWrites + if (x.worker w).pc = .gone then 1 else 0 }

/-- The head of the loop in `SignalingServer::_stop`. -/
def stopFrom (x : SignalingSystem) (w : ℕ) : SupervisorPc :=
  if w < x.server.workers.length then .stopping w else .stopped

/-- `SignalingServer::_process_notify`, up to the first worker. -/
def processNotify (x : SignalingSystem) (msg : ℤ) : SignalingSystem :=
  if msg = QUIT then { x with pc := x.stopFrom 0, stops := x.stops + 1 } else x

/-- The next step of the server's thread: a notification, the second half of
`notify_new_conn`, or the loop of `_stop` with `stop` and `join`. -/
def serverStep (capacity : ℕ) (x : SignalingSystem) : Option SignalingSystem :=
  match x.pc with
  | .running =>
      match x.pipe with
      | [] => none
      | msg :: rest => some (processNotify { x with pipe := rest } msg)
  | .pushed w =>
      if (x.worker w).Ready capacity then
        some { x.notifyWorker w NEW_CONN with pc := .running }
      else
        none
  | .stopping w =>
      if (x.worker w).Ready capacity then
        some { x.notifyWorker w QUIT with pc := .joining w }
      else
        none
  | .joining w =>
      if (x.worker w).pc = .gone then some { x with pc := x.stopFrom (w + 1) } else none
  | .stopped => none

/-- `_dispatch_new_conn` up to the push: the server's counter moves on and the
descriptor goes to the worker it chose. Where the dispatch is undefined there is no
step. -/
def accept (x : SignalingSystem) (fd : ℤ) : Option SignalingSystem :=
  match x.server.dispatchNewConn fd with
  | .error _ => none
  | .ok server =>
      server.notified.getLast?.map fun (w, _) =>
        { x.set w { x.worker w with qConn := (x.worker w).qConn ++ [fd] } with
          server := server
          pc := .pushed w }

def step (capacity : ℕ) (x : SignalingSystem) : SystemAction → Option SignalingSystem
  | .notify msg =>
      if x.pc.isOpen then
        if x.pipe.length < capacity then some { x with pipe := x.pipe ++ [msg] } else none
      else
        some x
  | .accept fd => if x.pc = .running then x.accept fd else none
  | .rtcMsg w =>
      if w < x.server.workers.length ∧ (x.worker w).Ready capacity then
        some (x.set w ((x.worker w).notify RTC_MSG))
      else
        none
  | .server => x.serverStep capacity
  | .worker w =>
      if w < x.server.workers.length then
        (x.worker w).step.map fun (t, missed) =>
          { x.set w t with misses := x.misses + if missed then 1 else 0 }
      else
        none

end SignalingSystem

/-! ## The server as a supervisor -/

/-- What a notification means to a worker. -/
def workerToken (msg : ℤ) : Token :=
  if msg = QUIT then .quit else if msg = NEW_CONN then .item else .other

/-- What a notification means to the server. -/
def serverToken (msg : ℤ) : Token := if msg = QUIT then .quit else .other

def WorkerThread.view (t : WorkerThread) : Member ℤ where
  pc := t.pc
  queue := t.qConn
  pipe := t.pipe.map workerToken
  taken := t.newConns
  stops := t.stops

def SignalingSystem.view (x : SignalingSystem) : Pool ℤ where
  supervisor := x.pc
  requests := x.pipe.map serverToken
  member w := (x.worker w).view
  assigned := x.server.notified
  stops := x.stops
  misses := x.misses
  strayWrites := x.strayWrites

namespace WorkerThread

theorem view_notify (t : WorkerThread) (msg : ℤ) :
    (t.notify msg).view = t.view.write (workerToken msg) := by
  by_cases hgone : t.pc = .gone
  · rw [notify, if_pos hgone, Member.write, if_pos (show t.view.pc = .gone from hgone)]
  · rw [notify, if_neg hgone, Member.write, if_neg (show t.view.pc ≠ .gone from hgone)]
    simp only [view, List.map_append, List.map_cons, List.map_nil]

theorem view_ready (capacity : ℕ) (t : WorkerThread) :
    t.view.Ready capacity ↔ t.Ready capacity := by
  simp only [Member.Ready, Ready, view, List.length_map]

theorem view_step (t : WorkerThread) :
    t.view.step = t.step.map fun (t, missed) => (t.view, missed) := by
  obtain ⟨pc, qConn, pipe, newConns, stops⟩ := t
  cases pc with
  | gone => rfl
  | notified => cases qConn <;> rfl
  | idle =>
      cases pipe with
      | nil => rfl
      | cons msg rest =>
          by_cases hquit : msg = QUIT
          · subst hquit
            rfl
          by_cases hnew : msg = NEW_CONN
          · subst hnew
            rfl
          · simp only [Member.step, step, view, List.map_cons, workerToken, if_neg hquit, if_neg hnew,
              processNotify, Option.map_some]

end WorkerThread

namespace SignalingSystem

variable {capacity n : ℕ} {x y : SignalingSystem} {action : SystemAction}

theorem view_set (x : SignalingSystem) (w : ℕ) (t : WorkerThread) :
    (x.set w t).view = x.view.set w t.view := by
  have hmember : (fun w' => (Function.update x.worker w t w').view) =
      Function.update (fun w' => (x.worker w').view) w t.view :=
    Function.comp_update WorkerThread.view x.worker w t
  simp only [view, set, Pool.set, hmember]

theorem view_notifyWorker (x : SignalingSystem) (w : ℕ) (msg : ℤ) :
    (x.notifyWorker w msg).view = x.view.writeTo w (workerToken msg) := by
  have hset := view_set x w ((x.worker w).notify msg)
  rw [WorkerThread.view_notify] at hset
  calc (x.notifyWorker w msg).view
      = { (x.set w ((x.worker w).notify msg)).view with
          strayWrites := x.strayWrites + if (x.worker w).pc = .gone then 1 else 0 } := rfl
    _ = x.view.writeTo w (workerToken msg) := by
        rw [hset]
        rfl

theorem stopFrom_eq (hworkers : x.server.workers.length = n) (w : ℕ) :
    x.stopFrom w = Pool.stopFrom n w := by
  rw [stopFrom, Pool.stopFrom, hworkers]

theorem view_notifyWorker_then (x : SignalingSystem) (w : ℕ) (msg : ℤ) (pc : SupervisorPc) :
    ({ x.notifyWorker w msg with pc := pc } : SignalingSystem).view =
      { x.view.writeTo w (workerToken msg) with supervisor := pc } := by
  rw [← view_notifyWorker]
  rfl

theorem view_serverStep (hworkers : x.server.workers.length = n) :
    x.view.supervisorStep n capacity = (x.serverStep capacity).map view := by
  have hready (w : ℕ) : (x.view.member w).Ready capacity ↔ (x.worker w).Ready capacity :=
    WorkerThread.view_ready capacity (x.worker w)
  have hpc : x.view.supervisor = x.pc := rfl
  unfold Pool.supervisorStep serverStep
  rw [hpc]
  cases x.pc with
  | running =>
      have hrequests : x.view.requests = x.pipe.map serverToken := rfl
      cases hpipe : x.pipe with
      | nil =>
          rw [hpipe] at hrequests
          simp only [hrequests, List.map_nil, Option.map_none]
      | cons msg rest =>
          rw [hpipe, List.map_cons] at hrequests
          by_cases hquit : msg = QUIT
          · rw [serverToken, if_pos hquit] at hrequests
            simp only [hrequests, processNotify, if_pos hquit, Option.map_some, Pool.beginStop,
              ← stopFrom_eq hworkers]
            rfl
          · rw [serverToken, if_neg hquit] at hrequests
            simp only [hrequests, processNotify, if_neg hquit, Option.map_some]
            rfl
  | pushed w =>
      simp only [hready, apply_ite (Option.map view), Option.map_some, Option.map_none,
        view_notifyWorker_then]
      rfl
  | stopping w =>
      simp only [hready, apply_ite (Option.map view), Option.map_some, Option.map_none,
        view_notifyWorker_then]
      rfl
  | joining w =>
      simp only [apply_ite (Option.map view), Option.map_some, Option.map_none,
        stopFrom_eq hworkers]
      rfl
  | stopped => rfl

theorem view_workerStep (w : ℕ) :
    ((x.view.member w).step.map fun (m, missed) => x.view.advance w m missed) =
      ((x.worker w).step.map fun (t, missed) =>
        ({ x.set w t with misses := x.misses + if missed then 1 else 0 } : SignalingSystem)).map
          view := by
  have hmember : x.view.member w = (x.worker w).view := rfl
  rw [hmember, WorkerThread.view_step, Option.map_map, Option.map_map]
  congr 1
  funext ⟨t, missed⟩
  have hset := view_set x w t
  simp only [Function.comp_apply, Pool.advance, ← hset]
  rfl

end SignalingSystem

namespace SystemAction

/-- A step of one of the threads. -/
def Internal : SystemAction → Prop
  | .server | .worker _ => True
  | .notify _ | .accept _ | .rtcMsg _ => False

def steps : SystemAction → ℕ
  | .server | .worker _ => 1
  | .notify _ | .accept _ | .rtcMsg _ => 0

/-- The steps that an event may cause: a connection has its token written, read, and
is popped; any other notification is read. -/
def allowance : SystemAction → ℕ
  | .accept _ => 3
  | .notify _ | .rtcMsg _ => 1
  | .server | .worker _ => 0

/-- What an action is to the supervisor and its workers. -/
structure Matches (action : SystemAction) (move : PoolAction ℤ) : Prop where
  internal : move.Internal ↔ action.Internal
  steps : move.steps = action.steps
  allowance : move.allowance = action.allowance

end SystemAction

namespace SignalingSystem

variable {capacity n : ℕ} {x y : SignalingSystem} {action : SystemAction}

theorem view_accept {fd : ℤ} (hworkers : x.server.workers = List.range n)
    (haccept : x.accept fd = some y) :
    y.server.workers = List.range n ∧ ∃ w < n, y.view = x.view.assign w fd := by
  rw [accept] at haccept
  split at haccept
  next => cases haccept
  next server hdispatch =>
    obtain ⟨w, hw, hnotified⟩ := SignalingServer.notified_of_dispatchNewConn hdispatch
    obtain ⟨-, -, hkept, -⟩ := SignalingServer.dispatchNewConn_eq_ok hdispatch
    rw [hnotified, List.getLast?_append, List.getLast?_singleton, Option.some_or,
      Option.map_some] at haccept
    rw [hworkers, List.mem_range] at hw
    cases haccept
    refine ⟨hkept.trans hworkers, w, hw, ?_⟩
    calc _ = ({ (x.set w { x.worker w with qConn := (x.worker w).qConn ++ [fd] }).view with
            supervisor := .pushed w
            assigned := server.notified } : Pool ℤ) := rfl
      _ = x.view.assign w fd := by
          rw [view_set, hnotified]
          rfl

/-- The server's members do not change while it reads and stops. -/
theorem server_of_serverStep (hstep : x.serverStep capacity = some y) : y.server = x.server := by
  unfold serverStep at hstep
  split at hstep
  next =>
    split at hstep
    next => cases hstep
    next =>
      cases hstep
      rw [processNotify]
      split <;> rfl
  all_goals
    simp only [Option.ite_none_right_eq_some, Option.some.injEq, reduceCtorEq] at hstep
  all_goals
    obtain ⟨-, rfl⟩ := hstep
    rfl

/-- **The system is a supervisor with its workers.** -/
theorem view_of_step (hworkers : x.server.workers = List.range n)
    (hstep : step capacity x action = some y) :
    y.server.workers = List.range n ∧ ∃ move, action.Matches move ∧
      Pool.step n capacity x.view move = some y.view := by
  have hlength : x.server.workers.length = n := by rw [hworkers, List.length_range]
  cases action with
  | notify msg =>
      have hpc : x.view.supervisor = x.pc := rfl
      have hrequests : x.view.requests.length = x.pipe.length := List.length_map _
      simp only [step] at hstep
      split at hstep
      next hopen =>
        simp only [Option.ite_none_right_eq_some, Option.some.injEq] at hstep
        obtain ⟨hroom, rfl⟩ := hstep
        refine ⟨hworkers, .request (serverToken msg), ⟨Iff.rfl, rfl, rfl⟩, ?_⟩
        rw [Pool.step, hpc, hrequests, if_pos hopen, if_pos hroom]
        simp [view]
      next hclosed =>
        cases hstep
        refine ⟨hworkers, .request (serverToken msg), ⟨Iff.rfl, rfl, rfl⟩, ?_⟩
        rw [Pool.step, hpc, if_neg hclosed]
  | accept fd =>
      simp only [step, Option.ite_none_right_eq_some] at hstep
      obtain ⟨hrunning, haccept⟩ := hstep
      obtain ⟨hkept, w, hw, hview⟩ := view_accept hworkers haccept
      refine ⟨hkept, .assign w fd, ⟨Iff.rfl, rfl, rfl⟩, ?_⟩
      rw [Pool.step, if_pos ⟨hw, hrunning⟩, hview]
  | rtcMsg w =>
      simp only [step, Option.ite_none_right_eq_some, Option.some.injEq, hlength] at hstep
      obtain ⟨⟨hw, hready⟩, rfl⟩ := hstep
      refine ⟨hworkers, .tell w, ⟨Iff.rfl, rfl, rfl⟩, ?_⟩
      rw [Pool.step, if_pos ⟨hw, (WorkerThread.view_ready capacity _).mpr hready⟩, view_set,
        WorkerThread.view_notify]
      rfl
  | server =>
      refine ⟨?_, .supervisor, ⟨Iff.rfl, rfl, rfl⟩, ?_⟩
      · rw [server_of_serverStep hstep]
        exact hworkers
      · change x.serverStep capacity = some y at hstep
        rw [Pool.step, view_serverStep hlength, hstep, Option.map_some]
  | worker w =>
      simp only [step, Option.ite_none_right_eq_some, hlength] at hstep
      obtain ⟨hw, hstep⟩ := hstep
      refine ⟨?_, .member w, ⟨Iff.rfl, rfl, rfl⟩, ?_⟩
      · obtain ⟨t, -, rfl⟩ := Option.map_eq_some_iff.mp hstep
        exact hworkers
      · rw [Pool.step, if_pos hw, view_workerStep, hstep, Option.map_some]

/-! ## What shutting down comes to -/

/-- The descriptors that were handed to worker `w`, in order. -/
def handed (x : SignalingSystem) (w : ℕ) : List ℤ :=
  (x.server.notified.filter (·.1 = w)).map Prod.snd

/-- `QUIT` is in the server's pipe, or has been read. -/
def StopAsked (x : SignalingSystem) : Prop := QUIT ∈ x.pipe ∨ x.pc.isOpen = false

/-- A server that `init` has accepted, with its threads. -/
structure Live (n : ℕ) (x : SignalingSystem) : Prop where
  workers : x.server.workers = List.range n
  sound : Pool.Sound n x.view

theorem Live.step (hx : Live n x) (hstep : step capacity x action = some y) : Live n y := by
  obtain ⟨hworkers, move, -, hmove⟩ := view_of_step hx.workers hstep
  exact ⟨hworkers, hx.sound.step hmove⟩

def work (n : ℕ) (x : SignalingSystem) : ℕ := x.view.work n

instance (x : SignalingSystem) : Decidable x.StopAsked := inferInstanceAs (Decidable (_ ∨ _))

end SignalingSystem

end Xrtc.Server

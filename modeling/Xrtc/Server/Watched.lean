/-
# The watchers and timers of a worker

Raw pointers to a connection stand in the table, in the data of its timer and in
the messages on their way, and its io watcher names its descriptor. The system
here is a worker together with what its event loop has registered. Everything
that the loop may call comes in any order: new connections, io events with any
mask, timers, and messages with any address and any number. libev calls back
only for what is registered.

The functions are those of `SignalingWorker` with the event loop added: the
watchers they create and delete, and a fault where a watcher is deleted that is
not there. The last part says that nothing else is different.
-/

import Xrtc.Server.ConnTable

namespace Xrtc.Server

open Xrtc.Machine Xrtc.Base

/-- A worker and its event loop. `ioEvents` and `timers` are the connections for
which the loop holds a watcher. `installed` are the connections that were put in
the table and have not been destroyed; nothing in the program depends on it. -/
structure WatchedWorker where
  worker : SignalingWorker
  ioEvents : List Addr := []
  timers : List Addr := []
  installed : List Addr := []

/-- What the loop calls. The kernel's answers and the allocator's choices are
free, and so is what stands in memory behind a receive buffer. -/
inductive LoopEvent
  | newConn (fd : ℤ) (setup peer : Bool) (addr : Addr) (now : ℕ)
  | io (addr : Addr) (mask : EventMask) (e : ReadEvent) (now : ℕ) (results : List WriteResult)
  | timer (addr : Addr) (now : ℕ)
  | rtcMsg (msg : RtcMsg) (memory : ReplyMsg)

namespace WatchedWorker

def start (timeout : ℤ) : WatchedWorker := { worker := { connectionTimeoutMs := timeout } }

/-- `_new_conn` with the two watchers it creates. -/
def newConn (s : WatchedWorker) (fd : ℤ) (setup peer : Bool) (addr : Addr) (now : ℕ) :
    Except Fault WatchedWorker := do
  let worker ← s.worker.newConn fd setup peer addr now
  if 0 ≤ fd ∧ setup = true ∧ peer = true then
    .ok
      { worker := worker
        ioEvents := addr :: s.ioEvents
        timers := addr :: s.timers
        installed := addr :: s.installed }
  else
    .ok { s with worker := worker }

/-- `_remove_conn` with the two watchers it deletes. There must be some. -/
def removeConn (s : WatchedWorker) (addr : Addr) (c : TcpConnection) :
    Except Fault WatchedWorker :=
  if addr ∈ s.timers ∧ addr ∈ s.ioEvents then
    (s.worker.removeConn addr c).map fun worker =>
      { worker := worker
        ioEvents := s.ioEvents.erase addr
        timers := s.timers.erase addr
        installed := s.installed.erase addr }
  else
    .error .wildPointer

/-- `_close_conn`. -/
def closeConn (s : WatchedWorker) (addr : Addr) : Except Fault WatchedWorker := do
  let c ← s.worker.deref addr
  s.removeConn addr c

/-- What an activation of `TcpConnection.readConn` makes of the worker. -/
def afterRead (s : WatchedWorker) (addr : Addr) :
    TcpConnection.ReadOutcome → Except Fault WatchedWorker
  | .kept c _ => .ok { s with worker := s.worker.store addr c }
  | .closed _ => s.closeConn addr
  | .aborted => .error .aborted
  | .overrun => .error .overrun
  | .looping => .error .looping

/-- `_read_conn`. -/
def readConn (s : WatchedWorker) (fuel : ℕ) (fd : ℤ) (e : ReadEvent) :
    Except Fault WatchedWorker :=
  if fd < 0 ∨ fd ≥ toInt32 s.worker.conns.length then
    .ok s
  else
    match s.worker.connAt fd with
    | none => .ok s
    | some addr => do
        let c ← s.worker.deref addr
        s.afterRead addr (c.readConn e.ret fuel e.now e.result)

/-- `_write_conn`. -/
def writeConn (s : WatchedWorker) (fd : ℤ) (now : ℕ) (results : List WriteResult) :
    Except Fault WatchedWorker :=
  if fd ≤ 0 ∨ toSize fd ≥ s.worker.conns.length then
    .ok s
  else
    match s.worker.connAt fd with
    | none => .ok s
    | some addr => do
        let c ← s.worker.deref addr
        let written := WriteState.writeLoop { replyMsgs := c.replyMsgs } results
        if written.failed then
          s.closeConn addr
        else if written.replyMsgs ≠ [] then
          .error .looping
        else
          .ok { s with
            worker := s.worker.store addr
              { c with
                replyMsgs := []
                lastActiveTime := now
                ioWatcher := stopIoEvent c.ioWatcher c.fd .WRITE } }

/-- `conn_io_cb` on the watcher of the connection at `addr`, whose descriptor is
the one the watcher was given. -/
def connIoCb (s : WatchedWorker) (fuel : ℕ) (addr : Addr) (mask : EventMask) (e : ReadEvent)
    (now : ℕ) (results : List WriteResult) : Except Fault WatchedWorker := do
  let c ← s.worker.deref addr
  let fd := c.ioWatcher.fd
  let afterRead := if mask.read then s.readConn fuel fd e else .ok s
  afterRead >>= fun s => if mask.write then s.writeConn fd now results else .ok s

/-- `conn_timer_cb`, with the connection its data points to. -/
def connTimerCb (s : WatchedWorker) (addr : Addr) (now : ℕ) : Except Fault WatchedWorker := do
  let c ← s.worker.deref addr
  if toSize ((now : ℤ) - c.lastActiveTime) ≥
      (s.worker.connectionTimeoutMs % 2 ^ 32).toNat then
    s.closeConn addr
  else
    .ok s

/-- The reply where the receive buffer is shorter than a header, and what stands
behind it is copied. -/
def overread (w : SignalingWorker) (msg : RtcMsg) (memory : ReplyMsg) : SignalingWorker :=
  match msg.conn with
  | none => w
  | some addr =>
      match w.heap addr with
      | none => w
      | some c => w.store addr (SignalingWorker.addReply c memory)

/-- `_process_rtc_msg` on the message it pops. -/
def processRtcMsg (writeString : ResRoot → List UInt8) (s : WatchedWorker) (msg : RtcMsg)
    (memory : ReplyMsg) : Except Fault WatchedWorker :=
  if msg.cmdno = CMDNO_PUSH then
    match s.worker.responseServerOffer writeString msg with
    | .ok (worker, _) => .ok { s with worker := worker }
    | .error fault =>
        if fault = .overrun ∧ (writeString (SignalingWorker.resRoot msg)).length ≤ MAX_RES_BUF then
          .ok { s with worker := overread s.worker msg memory }
        else
          .error fault
  else
    .ok s

/-- One callback. -/
def callback (writeString : ResRoot → List UInt8) (fuel : ℕ) (s : WatchedWorker) :
    LoopEvent → Except Fault WatchedWorker
  | .newConn fd setup peer addr now => s.newConn fd setup peer addr now
  | .io addr mask e now results => s.connIoCb fuel addr mask e now results
  | .timer addr now => s.connTimerCb addr now
  | .rtcMsg msg memory => s.processRtcMsg writeString msg memory

/-- A new connection has a positive `int` as its number and gets a free address.
An event comes only for a watcher that is registered. -/
def Enabled (s : WatchedWorker) : LoopEvent → Prop
  | .newConn fd _ _ addr _ => 1 ≤ fd ∧ fd < 2 ^ 31 ∧ s.worker.heap addr = none
  | .io addr _ _ _ _ => addr ∈ s.ioEvents
  | .timer addr _ => addr ∈ s.timers
  | .rtcMsg _ _ => True

instance (s : WatchedWorker) : DecidablePred s.Enabled
  | .newConn fd _ _ addr _ =>
      inferInstanceAs (Decidable (1 ≤ fd ∧ fd < 2 ^ 31 ∧ s.worker.heap addr = none))
  | .io addr _ _ _ _ => inferInstanceAs (Decidable (addr ∈ s.ioEvents))
  | .timer addr _ => inferInstanceAs (Decidable (addr ∈ s.timers))
  | .rtcMsg _ _ => inferInstanceAs (Decidable True)

/-- A callback that returns. -/
def step (writeString : ResRoot → List UInt8) (fuel : ℕ) (s : WatchedWorker) (event : LoopEvent) :
    Option WatchedWorker :=
  if s.Enabled event then (s.callback writeString fuel event).toOption else none

/-! ## The worker inside

What the callbacks do to the worker is what the functions of `SignalingWorker`
do to it: the event loop is added to them and changes nothing. -/

section Inside

variable {s next : WatchedWorker} {fd : ℤ} {addr : Addr} {now : ℕ}

theorem ok_bind {ε α β : Type} (value : α) (f : α → Except ε β) :
    (Except.ok value >>= f) = f value := rfl

theorem worker_closeConn (hclose : s.closeConn addr = .ok next) :
    s.worker.closeConn addr = .ok next.worker := by
  obtain ⟨c, hc, hremove⟩ := SignalingWorker.bind_eq_ok.mp hclose
  rw [WatchedWorker.removeConn] at hremove
  split at hremove
  · obtain ⟨w, hworker, rfl⟩ := SignalingWorker.map_eq_ok.mp hremove
    rw [SignalingWorker.closeConn, hc, ok_bind]
    exact hworker
  · cases hremove

theorem worker_readConn {fuel : ℕ} {e : ReadEvent} (hread : s.readConn fuel fd e = .ok next) :
    ∃ calls, s.worker.readConn fuel fd e = .ok (next.worker, calls) := by
  rw [WatchedWorker.readConn] at hread
  rw [SignalingWorker.readConn]
  split at hread
  · rename_i hrange
    cases hread
    exact ⟨[], if_pos hrange⟩
  rename_i hrange
  rw [if_neg hrange]
  cases haddr : s.worker.connAt fd with
  | none =>
      rw [haddr] at hread
      cases hread
      exact ⟨[], rfl⟩
  | some addr =>
      rw [haddr] at hread
      obtain ⟨c, hc, hafter⟩ := SignalingWorker.bind_eq_ok.mp hread
      change ∃ calls, (s.worker.deref addr >>= _) = _
      rw [hc, ok_bind]
      generalize c.readConn e.ret fuel e.now e.result = outcome at hafter ⊢
      cases outcome with
      | kept last made =>
          cases hafter
          exact ⟨made, rfl⟩
      | closed made =>
          rw [SignalingWorker.afterRead, worker_closeConn hafter]
          exact ⟨made, rfl⟩
      | aborted | overrun | looping => cases hafter

theorem worker_writeConn {results : List WriteResult}
    (hwrite : s.writeConn fd now results = .ok next) :
    ∃ sent, s.worker.writeConn fd now results = .ok (next.worker, sent) := by
  rw [WatchedWorker.writeConn] at hwrite
  rw [SignalingWorker.writeConn]
  split at hwrite
  · rename_i hrange
    cases hwrite
    exact ⟨[], if_pos hrange⟩
  rename_i hrange
  rw [if_neg hrange]
  cases haddr : s.worker.connAt fd with
  | none =>
      rw [haddr] at hwrite
      cases hwrite
      exact ⟨[], rfl⟩
  | some addr =>
      rw [haddr] at hwrite
      obtain ⟨c, hc, hafter⟩ := SignalingWorker.bind_eq_ok.mp hwrite
      change ∃ sent, (s.worker.deref addr >>= _) = _
      rw [hc, ok_bind]
      simp only at hafter ⊢
      split at hafter
      · rename_i hfailed
        rw [if_pos hfailed, worker_closeConn hafter]
        exact ⟨_, rfl⟩
      rename_i hfailed
      rw [if_neg hfailed]
      split at hafter
      · cases hafter
      · rename_i hempty
        rw [if_neg hempty]
        cases hafter
        exact ⟨_, rfl⟩

theorem worker_connTimerCb (htimer : s.connTimerCb addr now = .ok next) :
    s.worker.processTimeout addr now = .ok next.worker := by
  obtain ⟨c, hc, hafter⟩ := SignalingWorker.bind_eq_ok.mp htimer
  rw [SignalingWorker.processTimeout, hc, ok_bind]
  split at hafter
  · rename_i hexpired
    have hclose := worker_closeConn hafter
    rw [SignalingWorker.closeConn, hc, ok_bind] at hclose
    rw [if_pos hexpired, hclose]
  · rename_i hexpired
    rw [if_neg hexpired]
    cases hafter
    rfl

end Inside

end WatchedWorker

end Xrtc.Server

/-
# Idle connections

Every tick of a connection's timer compares the clock with the reading that was
stored at the last activity, as an unsigned difference. The clock is that of the
host and may be set back, so a tick may come with a smaller reading than the one
stored, and then the difference is huge.

Here the loop of `WatchedWorker` runs next to a history of the clock readings it
takes, each with the connection whose activity it belongs to. The stored reading
is the last one of the history; a timer that closes a connection has waited for
the whole timeout, provided that no tick is read before the activity it is
compared with.
-/

import Xrtc.Server.Watched

namespace Xrtc.Server

open Xrtc.Machine Xrtc.Base

/-- A clock reading, and the connection that was active when it was taken. The
reading of a timer belongs to nobody. -/
structure Note where
  reading : ℕ
  who : Option Addr := none
  deriving DecidableEq

/-- The reading at the last activity of a connection, in a history with the
latest note in front. -/
def lastActivity (addr : Addr) : List Note → Option ℕ
  | [] => none
  | note :: older => if note.who = some addr then some note.reading else lastActivity addr older

/-- The readings taken since the last activity of a connection. -/
def readingsSince (addr : Addr) : List Note → List ℕ
  | [] => []
  | note :: older =>
      if note.who = some addr then [] else note.reading :: readingsSince addr older

theorem lastActivity_append (addr : Addr) (latest older : List Note) :
    lastActivity addr (latest ++ older) =
      (lastActivity addr latest).or (lastActivity addr older) := by
  induction latest with
  | nil => rfl
  | cons note latest ih =>
      rw [List.cons_append, lastActivity, lastActivity]
      split
      · rfl
      · exact ih

theorem lastActivity_single (addr : Addr) (note : Note) :
    lastActivity addr [note] = if note.who = some addr then some note.reading else none := rfl

namespace WatchedWorker

/-! ## The readings a callback takes -/

/-- `_read_conn` reads the clock for the connection it has read from. -/
def readNotes (s : WatchedWorker) (fd : ℤ) (e : ReadEvent) : List Note :=
  if fd < 0 ∨ fd ≥ toInt32 s.worker.conns.length then
    []
  else
    match s.worker.connAt fd with
    | none => []
    | some addr => [⟨e.now, some addr⟩]

/-- `_write_conn` reads it for the connection whose replies are all written. -/
def writeNotes (s : WatchedWorker) (fd : ℤ) (now : ℕ) (results : List WriteResult) :
    List Note :=
  if fd ≤ 0 ∨ toSize fd ≥ s.worker.conns.length then
    []
  else
    match s.worker.connAt fd with
    | none => []
    | some addr =>
        match s.worker.heap addr with
        | none => []
        | some c =>
            if (WriteState.writeLoop { replyMsgs := c.replyMsgs } results).failed then
              []
            else
              [⟨now, some addr⟩]

/-- The worker between the two parts of `conn_io_cb`. -/
def betweenIo (fuel : ℕ) (s : WatchedWorker) (fd : ℤ) (mask : EventMask) (e : ReadEvent) :
    WatchedWorker :=
  if mask.read then (s.readConn fuel fd e).toOption.getD s else s

/-- The readings of one callback, the latest in front. A connection counts as
active when it is installed. -/
def notes (fuel : ℕ) (s : WatchedWorker) : LoopEvent → List Note
  | .newConn fd setup peer addr now =>
      if 0 ≤ fd ∧ setup = true ∧ peer = true then [⟨now, some addr⟩] else []
  | .io addr mask e now results =>
      match s.worker.heap addr with
      | none => []
      | some c =>
          let fd := c.ioWatcher.fd
          let written :=
            if mask.write then (s.betweenIo fuel fd mask e).writeNotes fd now results else []
          let read := if mask.read then s.readNotes fd e else []
          written ++ read
  | .timer _ now => [⟨now, none⟩]
  | .rtcMsg _ _ => []

/-! ## What a callback does to the times of last activity -/

/-- A timer belongs to one live connection. -/
structure Ticking (s : WatchedWorker) : Prop where
  nodup : s.timers.Nodup
  live : ∀ addr ∈ s.timers, ∃ c, s.worker.heap addr = some c

/-- What a callback that took the readings `taken` does: every connection with a
timer was last active at the last reading taken for it or, without one, when it
was before. Nothing changes the options. -/
structure Timed (s next : WatchedWorker) (taken : List Note) : Prop where
  nodup : next.timers.Nodup
  timeout_eq : next.worker.connectionTimeoutMs = s.worker.connectionTimeoutMs
  active : ∀ addr ∈ next.timers, ∃ c, next.worker.heap addr = some c ∧
    (lastActivity addr taken = some c.lastActiveTime ∨
      lastActivity addr taken = none ∧ addr ∈ s.timers ∧
        ∃ before, s.worker.heap addr = some before ∧
          before.lastActiveTime = c.lastActiveTime)

variable {s middle next : WatchedWorker} {addr : Addr} {c c' : TcpConnection} {fd : ℤ}
  {fuel now : ℕ} {taken latest : List Note}

theorem Timed.ticking (htimed : s.Timed next taken) : next.Ticking := by
  refine ⟨htimed.nodup, ?_⟩
  intro addr haddr
  obtain ⟨c, hc, -⟩ := htimed.active addr haddr
  exact ⟨c, hc⟩

/-- A reading that belongs to nobody, or none at all. -/
theorem Ticking.timed_refl (hs : s.Ticking) (hquiet : ∀ addr, lastActivity addr taken = none) :
    s.Timed s taken := by
  refine ⟨hs.nodup, rfl, ?_⟩
  intro addr haddr
  obtain ⟨c, hc⟩ := hs.live addr haddr
  exact ⟨c, hc, Or.inr ⟨hquiet addr, haddr, c, hc, rfl⟩⟩

/-- Two parts of a callback, one after the other. -/
theorem Timed.trans (hfirst : s.Timed middle taken) (hsecond : middle.Timed next latest) :
    s.Timed next (latest ++ taken) := by
  refine ⟨hsecond.nodup, hsecond.timeout_eq.trans hfirst.timeout_eq, ?_⟩
  intro addr haddr
  obtain ⟨c, hc, hlatest | ⟨hnone, hmiddle, before, hbefore, htime⟩⟩ := hsecond.active addr haddr
  · refine ⟨c, hc, Or.inl ?_⟩
    rw [lastActivity_append, hlatest]
    rfl
  · obtain ⟨d, hd, hcases⟩ := hfirst.active addr hmiddle
    rw [hbefore] at hd
    cases hd
    refine ⟨c, hc, ?_⟩
    rw [lastActivity_append, hnone, Option.none_or, ← htime]
    exact hcases

/-- A connection that is changed, with a reading for it exactly if its time is. -/
theorem Ticking.timed_store (hs : s.Ticking) (hheap : s.worker.heap addr = some c)
    (hself : lastActivity addr taken = some c'.lastActiveTime ∨
      lastActivity addr taken = none ∧ c.lastActiveTime = c'.lastActiveTime)
    (hothers : ∀ other, other ≠ addr → lastActivity other taken = none) :
    s.Timed { s with worker := s.worker.store addr c' } taken := by
  refine ⟨hs.nodup, rfl, ?_⟩
  intro other hother
  by_cases hsame : other = addr
  · subst hsame
    refine ⟨c', Function.update_self _ _ _, ?_⟩
    rcases hself with hnoted | ⟨hnone, htime⟩
    · exact Or.inl hnoted
    · exact Or.inr ⟨hnone, hother, c, hheap, htime⟩
  · obtain ⟨d, hd⟩ := hs.live other hother
    exact ⟨d, (Function.update_of_ne hsame _ _).trans hd,
      Or.inr ⟨hothers other hsame, hother, d, hd, rfl⟩⟩

/-- A connection that is closed takes no other one along. -/
theorem Ticking.timed_close (hs : s.Ticking) (hclose : s.closeConn addr = .ok next)
    (hothers : ∀ other, other ≠ addr → lastActivity other taken = none) :
    s.Timed next taken := by
  obtain ⟨c, -, hremove⟩ := SignalingWorker.bind_eq_ok.mp hclose
  rw [WatchedWorker.removeConn] at hremove
  split at hremove
  swap
  · cases hremove
  obtain ⟨w, hw, rfl⟩ := SignalingWorker.map_eq_ok.mp hremove
  obtain ⟨-, rfl⟩ := SignalingWorker.removeConn_eq_ok.mp hw
  refine ⟨hs.nodup.erase addr, rfl, ?_⟩
  intro other hother
  obtain ⟨hne, hmem⟩ := hs.nodup.mem_erase_iff.mp hother
  obtain ⟨d, hd⟩ := hs.live other hmem
  exact ⟨d, (Function.update_of_ne hne _ _).trans hd,
    Or.inr ⟨hothers other hne, hmem, d, hd, rfl⟩⟩

/-- The readings for one connection are no readings for another one. -/
theorem lastActivity_other {other : Addr} (reading : ℕ) (hne : other ≠ addr) :
    lastActivity other [⟨reading, some addr⟩] = none := by
  rw [lastActivity_single, if_neg]
  intro hsame
  exact hne (Option.some.inj hsame).symm

theorem lastActivity_self (addr : Addr) (reading : ℕ) :
    lastActivity addr [⟨reading, some addr⟩] = some reading := by
  rw [lastActivity_single, if_pos rfl]

theorem Ticking.timed_readConn {e : ReadEvent} (hs : s.Ticking)
    (hread : s.readConn fuel fd e = .ok next) : s.Timed next (s.readNotes fd e) := by
  rw [WatchedWorker.readConn] at hread
  rw [readNotes]
  split at hread
  · rename_i hrange
    cases hread
    rw [if_pos hrange]
    exact hs.timed_refl fun _ => rfl
  rename_i hrange
  rw [if_neg hrange]
  cases haddr : s.worker.connAt fd with
  | none =>
      rw [haddr] at hread
      cases hread
      exact hs.timed_refl fun _ => rfl
  | some addr =>
      rw [haddr] at hread
      obtain ⟨c, hc, hafter⟩ := SignalingWorker.bind_eq_ok.mp hread
      have hheap := SignalingWorker.deref_eq_ok.mp hc
      show s.Timed next [⟨e.now, some addr⟩]
      cases houtcome : c.readConn e.ret fuel e.now e.result with
      | kept last made =>
          rw [houtcome] at hafter
          cases hafter
          apply hs.timed_store hheap
          · left
            rw [lastActivity_self, TcpConnection.lastActiveTime_of_readConn houtcome]
          · intro other hother
            exact lastActivity_other _ hother
      | closed made =>
          rw [houtcome] at hafter
          exact hs.timed_close hafter fun other hother => lastActivity_other _ hother
      | aborted | overrun | looping =>
          rw [houtcome] at hafter
          cases hafter

theorem Ticking.timed_writeConn {results : List WriteResult} (hs : s.Ticking)
    (hwrite : s.writeConn fd now results = .ok next) :
    s.Timed next (s.writeNotes fd now results) := by
  rw [WatchedWorker.writeConn] at hwrite
  rw [writeNotes]
  split at hwrite
  · rename_i hrange
    cases hwrite
    rw [if_pos hrange]
    exact hs.timed_refl fun _ => rfl
  rename_i hrange
  rw [if_neg hrange]
  cases haddr : s.worker.connAt fd with
  | none =>
      rw [haddr] at hwrite
      cases hwrite
      exact hs.timed_refl fun _ => rfl
  | some addr =>
      rw [haddr] at hwrite
      obtain ⟨c, hc, hafter⟩ := SignalingWorker.bind_eq_ok.mp hwrite
      have hheap := SignalingWorker.deref_eq_ok.mp hc
      simp only [hheap] at hafter ⊢
      split at hafter
      · rename_i hfailed
        rw [if_pos hfailed]
        exact hs.timed_close hafter fun _ _ => rfl
      rename_i hfailed
      rw [if_neg hfailed]
      split at hafter
      · cases hafter
      · cases hafter
        apply hs.timed_store hheap
        · left
          rw [lastActivity_self]
        · intro other hother
          exact lastActivity_other _ hother

/-- A reply that is queued is no activity. -/
theorem Ticking.timed_addReply (hs : s.Ticking) (hheap : s.worker.heap addr = some c)
    (resMsg : ReplyMsg) :
    s.Timed { s with worker := s.worker.store addr (SignalingWorker.addReply c resMsg) } [] := by
  apply hs.timed_store hheap
  · right
    exact ⟨rfl, rfl⟩
  · intro _ _
    rfl

theorem Ticking.timed_responseServerOffer {writeString : ResRoot → List UInt8} {msg : RtcMsg}
    {w : SignalingWorker} {target : Option Addr} (hs : s.Ticking)
    (hreply : s.worker.responseServerOffer writeString msg = .ok (w, target)) :
    s.Timed { s with worker := w } [] := by
  rw [SignalingWorker.responseServerOffer] at hreply
  split at hreply
  · cases hreply
    exact hs.timed_refl fun _ => rfl
  · split at hreply
    · cases hreply
      exact hs.timed_refl fun _ => rfl
    · split at hreply
      · cases hreply
        exact hs.timed_refl fun _ => rfl
      · obtain ⟨c, hc, hrest⟩ := SignalingWorker.bind_eq_ok.mp hreply
        obtain ⟨resMsg, -, hqueued⟩ := SignalingWorker.bind_eq_ok.mp hrest
        cases hqueued
        exact hs.timed_addReply (SignalingWorker.deref_eq_ok.mp hc) resMsg

theorem Ticking.timed_overread (hs : s.Ticking) (msg : RtcMsg) (memory : ReplyMsg) :
    s.Timed { s with worker := overread s.worker msg memory } [] := by
  unfold overread
  split
  · exact hs.timed_refl fun _ => rfl
  · split
    · exact hs.timed_refl fun _ => rfl
    · rename_i c hc
      exact hs.timed_addReply hc memory

theorem Ticking.timed_processRtcMsg {writeString : ResRoot → List UInt8} {msg : RtcMsg}
    {memory : ReplyMsg} (hs : s.Ticking)
    (hmsg : s.processRtcMsg writeString msg memory = .ok next) : s.Timed next [] := by
  rw [WatchedWorker.processRtcMsg] at hmsg
  split at hmsg
  swap
  · cases hmsg
    exact hs.timed_refl fun _ => rfl
  cases hreply : s.worker.responseServerOffer writeString msg with
  | ok result =>
      obtain ⟨worker, target⟩ := result
      rw [hreply] at hmsg
      cases hmsg
      exact hs.timed_responseServerOffer hreply
  | error fault =>
      rw [hreply] at hmsg
      simp only at hmsg
      split at hmsg
      · cases hmsg
        exact hs.timed_overread msg memory
      · cases hmsg

/-- A connection at a free address takes the place of no other one. -/
theorem Ticking.timed_free {fresh : TcpConnection} {w : SignalingWorker} (hs : s.Ticking)
    (hfree : s.worker.heap addr = none)
    (hheap : w.heap = Function.update s.worker.heap addr (some fresh))
    (htimeout : w.connectionTimeoutMs = s.worker.connectionTimeoutMs) :
    s.Timed { s with worker := w } [] ∧
      s.Timed
        { worker := w
          ioEvents := addr :: s.ioEvents
          timers := addr :: s.timers
          installed := addr :: s.installed } [⟨fresh.lastActiveTime, some addr⟩] := by
  have hne {other : Addr} (hother : other ∈ s.timers) : other ≠ addr := by
    rintro rfl
    obtain ⟨d, hd⟩ := hs.live other hother
    rw [hfree] at hd
    cases hd
  have hkept {other : Addr} (hother : other ∈ s.timers) :
      ∃ d, w.heap other = some d ∧ s.worker.heap other = some d := by
    obtain ⟨d, hd⟩ := hs.live other hother
    refine ⟨d, ?_, hd⟩
    rw [hheap, Function.update_of_ne (hne hother), hd]
  refine ⟨⟨hs.nodup, htimeout, ?_⟩, ⟨?_, htimeout, ?_⟩⟩
  · intro other hother
    obtain ⟨d, hd, hbefore⟩ := hkept hother
    exact ⟨d, hd, Or.inr ⟨rfl, hother, d, hbefore, rfl⟩⟩
  · apply List.nodup_cons.mpr
    exact ⟨fun hmem => hne hmem rfl, hs.nodup⟩
  · intro other hother
    rcases List.mem_cons.mp hother with rfl | hold
    · refine ⟨fresh, ?_, Or.inl (lastActivity_self _ _)⟩
      rw [hheap, Function.update_self]
    · obtain ⟨d, hd, hbefore⟩ := hkept hold
      exact ⟨d, hd, Or.inr ⟨lastActivity_other _ (hne hold), hold, d, hbefore, rfl⟩⟩

/-- What `_new_conn` does to the heap: nothing, or it puts a connection at the
address of the allocator. -/
theorem heap_newConn {setup peer : Bool} {w : SignalingWorker}
    (hnew : s.worker.newConn fd setup peer addr now = .ok w) :
    w.connectionTimeoutMs = s.worker.connectionTimeoutMs ∧
      if 0 ≤ fd ∧ setup = true ∧ peer = true then
        w.heap = Function.update s.worker.heap addr (some (SignalingWorker.fresh fd now))
      else
        w = s.worker ∨ w.heap = Function.update s.worker.heap addr (some { fd := fd }) := by
  rw [SignalingWorker.newConn] at hnew
  split at hnew
  · rename_i hneg
    cases hnew
    rw [if_neg (by omega)]
    exact ⟨rfl, Or.inl rfl⟩
  split at hnew
  · rename_i hsetup
    cases hnew
    rw [if_neg (by simp_all)]
    exact ⟨rfl, Or.inl rfl⟩
  split at hnew
  · rename_i hpeer
    cases hnew
    rw [if_neg (by simp_all)]
    exact ⟨rfl, Or.inr rfl⟩
  · rename_i hfd hsetup hpeer
    obtain ⟨conns, -, hplace⟩ := SignalingWorker.bind_eq_ok.mp hnew
    split at hplace
    · cases hplace
      rw [if_pos (by simp_all)]
      exact ⟨rfl, rfl⟩
    · cases hplace

/-- A connection that is installed starts with the reading of its installation. -/
theorem Ticking.timed_newConn {setup peer : Bool} (hs : s.Ticking)
    (hfree : s.worker.heap addr = none)
    (hnew : s.newConn fd setup peer addr now = .ok next) :
    s.Timed next (s.notes fuel (.newConn fd setup peer addr now)) := by
  obtain ⟨w, hworker, hafter⟩ := SignalingWorker.bind_eq_ok.mp hnew
  obtain ⟨htimeout, hheap⟩ := heap_newConn hworker
  rw [notes]
  split at hafter
  · rename_i hinstalled
    rw [if_pos hinstalled] at hheap ⊢
    cases hafter
    exact (hs.timed_free hfree hheap htimeout).2
  · rename_i hinstalled
    rw [if_neg hinstalled] at hheap ⊢
    cases hafter
    rcases hheap with rfl | hleaked
    · exact hs.timed_refl fun _ => rfl
    · exact (hs.timed_free hfree hleaked htimeout).1

/-- The two parts of `conn_io_cb`, and what each of them notes. -/
theorem Ticking.timed_connIoCb {mask : EventMask} {e : ReadEvent} {results : List WriteResult}
    (hs : s.Ticking) (hio : s.connIoCb fuel addr mask e now results = .ok next) :
    s.Timed next (s.notes fuel (.io addr mask e now results)) := by
  obtain ⟨c, hc, hparts⟩ := SignalingWorker.bind_eq_ok.mp hio
  obtain ⟨between, hread, hwrite⟩ := SignalingWorker.bind_eq_ok.mp hparts
  have hbetween : s.betweenIo fuel c.ioWatcher.fd mask e = between := by
    rw [betweenIo]
    split at hread
    · rename_i hmask
      rw [if_pos hmask, hread]
      rfl
    · rename_i hmask
      rw [if_neg hmask]
      cases hread
      rfl
  have hfirst : s.Timed between (if mask.read then s.readNotes c.ioWatcher.fd e else []) := by
    split at hread
    · rename_i hmask
      rw [if_pos hmask]
      exact hs.timed_readConn hread
    · rename_i hmask
      rw [if_neg hmask]
      cases hread
      exact hs.timed_refl fun _ => rfl
  rw [notes, SignalingWorker.deref_eq_ok.mp hc]
  simp only [hbetween]
  apply hfirst.trans
  · split at hwrite
    · rename_i hmask
      rw [if_pos hmask]
      exact hfirst.ticking.timed_writeConn hwrite
    · rename_i hmask
      rw [if_neg hmask]
      cases hwrite
      exact hfirst.ticking.timed_refl fun _ => rfl

theorem Ticking.timed_connTimerCb (hs : s.Ticking)
    (htimer : s.connTimerCb addr now = .ok next) : s.Timed next [⟨now, none⟩] := by
  have hnobody (other : Addr) : lastActivity other [⟨now, none⟩] = none := rfl
  obtain ⟨c, -, hafter⟩ := SignalingWorker.bind_eq_ok.mp htimer
  split at hafter
  · exact hs.timed_close hafter fun other _ => hnobody other
  · cases hafter
    exact hs.timed_refl hnobody

variable {writeString : ResRoot → List UInt8} {event : LoopEvent}

/-- The allocator hands out free memory, and libev calls back for what is
registered. The descriptor of a new connection may be any number. -/
def Called (s : WatchedWorker) : LoopEvent → Prop
  | .newConn _ _ _ addr _ => s.worker.heap addr = none
  | .io addr _ _ _ _ => addr ∈ s.ioEvents
  | .timer addr _ => addr ∈ s.timers
  | .rtcMsg _ _ => True

instance (s : WatchedWorker) : DecidablePred s.Called
  | .newConn _ _ _ addr _ => inferInstanceAs (Decidable (s.worker.heap addr = none))
  | .io addr _ _ _ _ => inferInstanceAs (Decidable (addr ∈ s.ioEvents))
  | .timer addr _ => inferInstanceAs (Decidable (addr ∈ s.timers))
  | .rtcMsg _ _ => inferInstanceAs (Decidable True)

/-- **One callback** leaves every connection with the time of its last activity. -/
theorem Ticking.timed_callback (hs : s.Ticking) (hcalled : s.Called event)
    (hcallback : s.callback writeString fuel event = .ok next) :
    s.Timed next (s.notes fuel event) := by
  cases event with
  | newConn fd setup peer addr now => exact hs.timed_newConn hcalled hcallback
  | io addr mask e now results => exact hs.timed_connIoCb hcallback
  | timer addr now => exact hs.timed_connTimerCb hcallback
  | rtcMsg msg memory => exact hs.timed_processRtcMsg hcallback

end WatchedWorker

/-! ## Runs with a history -/

/-- A loop and the clock readings it has taken, the latest in front. Nothing in
the program depends on the history. -/
structure ClockedWorker where
  system : WatchedWorker
  history : List Note := []

namespace ClockedWorker

def start (timeout : ℤ) : ClockedWorker := { system := .start timeout }

/-- One callback that returns, with the readings it takes. -/
def step (writeString : ResRoot → List UInt8) (fuel : ℕ) (s : ClockedWorker)
    (event : LoopEvent) : Option ClockedWorker :=
  if s.system.Called event then
    (s.system.callback writeString fuel event).toOption.map fun next =>
      { system := next, history := s.system.notes fuel event ++ s.history }
  else
    none

/-- The timer of a connection does not tick at a reading before the one of its
last activity. -/
def NotSetBack (s : ClockedWorker) : LoopEvent → Prop
  | .timer addr now => ∀ active ∈ lastActivity addr s.history, active ≤ now
  | .newConn .. | .io .. | .rtcMsg .. => True

instance (s : ClockedWorker) : DecidablePred s.NotSetBack
  | .timer addr now =>
      inferInstanceAs (Decidable (∀ active ∈ lastActivity addr s.history, active ≤ now))
  | .newConn .. | .io .. | .rtcMsg .. => inferInstanceAs (Decidable True)

/-- At a tick of its timer with the reading `now`, some reading taken since the
last activity of the connection is later than that activity by the timeout. -/
def Idle (timeout : ℤ) (history : List Note) (addr : Addr) (now : ℕ) : Prop :=
  ∃ active ∈ lastActivity addr history,
    ∃ reading ∈ now :: readingsSince addr history, (active : ℤ) + timeout ≤ reading

/-- Every connection with a timer stores the reading of its last activity. -/
structure Tracked (timeout : ℤ) (s : ClockedWorker) : Prop where
  ticking : s.system.Ticking
  timeout_eq : s.system.worker.connectionTimeoutMs = timeout
  active : ∀ addr ∈ s.system.timers, ∃ c, s.system.worker.heap addr = some c ∧
    lastActivity addr s.history = some c.lastActiveTime

variable {writeString : ResRoot → List UInt8} {fuel : ℕ} {timeout : ℤ}
  {s next : ClockedWorker} {event : LoopEvent} {addr : Addr} {now : ℕ}

theorem step_eq_some :
    s.step writeString fuel event = some next ↔
      s.system.Called event ∧ ∃ system, s.system.callback writeString fuel event = .ok system ∧
        next = { system := system, history := s.system.notes fuel event ++ s.history } := by
  rw [step]
  split
  · rename_i hcalled
    cases s.system.callback writeString fuel event <;>
      simp [Except.toOption, hcalled, eq_comm]
  · rename_i hcalled
    simp [hcalled]

theorem tracked_start (timeout : ℤ) : (start timeout).Tracked timeout where
  ticking := ⟨List.nodup_nil, by intro addr haddr; cases haddr⟩
  timeout_eq := rfl
  active := by
    intro addr haddr
    cases haddr

theorem Tracked.step (hs : s.Tracked timeout) (hstep : s.step writeString fuel event = some next) :
    next.Tracked timeout := by
  obtain ⟨hcalled, system, hcallback, rfl⟩ := step_eq_some.mp hstep
  have htimed := hs.ticking.timed_callback hcalled hcallback
  refine ⟨htimed.ticking, htimed.timeout_eq.trans hs.timeout_eq, ?_⟩
  intro addr haddr
  obtain ⟨c, hc, hcases⟩ := htimed.active addr haddr
  refine ⟨c, hc, ?_⟩
  rw [lastActivity_append]
  rcases hcases with htaken | ⟨hnone, hbelongs, before, hbefore, htime⟩
  · rw [htaken]
    rfl
  · obtain ⟨d, hd, hactive⟩ := hs.active addr hbelongs
    rw [hbefore] at hd
    cases hd
    rw [hnone, Option.none_or, hactive, htime]

theorem tracked_run {events : List LoopEvent} {last : ClockedWorker}
    (hrun : run (step writeString fuel) (start timeout) events = some last) :
    last.Tracked timeout := by
  refine run_preserves (Tracked timeout) ?_ (tracked_start timeout) hrun
  intro s next event hs hstep
  exact hs.step hstep

/-- Between readings that are in order, the unsigned difference is not larger than
the difference, and the timeout as an `unsigned int` is not smaller than the
timeout. -/
theorem add_timeout_le_of_expired {active : ℕ} (hint : timeout < 2 ^ 31) (horder : active ≤ now)
    (hexpired : toSize ((now : ℤ) - active) ≥ (timeout % 2 ^ 32).toNat) :
    (active : ℤ) + timeout ≤ now := by
  have hdifference : (toSize ((now : ℤ) - active) : ℤ) ≤ now - active := by
    unfold toSize
    omega
  have htimeout : timeout ≤ ((timeout % 2 ^ 32).toNat : ℤ) := by omega
  omega

/-- One tick: it changes nothing, or the connection was idle. -/
theorem Tracked.timer (hs : s.Tracked timeout) (hint : timeout < 2 ^ 31)
    (hclock : s.NotSetBack (.timer addr now))
    (hstep : s.step writeString fuel (.timer addr now) = some next) :
    next.system = s.system ∨ Idle timeout s.history addr now := by
  obtain ⟨hcalled, system, hcallback, rfl⟩ := step_eq_some.mp hstep
  obtain ⟨c, hc, hactive⟩ := hs.active addr hcalled
  obtain ⟨d, hd, hafter⟩ := SignalingWorker.bind_eq_ok.mp hcallback
  rw [SignalingWorker.deref_eq_ok, hc] at hd
  cases hd
  split at hafter
  · rename_i hexpired
    rw [hs.timeout_eq] at hexpired
    right
    refine ⟨c.lastActiveTime, hactive, now, List.mem_cons_self, ?_⟩
    exact add_timeout_le_of_expired hint (hclock c.lastActiveTime hactive) hexpired
  · left
    cases hafter
    rfl

/-- **Only idle connections time out.** In a run in which no timer ticks at a
reading before the last activity of its connection, a tick leaves everything as
it is unless some reading since that activity is later by the timeout. The
timeout is an `int`. -/
theorem run_closes_idle (writeString : ResRoot → List UInt8) (fuel : ℕ) (timeout : ℤ)
    (first rest : List LoopEvent) (addr : Addr) (now : ℕ) (before after : ClockedWorker)
    (hint : timeout < 2 ^ 31)
    (hmeets : RunMeets (step writeString fuel) NotSetBack (start timeout)
      (first ++ .timer addr now :: rest))
    (hrun : run (step writeString fuel) (start timeout) first = some before)
    (htick : before.step writeString fuel (.timer addr now) = some after) :
    after.system = before.system ∨ Idle timeout before.history addr now :=
  (tracked_run hrun).timer hint (hmeets.behind hrun).1 htick

/-- A run and one more step, evaluated together. -/
theorem exists_lastStep {α : Type} {first : List LoopEvent} {found : α}
    {view : ClockedWorker → ClockedWorker → α}
    (hview : ((run (step writeString fuel) (start timeout) first).bind fun before =>
      (before.step writeString fuel event).map (view before)) = some found) :
    ∃ before after, run (step writeString fuel) (start timeout) first = some before ∧
      before.step writeString fuel event = some after ∧ view before after = found := by
  obtain ⟨before, hrun, hrest⟩ := Option.bind_eq_some_iff.mp hview
  obtain ⟨after, hstep, hafter⟩ := Option.map_eq_some_iff.mp hrest
  exact ⟨before, after, hrun, hstep, hafter⟩

/-- Whether the connection at an address is there before and after a tick, and
the readings before it. -/
def tickView (addr : Addr) (before after : ClockedWorker) : Bool × Bool × List Note :=
  ((before.system.worker.heap addr).isSome, (after.system.worker.heap addr).isSome,
    before.history)

/-- A connection that is installed and read from. -/
def readOnce : List LoopEvent :=
  [.newConn 5 true true 100 1000, .io 100 .READ { result := .wouldBlock, now := 2000 } 2000 []]

/-- Five seconds after it was read from, the connection is closed. -/
theorem run_closes_idle_readOnce :
    ∃ before after, run (step (fun _ => []) 3) (start 5000000) readOnce = some before ∧
      before.step (fun _ => []) 3 (.timer 100 5002000) = some after ∧
      after.system.worker.heap 100 = none ∧ Idle 5000000 before.history 100 5002000 := by
  obtain ⟨before, after, hrun, htick, hview⟩ :
      ∃ before after, run (step (fun _ => []) 3) (start 5000000) readOnce = some before ∧
        before.step (fun _ => []) 3 (.timer 100 5002000) = some after ∧
        tickView 100 before after = (true, false, [⟨2000, some 100⟩, ⟨1000, some 100⟩]) :=
    exists_lastStep (by decide +kernel)
  obtain ⟨hbefore, hrest⟩ := Prod.mk.inj hview
  obtain ⟨hafter, -⟩ := Prod.mk.inj hrest
  refine ⟨before, after, hrun, htick, by simpa using hafter, ?_⟩
  rcases run_closes_idle (fun _ => []) 3 5000000 readOnce [] 100 5002000 before after
    (by decide) (by decide +kernel) hrun htick with hsame | hidle
  · rw [hsame, hbefore] at hafter
    cases hafter
  · exact hidle

/-- A connection that is read from ten seconds after it was installed. -/
def readLate : List LoopEvent :=
  [.newConn 5 true true 100 1699999990000000,
    .io 100 .READ { result := .wouldBlock, now := 1700000000000000 } 0 []]

/-- **A clock that is set back closes connections.** A connection is read
from, the clock is set back by one second, and the next tick closes the
connection, although no reading since is later than the one of the read. -/
theorem setBack_closes_active :
    ∃ before after,
      run (step (fun _ => []) 3) (start 5000000) readLate = some before ∧
      before.step (fun _ => []) 3 (.timer 100 1699999999000000) = some after ∧
      before.system.worker.heap 100 ≠ none ∧ after.system.worker.heap 100 = none ∧
      ¬(after.system = before.system ∨
        Idle 5000000 before.history 100 1699999999000000) := by
  obtain ⟨before, after, hrun, htick, hview⟩ :
      ∃ before after,
        run (step (fun _ => []) 3) (start 5000000) readLate = some before ∧
        before.step (fun _ => []) 3 (.timer 100 1699999999000000) = some after ∧
        tickView 100 before after = (true, false,
          [⟨1700000000000000, some 100⟩, ⟨1699999990000000, some 100⟩]) :=
    exists_lastStep (by decide +kernel)
  obtain ⟨hbefore, hrest⟩ := Prod.mk.inj hview
  obtain ⟨hafter, hhistory⟩ := Prod.mk.inj hrest
  refine ⟨before, after, hrun, htick, ?_, by simpa using hafter, ?_⟩
  · intro hnone
    rw [hnone] at hbefore
    cases hbefore
  · rintro (hsame | ⟨active, hactive, reading, hreading, hlater⟩)
    · rw [hsame, hbefore] at hafter
      cases hafter
    · rw [hhistory, lastActivity, if_pos rfl] at hactive
      cases hactive
      rw [hhistory, readingsSince, if_pos rfl, List.mem_singleton] at hreading
      rw [hreading] at hlater
      exact absurd hlater (by decide)

end ClockedWorker

end Xrtc.Server

/-
# Watchers and reply queues

A connection is armed when its watcher is active, watches for reading, and
watches for writing exactly while a reply is queued. Two places change the mask,
the one that queues a reply and the one that has written all of them, and every
connection is armed whenever the loop is between two callbacks.

A callback does a few things to the state, each to one connection: it changes
the connection, destroys it with its watchers, or installs a new one. These are
listed once, and the invariant is checked against that list.
-/

import Xrtc.Server.Watched

namespace Xrtc.Server

open Xrtc.Machine Xrtc.Base

/-- The watcher of a connection is active, watches its descriptor for reading,
and for writing exactly while a reply is queued. -/
structure TcpConnection.Armed (c : TcpConnection) : Prop where
  fd_eq : c.ioWatcher.fd = c.fd
  active : c.ioWatcher.active = true
  read : c.ioWatcher.events.read = true
  write : c.ioWatcher.events.write = true ↔ c.replyMsgs ≠ []

namespace TcpConnection.Armed

variable {c : TcpConnection}

theorem fresh (fd : ℤ) (now : ℕ) : (SignalingWorker.fresh fd now).Armed :=
  ⟨rfl, rfl, rfl, by simp [SignalingWorker.fresh, startIoEvent, createIoEvent, IOWatcher.restart,
    EventMask.READ]⟩

/-- A reply arms the watcher for writing, once. -/
theorem addReply (h : c.Armed) (resMsg : ReplyMsg) : (SignalingWorker.addReply c resMsg).Armed := by
  obtain ⟨hfd, hactive, hread, hwrite⟩ := h
  have hqueued : (SignalingWorker.addReply c resMsg).replyMsgs ≠ [] := by
    simp [SignalingWorker.addReply]
  have hwatcher : (SignalingWorker.addReply c resMsg).ioWatcher =
      startIoEvent c.ioWatcher c.fd .WRITE := rfl
  have hfd' : (SignalingWorker.addReply c resMsg).fd = c.fd := rfl
  rw [startIoEvent, if_pos hactive] at hwatcher
  simp only at hwatcher
  split at hwatcher
  · -- writing is watched already
    rename_i hsame
    have hset : c.ioWatcher.events.write = true := by
      rw [← hsame]
      simp [EventMask.union, EventMask.WRITE]
    refine ⟨?_, ?_, ?_, ?_⟩
    · rw [hwatcher, hfd, hfd']
    · rw [hwatcher, hactive]
    · rw [hwatcher, hread]
    · rw [hwatcher, hset]
      exact ⟨fun _ => hqueued, fun _ => rfl⟩
  · refine ⟨?_, ?_, ?_, ?_⟩
    · rw [hwatcher]
      rfl
    · rw [hwatcher]
      rfl
    · rw [hwatcher]
      simp [IOWatcher.restart, EventMask.union, hread]
    · rw [hwatcher]
      simp [IOWatcher.restart, EventMask.union, EventMask.WRITE, hqueued]

/-- An empty queue disarms the watcher for writing. -/
theorem written (h : c.Armed) (now : ℕ) :
    TcpConnection.Armed { c with
      replyMsgs := []
      lastActiveTime := now
      ioWatcher := stopIoEvent c.ioWatcher c.fd .WRITE } := by
  obtain ⟨hfd, hactive, hread, -⟩ := h
  have hdiff : c.ioWatcher.events.diff .WRITE = .READ := by
    simp [EventMask.diff, EventMask.WRITE, EventMask.READ, hread]
  have hsome : EventMask.READ ≠ .NONE := by decide
  unfold stopIoEvent
  simp only [hdiff, ne_eq, hsome, not_false_iff, if_true]
  split
  · rename_i hsame
    exact ⟨hfd, hactive, hread, by simp [← hsame, EventMask.READ]⟩
  · exact ⟨rfl, rfl, rfl, by simp [IOWatcher.restart, EventMask.READ]⟩

/-- A read leaves the watcher and the queue alone. -/
theorem readConn {next : TcpConnection} {ret : ℕ → ℤ} {fuel now : ℕ} {r : ReadResult}
    {made : List RequestCall} (h : c.Armed)
    (hkept : c.readConn ret fuel now r = .kept next made) : next.Armed := by
  obtain ⟨hfd, hwatcher, hreplies⟩ := TcpConnection.frame_of_readConn hkept
  refine ⟨?_, ?_, ?_, ?_⟩
  · rw [hwatcher, hfd, h.fd_eq]
  · rw [hwatcher, h.active]
  · rw [hwatcher, h.read]
  · rw [hwatcher, hreplies]
    exact h.write

end TcpConnection.Armed

namespace WatchedWorker

/-! ## What a callback does to the state -/

/-- What a callback does to one connection that is there: change it, or destroy
it with its watchers. -/
inductive Effect (s : WatchedWorker) : WatchedWorker → Prop
  | stored {addr : Addr} {c c' : TcpConnection} (heap : s.worker.heap addr = some c)
      (fd_eq : c'.fd = c.fd) (armed : c.Armed → c'.Armed) :
      Effect s { s with worker := s.worker.store addr c' }
  | removed {addr : Addr} {c : TcpConnection} {w : SignalingWorker}
      (mem : addr ∈ s.installed) (heap : s.worker.heap addr = some c)
      (remove : s.worker.removeConn addr c = .ok w) :
      Effect s
        { worker := w
          ioEvents := s.ioEvents.erase addr
          timers := s.timers.erase addr
          installed := s.installed.erase addr }

/-- A callback returns after such effects, or ends the thread in a way that is
neither a wild pointer nor an index out of range. -/
def Orderly (s : WatchedWorker) : Except Fault WatchedWorker → Prop
  | .ok next => Relation.ReflTransGen Effect s next
  | .error fault => fault ≠ .wildPointer ∧ fault ≠ .outOfRange

/-- The loop holds one io watcher and one timer for each installed connection,
every installed connection is live and armed, its number is inside the table,
and the table has no others. -/
structure Registered (s : WatchedWorker) : Prop where
  consistent : s.worker.Consistent
  ioEvents : s.ioEvents = s.installed
  timers : s.timers = s.installed
  nodup : s.installed.Nodup
  live : ∀ addr ∈ s.installed, ∃ c, s.worker.heap addr = some c ∧ 1 ≤ c.fd ∧
    c.fd.toNat < s.worker.conns.length ∧ c.Armed
  entries : ∀ fd, 0 ≤ fd → ∀ addr, s.worker.connAt fd = some addr → addr ∈ s.installed

variable {s next : WatchedWorker} {fd : ℤ} {addr : Addr} {c : TcpConnection} {fuel now : ℕ}

theorem registered_start (timeout : ℤ) : (start timeout).Registered where
  consistent := SignalingWorker.consistent_empty timeout
  ioEvents := rfl
  timers := rfl
  nodup := List.nodup_nil
  live := by
    intro addr haddr
    cases haddr
  entries := by
    intro fd _ addr haddr
    simp [start, SignalingWorker.connAt] at haddr

theorem Registered.effect (hs : s.Registered) (heffect : Effect s next) : next.Registered := by
  cases heffect with
  | @stored addr c c' heap fd_eq armed =>
      refine ⟨hs.consistent.store heap fd_eq, hs.ioEvents, hs.timers, hs.nodup, ?_, hs.entries⟩
      intro a ha
      obtain ⟨d, hd, hpos, hlt, harmed⟩ := hs.live a ha
      by_cases hsame : a = addr
      · subst hsame
        rw [heap] at hd
        cases hd
        exact ⟨c', Function.update_self _ _ _, fd_eq ▸ hpos, fd_eq ▸ hlt, armed harmed⟩
      · exact ⟨d, (Function.update_of_ne hsame _ _).trans hd, hpos, hlt, harmed⟩
  | @removed addr c w _ heap remove =>
      obtain ⟨hconsistent, hshrinks⟩ :=
        SignalingWorker.removeConn_keeps hs.consistent heap remove
      obtain ⟨-, rfl⟩ := SignalingWorker.removeConn_eq_ok.mp remove
      refine ⟨hconsistent, ?_, ?_, hs.nodup.erase addr, ?_, ?_⟩
      · simp only [hs.ioEvents]
      · simp only [hs.timers]
      · intro a ha
        obtain ⟨hne, ha'⟩ := hs.nodup.mem_erase_iff.mp ha
        obtain ⟨d, hd, hpos, hlt, harmed⟩ := hs.live a ha'
        exact ⟨d, (Function.update_of_ne hne _ _).trans hd, hpos, by rwa [List.length_set], harmed⟩
      · intro n hn a ha
        have hold := hshrinks n hn a ha
        obtain ⟨d, hd, -⟩ := hconsistent.entry n hn a ha
        have hne : a ≠ addr := by
          rintro rfl
          cases (Function.update_self _ _ _).symm.trans hd
        exact hs.nodup.mem_erase_iff.mpr ⟨hne, hs.entries n hn a hold⟩

theorem Registered.effects (hs : s.Registered) (heffects : Relation.ReflTransGen Effect s next) :
    next.Registered := by
  induction heffects with
  | refl => exact hs
  | tail _ hlast ih => exact ih.effect hlast

/-- An installed connection can be closed. -/
theorem Registered.closeConn (hs : s.Registered) (haddr : addr ∈ s.installed) :
    s.Orderly (s.closeConn addr) := by
  obtain ⟨c, hc, hpos, hlt, -⟩ := hs.live addr haddr
  have hwatched : addr ∈ s.timers ∧ addr ∈ s.ioEvents := by
    rw [hs.timers, hs.ioEvents]
    exact ⟨haddr, haddr⟩
  have hremove : s.worker.removeConn addr c = .ok
      { s.worker with
        conns := s.worker.conns.set c.fd.toNat none
        heap := Function.update s.worker.heap addr none } :=
    SignalingWorker.removeConn_eq_ok.mpr ⟨⟨by omega, hlt⟩, rfl⟩
  rw [WatchedWorker.closeConn, SignalingWorker.deref_eq_ok.mpr hc, ok_bind,
    WatchedWorker.removeConn, if_pos hwatched, hremove]
  exact .single (.removed haddr hc hremove)

/-- An entry of the table leads to a live connection. -/
theorem Registered.entry (hs : s.Registered) (hfd : 0 ≤ fd)
    (haddr : s.worker.connAt fd = some addr) :
    addr ∈ s.installed ∧ ∃ c, s.worker.heap addr = some c ∧ s.worker.deref addr = .ok c := by
  obtain ⟨c, hc, -⟩ := hs.consistent.entry fd hfd addr haddr
  exact ⟨hs.entries fd hfd addr haddr, c, hc, SignalingWorker.deref_eq_ok.mpr hc⟩

theorem Registered.afterRead {e : ReadEvent} (hs : s.Registered) (haddr : addr ∈ s.installed)
    (hc : s.worker.heap addr = some c) (outcome : TcpConnection.ReadOutcome)
    (houtcome : c.readConn e.ret fuel e.now e.result = outcome) :
    s.Orderly (s.afterRead addr outcome) := by
  cases outcome with
  | kept last made =>
      exact .single (.stored hc (TcpConnection.frame_of_readConn houtcome).1
        fun harmed => harmed.readConn houtcome)
  | closed made => exact hs.closeConn haddr
  | aborted | overrun | looping => exact ⟨by decide, by decide⟩

theorem Registered.readConn (hs : s.Registered) (fuel : ℕ) (fd : ℤ) (e : ReadEvent) :
    s.Orderly (s.readConn fuel fd e) := by
  rw [WatchedWorker.readConn]
  split
  · exact .refl
  · rename_i hrange
    split
    · exact .refl
    · rename_i addr haddr
      have hfd : 0 ≤ fd := not_lt.mp fun hneg => hrange (Or.inl hneg)
      obtain ⟨hinstalled, c, hc, hderef⟩ := hs.entry hfd haddr
      rw [hderef, ok_bind]
      generalize houtcome : c.readConn e.ret fuel e.now e.result = outcome
      exact hs.afterRead hinstalled hc outcome houtcome

theorem Registered.writeConn (hs : s.Registered) (fd : ℤ) (now : ℕ) (results : List WriteResult) :
    s.Orderly (s.writeConn fd now results) := by
  rw [WatchedWorker.writeConn]
  split
  · exact .refl
  · rename_i hrange
    split
    · exact .refl
    · rename_i addr haddr
      have hfd : 0 < fd := not_le.mp fun hneg => hrange (Or.inl hneg)
      obtain ⟨hinstalled, c, hc, hderef⟩ := hs.entry hfd.le haddr
      rw [hderef, ok_bind]
      simp only
      split
      · exact hs.closeConn hinstalled
      · split
        · exact ⟨by decide, by decide⟩
        · exact .single (.stored hc rfl fun harmed => harmed.written now)

/-- Effects of two calls in a row. -/
theorem Orderly.bind {result : Except Fault WatchedWorker}
    {f : WatchedWorker → Except Fault WatchedWorker} (hresult : s.Orderly result)
    (hf : ∀ middle, Relation.ReflTransGen Effect s middle → middle.Orderly (f middle)) :
    s.Orderly (result >>= f) := by
  cases result with
  | error fault => exact hresult
  | ok middle =>
      have hsecond := hf middle hresult
      change s.Orderly (f middle)
      cases hlast : f middle with
      | error fault =>
          rw [hlast] at hsecond
          exact hsecond
      | ok last =>
          rw [hlast] at hsecond
          exact Relation.ReflTransGen.trans hresult hsecond

theorem Registered.connIoCb (hs : s.Registered) (haddr : addr ∈ s.ioEvents) (fuel : ℕ)
    (mask : EventMask) (e : ReadEvent) (now : ℕ) (results : List WriteResult) :
    s.Orderly (s.connIoCb fuel addr mask e now results) := by
  obtain ⟨c, hc, -⟩ := hs.live addr (hs.ioEvents ▸ haddr)
  rw [WatchedWorker.connIoCb, SignalingWorker.deref_eq_ok.mpr hc]
  refine @Orderly.bind s _ _ ?_ ?_
  · split
    · exact hs.readConn fuel _ e
    · exact .refl
  · intro middle hmiddle
    split
    · exact (hs.effects hmiddle).writeConn _ now results
    · exact .refl

theorem Registered.connTimerCb (hs : s.Registered) (haddr : addr ∈ s.timers) (now : ℕ) :
    s.Orderly (s.connTimerCb addr now) := by
  have hinstalled : addr ∈ s.installed := hs.timers ▸ haddr
  obtain ⟨c, hc, -⟩ := hs.live addr hinstalled
  rw [WatchedWorker.connTimerCb, SignalingWorker.deref_eq_ok.mpr hc, ok_bind]
  split
  · exact hs.closeConn hinstalled
  · exact .refl

/-- The ways in which a reply is not queued on a connection of the table. -/
theorem responseServerOffer_error {writeString : ResRoot → List UInt8} {w : SignalingWorker}
    {msg : RtcMsg} {fault : Fault} (hw : w.Consistent)
    (hreply : w.responseServerOffer writeString msg = .error fault) : fault = .overrun := by
  rw [SignalingWorker.responseServerOffer] at hreply
  split at hreply
  · cases hreply
  · split at hreply
    · cases hreply
    · rename_i hrange
      split at hreply
      · cases hreply
      · rename_i hentry
        have hfd : 0 < msg.fd := not_le.mp fun hneg => hrange (Or.inl hneg)
        obtain ⟨c, hc, -⟩ := hw.entry msg.fd hfd.le _ (not_not.mp hentry)
        rw [SignalingWorker.deref_eq_ok.mpr hc, ok_bind, SignalingWorker.replyFrame] at hreply
        split at hreply
        · cases hreply
        · cases hreply
          rfl

/-- A reply that is queued changes the connection it is queued on. -/
theorem effects_of_reply {writeString : ResRoot → List UInt8} {msg : RtcMsg} {w : SignalingWorker}
    {target : Option Addr} (hreply : s.worker.responseServerOffer writeString msg = .ok (w, target)) :
    Relation.ReflTransGen Effect s { s with worker := w } := by
  rw [SignalingWorker.responseServerOffer] at hreply
  split at hreply
  · cases hreply
    exact .refl
  · split at hreply
    · cases hreply
      exact .refl
    · split at hreply
      · cases hreply
        exact .refl
      · obtain ⟨c, hc, hrest⟩ := SignalingWorker.bind_eq_ok.mp hreply
        obtain ⟨resMsg, -, hqueued⟩ := SignalingWorker.bind_eq_ok.mp hrest
        cases hqueued
        exact .single (.stored (SignalingWorker.deref_eq_ok.mp hc) rfl
          fun harmed => harmed.addReply resMsg)

theorem effects_of_overread (s : WatchedWorker) (msg : RtcMsg) (memory : ReplyMsg) :
    Relation.ReflTransGen Effect s { s with worker := overread s.worker msg memory } := by
  unfold overread
  split
  · exact .refl
  · split
    · exact .refl
    · rename_i c hc
      exact .single (.stored hc rfl fun harmed => harmed.addReply memory)

theorem Registered.processRtcMsg (hs : s.Registered) (writeString : ResRoot → List UInt8)
    (msg : RtcMsg) (memory : ReplyMsg) : s.Orderly (s.processRtcMsg writeString msg memory) := by
  rw [WatchedWorker.processRtcMsg]
  split
  swap
  · exact .refl
  cases hreply : s.worker.responseServerOffer writeString msg with
  | ok result =>
      obtain ⟨worker, target⟩ := result
      exact effects_of_reply hreply
  | error fault =>
      have hfault := responseServerOffer_error hs.consistent hreply
      simp only
      split
      · exact effects_of_overread s msg memory
      · rw [hfault]
        exact ⟨by decide, by decide⟩

/-! ## New connections -/

/-- A table that grows for a positive number gets longer, and has room for it. -/
theorem grownTable_place {conns : List (Option Addr)} {w : SignalingWorker} (hfd : 1 ≤ fd)
    (hlt : fd < 2 ^ 31) (hsize : w.conns.length < 2 ^ 31)
    (hgrown : SignalingWorker.grownTable w.conns fd = .ok conns) :
    fd.toNat < conns.length ∧ w.conns.length ≤ conns.length := by
  have hindex := toSize_of_nonneg (show 0 ≤ fd by omega) (by omega)
  by_cases hshort : w.conns.length ≤ fd.toNat
  · by_cases hsmall : fd < 2 ^ 30
    · obtain ⟨conns', hgrown', hplace, -⟩ :=
        SignalingWorker.grownTable_spec (by omega) hsmall hsize
      rw [hgrown] at hgrown'
      cases hgrown'
      have hroom := hplace hfd
      exact ⟨hroom, by omega⟩
    · rw [SignalingWorker.grownTable_of_large (not_lt.mp hsmall) hlt hshort] at hgrown
      cases hgrown
  · rw [SignalingWorker.grownTable, hindex, if_neg hshort] at hgrown
    cases hgrown
    exact ⟨not_le.mp hshort, le_rfl⟩

theorem grownTable_error {w : SignalingWorker} {fault : Fault}
    (hgrown : SignalingWorker.grownTable w.conns fd = .error fault) : fault = .aborted := by
  rw [SignalingWorker.grownTable] at hgrown
  split at hgrown
  · simp only at hgrown
    split at hgrown
    · cases hgrown
      rfl
    · cases hgrown
  · cases hgrown

/-- What `_new_conn` does: nothing, leak a connection, or install one. -/
inductive Opened (s : WatchedWorker) (fd : ℤ) (setup peer : Bool) (addr : Addr) (now : ℕ) :
    WatchedWorker → Prop
  | refused (failed : setup = false) : Opened s fd setup peer addr now s
  | leaked (failed : peer = false) :
      Opened s fd setup peer addr now { s with worker := s.worker.store addr { fd := fd } }
  | installed {conns : List (Option Addr)} (worked : setup = true ∧ peer = true)
      (place : fd.toNat < conns.length) (longer : s.worker.conns.length ≤ conns.length)
      (size_lt : conns.length < 2 ^ 31)
      (same : ∀ n : ℕ, (conns[n]?).join = (s.worker.conns[n]?).join) :
      Opened s fd setup peer addr now
        { worker := { s.worker with conns := conns.set fd.toNat (some addr) }.store addr
            (SignalingWorker.fresh fd now)
          ioEvents := addr :: s.ioEvents
          timers := addr :: s.timers
          installed := addr :: s.installed }

theorem newConn_cases (hsize : s.worker.conns.length < 2 ^ 31) (hfd : 1 ≤ fd) (hlt : fd < 2 ^ 31)
    (setup peer : Bool) (addr : Addr) (now : ℕ) :
    (s.newConn fd setup peer addr now = .error .aborted ∧ 2 ^ 30 ≤ fd) ∨
      ∃ next, s.newConn fd setup peer addr now = .ok next ∧
        Opened s fd setup peer addr now next := by
  have hpos : ¬ fd < 0 := by omega
  rw [WatchedWorker.newConn, SignalingWorker.newConn, if_neg hpos]
  cases setup with
  | false =>
      refine Or.inr ⟨s, ?_, .refused rfl⟩
      rw [if_pos (by decide), ok_bind, if_neg (by simp)]
  | true =>
      cases peer with
      | false =>
          refine Or.inr ⟨{ s with worker := s.worker.store addr { fd := fd } }, ?_, .leaked rfl⟩
          rw [if_neg (by decide), if_pos (by decide), ok_bind, if_neg (by simp)]
      | true =>
          rw [if_neg (by decide), if_neg (by decide)]
          cases hgrown : SignalingWorker.grownTable s.worker.conns fd with
          | error fault =>
              left
              refine ⟨by rw [grownTable_error hgrown]; rfl, ?_⟩
              by_contra hsmall
              obtain ⟨conns, hok, -⟩ := SignalingWorker.grownTable_spec (show 0 ≤ fd by omega)
                (not_le.mp hsmall) hsize
              rw [hgrown] at hok
              cases hok
          | ok conns =>
              right
              obtain ⟨hplace, hlonger⟩ := grownTable_place hfd hlt hsize hgrown
              obtain ⟨hsize', hsame⟩ :=
                SignalingWorker.grownTable_keeps (by omega) hlt hsize hgrown
              rw [ok_bind, if_pos hplace, ok_bind, if_pos ⟨by omega, rfl, rfl⟩]
              exact ⟨_, rfl, .installed ⟨rfl, rfl⟩ hplace hlonger hsize' hsame⟩

theorem Registered.not_mem_of_free (hs : s.Registered) (hfree : s.worker.heap addr = none) :
    addr ∉ s.installed := by
  intro hinstalled
  obtain ⟨c, hc, -⟩ := hs.live addr hinstalled
  rw [hfree] at hc
  cases hc

theorem Registered.opened {setup peer : Bool} (hs : s.Registered) (hfd : 1 ≤ fd)
    (hfree : s.worker.heap addr = none) (hopened : Opened s fd setup peer addr now next) :
    next.Registered := by
  have hnew := hs.not_mem_of_free hfree
  have hne (a : Addr) (ha : a ∈ s.installed) : a ≠ addr := fun heq => hnew (heq ▸ ha)
  cases hopened with
  | refused => exact hs
  | leaked =>
      refine ⟨⟨hs.consistent.size_lt, ?_⟩, hs.ioEvents, hs.timers, hs.nodup, ?_, hs.entries⟩
      · intro n hn a ha
        obtain ⟨d, hd, hdfd⟩ := hs.consistent.entry n hn a ha
        exact ⟨d, (Function.update_of_ne (hne a (hs.entries n hn a ha)) _ _).trans hd, hdfd⟩
      · intro a ha
        obtain ⟨d, hd, hrest⟩ := hs.live a ha
        exact ⟨d, (Function.update_of_ne (hne a ha) _ _).trans hd, hrest⟩
  | @installed conns _ place longer size_lt same =>
      have hentry (n : ℤ) (hn : 0 ≤ n) (a : Addr)
          (ha : ((conns.set fd.toNat (some addr))[n.toNat]?).join = some a) :
          (n = fd ∧ a = addr) ∨ s.worker.connAt n = some a :=
        SignalingWorker.entry_of_set (by omega) place same hn ha
      refine ⟨⟨?_, ?_⟩, ?_, ?_, List.nodup_cons.mpr ⟨hnew, hs.nodup⟩, ?_, ?_⟩
      · rw [SignalingWorker.store, List.length_set]
        exact size_lt
      · intro n hn a ha
        rcases hentry n hn a ha with ⟨rfl, rfl⟩ | hold
        · exact ⟨SignalingWorker.fresh n now, Function.update_self _ _ _, rfl⟩
        · obtain ⟨d, hd, hdfd⟩ := hs.consistent.entry n hn a hold
          exact ⟨d, (Function.update_of_ne (hne a (hs.entries n hn a hold)) _ _).trans hd, hdfd⟩
      · simp only [hs.ioEvents]
      · simp only [hs.timers]
      · intro a ha
        rcases List.mem_cons.mp ha with rfl | hold
        · refine ⟨SignalingWorker.fresh fd now, Function.update_self _ _ _, hfd, ?_,
            TcpConnection.Armed.fresh fd now⟩
          rw [SignalingWorker.store, List.length_set]
          exact place
        · obtain ⟨d, hd, hpos, hlt, harmed⟩ := hs.live a hold
          refine ⟨d, (Function.update_of_ne (hne a hold) _ _).trans hd, hpos, ?_, harmed⟩
          rw [SignalingWorker.store, List.length_set]
          exact lt_of_lt_of_le hlt longer
      · intro n hn a ha
        rcases hentry n hn a ha with ⟨-, rfl⟩ | hold
        · exact List.mem_cons_self
        · exact List.mem_cons_of_mem _ (hs.entries n hn a hold)

/-! ## Runs -/

variable {writeString : ResRoot → List UInt8} {event : LoopEvent}

/-- What an enabled callback does. -/
theorem Registered.callback (hs : s.Registered) (henabled : s.Enabled event) :
    s.Orderly (s.callback writeString fuel event) ∨
      ∃ fd setup peer addr now next, event = .newConn fd setup peer addr now ∧
        s.callback writeString fuel event = .ok next ∧ Opened s fd setup peer addr now next := by
  cases event with
  | newConn fd setup peer addr now =>
      obtain ⟨hfd, hlt, hfree⟩ := henabled
      rcases newConn_cases hs.consistent.size_lt hfd hlt setup peer addr now with
        ⟨haborted, -⟩ | ⟨next, hok, hopened⟩
      · left
        rw [WatchedWorker.callback, haborted]
        exact ⟨by decide, by decide⟩
      · exact Or.inr ⟨fd, setup, peer, addr, now, next, rfl, hok, hopened⟩
  | io addr mask e now results => exact Or.inl (hs.connIoCb henabled fuel mask e now results)
  | timer addr now => exact Or.inl (hs.connTimerCb henabled now)
  | rtcMsg msg memory => exact Or.inl (hs.processRtcMsg writeString msg memory)

/-- The two ways in which a step is taken. -/
theorem Registered.step_cases (hs : s.Registered)
    (hstep : s.step writeString fuel event = some next) :
    Relation.ReflTransGen Effect s next ∨
      ∃ fd setup peer addr now, event = .newConn fd setup peer addr now ∧ 1 ≤ fd ∧
        s.worker.heap addr = none ∧ Opened s fd setup peer addr now next := by
  rw [WatchedWorker.step] at hstep
  split at hstep
  swap
  · cases hstep
  rename_i henabled
  cases hcallback : s.callback writeString fuel event with
  | error fault =>
      rw [hcallback] at hstep
      cases hstep
  | ok last =>
      rw [hcallback] at hstep
      cases hstep
      rcases @Registered.callback s fuel writeString event hs henabled with
        horderly | ⟨fd, setup, peer, addr, now, middle, rfl, hok, hopened⟩
      · rw [hcallback] at horderly
        exact Or.inl horderly
      · rw [hcallback] at hok
        cases hok
        exact Or.inr ⟨fd, setup, peer, addr, now, rfl, henabled.1, henabled.2.2, hopened⟩

/-- **One callback** keeps the watchers in step with the connections. -/
theorem Registered.step (hs : s.Registered) (hstep : s.step writeString fuel event = some next) :
    next.Registered := by
  rcases hs.step_cases hstep with heffects | ⟨fd, setup, peer, addr, now, -, hfd, hfree, hopened⟩
  · exact hs.effects heffects
  · exact hs.opened hfd hfree hopened

theorem registered_of_run {timeout : ℤ} {events : List LoopEvent} {last : WatchedWorker}
    (hrun : run (step writeString fuel) (start timeout) events = some last) : last.Registered := by
  refine run_preserves Registered ?_ (registered_start timeout) hrun
  intro s next event hs hstep
  exact hs.step hstep

/-- **Watchers follow the reply queues.** Between any two callbacks of any run,
the watcher of every connection in the table is active, watches for reading, and
watches for writing if and only if a reply is queued. -/
theorem run_armed (writeString : ResRoot → List UInt8) (fuel : ℕ) (timeout : ℤ)
    (events : List LoopEvent) (last : WatchedWorker)
    (hrun : run (step writeString fuel) (start timeout) events = some last) (i : ℕ) (addr : Addr)
    (hentry : last.worker.conns[i]? = some (some addr)) :
    ∃ c, last.worker.heap addr = some c ∧ c.ioWatcher.active = true ∧
      c.ioWatcher.events.read = true ∧ (c.ioWatcher.events.write = true ↔ c.replyMsgs ≠ []) := by
  have hlast := registered_of_run hrun
  have hconnAt : last.worker.connAt i = some addr := by
    rw [SignalingWorker.connAt, Int.toNat_natCast, hentry]
    rfl
  obtain ⟨c, hc, -, -, harmed⟩ := hlast.live addr (hlast.entries i (by omega) addr hconnAt)
  exact ⟨c, hc, harmed.active, harmed.read, harmed.write⟩

/-- The frame of a reply that carries nothing. -/
def noReply : ReplyMsg := ⟨[], Nat.zero_le _⟩

/-- A request comes in on a new connection, and its answer is queued. -/
def answering : List LoopEvent :=
  [.newConn 5 true true 100 0,
    .io 100 .READ { result := .data (Xrpc.requestHeader 9 0).bytes } 0 [],
    .rtcMsg (SignalingWorker.processPush 0 100 5 ⟨1, [97], 1, 1⟩ 9) noReply]

theorem run_armed_answering :
    ∃ last, run (step (fun _ => [123, 125]) 3) (start 1000) answering = some last ∧
      ∃ c, last.worker.heap 100 = some c ∧ c.ioWatcher.events.write = true := by
  have hqueue : (run (step (fun _ => [123, 125]) 3) (start 1000) answering).map
      (fun last => (last.worker.conns[5]?, (last.worker.heap 100).map fun c => c.replyMsgs.length)) =
        some (some (some 100), some 1) := by decide +kernel
  obtain ⟨last, hrun, hlast⟩ := Option.map_eq_some_iff.mp hqueue
  obtain ⟨hentry, hreplies⟩ := Prod.mk.inj hlast
  obtain ⟨c, hc, -, -, hwrite⟩ := run_armed _ 3 1000 answering last hrun 5 100 hentry
  refine ⟨last, hrun, c, hc, hwrite.mpr ?_⟩
  rw [hc] at hreplies
  intro hempty
  rw [Option.map_some, hempty] at hreplies
  cases hreplies

end WatchedWorker

end Xrtc.Server

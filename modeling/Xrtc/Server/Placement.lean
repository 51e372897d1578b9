/-
# Every connection in its place

Where no new connection comes with the number of one that is still there, every
installed connection stands in the table under its own number and nowhere else,
and exactly the installed connections have an io watcher and a timer. No callback
then follows a pointer to a destroyed connection: the table, the timers and the
io watchers lead to live ones, and a stale message is turned away by the table.
-/

import Xrtc.Server.Arming

namespace Xrtc.Server.WatchedWorker

open Xrtc.Machine Xrtc.Base

/-- The number of a new connection is below `2 ^ 30`, and no installed connection
has it. -/
def Admissible (s : WatchedWorker) : LoopEvent → Prop
  | .newConn fd _ _ _ _ =>
      fd < 2 ^ 30 ∧ ∀ addr ∈ s.installed, ∀ c ∈ s.worker.heap addr, c.fd ≠ fd
  | .io _ _ _ _ _ | .timer _ _ | .rtcMsg _ _ => True

instance (s : WatchedWorker) : DecidablePred s.Admissible
  | .newConn fd _ _ _ _ => inferInstanceAs (Decidable
      (fd < 2 ^ 30 ∧ ∀ addr ∈ s.installed, ∀ c ∈ s.worker.heap addr, c.fd ≠ fd))
  | .io _ _ _ _ _ | .timer _ _ | .rtcMsg _ _ => inferInstanceAs (Decidable True)

/-- The entries of the table are live connections under their own numbers, every
installed connection is in the table exactly once, and exactly these have an io
watcher and a timer, one of each. -/
structure Sound (s : WatchedWorker) : Prop where
  entry : ∀ (i : ℕ) (addr : Addr), s.worker.conns[i]? = some (some addr) →
    addr ∈ s.installed ∧ ∃ c, s.worker.heap addr = some c ∧ c.fd = i
  once : ∀ addr ∈ s.installed, ∃! i : ℕ, s.worker.conns[i]? = some (some addr)
  ioEvents : ∀ addr, s.ioEvents.count addr = if addr ∈ s.installed then 1 else 0
  timers : ∀ addr, s.timers.count addr = if addr ∈ s.installed then 1 else 0

/-- A new connection returns, takes its own place, and leaves every other entry
where it was; one that fails leaves the table as it was. -/
def OpensInPlace (s : WatchedWorker) : Prop :=
  ∀ fd setup peer addr now, s.Enabled (.newConn fd setup peer addr now) →
    s.Admissible (.newConn fd setup peer addr now) →
    ∃ next, s.newConn fd setup peer addr now = .ok next ∧
      (setup = false ∨ peer = false → next.worker.conns = s.worker.conns) ∧
      (setup = true → peer = true → next.worker.conns[fd.toNat]? = some (some addr)) ∧
      ∀ i : ℕ, i ≠ fd.toNat → (next.worker.conns[i]?).join = (s.worker.conns[i]?).join

/-- No callback dereferences a destroyed connection or leaves the table. -/
def NeverWild (writeString : ResRoot → List UInt8) (fuel : ℕ) (s : WatchedWorker) : Prop :=
  ∀ event, s.Enabled event → ∀ fault, s.callback writeString fuel event = .error fault →
    fault ≠ .wildPointer ∧ fault ≠ .outOfRange

/-- Every installed connection is in the table under its own number. -/
def Placed (s : WatchedWorker) : Prop :=
  ∀ addr ∈ s.installed, ∀ c, s.worker.heap addr = some c → s.worker.connAt c.fd = some addr

variable {writeString : ResRoot → List UInt8} {fuel : ℕ} {s next : WatchedWorker}
  {event : LoopEvent} {fd : ℤ} {addr : Addr} {now : ℕ}

/-! ## One step -/

theorem Placed.effect (hs : s.Registered) (hplaced : s.Placed) (heffect : Effect s next) :
    next.Placed := by
  cases heffect with
  | @stored addr c c' heap fd_eq armed =>
      intro a ha d hd
      by_cases hsame : a = addr
      · subst hsame
        cases (Function.update_self _ _ _).symm.trans hd
        rw [fd_eq]
        exact hplaced a ha c heap
      · exact hplaced a ha d ((Function.update_of_ne hsame _ _).symm.trans hd)
  | @removed addr c w mem heap remove =>
      obtain ⟨hrange, rfl⟩ := SignalingWorker.removeConn_eq_ok.mp remove
      intro a ha d hd
      obtain ⟨hne, ha'⟩ := hs.nodup.mem_erase_iff.mp ha
      have hd' : s.worker.heap a = some d := (Function.update_of_ne hne _ _).symm.trans hd
      have hentry := hplaced a ha' d hd'
      obtain ⟨d', hd'', hpos, -⟩ := hs.live a ha'
      cases hd'.symm.trans hd''
      -- two connections of the table have two numbers
      have hdiff : d.fd ≠ c.fd := by
        intro hsame
        rw [hsame, hplaced addr mem c heap] at hentry
        exact hne (Option.some.inj hentry).symm
      rw [SignalingWorker.connAt, List.getElem?_set_ne (by omega)]
      exact hentry

theorem Placed.effects (hs : s.Registered) (hplaced : s.Placed)
    (heffects : Relation.ReflTransGen Effect s next) : next.Placed := by
  induction heffects with
  | refl => exact hplaced
  | tail hfirst hlast ih => exact ih.effect (hs.effects hfirst) hlast

theorem Placed.opened {setup peer : Bool} (hs : s.Registered) (hplaced : s.Placed)
    (hfree : s.worker.heap addr = none) (hfd : 1 ≤ fd)
    (hnew : ∀ a ∈ s.installed, ∀ c ∈ s.worker.heap a, c.fd ≠ fd)
    (hopened : Opened s fd setup peer addr now next) : next.Placed := by
  have hne (a : Addr) (ha : a ∈ s.installed) : a ≠ addr :=
    fun heq => hs.not_mem_of_free hfree (heq ▸ ha)
  cases hopened with
  | refused => exact hplaced
  | leaked =>
      intro a ha d hd
      exact hplaced a ha d ((Function.update_of_ne (hne a ha) _ _).symm.trans hd)
  | @installed conns _ place longer size_lt same =>
      intro a ha d hd
      rcases List.mem_cons.mp ha with rfl | hold
      · cases (Function.update_self _ _ _).symm.trans hd
        change ((conns.set fd.toNat (some a))[fd.toNat]?).join = some a
        rw [List.getElem?_set_self place]
        rfl
      · have hd' : s.worker.heap a = some d :=
          (Function.update_of_ne (hne a hold) _ _).symm.trans hd
        have hdiff : d.fd ≠ fd := hnew a hold d hd'
        obtain ⟨d', hd'', hpos, -⟩ := hs.live a hold
        cases hd'.symm.trans hd''
        change ((conns.set fd.toNat (some addr))[d.fd.toNat]?).join = some a
        rw [List.getElem?_set_ne (by omega), same]
        exact hplaced a hold d hd'

/-- **One callback** keeps every connection in its place. -/
theorem Placed.step (hs : s.Registered) (hplaced : s.Placed) (hadmissible : s.Admissible event)
    (hstep : s.step writeString fuel event = some next) : next.Placed := by
  rcases hs.step_cases hstep with heffects | ⟨fd, setup, peer, addr, now, rfl, hfd, hfree, hopened⟩
  · exact hplaced.effects hs heffects
  · exact hplaced.opened hs hfree hfd hadmissible.2 hopened

/-! ## What follows of every state -/

theorem Registered.sound (hs : s.Registered) (hplaced : s.Placed) : s.Sound := by
  have hconnAt (i : ℕ) (addr : Addr) :
      s.worker.connAt i = some addr ↔ s.worker.conns[i]? = some (some addr) := by
    rw [SignalingWorker.connAt, Int.toNat_natCast, Option.join_eq_some_iff]
  have hentry (i : ℕ) (addr : Addr) (hi : s.worker.conns[i]? = some (some addr)) :
      addr ∈ s.installed ∧ ∃ c, s.worker.heap addr = some c ∧ c.fd = i := by
    have hi' := (hconnAt i addr).mpr hi
    exact ⟨hs.entries i (by omega) addr hi', hs.consistent.entry i (by omega) addr hi'⟩
  refine ⟨hentry, ?_, ?_, ?_⟩
  · intro addr haddr
    obtain ⟨c, hc, hpos, -⟩ := hs.live addr haddr
    have hnat : ((c.fd.toNat : ℕ) : ℤ) = c.fd := Int.toNat_of_nonneg (by omega)
    refine ⟨c.fd.toNat, (hconnAt _ addr).mp ?_, ?_⟩
    · rw [hnat]
      exact hplaced addr haddr c hc
    · intro i hi
      obtain ⟨-, d, hd, hdfd⟩ := hentry i addr hi
      cases hc.symm.trans hd
      omega
  · intro addr
    rw [hs.ioEvents, hs.nodup.count]
  · intro addr
    rw [hs.timers, hs.nodup.count]

theorem Registered.opensInPlace (hs : s.Registered) : s.OpensInPlace := by
  intro fd setup peer addr now henabled hadmissible
  rcases newConn_cases hs.consistent.size_lt henabled.1 henabled.2.1 setup peer addr now with
    ⟨-, hlarge⟩ | ⟨next, hok, hopened⟩
  · exact absurd hadmissible.1 (not_lt.mpr hlarge)
  · refine ⟨next, hok, ?_⟩
    cases hopened with
    | refused failed =>
        refine ⟨fun _ => rfl, ?_, fun _ _ => rfl⟩
        intro hsetup
        rw [failed] at hsetup
        cases hsetup
    | leaked failed =>
        refine ⟨fun _ => rfl, ?_, fun _ _ => rfl⟩
        intro _ hpeer
        rw [failed] at hpeer
        cases hpeer
    | @installed conns worked place longer size_lt same =>
        refine ⟨?_, fun _ _ => List.getElem?_set_self place, ?_⟩
        · rw [worked.1, worked.2]
          rintro (hfailed | hfailed)
          · cases hfailed
          · cases hfailed
        · intro i hi
          exact (congrArg Option.join (List.getElem?_set_ne hi.symm)).trans (same i)

theorem Registered.neverWild (hs : s.Registered) : s.NeverWild writeString fuel := by
  intro event henabled fault hfault
  rcases @Registered.callback s fuel writeString event hs henabled with
    horderly | ⟨fd, setup, peer, addr, now, middle, -, hok, -⟩
  · rw [hfault] at horderly
    exact horderly
  · rw [hfault] at hok
    cases hok

/-- **The table stays consistent.** In every run of callbacks in which no new
connection comes with a number of `2 ^ 30` or more or with that of an installed
one: the state reached is sound, a new connection takes its own place and moves
no other, and no callback that may come next runs into a destroyed connection. -/
theorem run_sound (writeString : ResRoot → List UInt8) (fuel : ℕ) (timeout : ℤ)
    (events : List LoopEvent) (last : WatchedWorker)
    (hadmissible : RunMeets (step writeString fuel) Admissible (start timeout) events)
    (hrun : run (step writeString fuel) (start timeout) events = some last) :
    last.Sound ∧ last.OpensInPlace ∧ last.NeverWild writeString fuel := by
  have hlast : last.Registered ∧ last.Placed := by
    refine run_preserves_of_meets (fun s => s.Registered ∧ s.Placed) ?_
      ⟨registered_start timeout, ?_⟩ hadmissible hrun
    · intro s next event hs hguard hstep
      exact ⟨hs.1.step hstep, hs.2.step hs.1 hguard hstep⟩
    · intro addr haddr
      cases haddr
  exact ⟨hlast.1.sound hlast.2, hlast.1.opensInPlace, hlast.1.neverWild⟩

/-- A connection is closed by the reading part of an event that also asks for
writing. A message comes late for it, and its number and its address go to the
next connection while another one leaks. -/
def reused : List LoopEvent :=
  [.newConn 5 true true 100 0,
    .io 100 ⟨true, true⟩ { result := .endOfFile } 0 [],
    .rtcMsg (SignalingWorker.processPush 0 100 5 ⟨1, [97], 1, 1⟩ 9) noReply,
    .newConn 7 true false 200 0,
    .newConn 5 true true 100 0,
    .timer 100 0]

theorem run_sound_reused :
    ∃ last, run (step (fun _ => [123, 125]) 3) (start 1000) reused = some last ∧
      last.installed = [100] ∧ last.Sound ∧ last.OpensInPlace ∧
      last.NeverWild (fun _ => [123, 125]) 3 := by
  have hinstalled : (run (step (fun _ => [123, 125]) 3) (start 1000) reused).map
      WatchedWorker.installed = some [100] := by decide +kernel
  obtain ⟨last, hrun, hlast⟩ := Option.map_eq_some_iff.mp hinstalled
  exact ⟨last, hrun, hlast, run_sound _ 3 1000 reused last (by decide +kernel) hrun⟩

end Xrtc.Server.WatchedWorker

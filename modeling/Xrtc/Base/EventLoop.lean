/-
# I/O watchers

The event loop wraps a libev watcher. Of libev the model keeps what the wrapper
relies on: `ev_io_stop` clears the active flag and leaves the events as they
were, `ev_io_set` replaces descriptor and events, and `ev_io_start` sets the
active flag. The masks of the wrapper and of libev use the same two bits.

A watcher is meant to be a set of events that starts add to and stops take from.
The wrapper reads the set off the libev watcher, which remembers its events after
it has been stopped; the last part says for which sequences of calls it is that
set all the same.
-/

import Mathlib.Data.Int.Notation
import Xrtc.Machine.Run

namespace Xrtc.Base

open Xrtc.Machine

/-- A set of the two events `READ` and `WRITE`. -/
structure EventMask where
  read : Bool
  write : Bool
  deriving DecidableEq

namespace EventMask

def READ : EventMask := ⟨true, false⟩
def WRITE : EventMask := ⟨false, true⟩
def NONE : EventMask := ⟨false, false⟩

/-- `first | second`. -/
def union (first second : EventMask) : EventMask :=
  ⟨first.read || second.read, first.write || second.write⟩

/-- `first & ~second`. -/
def diff (first second : EventMask) : EventMask :=
  ⟨first.read && !second.read, first.write && !second.write⟩

end EventMask

/-- The fields of the libev watcher inside an `IOWatcher`. -/
structure IOWatcher where
  active : Bool
  fd : ℤ
  events : EventMask
  deriving DecidableEq

/-- `EventLoop::create_io_event`: an inactive watcher. The events libev has not
been given yet are left at none. -/
def createIoEvent : IOWatcher where
  active := false
  fd := 0
  events := .NONE

/-- `ev_io_stop`, `ev_io_set` and `ev_io_start` in a row. -/
def IOWatcher.restart (fd : ℤ) (events : EventMask) : IOWatcher where
  active := true
  fd := fd
  events := events

/-- `EventLoop::start_io_event`. -/
def startIoEvent (w : IOWatcher) (fd : ℤ) (mask : EventMask) : IOWatcher :=
  if w.active then
    let newEvents := w.events.union mask
    if newEvents = w.events then w else .restart fd newEvents
  else
    .restart fd mask

/-- `EventLoop::stop_io_event`. -/
def stopIoEvent (w : IOWatcher) (fd : ℤ) (mask : EventMask) : IOWatcher :=
  let newEvents := w.events.diff mask
  if newEvents = w.events then
    w
  else if newEvents ≠ .NONE then
    .restart fd newEvents
  else
    { w with active := false }

/-! ## The watcher as a set of events -/

/-- The calls on one watcher. -/
inductive IoCall
  | start (mask : EventMask)
  | stop (mask : EventMask)
  deriving DecidableEq

/-- What a call makes of the watcher. -/
def IOWatcher.call (fd : ℤ) (w : IOWatcher) : IoCall → IOWatcher
  | .start mask => startIoEvent w fd mask
  | .stop mask => stopIoEvent w fd mask

/-- What a call makes of a set of events. -/
def EventMask.call (set : EventMask) : IoCall → EventMask
  | .start mask => set.union mask
  | .stop mask => set.diff mask

/-- libev watches exactly the events of the set. -/
structure IOWatcher.Watches (w : IOWatcher) (set : EventMask) : Prop where
  active_iff : w.active = true ↔ set ≠ .NONE
  events_eq : set ≠ .NONE → w.events = set

/-- libev watches exactly the events of the set after every call. -/
def IOWatcher.Follows (fd : ℤ) (w : IOWatcher) (set : EventMask) (calls : List IoCall) : Prop :=
  ∀ before, before <+: calls →
    (before.foldl (IOWatcher.call fd) w).Watches (before.foldl EventMask.call set)

/-- The condition on a call. A watcher that is not active is not started without
an event, and it is not stopped for some but not all of the events it remembers. -/
def IOWatcher.Settled (w : IOWatcher) : IoCall → Prop
  | .start mask => w.active = true ∨ mask ≠ .NONE
  | .stop mask =>
      w.active = true ∨ w.events.diff mask = w.events ∨ w.events.diff mask = .NONE

/-- A call as a step. -/
def IOWatcher.step (fd : ℤ) (w : IOWatcher) (call : IoCall) : Option IOWatcher :=
  some (w.call fd call)

namespace EventMask

@[simp]
theorem NONE_union (mask : EventMask) : NONE.union mask = mask := by simp [union, NONE]

@[simp]
theorem NONE_diff (mask : EventMask) : NONE.diff mask = NONE := by simp [diff, NONE]

theorem union_ne_NONE {set : EventMask} (mask : EventMask) (hset : set ≠ NONE) :
    set.union mask ≠ NONE := by
  intro hunion
  apply hset
  simp only [union, NONE, mk.injEq, Bool.or_eq_false_iff] at hunion
  rw [NONE, mk.injEq]
  exact ⟨hunion.1.1, hunion.2.1⟩

end EventMask

namespace IOWatcher

variable {fd : ℤ} {w : IOWatcher} {set : EventMask} {call : IoCall} {calls : List IoCall}

/-- An active watcher is never led astray. -/
theorem Watches.call_of_active (hw : w.Watches set) (hset : set ≠ .NONE) :
    (w.call fd call).Watches (set.call call) := by
  have hactive : w.active = true := hw.active_iff.mpr hset
  have hevents : w.events = set := hw.events_eq hset
  cases call with
  | start mask =>
      have hunion := EventMask.union_ne_NONE mask hset
      simp only [IOWatcher.call, EventMask.call, startIoEvent, hactive, if_true, hevents]
      split
      · rename_i hsame
        rw [hsame]
        exact hw
      · exact ⟨iff_of_true rfl hunion, fun _ => rfl⟩
  | stop mask =>
      simp only [IOWatcher.call, EventMask.call, stopIoEvent, hevents]
      split
      · rename_i hsame
        rw [hsame]
        exact hw
      · split
        · rename_i hsome
          exact ⟨iff_of_true rfl hsome, fun _ => rfl⟩
        · rename_i hnone
          exact ⟨iff_of_false Bool.false_ne_true hnone, fun hsome => absurd hsome hnone⟩

/-- One that is not active comes back with the events of a start, and a stop must
leave it alone. -/
theorem call_watches_iff_of_inactive (hw : w.active = false) :
    (w.call fd call).Watches (EventMask.NONE.call call) ↔ w.Settled call := by
  cases call with
  | start mask =>
      simp only [IOWatcher.call, EventMask.call, startIoEvent, hw, Bool.false_eq_true, if_false,
        EventMask.NONE_union, Settled, false_or]
      exact ⟨fun hnext => hnext.active_iff.mp rfl, fun hmask =>
        ⟨iff_of_true rfl hmask, fun _ => rfl⟩⟩
  | stop mask =>
      have hidle {v : IOWatcher} (hv : v.active = false) : v.Watches .NONE :=
        ⟨iff_of_false (by rw [hv]; exact Bool.false_ne_true) (fun hne => hne rfl),
          fun hne => absurd rfl hne⟩
      simp only [IOWatcher.call, EventMask.call, stopIoEvent, EventMask.NONE_diff, Settled, hw,
        Bool.false_eq_true, false_or]
      split
      · rename_i hsame
        exact iff_of_true (hidle hw) (.inl hsame)
      · rename_i hchanged
        split
        · rename_i hsome
          -- the stop has started the watcher
          refine iff_of_false ?_ (not_or.mpr ⟨hchanged, hsome⟩)
          intro hnext
          exact hnext.active_iff.mp rfl rfl
        · rename_i hnone
          exact iff_of_true (hidle rfl) (.inr (not_not.mp hnone))

/-- **One call.** -/
theorem Watches.call_iff (hw : w.Watches set) :
    (w.call fd call).Watches (set.call call) ↔ w.Settled call := by
  by_cases hset : set = .NONE
  · subst hset
    have hidle : w.active = false := by
      rw [← Bool.not_eq_true, hw.active_iff]
      exact fun hne => hne rfl
    exact call_watches_iff_of_inactive hidle
  · have hactive : w.active = true := hw.active_iff.mpr hset
    have hsettled : w.Settled call := by
      cases call with
      | start mask => exact .inl hactive
      | stop mask => exact .inl hactive
    exact iff_of_true (hw.call_of_active hset) hsettled

theorem follows_cons (hw : w.Watches set) :
    Follows fd w set (call :: calls) ↔ Follows fd (w.call fd call) (set.call call) calls := by
  constructor
  · intro hfollows before hbefore
    exact hfollows (call :: before) ((List.prefix_cons_inj call).mpr hbefore)
  · intro hfollows before hbefore
    cases before with
    | nil => exact hw
    | cons first before =>
        obtain ⟨rfl, hrest⟩ := List.cons_prefix_cons.mp hbefore
        exact hfollows before hrest

/-- What one call decides, a sequence of calls decides at its first call that is
not settled. -/
theorem Watches.follows_iff (hw : w.Watches set) :
    Follows fd w set calls ↔ RunMeets (step fd) Settled w calls := by
  induction calls generalizing w set with
  | nil =>
      refine iff_of_true ?_ trivial
      intro before hbefore
      rw [List.prefix_nil.mp hbefore]
      exact hw
  | cons call calls ih =>
      have hstep : step fd w call = some (w.call fd call) := rfl
      rw [follows_cons hw, runMeets_cons_of_eq_some hstep, ← @Watches.call_iff fd w set call hw]
      constructor
      · intro hfollows
        have hnext := hfollows [] List.nil_prefix
        exact ⟨hnext, (ih hnext).mp hfollows⟩
      · rintro ⟨hnext, hmeets⟩
        exact (ih hnext).mpr hmeets

/-- **The watcher is the set of its events** after every call of a sequence that
begins with a start, whatever was in its fields before, if and only if every
call of the sequence is settled. -/
theorem follows_iff_settled (fd oldFd : ℤ) (oldEvents mask : EventMask) (calls : List IoCall) :
    Follows fd ⟨false, oldFd, oldEvents⟩ .NONE (.start mask :: calls) ↔
      RunMeets (step fd) Settled ⟨false, oldFd, oldEvents⟩ (.start mask :: calls) := by
  apply Watches.follows_iff
  exact ⟨iff_of_false Bool.false_ne_true (fun hne => hne rfl), fun hne => absurd rfl hne⟩

/-- A watcher that was stopped for both events comes back to life when it is
stopped for one of them. -/
theorem stoppedTwice_not_follows :
    ¬ Follows 5 createIoEvent .NONE [.start ⟨true, true⟩, .stop ⟨true, true⟩, .stop .READ] := by
  intro hfollows
  have hlast := (hfollows _ List.prefix_rfl).active_iff
  revert hlast
  decide

end IOWatcher

end Xrtc.Base

/-
# The log and its thread

`OnLogMessage` puts a message into one of two queues. The log thread goes round
a loop: it looks whether its files are still there, moves the first queue into
a string stream and writes that out, does the same with the second queue, and
sleeps. `stop` clears the flag that the loop tests at its head, and waits for
the thread to end.

Each lock makes a push, or the emptying of a queue, one step. Between any two
steps of the thread other threads may log, and `stop` may be called. What the
file system answers is an argument. The record keeps the messages that came in
before `stop` was called. The result says which runs write exactly these.
-/

import Mathlib.Data.List.Basic
import Xrtc.Machine.Run

namespace Xrtc.Base

open Xrtc.Machine

/-- `rtc::LoggingSeverity`. -/
inductive LoggingSeverity
  | lsVerbose
  | lsInfo
  | lsWarning
  | lsError
  | lsNone
  deriving DecidableEq

/-- The test `severity >= LS_WARNING`. -/
def LoggingSeverity.atLeastWarning : LoggingSeverity → Bool
  | .lsVerbose | .lsInfo => false
  | .lsWarning | .lsError | .lsNone => true

abbrev LogText := List UInt8

/-- A queue of messages with the file that it is written to. -/
structure LogChannel where
  queue : List LogText := []
  /-- What has been written to the file. -/
  written : LogText := []
  /-- Whether the file stream is open. A stream that is not drops what it is given. -/
  isOpen : Bool := true
  /-- The messages that came in before `stop` was called. -/
  logged : List LogText := []

/-- Where the log thread stands inside its loop. -/
inductive LogPc
  /-- At the condition. -/
  | test
  | stat
  | statWf
  | drain
  | write
  | drainWf
  | writeWf
  | sleep
  | exited
  deriving DecidableEq

/-- How far a call of `stop` has come. -/
inductive StopPc
  | notCalled
  | joining
  | returned
  deriving DecidableEq

structure XrtcLog where
  normal : LogChannel := {}
  wf : LogChannel := {}
  ss : LogText := []
  /-- `write_log`, then `write_log_wf`. -/
  writeLog : Bool := false
  pc : LogPc := .test
  running : Bool := true
  stopPc : StopPc := .notCalled

inductive LogAction
  /-- `OnLogMessage`. -/
  | log (message : LogText) (severity : LoggingSeverity)
  /-- The next step of the thread. `found` is whether `stat` succeeds, `opens`
  whether the file can be opened anew. -/
  | thread (found opens : Bool)
  /-- `stop`, up to the join. -/
  | stop
  /-- The join returns. -/
  | join

namespace LogChannel

/-- Push a message; it is on record if `stop` has not been called yet. -/
def push (c : LogChannel) (message : LogText) (onRecord : Bool) : LogChannel :=
  { c with
    queue := c.queue ++ [message]
    logged := if onRecord then c.logged ++ [message] else c.logged }

/-- Open the file anew where it has disappeared. -/
def check (c : LogChannel) (found opens : Bool) : LogChannel :=
  if found then c else { c with isOpen := opens }

def clear (c : LogChannel) : LogChannel := { c with queue := [] }

/-- `out << text`. -/
def append (c : LogChannel) (text : LogText) : LogChannel :=
  if c.isOpen then { c with written := c.written ++ text } else c

end LogChannel

namespace XrtcLog

/-- `OnLogMessage`. -/
def onLogMessage (x : XrtcLog) (message : LogText) (severity : LoggingSeverity) : XrtcLog :=
  if severity.atLeastWarning then
    { x with wf := x.wf.push message (x.stopPc = .notCalled) }
  else
    { x with normal := x.normal.push message (x.stopPc = .notCalled) }

/-- The next step of the log thread. -/
def threadStep (x : XrtcLog) (found opens : Bool) : Option XrtcLog :=
  match x.pc with
  | .test => if x.running then some { x with pc := .stat } else some { x with pc := .exited }
  | .stat => some { x with normal := x.normal.check found opens, pc := .statWf }
  | .statWf => some { x with wf := x.wf.check found opens, pc := .drain }
  | .drain =>
      some { x with
        normal := x.normal.clear
        ss := x.ss ++ x.normal.queue.flatten
        writeLog := !x.normal.queue.isEmpty
        pc := .write }
  | .write =>
      some { x with
        normal := if x.writeLog then x.normal.append x.ss else x.normal
        ss := []
        pc := .drainWf }
  | .drainWf =>
      some { x with
        wf := x.wf.clear
        ss := x.ss ++ x.wf.queue.flatten
        writeLog := !x.wf.queue.isEmpty
        pc := .writeWf }
  | .writeWf =>
      some { x with
        wf := if x.writeLog then x.wf.append x.ss else x.wf
        ss := []
        pc := .sleep }
  | .sleep => some { x with pc := .test }
  | .exited => none

def step (x : XrtcLog) : LogAction → Option XrtcLog
  | .log message severity => some (x.onLogMessage message severity)
  | .thread found opens => x.threadStep found opens
  | .stop =>
      if x.stopPc = .notCalled then
        some { x with running := false, stopPc := .joining }
      else
        none
  | .join =>
      if x.stopPc = .joining ∧ x.pc = .exited then some { x with stopPc := .returned } else none

end XrtcLog

/-- The thread still comes to the first queue before it tests the flag again. -/
def LogPc.ahead : LogPc → Bool
  | .stat | .statWf | .drain => true
  | _ => false

/-- The thread still comes to the second queue before it tests the flag again. -/
def LogPc.aheadWf : LogPc → Bool
  | .stat | .statWf | .drain | .write | .drainWf => true
  | _ => false

namespace XrtcLog

/-- The files hold the messages of before the call of `stop`, each once and in
the order in which they came in. -/
def Complete (x : XrtcLog) : Prop :=
  x.normal.written = x.normal.logged.flatten ∧ x.wf.written = x.wf.logged.flatten

/-- The condition on a step: `stop` finds each queue empty or still to be
emptied, a message that comes later finds its queue emptied for the last time,
and a file that is written to is open. -/
def Timely (x : XrtcLog) : LogAction → Prop
  | .log _ severity =>
      x.stopPc = .notCalled ∨
        (if severity.atLeastWarning then x.pc.aheadWf else x.pc.ahead) = false
  | .thread _ _ =>
      (x.pc = .write → x.ss = [] ∨ x.normal.isOpen = true) ∧
        (x.pc = .writeWf → x.ss = [] ∨ x.wf.isOpen = true)
  | .stop =>
      (x.normal.queue = [] ∨ x.pc.ahead = true) ∧ (x.wf.queue = [] ∨ x.pc.aheadWf = true)
  | .join => True

instance (x : XrtcLog) : (action : LogAction) → Decidable (x.Timely action)
  | .log _ severity =>
      inferInstanceAs (Decidable (x.stopPc = .notCalled ∨
        (if severity.atLeastWarning then x.pc.aheadWf else x.pc.ahead) = false))
  | .thread _ _ =>
      inferInstanceAs (Decidable ((x.pc = .write → x.ss = [] ∨ x.normal.isOpen = true) ∧
        (x.pc = .writeWf → x.ss = [] ∨ x.wf.isOpen = true)))
  | .stop =>
      inferInstanceAs (Decidable ((x.normal.queue = [] ∨ x.pc.ahead = true) ∧
        (x.wf.queue = [] ∨ x.pc.aheadWf = true)))
  | .join => inferInstanceAs (Decidable True)

/-! ## What holds between any two steps -/

end XrtcLog

namespace LogChannel

/-- What is on record is written, held in the string stream, or in the queue as
far as the queue counts. -/
def Balanced (c : LogChannel) (held : LogText) (counts : Bool) : Prop :=
  c.logged.flatten = c.written ++ held ++ if counts then c.queue.flatten else []

variable {c : LogChannel} {held : LogText} {counts : Bool}

theorem Balanced.push (hc : c.Balanced held counts) (message : LogText) :
    (c.push message counts).Balanced held counts := by
  cases counts with
  | false => exact hc
  | true =>
      simp only [Balanced, LogChannel.push, if_true, List.flatten_append, List.flatten_singleton,
        ← List.append_assoc] at hc ⊢
      rw [hc]

theorem Balanced.check (hc : c.Balanced held counts) (found opens : Bool) :
    (c.check found opens).Balanced held counts := by
  rw [LogChannel.check]
  split
  · exact hc
  · exact hc

/-- Emptying a queue that counts moves it into the string stream. -/
theorem Balanced.clear (hc : c.Balanced [] true) (counts : Bool) :
    c.clear.Balanced c.queue.flatten counts := by
  simp only [Balanced, if_true, List.append_nil] at hc
  simp only [Balanced, LogChannel.clear, List.flatten_nil, ite_self, List.append_nil]
  exact hc

/-- A write takes what is held, where the stream is open or has nothing to do. -/
theorem Balanced.write {writeLog : Bool} (hc : c.Balanced held counts)
    (hidle : writeLog = false → held = []) (hopen : held = [] ∨ c.isOpen = true) :
    (if writeLog then c.append held else c).Balanced [] counts := by
  have hnothing (hempty : held = []) : c.Balanced [] counts := hempty ▸ hc
  cases writeLog with
  | false => exact hnothing (hidle rfl)
  | true =>
      rw [if_pos rfl, LogChannel.append]
      split
      · simpa [Balanced] using hc
      · rename_i hclosed
        exact hnothing (hopen.resolve_right hclosed)

/-- Where a queue is empty it does not matter whether it counts. -/
theorem Balanced.of_empty (hc : c.Balanced held counts) (hempty : c.queue = []) (other : Bool) :
    c.Balanced held other := by
  simpa [Balanced, hempty] using hc

end LogChannel

namespace XrtcLog

/-- A queue counts as a whole before `stop` is called, and then as long as the
thread still comes to it. -/
def counts (x : XrtcLog) (ahead : Bool) : Bool := decide (x.stopPc = .notCalled) || ahead

structure Accounted (x : XrtcLog) : Prop where
  normal : x.normal.Balanced (if x.pc = .write then x.ss else []) (x.counts x.pc.ahead)
  wf : x.wf.Balanced (if x.pc = .writeWf then x.ss else []) (x.counts x.pc.aheadWf)
  /-- Between the two halves of the loop the string stream is empty. -/
  empty : x.pc ≠ .write → x.pc ≠ .writeWf → x.ss = []
  /-- Where nothing is to be written the string stream is empty. -/
  idle : x.writeLog = false → x.ss = []
  running : x.running = true ↔ x.stopPc = .notCalled
  returned : x.stopPc = .returned → x.pc = .exited

variable {x next : XrtcLog}

/-- A message is on record exactly where its queue counts. -/
theorem counts_eq {ahead : Bool} (htimely : x.stopPc = .notCalled ∨ ahead = false) :
    x.counts ahead = decide (x.stopPc = .notCalled) := by
  rcases htimely with hcalled | hpassed
  · simp [counts, hcalled]
  · simp [counts, hpassed]

theorem Accounted.onLogMessage (hx : x.Accounted) {message : LogText} {severity : LoggingSeverity}
    (htimely : x.Timely (.log message severity)) : (x.onLogMessage message severity).Accounted := by
  rw [XrtcLog.onLogMessage]
  split
  · rename_i hsevere
    rw [Timely, if_pos hsevere] at htimely
    rw [← counts_eq htimely]
    exact { hx with wf := hx.wf.push message }
  · rename_i hsevere
    rw [Timely, if_neg hsevere] at htimely
    rw [← counts_eq htimely]
    exact { hx with normal := hx.normal.push message }

theorem Accounted.threadStep (hx : x.Accounted) {found opens : Bool}
    (htimely : x.Timely (.thread found opens)) (hstep : x.threadStep found opens = some next) :
    next.Accounted := by
  obtain ⟨normal, wf, ss, writeLog, pc, running, stopPc⟩ := x
  obtain ⟨hnormal, hwf, hempty, hidle, hrunning, hreturned⟩ := hx
  obtain ⟨hopen, hopenWf⟩ := htimely
  -- a thread that takes a step has not ended, so `stop` has not returned
  have hstays {pc' : LogPc} (hpc : pc ≠ .exited) : stopPc = .returned → pc' = .exited :=
    fun h => absurd (hreturned h) hpc
  have hclean (hpc : pc ≠ .write ∧ pc ≠ .writeWf) : ss = [] := hempty hpc.1 hpc.2
  cases pc with
  | test =>
      simp only [XrtcLog.threadStep] at hstep
      split at hstep
      · rename_i hrun
        cases hstep
        obtain rfl : stopPc = .notCalled := hrunning.mp hrun
        exact ⟨hnormal, hwf, fun _ _ => hclean (by decide), hidle, hrunning, hstays (by decide)⟩
      · cases hstep
        exact ⟨hnormal, hwf, fun _ _ => hclean (by decide), hidle, hrunning, fun _ => rfl⟩
  | stat =>
      cases hstep
      exact ⟨hnormal.check found opens, hwf, fun _ _ => hclean (by decide), hidle, hrunning,
        hstays (by decide)⟩
  | statWf =>
      cases hstep
      exact ⟨hnormal, hwf.check found opens, fun _ _ => hclean (by decide), hidle, hrunning,
        hstays (by decide)⟩
  | drain =>
      cases hstep
      obtain rfl : ss = [] := hclean (by decide)
      have hdue : normal.Balanced [] true := by simpa [counts, LogPc.ahead] using hnormal
      refine ⟨hdue.clear _, hwf, by simp, ?_, hrunning, hstays (by decide)⟩
      intro hnone
      have hqueue : normal.queue = [] := by simpa using hnone
      simp [hqueue]
  | write =>
      cases hstep
      exact ⟨hnormal.write hidle (hopen rfl), hwf, fun _ _ => rfl, fun _ => rfl, hrunning,
        hstays (by decide)⟩
  | drainWf =>
      cases hstep
      obtain rfl : ss = [] := hclean (by decide)
      have hdue : wf.Balanced [] true := by simpa [counts, LogPc.aheadWf] using hwf
      refine ⟨hnormal, hdue.clear _, by simp, ?_, hrunning, hstays (by decide)⟩
      intro hnone
      have hqueue : wf.queue = [] := by simpa using hnone
      simp [hqueue]
  | writeWf =>
      cases hstep
      exact ⟨hnormal, hwf.write hidle (hopenWf rfl), fun _ _ => rfl, fun _ => rfl, hrunning,
        hstays (by decide)⟩
  | sleep =>
      cases hstep
      exact ⟨hnormal, hwf, fun _ _ => hclean (by decide), hidle, hrunning, hstays (by decide)⟩
  | exited => cases hstep

theorem Accounted.stop (hx : x.Accounted) (htimely : x.Timely .stop) :
    Accounted { x with running := false, stopPc := .joining } := by
  obtain ⟨hqueue, hqueueWf⟩ := htimely
  -- a queue that counted goes on counting, or is empty
  have hkeeps {c : LogChannel} {held : LogText} {ahead : Bool}
      (hc : c.Balanced held (x.counts ahead)) (hdue : c.queue = [] ∨ ahead = true) :
      c.Balanced held ahead := by
    rcases hdue with hnone | rfl
    · exact hc.of_empty hnone _
    · simpa [counts] using hc
  refine ⟨?_, ?_, hx.empty, hx.idle, by simp, fun hreturned => by cases hreturned⟩
  · simpa [counts] using hkeeps hx.normal hqueue
  · simpa [counts] using hkeeps hx.wf hqueueWf

theorem Accounted.step {action : LogAction} (hx : x.Accounted) (htimely : x.Timely action)
    (hstep : x.step action = some next) : next.Accounted := by
  cases action with
  | log message severity =>
      cases hstep
      exact hx.onLogMessage htimely
  | thread found opens => exact hx.threadStep htimely hstep
  | stop =>
      simp only [XrtcLog.step, Option.ite_none_right_eq_some, Option.some.injEq] at hstep
      obtain ⟨-, rfl⟩ := hstep
      exact hx.stop htimely
  | join =>
      simp only [XrtcLog.step, Option.ite_none_right_eq_some, Option.some.injEq] at hstep
      obtain ⟨⟨hjoining, hexited⟩, rfl⟩ := hstep
      have hnormal := hx.normal
      have hwf := hx.wf
      refine ⟨?_, ?_, hx.empty, hx.idle, ?_, fun _ => hexited⟩
      · simpa [counts, hjoining] using hnormal
      · simpa [counts, hjoining] using hwf
      · simpa [hjoining] using hx.running

/-- The thread goes once round its loop. -/
def round : List LogAction := List.replicate 8 (.thread true true)

end XrtcLog

end Xrtc.Base

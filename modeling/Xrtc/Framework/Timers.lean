/-
# The timers of a request log

`TimeBegin` appends a timer to the log and `TimeEnd` writes the end of the first
timer of its field. Every line shows all timers, those that are still running
with an end of zero.

Next to the log runs what it should show: a list of timers that are begun and
ended once, where an end belongs to the first running timer of its field. The two
lists agree, and no line shows a negative time, as long as no line is logged while
a timer is running and no end comes for a field whose first timer is over.
-/

import Xrtc.Framework.ComLog
import Xrtc.Machine.Run

namespace Xrtc.Framework

open Xrtc.Machine

/-- A timer and the end it was given, if any. -/
structure Timer where
  field : Text
  begun : ℤ
  ended : Option ℤ := none
  deriving DecidableEq

namespace Timer

/-- The item that should stand in the log. -/
def item (timer : Timer) : TimeItem :=
  { field := timer.field, beginTime := timer.begun, endTime := timer.ended.getD 0 }

/-- The timer still runs. -/
def Runs (field : Text) (timer : Timer) : Prop := timer.field = field ∧ timer.ended = none

instance (field : Text) : DecidablePred (Runs field) :=
  fun _ => inferInstanceAs (Decidable (_ ∧ _))

/-- End the first running timer of a field. -/
def endFirst (field : Text) (now : ℤ) : List Timer → List Timer
  | [] => []
  | timer :: timers =>
      if Runs field timer then
        { timer with ended := some now } :: timers
      else
        timer :: endFirst field now timers

end Timer

/-- The calls on a log. A logging call is any of the five functions. -/
inductive LogCall
  | timeBegin (field : Text) (now : ℤ)
  | timeEnd (field : Text) (now : ℤ)
  | addLogItem (field value : Text)
  | logf
  deriving DecidableEq

/-- The durations that `GetMainLogPrefix` renders. -/
def ComLog.durations (c : ComLog) : List ℤ :=
  c.timeLog.map fun item => item.endTime - item.beginTime

/-- The durations of a log are what the beginning of a line shows behind the names
of the timers. -/
theorem getMainLogPrefix_durations {Arg : Type} (P : LogPrinter Arg) (c : ComLog) :
    c.getMainLogPrefix P =
      c.mainLog.flatMap (ComLog.itemText P) ++
        ((c.timeLog.map TimeItem.field).zip c.durations).flatMap fun shown =>
          shown.1 ++ (ascii "[" ++
            (P.printArg { prec := some 3 } (P.thousandth shown.2) (ascii "f") ++
              ascii " ms] ")) := by
  rw [ComLog.getMainLogPrefix_eq, ComLog.durations, List.zip_map', List.flatMap_map]
  congr 2
  funext item
  exact ComLog.timeText_eq item

/-- A log, the timers it stands for, the last clock reading, and all durations
that were rendered so far. Only the log belongs to the program. -/
structure TimedLog where
  log : ComLog := {}
  timers : List Timer := []
  clock : ℤ
  rendered : List ℤ := []
  deriving DecidableEq

namespace TimedLog

/-- The clock does not go back, and a timer is ended only while one of its field
runs: there have been more calls of `TimeBegin` for the field than of `TimeEnd`. -/
def Enabled (s : TimedLog) : LogCall → Prop
  | .timeBegin _ now => s.clock ≤ now
  | .timeEnd field now => s.clock ≤ now ∧ ∃ timer ∈ s.timers, timer.Runs field
  | .addLogItem .. | .logf => True

instance (s : TimedLog) : DecidablePred s.Enabled
  | .timeBegin _ now => inferInstanceAs (Decidable (s.clock ≤ now))
  | .timeEnd field now =>
      inferInstanceAs (Decidable (s.clock ≤ now ∧ ∃ timer ∈ s.timers, timer.Runs field))
  | .addLogItem .. | .logf => inferInstanceAs (Decidable True)

/-- A new log, at a reading of the clock. -/
def start (clock : ℤ) : TimedLog := { clock := clock }

def call (s : TimedLog) : LogCall → TimedLog
  | .timeBegin field now =>
      { s with
        log := s.log.timeBegin field now
        timers := s.timers ++ [{ field := field, begun := now }]
        clock := now }
  | .timeEnd field now =>
      { s with
        log := s.log.timeEnd field now
        timers := Timer.endFirst field now s.timers
        clock := now }
  | .addLogItem field value => { s with log := s.log.addLogItem field value }
  | .logf => { s with rendered := s.rendered ++ s.log.durations }

def step (s : TimedLog) (c : LogCall) : Option TimedLog :=
  if s.Enabled c then some (s.call c) else none

/-- No line is logged while a timer runs, and no timer is ended while the first
one of its field is over already. -/
def Tidy (s : TimedLog) : LogCall → Prop
  | .logf => ∀ timer ∈ s.timers, timer.ended ≠ none
  | .timeEnd field _ =>
      ∀ timer ∈ s.timers.find? fun timer => decide (timer.field = field), timer.ended = none
  | .timeBegin .. | .addLogItem .. => True

instance (s : TimedLog) : DecidablePred s.Tidy
  | .logf => inferInstanceAs (Decidable (∀ timer ∈ s.timers, timer.ended ≠ none))
  | .timeEnd field _ =>
      inferInstanceAs (Decidable (∀ timer ∈
        s.timers.find? fun timer => decide (timer.field = field), timer.ended = none))
  | .timeBegin .. | .addLogItem .. => inferInstanceAs (Decidable True)

end TimedLog

/-! ## Ending a timer -/

/-- Where the first timer of a field runs, it is the one that both lists end. -/
theorem endFirst_map_item {field : Text} {timers : List Timer}
    (hfirst : ∀ timer ∈ timers.find? fun timer => decide (timer.field = field),
      timer.ended = none) (now : ℤ) :
    ComLog.endFirst field now (timers.map Timer.item) =
      (Timer.endFirst field now timers).map Timer.item := by
  induction timers with
  | nil => rfl
  | cons timer timers ih =>
      have hitem : timer.item.field = timer.field := rfl
      rw [List.map_cons, ComLog.endFirst, Timer.endFirst, hitem]
      by_cases hfield : timer.field = field
      · rw [List.find?_cons_of_pos (by simpa using hfield)] at hfirst
        have hruns : timer.Runs field := ⟨hfield, hfirst timer rfl⟩
        rw [if_pos hfield, if_pos hruns]
        rfl
      · rw [List.find?_cons_of_neg (by simpa using hfield)] at hfirst
        have hother : ¬timer.Runs field := fun hruns => hfield hruns.1
        rw [if_neg hfield, if_neg hother, ih hfirst]
        rfl

/-- What is over is not ended again. -/
theorem getElem?_endFirst {field : Text} {now : ℤ} {timers : List Timer} {i : ℕ} {timer : Timer}
    (htimer : timers[i]? = some timer) (hover : timer.ended ≠ none) :
    (Timer.endFirst field now timers)[i]? = some timer := by
  induction timers generalizing i with
  | nil => cases htimer
  | cons first timers ih =>
      rw [Timer.endFirst]
      split
      · rename_i hruns
        cases i with
        | zero =>
            cases htimer
            exact absurd hruns.2 hover
        | succ i => exact htimer
      · cases i with
        | zero => exact htimer
        | succ i => exact ih htimer

/-- The timers behind the end of one: as before, or the one that was ended. -/
theorem mem_endFirst {field : Text} {now : ℤ} {timers : List Timer} {timer : Timer}
    (hmem : timer ∈ Timer.endFirst field now timers) :
    timer ∈ timers ∨ ∃ before ∈ timers, timer = { before with ended := some now } := by
  induction timers with
  | nil => cases hmem
  | cons first timers ih =>
      rw [Timer.endFirst] at hmem
      split at hmem
      · rcases List.mem_cons.mp hmem with rfl | hrest
        · exact Or.inr ⟨first, List.mem_cons_self, rfl⟩
        · exact Or.inl (List.mem_cons_of_mem _ hrest)
      · rcases List.mem_cons.mp hmem with rfl | hrest
        · exact Or.inl List.mem_cons_self
        · rcases ih hrest with hold | ⟨before, hbefore, rfl⟩
          · exact Or.inl (List.mem_cons_of_mem _ hold)
          · exact Or.inr ⟨before, List.mem_cons_of_mem _ hbefore, rfl⟩

/-- The number of timers of a field that run. -/
def running (field : Text) (timers : List Timer) : ℕ := timers.countP fun timer => timer.Runs field

theorem running_endFirst {field : Text} {timers : List Timer} (now : ℤ)
    (hruns : ∃ timer ∈ timers, timer.Runs field) :
    running field (Timer.endFirst field now timers) + 1 = running field timers := by
  induction timers with
  | nil =>
      obtain ⟨timer, hmem, -⟩ := hruns
      cases hmem
  | cons first timers ih =>
      rw [Timer.endFirst]
      by_cases hfirst : first.Runs field
      · have hover : ¬Timer.Runs field { first with ended := some now } := fun h => nomatch h.2
        rw [if_pos hfirst, running, running, List.countP_cons_of_neg (by simpa using hover),
          List.countP_cons_of_pos (by simpa using hfirst)]
      · obtain ⟨timer, hmem, hruns⟩ := hruns
        have hrest : ∃ timer ∈ timers, timer.Runs field := by
          rcases List.mem_cons.mp hmem with rfl | hmem
          · exact absurd hruns hfirst
          · exact ⟨timer, hmem, hruns⟩
        rw [if_neg hfirst, running, running, List.countP_cons_of_neg (by simpa using hfirst),
          List.countP_cons_of_neg (by simpa using hfirst)]
        exact ih hrest

theorem running_endFirst_of_ne {field other : Text} (hne : other ≠ field) (now : ℤ)
    (timers : List Timer) :
    running other (Timer.endFirst field now timers) = running other timers := by
  induction timers with
  | nil => rfl
  | cons first timers ih =>
      rw [Timer.endFirst]
      split
      · rename_i hruns
        have hbefore : ¬first.Runs other := fun h => hne (h.1.symm.trans hruns.1)
        have hafter : ¬Timer.Runs other { first with ended := some now } :=
          fun h => hne (h.1.symm.trans hruns.1)
        rw [running, running, List.countP_cons_of_neg (by simpa using hafter),
          List.countP_cons_of_neg (by simpa using hbefore)]
      · rw [running, running, List.countP_cons, List.countP_cons]
        exact congrArg (· + _) ih

namespace LogCall

def isBegin (field : Text) : LogCall → Bool
  | .timeBegin begun _ => decide (begun = field)
  | _ => false

def isEnd (field : Text) : LogCall → Bool
  | .timeEnd ended _ => decide (ended = field)
  | _ => false

end LogCall

namespace TimedLog

variable {s next : TimedLog} {c : LogCall}

theorem step_eq_some : s.step c = some next ↔ s.Enabled c ∧ next = s.call c := by
  rw [step]
  split
  · rename_i henabled
    simp [henabled, eq_comm]
  · rename_i henabled
    simp [henabled]

/-- One call: a timer begins to run, one ends, or none. -/
theorem running_call (henabled : s.Enabled c) (field : Text) :
    running field (s.call c).timers + (if c.isEnd field then 1 else 0) =
      running field s.timers + (if c.isBegin field then 1 else 0) := by
  cases c with
  | timeBegin begun now =>
      by_cases hfield : begun = field
      · subst hfield
        simp [call, running, LogCall.isEnd, LogCall.isBegin, Timer.Runs, List.countP_append]
      · simp [call, running, LogCall.isEnd, LogCall.isBegin, Timer.Runs, List.countP_append,
          hfield]
  | timeEnd ended now =>
      by_cases hfield : ended = field
      · subst hfield
        simpa [call, LogCall.isEnd, LogCall.isBegin] using running_endFirst now henabled.2
      · have hsame := running_endFirst_of_ne (Ne.symm hfield) now s.timers
        simpa [call, LogCall.isEnd, LogCall.isBegin, hfield] using hsame
  | addLogItem name value => rfl
  | logf => rfl

/-- **The timers that run are the begun ones less the ended ones.** -/
theorem running_run {calls : List LogCall} {last : TimedLog} (field : Text)
    (hrun : run step s calls = some last) :
    running field last.timers + calls.countP (LogCall.isEnd field) =
      running field s.timers + calls.countP (LogCall.isBegin field) := by
  induction calls generalizing s with
  | nil =>
      cases hrun
      rfl
  | cons c calls ih =>
      obtain ⟨next, hstep, hrest⟩ := run_cons_eq_some.mp hrun
      obtain ⟨henabled, rfl⟩ := step_eq_some.mp hstep
      have hcall := running_call henabled field
      have hcalls := ih hrest
      rw [List.countP_cons, List.countP_cons]
      omega

/-- A timer may be ended exactly when there were more calls of `TimeBegin` for its
field than of `TimeEnd`. -/
theorem enabled_timeEnd_iff {clock : ℤ} {calls : List LogCall}
    (hrun : run step (start clock) calls = some s) (field : Text) (now : ℤ) :
    s.Enabled (.timeEnd field now) ↔
      s.clock ≤ now ∧
        calls.countP (LogCall.isEnd field) < calls.countP (LogCall.isBegin field) := by
  have hcount := running_run field hrun
  have hstart : running field (start clock).timers = 0 := rfl
  have hruns : (∃ timer ∈ s.timers, timer.Runs field) ↔ 0 < running field s.timers := by
    rw [running, List.countP_pos_iff]
    simp only [decide_eq_true_eq]
  rw [Enabled, hruns]
  omega

/-! ## What the log shows -/

/-- The log holds the timers as they should be, and no line has shown a negative
duration. -/
structure Agrees (s : TimedLog) : Prop where
  items : s.log.timeLog = s.timers.map Timer.item
  begun_le : ∀ timer ∈ s.timers, timer.begun ≤ s.clock
  begun_le_ended : ∀ timer ∈ s.timers, ∀ ended ∈ timer.ended, timer.begun ≤ ended
  rendered : ∀ d ∈ s.rendered, 0 ≤ d

theorem agrees_start (clock : ℤ) : (start clock).Agrees := by
  refine ⟨rfl, ?_, ?_, ?_⟩
  · intro timer htimer
    cases htimer
  · intro timer htimer
    cases htimer
  · intro d hd
    cases hd

theorem Agrees.timeBegin {field : Text} {now : ℤ} (hs : s.Agrees) (hclock : s.clock ≤ now) :
    (s.call (.timeBegin field now)).Agrees := by
  refine ⟨?_, ?_, ?_, hs.rendered⟩
  · show s.log.timeLog ++ _ = (s.timers ++ _).map _
    rw [hs.items, List.map_append]
    rfl
  · intro timer htimer
    rcases List.mem_append.mp htimer with hold | hnew
    · exact (hs.begun_le timer hold).trans hclock
    · rw [List.mem_singleton.mp hnew]
      exact le_rfl
  · intro timer htimer ended hended
    rcases List.mem_append.mp htimer with hold | hnew
    · exact hs.begun_le_ended timer hold ended hended
    · rw [List.mem_singleton.mp hnew] at hended
      cases hended

theorem Agrees.timeEnd {field : Text} {now : ℤ} (hs : s.Agrees) (hclock : s.clock ≤ now)
    (htidy : s.Tidy (.timeEnd field now)) : (s.call (.timeEnd field now)).Agrees := by
  refine ⟨?_, ?_, ?_, hs.rendered⟩
  · show ComLog.endFirst field now s.log.timeLog = _
    rw [hs.items]
    exact endFirst_map_item htidy now
  · intro timer htimer
    rcases mem_endFirst htimer with hold | ⟨before, hbefore, rfl⟩
    · exact (hs.begun_le timer hold).trans hclock
    · exact (hs.begun_le before hbefore).trans hclock
  · intro timer htimer ended hended
    rcases mem_endFirst htimer with hold | ⟨before, hbefore, rfl⟩
    · exact hs.begun_le_ended timer hold ended hended
    · cases hended
      exact (hs.begun_le before hbefore).trans hclock

/-- A line that is logged while no timer runs. -/
theorem Agrees.logf (hs : s.Agrees) (htidy : s.Tidy .logf) : (s.call .logf).Agrees := by
  refine ⟨hs.items, hs.begun_le, hs.begun_le_ended, ?_⟩
  intro d hd
  rcases List.mem_append.mp hd with hold | hnew
  · exact hs.rendered d hold
  · rw [ComLog.durations, hs.items, List.map_map] at hnew
    obtain ⟨timer, htimer, rfl⟩ := List.mem_map.mp hnew
    obtain ⟨ended, hended⟩ := Option.ne_none_iff_exists'.mp (htidy timer htimer)
    have hle := hs.begun_le_ended timer htimer ended hended
    show 0 ≤ timer.ended.getD 0 - timer.begun
    rw [hended, Option.getD_some]
    exact sub_nonneg.mpr hle

theorem Agrees.step (hs : s.Agrees) (htidy : s.Tidy c) (hstep : s.step c = some next) :
    next.Agrees := by
  obtain ⟨henabled, rfl⟩ := step_eq_some.mp hstep
  cases c with
  | timeBegin field now => exact hs.timeBegin henabled
  | timeEnd field now => exact hs.timeEnd henabled.1 htidy
  | addLogItem field value => exact ⟨hs.items, hs.begun_le, hs.begun_le_ended, hs.rendered⟩
  | logf => exact hs.logf htidy

/-- A timer that is over stays what it is. -/
theorem getElem?_timers_step {i : ℕ} {timer : Timer} (htimer : s.timers[i]? = some timer)
    (hover : timer.ended ≠ none) (hstep : s.step c = some next) :
    next.timers[i]? = some timer := by
  obtain ⟨-, rfl⟩ := step_eq_some.mp hstep
  cases c with
  | timeBegin field now =>
      show (s.timers ++ _)[i]? = _
      rw [List.getElem?_append_left (List.getElem?_eq_some_iff.mp htimer).1, htimer]
  | timeEnd field now => exact getElem?_endFirst htimer hover
  | addLogItem field value => exact htimer
  | logf => exact htimer

/-- What the log shows for a timer that is over. -/
theorem Agrees.getElem?_timeLog {i : ℕ} {timer : Timer} {ended : ℤ} (hs : s.Agrees)
    (htimer : s.timers[i]? = some timer) (hended : timer.ended = some ended) :
    s.log.timeLog[i]? =
      some { field := timer.field, beginTime := timer.begun, endTime := ended } := by
  rw [hs.items, List.getElem?_map, htimer, Option.map_some, Timer.item, hended, Option.getD_some]

/-- A timer that runs is shown with a negative duration, unless it was begun before
the clock's origin. -/
theorem Agrees.negative_of_running {timer : Timer} (hs : s.Agrees) (htimer : timer ∈ s.timers)
    (hruns : timer.ended = none) (hbegun : 0 < timer.begun) : ∃ d ∈ s.log.durations, d < 0 := by
  have hitem : timer.item ∈ s.log.timeLog := by
    rw [hs.items]
    exact List.mem_map_of_mem htimer
  refine ⟨timer.item.endTime - timer.item.beginTime, List.mem_map_of_mem hitem, ?_⟩
  show timer.ended.getD 0 - timer.begun < 0
  rw [hruns, Option.getD_none, zero_sub]
  exact neg_neg_of_pos hbegun

/-- **Timers show their own times.** In a run in which no line is logged while a
timer runs and no timer is ended while the first one of its field is over, no line
shows a negative duration, and a timer that is over shows the time between its own
begin and its own end, then and after all later calls. -/
theorem run_shows_durations (clock : ℤ) (first rest : List LogCall) (middle last : TimedLog)
    (htidy : RunMeets step Tidy (start clock) (first ++ rest))
    (hfirst : run step (start clock) first = some middle)
    (hrest : run step middle rest = some last) :
    (∀ d ∈ last.rendered, 0 ≤ d) ∧
      ∀ (i : ℕ) (timer : Timer) (ended : ℤ), middle.timers[i]? = some timer →
        timer.ended = some ended →
          middle.log.timeLog[i]? =
              some { field := timer.field, beginTime := timer.begun, endTime := ended } ∧
            last.log.timeLog[i]? =
              some { field := timer.field, beginTime := timer.begun, endTime := ended } := by
  have hagrees {calls : List LogCall} {before after : TimedLog} (hbefore : before.Agrees)
      (hmeets : RunMeets step Tidy before calls) (hrun : run step before calls = some after) :
      after.Agrees := by
    refine run_preserves_of_meets Agrees ?_ hbefore hmeets hrun
    intro s next c hs htidy hstep
    exact hs.step htidy hstep
  have hmiddle : middle.Agrees := hagrees (agrees_start clock) htidy.front hfirst
  have hlast : last.Agrees := hagrees hmiddle (htidy.behind hfirst) hrest
  refine ⟨hlast.rendered, ?_⟩
  intro i timer ended htimer hended
  have hover : timer.ended ≠ none := by
    rw [hended]
    exact Option.some_ne_none ended
  have hstays : last.timers[i]? = some timer := by
    refine run_preserves (fun s => s.timers[i]? = some timer) ?_ htimer hrest
    intro s next c hs hstep
    exact getElem?_timers_step hs hover hstep
  exact ⟨hmiddle.getElem?_timeLog htimer hended, hlast.getElem?_timeLog hstays hended⟩

/-- Two parts of a request, one after the other, and one line at the end. -/
def twoParts : List LogCall :=
  [.timeBegin (ascii "a") 1000, .timeEnd (ascii "a") 1500, .timeBegin (ascii "b") 1600,
    .timeEnd (ascii "b") 2600, .logf]

theorem run_shows_durations_twoParts :
    ∃ last, run step (start 0) twoParts = some last ∧ (∀ d ∈ last.rendered, 0 ≤ d) ∧
      last.log.timeLog[1]? =
        some { field := ascii "b", beginTime := 1600, endTime := 2600 } := by
  have hview : (run step (start 0) twoParts).map (fun last => last.timers[1]?) =
      some (some { field := ascii "b", begun := 1600, ended := some 2600 }) := by decide +kernel
  obtain ⟨last, hrun, htimer⟩ := Option.map_eq_some_iff.mp hview
  obtain ⟨hrendered, hshown⟩ := run_shows_durations 0 twoParts [] last last
    (by decide +kernel) hrun rfl
  exact ⟨last, hrun, hrendered, (hshown 1 _ 2600 htimer rfl).1⟩

/-- The calls of `entry` when its action writes an error document. -/
def failedRequest : List LogCall :=
  [.addLogItem (ascii "path") (ascii "/push"), .timeBegin (ascii "execute") 1700000000000000,
    .addLogItem (ascii "errNo") (ascii "-1"), .logf,
    .timeEnd (ascii "execute") 1700000000000900, .logf]

/-- A field that is timed twice. -/
def timedTwice : List LogCall :=
  [.timeBegin (ascii "rpc") 1000, .timeEnd (ascii "rpc") 1200, .timeBegin (ascii "rpc") 5000,
    .timeEnd (ascii "rpc") 5300, .logf]

/-- **Lines show times that nobody took.** The warning of a failed request is
logged while `execute` runs and shows the negative of the time of day. When a field
is timed twice, the second end overwrites the first one, and the second timer is
shown as if it still ran. -/
theorem durations_not_shown :
    (∃ last, run step (start 0) failedRequest = some last ∧
        last.rendered = [-1700000000000000, 900] ∧ ¬∀ d ∈ last.rendered, 0 ≤ d) ∧
      ∃ last, run step (start 0) timedTwice = some last ∧ last.rendered = [4300, -5000] ∧
        last.timers =
          [{ field := ascii "rpc", begun := 1000, ended := some 1200 },
            { field := ascii "rpc", begun := 5000, ended := some 5300 }] ∧
        last.log.timeLog =
          [{ field := ascii "rpc", beginTime := 1000, endTime := 5300 },
            { field := ascii "rpc", beginTime := 5000, endTime := 0 }] := by
  constructor
  · have hview : (run step (start 0) failedRequest).map (fun last => last.rendered) =
        some [-1700000000000000, 900] := by decide +kernel
    obtain ⟨last, hrun, hrendered⟩ := Option.map_eq_some_iff.mp hview
    refine ⟨last, hrun, hrendered, ?_⟩
    rw [hrendered]
    decide
  · have hview : (run step (start 0) timedTwice).map
        (fun last => (last.rendered, last.timers, last.log.timeLog)) =
          some ([4300, -5000],
            [{ field := ascii "rpc", begun := 1000, ended := some 1200 },
              { field := ascii "rpc", begun := 5000, ended := some 5300 }],
            [{ field := ascii "rpc", beginTime := 1000, endTime := 5300 },
              { field := ascii "rpc", beginTime := 5000, endTime := 0 }]) := by decide +kernel
    obtain ⟨last, hrun, hlast⟩ := Option.map_eq_some_iff.mp hview
    obtain ⟨hrendered, hrest⟩ := Prod.mk.inj hlast
    obtain ⟨htimers, htimeLog⟩ := Prod.mk.inj hrest
    exact ⟨last, hrun, hrendered, htimers, htimeLog⟩

end TimedLog

end Xrtc.Framework

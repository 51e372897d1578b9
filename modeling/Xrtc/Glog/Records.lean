/-
# Nothing that was logged is lost

A record goes into the files of its severity and of all lower ones. The files of all
severities are on one disk, and no file belongs to two of them; so what is done for one
severity leaves the others as they are.

Over a run, with any rotations and flushes, the files and the buffer of a severity hold
what was logged for it, in order. This needs neither that files can be made nor a clock
that goes forward: where a file cannot be made, `Emit` says so and the process ends.
-/

import Xrtc.Glog.Volumes

namespace Xrtc.Glog

open Xrtc.Machine Xrtc.Framework

namespace FileSink

/-! ## All severities -/

/-- The files of every severity hold its text, and no file is of two severities. -/
structure Holds (c : Config) (s : FileSink) (volumes : Severity → List Volume)
    (text : Severity → Text) : Prop where
  stored : ∀ sev, Stored c s.disk ((s.file sev).getD {}) (volumes sev) (text sev)
  made : ∀ sev, (s.file sev).isSome = true ↔ volumes sev ≠ []
  apart : ∀ sev other, ∀ v ∈ volumes sev, ∀ u ∈ volumes other, v.name = u.name → sev = other

variable {c : Config} {os : Os} {s : FileSink} {volumes : Severity → List Volume}
  {text : Severity → Text} {sev : Severity}

theorem set_file (s : FileSink) (sev other : Severity) (sb : SyncBuffer) (disk : Disk) :
    (s.set sev sb disk).file other = if other = sev then some sb else s.file other := rfl

/-- A call that concerns one severity leaves the others as they are. -/
theorem Holds.set (h : Holds c s volumes text) {sb : SyncBuffer} {out : SyncBuffer × Disk}
    {volumes' : List Volume} {text' : Text} (hsb : (s.file sev).getD {} = sb)
    (hout : Stores c s.disk sb (volumes sev) out volumes' text') :
    Holds c (s.set sev out.1 out.2) (Function.update volumes sev volumes')
      (Function.update text sev text') := by
  subst hsb
  have hothers (other : Severity) (hne : other ≠ sev) :
      ∀ v ∈ volumes other, out.2 v.name = s.disk v.name := by
    intro v hv
    refine hout.spares _ ((h.stored other).chain.ne_none v hv) fun hfile => ?_
    obtain ⟨u, hu, hname⟩ := (h.stored sev).mem_of_file hfile
    exact hne (h.apart other sev v hv u hu hname.symm)
  have hknown (other : Severity) (hne : other ≠ sev) :
      ∀ v ∈ volumes', ∀ u ∈ volumes other, v.name ≠ u.name := by
    intro v hv u hu heq
    rcases hout.known v hv with hnone | ⟨w, hw, hname⟩
    · exact (h.stored other).chain.ne_none u hu (heq ▸ hnone)
    · exact hne (h.apart other sev u hu w hw (heq.symm.trans hname.symm))
  refine ⟨fun other => ?_, fun other => ?_, fun first second v hv u hu heq => ?_⟩
  · by_cases hother : other = sev
    · subst hother
      rw [Function.update_self, Function.update_self]
      show Stored c out.2 ((if other = other then some out.1 else s.file other).getD {}) _ _
      rw [if_pos rfl]
      exact hout.stored
    · rw [Function.update_of_ne hother, Function.update_of_ne hother]
      show Stored c out.2 ((if other = sev then some out.1 else s.file other).getD {}) _ _
      rw [if_neg hother]
      exact { h.stored other with chain := (h.stored other).chain.congr (hothers other hother) }
  · by_cases hother : other = sev
    · subst hother
      rw [Function.update_self]
      show (if other = other then some out.1 else s.file other).isSome = true ↔ _
      rw [if_pos rfl]
      exact iff_of_true rfl hout.made
    · rw [Function.update_of_ne hother]
      show (if other = sev then some out.1 else s.file other).isSome = true ↔ _
      rw [if_neg hother]
      exact h.made other
  · by_cases hfirst : first = sev <;> by_cases hsecond : second = sev
    · exact hfirst.trans hsecond.symm
    · subst hfirst
      rw [Function.update_self] at hv
      rw [Function.update_of_ne hsecond] at hu
      exact absurd heq (hknown second hsecond v hv u hu)
    · subst hsecond
      rw [Function.update_self] at hu
      rw [Function.update_of_ne hfirst] at hv
      exact absurd heq.symm (hknown first hfirst u hu v hv)
    · rw [Function.update_of_ne hfirst] at hv
      rw [Function.update_of_ne hsecond] at hu
      exact h.apart first second v hv u hu heq

theorem Holds.text_of_none (h : Holds c s volumes text) (hfile : s.file sev = none) :
    volumes sev = [] ∧ text sev = [] := by
  have hvolumes : volumes sev = [] := by
    by_contra hne
    have hsome := (h.made sev).mpr hne
    rw [hfile] at hsome
    cases hsome
  have htext := (h.stored sev).text_eq
  rw [hvolumes, hfile] at htext
  exact ⟨hvolumes, htext.symm⟩

/-- New files are empty. -/
theorem Holds.createMissing (haccepts : os.Accepts) {now : ℕ} (sevs : List Severity)
    (h : Holds c s volumes text) (hok : (createMissing c os now sevs s).1 = false) :
    ∃ volumes', Holds c (FileSink.createMissing c os now sevs s).2 volumes' text := by
  induction sevs generalizing s volumes with
  | nil => exact ⟨volumes, h⟩
  | cons sev sevs ih =>
      revert hok
      rw [FileSink.createMissing]
      split
      · exact ih h
      · rename_i hmissing
        rw [Bool.not_eq_true, Option.isSome_eq_false_iff, Option.isNone_iff_eq_none] at hmissing
        obtain ⟨hvolumes, htext⟩ := h.text_of_none hmissing
        dsimp only
        split
        · exact fun hok => Bool.noConfusion hok
        · rename_i hrotated
          rw [Bool.not_eq_true] at hrotated
          have hsb : (s.file sev).getD {} = {} := by rw [hmissing]; rfl
          have hstored := h.stored sev
          rw [hsb] at hstored
          obtain ⟨volumes', hout⟩ := hstored.rotateFile haccepts (fun _ => htext) hrotated
          have hafter := h.set hsb hout
          rw [Function.update_eq_self] at hafter
          exact ih hafter

/-- A record is written to each file of the list. -/
theorem Holds.writeAll (haccepts : os.Accepts) {now : Severity → ℕ} (data : Text)
    (sevs : List Severity) (hnodup : sevs.Nodup) (h : Holds c s volumes text)
    (hok : (writeAll c os now data sevs s).1 = false) :
    ∃ volumes', Holds c (FileSink.writeAll c os now data sevs s).2 volumes'
      fun sev => text sev ++ if sev ∈ sevs then data else [] := by
  induction sevs generalizing s volumes text with
  | nil =>
      refine ⟨volumes, ?_⟩
      simp only [List.not_mem_nil, if_false, List.append_nil]
      exact h
  | cons sev sevs ih =>
      obtain ⟨hnot, hnodup⟩ := List.nodup_cons.mp hnodup
      revert hok
      rw [FileSink.writeAll]
      split
      · exact fun hok => Bool.noConfusion hok
      · rename_i sb hfile
        dsimp only
        intro hok
        rw [Bool.or_eq_false_iff] at hok
        have hsb : (s.file sev).getD {} = sb := by rw [hfile]; rfl
        have hstored := h.stored sev
        rw [hsb] at hstored
        have hmade : volumes sev ≠ [] := (h.made sev).mp (by rw [hfile]; rfl)
        obtain ⟨volumes', hout⟩ := hstored.write haccepts hmade data hok.1
        obtain ⟨volumes'', hafter⟩ := ih hnodup (h.set hsb hout) hok.2
        refine ⟨volumes'', ?_⟩
        convert hafter using 2 with other
        by_cases hother : other = sev
        · subst hother
          rw [Function.update_self, if_pos List.mem_cons_self, if_neg hnot, List.append_nil]
        · rw [Function.update_of_ne hother]
          congr 1
          exact if_congr (by rw [List.mem_cons, or_iff_right hother]) rfl rfl

/-- A flush moves records from the buffers into the files. -/
theorem Holds.flushAll (haccepts : os.Accepts) (sevs : List Severity)
    (h : Holds c s volumes text) :
    ∃ volumes', Holds c (flushAll os sevs s) volumes' text := by
  induction sevs generalizing s volumes with
  | nil => exact ⟨volumes, h⟩
  | cons sev sevs ih =>
      rw [FileSink.flushAll]
      split
      · exact ih h
      · rename_i sb hfile
        have hsb : (s.file sev).getD {} = sb := by rw [hfile]; rfl
        have hstored := h.stored sev
        rw [hsb] at hstored
        have hmade : volumes sev ≠ [] := (h.made sev).mp (by rw [hfile]; rfl)
        obtain ⟨v, older, hvolumes⟩ := List.exists_cons_of_ne_nil hmade
        rw [hvolumes] at hstored
        have hout := (hstored.flush haccepts).2
        rw [← hvolumes] at hout
        have hafter := h.set hsb hout
        rw [Function.update_eq_self] at hafter
        exact ih hafter

theorem mem_upTo {severity : Severity} : sev ∈ upTo severity ↔ level sev ≤ level severity := by
  cases sev <;> cases severity <;> decide

theorem nodup_upTo (severity : Severity) : (upTo severity).Nodup := by
  cases severity <;> decide

theorem Holds.emit (haccepts : os.Accepts) {created : ℕ} {now : Severity → ℕ}
    {severity : Severity} {data : Text} (h : Holds c s volumes text)
    (hok : (s.emit c os created now severity data).failed = false) :
    ∃ volumes', Holds c (s.emit c os created now severity data) volumes'
      fun sev => text sev ++ if level sev ≤ level severity then data else [] := by
  revert hok
  rw [FileSink.emit]
  dsimp only
  split
  · exact fun hok => Bool.noConfusion hok
  · rename_i hmade
    rw [Bool.not_eq_true] at hmade
    intro hok
    rw [Bool.or_eq_false_iff] at hok
    obtain ⟨volumes', hcreated⟩ : ∃ volumes',
        Holds c (s.createMissingFiles c os created severity).2 volumes' text := by
      revert hmade
      rw [createMissingFiles]
      split
      · exact fun _ => ⟨volumes, h⟩
      · exact fun hmade => h.createMissing haccepts _ hmade
    obtain ⟨volumes'', hwritten⟩ := hcreated.writeAll haccepts data (upTo severity).reverse
      (List.nodup_reverse.2 (nodup_upTo severity)) hok.2
    refine ⟨volumes'', ⟨fun sev => ?_, hwritten.made, hwritten.apart⟩⟩
    have hstored := hwritten.stored sev
    simp only [List.mem_reverse, mem_upTo] at hstored
    exact hstored

theorem Holds.step {next : FileSink} {action : Action} (h : Holds c s volumes text)
    (haccepts : action.os.Accepts) (hstep : step c s action = some next)
    (hok : next.failed = false) :
    ∃ volumes', Holds c next volumes' fun sev => text sev ++ action.logs sev := by
  cases action with
  | emit os created now severity data =>
      cases hstep
      exact h.emit haccepts hok
  | flush os =>
      cases hstep
      simp only [Action.logs, List.append_nil]
      exact h.flushAll haccepts (downTo .debug)
  | receive os =>
      obtain ⟨severity, -, rfl⟩ := Option.map_eq_some_iff.mp hstep
      obtain ⟨volumes', hflushed⟩ := h.flushAll haccepts (downTo severity)
      refine ⟨volumes', ?_⟩
      simp only [Action.logs, List.append_nil]
      exact ⟨hflushed.stored, hflushed.made, hflushed.apart⟩

/-! ## Whether a call has failed -/

theorem failed_createMissing (created : ℕ) (sevs : List Severity) (s : FileSink) :
    (createMissing c os created sevs s).2.failed = s.failed := by
  induction sevs generalizing s with
  | nil => rfl
  | cons sev sevs ih =>
      rw [createMissing]
      split
      · exact ih s
      · dsimp only
        split
        · rfl
        · rw [ih]
          rfl

theorem failed_writeAll (now : Severity → ℕ) (data : Text) (sevs : List Severity) (s : FileSink) :
    (writeAll c os now data sevs s).2.failed = s.failed := by
  induction sevs generalizing s with
  | nil => rfl
  | cons sev sevs ih =>
      rw [writeAll]
      split
      · rfl
      · dsimp only
        rw [ih]
        rfl

theorem failed_flushAll (sevs : List Severity) (s : FileSink) :
    (flushAll os sevs s).failed = s.failed := by
  induction sevs generalizing s with
  | nil => rfl
  | cons sev sevs ih =>
      rw [flushAll]
      split
      · exact ih s
      · rw [ih]
        rfl

end FileSink

end Xrtc.Glog

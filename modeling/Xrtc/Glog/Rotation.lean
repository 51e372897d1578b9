/-
# Rotation is possible whenever it is asked for

A file is made with `O_EXCL`, and its name tells no more than its severity and the second
in which it was made. A rotation in the second of the file that is left would fail, and
the process would end over a log that grew too fast. `syncBuffer.Write` therefore rotates
only when that second has passed. This is enough: under a clock that is not set back no
call ever meets a file of the name it is about to make.
-/

import Xrtc.Glog.Records

namespace Xrtc.Glog

open Xrtc.Machine Xrtc.Framework

/-! ## Names and times -/

theorem notMem_tag (sev : Severity) : 46 ∉ tag sev := by
  cases sev <;> decide

theorem tag_inj {sev other : Severity} (h : tag sev = tag other) : sev = other := by
  cases sev <;> cases other <;> first | rfl | exact absurd h (by decide)

/-- What stands in front of the last separator, and behind it. -/
theorem append_cons_inj {separator : UInt8} {first first' word word' : Text}
    (hword : separator ∉ word) (hword' : separator ∉ word')
    (heq : first ++ separator :: word = first' ++ separator :: word') :
    first = first' ∧ word = word' := by
  have hreverse := congrArg List.reverse heq
  simp only [List.reverse_append, List.reverse_cons, List.append_assoc,
    List.singleton_append] at hreverse
  have hmem : separator ∉ word.reverse := by rwa [List.mem_reverse]
  have hmem' : separator ∉ word'.reverse := by rwa [List.mem_reverse]
  have hbefore := congrArg (before separator) hreverse
  have hbehind := congrArg (behind separator) hreverse
  rw [before_append hmem, before_append hmem'] at hbefore
  rw [behind_append hmem, behind_append hmem'] at hbehind
  exact ⟨List.reverse_injective hbehind, List.reverse_injective hbefore⟩

/-- **The name of a file tells its severity and the second in which it was made.** -/
theorem fname_inj {c : Config} {dir dir' : Text} {sev other : Severity} {t u : ℕ}
    (heq : c.fname dir sev t = c.fname dir' other u) :
    sev = other ∧ t / 1000000000 = u / 1000000000 := by
  have hcolumns (c : UInt8) (n : ℕ) (hc : isDigit c = false) :
      c ∉ (Config.reading n).dateColumns ∧ c ∉ (Config.reading n).clockColumns := by
    refine ⟨fun hmem => ?_, fun hmem => ?_⟩
    · rw [Reading.isDigit_of_mem_dateColumns hmem] at hc
      cases hc
    · rw [Reading.isDigit_of_mem_clockColumns hmem] at hc
      cases hc
  have hpid : (46 : UInt8) ∉ natDecimal c.pid := by
    intro hmem
    exact absurd (isDigit_of_mem_natDecimal hmem) (by decide)
  have hstamp (n : ℕ) : (46 : UInt8) ∉ Config.stamp n := by
    obtain ⟨hdate, hclock⟩ := hcolumns 46 n (by decide)
    rw [Config.stamp, List.mem_append, List.mem_cons]
    rintro (hmem | hmem | hmem)
    · exact hdate hmem
    · exact absurd hmem (by decide)
    · exact hclock hmem
  obtain ⟨hfront, -⟩ := append_cons_inj hpid hpid heq
  obtain ⟨hfront, hstamps⟩ := append_cons_inj (hstamp t) (hstamp u) hfront
  obtain ⟨-, htags⟩ := append_cons_inj (notMem_tag sev) (notMem_tag other) hfront
  obtain ⟨hdate, hclock⟩ := append_cons_inj (hcolumns 45 t (by decide)).2
    (hcolumns 45 u (by decide)).2 hstamps
  exact ⟨tag_inj htags, Reading.columns_inj hdate hclock⟩

/-- A link that is made anew never takes the place of a log file: the name of a log file
ends with a number, that of a link with a severity. -/
theorem fname_ne_link (c : Config) (program dir dir' : Text) (sev other : Severity) (t : ℕ) :
    c.fname dir sev t ≠ Config.link program dir' other := by
  intro heq
  have hpid : (46 : UInt8) ∉ natDecimal c.pid := fun hmem =>
    absurd (isDigit_of_mem_natDecimal hmem) (by decide)
  obtain ⟨-, hends⟩ := append_cons_inj hpid (notMem_tag other) heq
  obtain ⟨letter, hmem, hletter⟩ : ∃ letter ∈ tag other, isDigit letter = false := by
    cases other <;> decide
  have hdigit : isDigit letter = true := isDigit_of_mem_natDecimal (hends ▸ hmem)
  rw [hletter] at hdigit
  cases hdigit

/-! ## What is new on the disk -/

section Dates

variable {c : Config} {os : Os} {sev : Severity} {now : ℕ} {sb : SyncBuffer} {disk : Disk}
  {volumes : List Volume} {text p path : Text}

theorem Disk.write_eq_none (os : Os) (path' text : Text) (hpath : disk path = none) :
    (disk.write os path' text).2 path = none := by
  rw [Disk.write]
  split
  · rename_i hfile
    show disk.set path' _ path = none
    rw [Disk.set_other, hpath]
    rintro rfl
    rw [hpath] at hfile
    cases hfile
  · exact hpath

theorem Disk.close_eq_none {path' : Text} (hpath : disk path = none) :
    disk.close path' path = none := by
  rw [Disk.close]
  cases hfile : disk path' with
  | none => exact hpath
  | some file =>
      show disk.set path' _ path = none
      rw [Disk.set_other, hpath]
      rintro rfl
      rw [hpath] at hfile
      cases hfile

theorem leave_eq_none (next : Text) (hpath : disk path = none) :
    (sb.leave os next disk).2 path = none := by
  rw [SyncBuffer.leave]
  split
  · exact hpath
  · refine Disk.close_eq_none (Disk.write_eq_none os _ _ (Disk.write_eq_none os _ _
      (Disk.write_eq_none os _ _ ?_)))
    exact Buffered.flush_device (P := fun d : Disk => d path = none)
      (fun text d hd => Disk.write_eq_none os _ text hd) _ hpath

/-- A call does not set the time of the file back, and makes no other file than one of
that time. -/
structure Dates (c : Config) (sev : Severity) (disk : Disk) (sb : SyncBuffer)
    (out : SyncBuffer × Disk) : Prop where
  later : sb.madeAt ≤ out.1.madeAt
  fresh : ∀ path, disk path = none → out.2 path ≠ none →
    ∃ dir, path = c.fname dir sev out.1.madeAt

theorem dates_store (c : Config) (os : Os) (sev : Severity) (p : Text) (sb : SyncBuffer)
    (disk : Disk) : Dates c sev disk sb (sb.store os p disk).2 where
  later := Nat.le_refl _
  fresh := fun path hpath hnew => by
    refine absurd ?_ hnew
    exact Buffered.write_device bufferSize (P := fun d : Disk => d path = none)
      (fun text d hd => Disk.write_eq_none os _ text hd) p sb.writer hpath

/-- Where some directory opens and no file of that name is there, rotation succeeds. -/
theorem Stored.rotates (haccepts : os.Accepts)
    (hopens : ∃ dir ∈ c.createLogDirs, os.opens dir = true)
    (hstored : Stored c disk sb volumes text) (hnew : volumes = [] → text = [])
    (hnow : sb.madeAt ≤ now) (hfree : ∀ dir, disk (c.fname dir sev now) = none) :
    (sb.rotateFile c os sev now disk).1 = false ∧
      (sb.rotateFile c os sev now disk).2.1.madeAt = now ∧
      Dates c sev disk sb (sb.rotateFile c os sev now disk).2 := by
  rcases create_cases c os sev now c.createLogDirs disk with ⟨-, hall⟩ | ⟨dir, -, hname, hmade⟩
  · obtain ⟨dir, hdir, hopen⟩ := hopens
    rw [hall dir hdir (hfree dir)] at hopen
    cases hopen
  rw [rotateFile_of_some hmade, Disk.write_eq haccepts (hstored.openNew haccepts hnew hname)]
  generalize c.header now (sb.file.getD (ascii "<none>")) = header
  have hall : ¬header.length < header.length := Nat.lt_irrefl _
  refine ⟨decide_eq_false hall, rfl, ⟨hnow, ?_⟩⟩
  intro path hpath hafter
  by_contra hnot
  have hne : path ≠ c.fname dir sev now := fun heq => hnot ⟨dir, heq⟩
  refine hafter ?_
  show Disk.set _ _ _ path = none
  rw [Disk.set_other hne]
  exact leave_eq_none _ (by rw [Disk.set_other hne, hpath])

/-- A file is only rotated when the second of its name has passed. -/
theorem lt_of_mustRotate (hrotate : sb.mustRotate c now p = true) (hnow : sb.madeAt ≤ now) :
    sb.madeAt / 1000000000 < now / 1000000000 := by
  rw [SyncBuffer.mustRotate, Bool.and_eq_true, Bool.or_eq_true, decide_eq_true_eq,
    decide_eq_true_eq] at hrotate
  rcases hrotate.2 with hlater | hsecond
  · omega
  · have hne : now / 1000000000 % 60 ≠ sb.madeAt / 1000000000 % 60 := of_decide_eq_true hsecond
    have hle : sb.madeAt / 1000000000 ≤ now / 1000000000 := Nat.div_le_div_right hnow
    omega

/-- **A record is never refused**, where files can be made and take what they are given. -/
theorem Stored.writes (haccepts : os.Accepts)
    (hopens : ∃ dir ∈ c.createLogDirs, os.opens dir = true)
    (hstored : Stored c disk sb volumes text) (hmade : volumes ≠ []) (hnow : sb.madeAt ≤ now)
    (hfree : sb.madeAt / 1000000000 < now / 1000000000 →
      ∀ dir, disk (c.fname dir sev now) = none) (p : Text) :
    (sb.write c os sev now p disk).1 = false ∧ (sb.write c os sev now p disk).2.1.madeAt ≤ now ∧
      Dates c sev disk sb (sb.write c os sev now p disk).2 := by
  rw [SyncBuffer.write]
  split
  · rename_i hrotate
    have hnew : volumes = [] → text = [] := fun h => absurd h hmade
    obtain ⟨hok, hmadeAt, hdates⟩ := hstored.rotates haccepts hopens hnew hnow
      (hfree (lt_of_mustRotate hrotate hnow))
    obtain ⟨left, hleft⟩ := hstored.rotateFile haccepts hnew hok
    obtain ⟨v, older, rfl⟩ := List.exists_cons_of_ne_nil hleft.made
    have hstore := dates_store c os sev p (sb.rotateFile c os sev now disk).2.1
      (sb.rotateFile c os sev now disk).2.2
    dsimp only
    rw [if_neg (by rw [hok]; exact Bool.false_ne_true)]
    refine ⟨(hleft.stored.store haccepts p).1, Nat.le_of_eq hmadeAt, hdates.later, ?_⟩
    intro path hpath hafter
    by_cases hrotated : (sb.rotateFile c os sev now disk).2.2 path = none
    · exact hstore.fresh path hrotated hafter
    · exact hdates.fresh path hpath hrotated
  · obtain ⟨v, older, rfl⟩ := List.exists_cons_of_ne_nil hmade
    exact ⟨(hstored.store haccepts p).1, hnow, dates_store c os sev p sb disk⟩

end Dates

namespace FileSink

/-- Every file with a name of the log was made by the sink, and no later than the file
that is written to now. -/
def Named (c : Config) (s : FileSink) : Prop :=
  ∀ sev dir t, s.disk (c.fname dir sev t) ≠ none →
    ∃ sb, s.file sev = some sb ∧ t / 1000000000 ≤ sb.madeAt / 1000000000

/-- Where a severity has a file, the lower ones have one. -/
def Complete (s : FileSink) : Prop :=
  ∀ sev other, (s.file sev).isSome = true → level other ≤ level sev →
    (s.file other).isSome = true

variable {c : Config} {os : Os} {s : FileSink} {volumes : Severity → List Volume}
  {text : Severity → Text} {sev : Severity}

theorem Named.set (hnamed : Named c s) {sb : SyncBuffer} {out : SyncBuffer × Disk}
    (hsb : (s.file sev).getD {} = sb) (hdates : Dates c sev s.disk sb out) :
    Named c (s.set sev out.1 out.2) := by
  intro other dir t hpath
  by_cases hold : s.disk (c.fname dir other t) = none
  · obtain ⟨dir', hname⟩ := hdates.fresh _ hold hpath
    obtain ⟨rfl, htime⟩ := fname_inj hname
    exact ⟨out.1, by rw [set_file, if_pos rfl], Nat.le_of_eq htime⟩
  · obtain ⟨before, hfile, htime⟩ := hnamed other dir t hold
    rw [set_file]
    by_cases hother : other = sev
    · subst hother
      rw [hfile, Option.getD_some] at hsb
      subst hsb
      rw [if_pos rfl]
      exact ⟨_, rfl, htime.trans (Nat.div_le_div_right hdates.later)⟩
    · rw [if_neg hother]
      exact ⟨before, hfile, htime⟩

/-- The clock is not behind the making of a file that is in use. -/
def NotBehind (s : FileSink) (now : Severity → ℕ) : Prop :=
  ∀ sev sb, s.file sev = some sb → sb.madeAt ≤ now sev

theorem NotBehind.set {now : Severity → ℕ} (hnow : NotBehind s now) {sb : SyncBuffer} {disk : Disk}
    (hsb : sb.madeAt ≤ now sev) : NotBehind (s.set sev sb disk) now := by
  intro other found hfound
  rw [set_file] at hfound
  split at hfound
  · rename_i hother
    cases hfound
    rwa [hother]
  · exact hnow other found hfound

theorem createMissing_succeeds (haccepts : os.Accepts)
    (hopens : ∃ dir ∈ c.createLogDirs, os.opens dir = true) {created : ℕ} {now : Severity → ℕ}
    (hcreated : ∀ sev, created ≤ now sev) (sevs : List Severity) (h : Holds c s volumes text)
    (hnamed : Named c s) (hnow : NotBehind s now) :
    (createMissing c os created sevs s).1 = false ∧
      Named c (createMissing c os created sevs s).2 ∧
      NotBehind (createMissing c os created sevs s).2 now ∧
      ∀ sev, ((createMissing c os created sevs s).2.file sev).isSome = true ↔
        (s.file sev).isSome = true ∨ sev ∈ sevs := by
  induction sevs generalizing s volumes with
  | nil => exact ⟨rfl, hnamed, hnow, fun sev => by simp [createMissing]⟩
  | cons sev sevs ih =>
      rw [createMissing]
      split
      · rename_i hsome
        obtain ⟨hok, hnamed', hnow', hfile⟩ := ih h hnamed hnow
        refine ⟨hok, hnamed', hnow', fun other => (hfile other).trans ?_⟩
        rw [List.mem_cons]
        constructor
        · exact Or.imp_right .inr
        · rintro (hother | rfl | hmem)
          · exact .inl hother
          · exact .inl hsome
          · exact .inr hmem
      · rename_i hmissing
        rw [Bool.not_eq_true, Option.isSome_eq_false_iff, Option.isNone_iff_eq_none] at hmissing
        obtain ⟨hvolumes, htext⟩ := h.text_of_none hmissing
        have hsb : (s.file sev).getD {} = {} := by rw [hmissing]; rfl
        have hstored := h.stored sev
        rw [hsb] at hstored
        have hfree (dir : Text) : s.disk (c.fname dir sev created) = none := by
          by_contra hpath
          obtain ⟨sb, hfile, -⟩ := hnamed sev dir created hpath
          rw [hmissing] at hfile
          cases hfile
        obtain ⟨hok, hmadeAt, hdates⟩ := hstored.rotates haccepts hopens (fun _ => htext)
          (Nat.zero_le created) hfree
        obtain ⟨volumes', hout⟩ := hstored.rotateFile haccepts (fun _ => htext) hok
        dsimp only
        rw [if_neg (by rw [hok]; exact Bool.false_ne_true)]
        have hafter := h.set hsb hout
        rw [Function.update_eq_self] at hafter
        obtain ⟨hrest, hnamed', hnow', hfile⟩ := ih hafter (hnamed.set hsb hdates)
          (hnow.set (by rw [hmadeAt]; exact hcreated sev))
        refine ⟨hrest, hnamed', hnow', fun other => (hfile other).trans ?_⟩
        rw [set_file, List.mem_cons]
        by_cases hother : other = sev
        · rw [if_pos hother]
          exact iff_of_true (.inl rfl) (.inr (.inl hother))
        · rw [if_neg hother, or_iff_right hother]

theorem writeAll_succeeds (haccepts : os.Accepts)
    (hopens : ∃ dir ∈ c.createLogDirs, os.opens dir = true) {now : Severity → ℕ} (data : Text)
    (sevs : List Severity) (h : Holds c s volumes text) (hnamed : Named c s)
    (hnow : NotBehind s now) (hsome : ∀ sev ∈ sevs, (s.file sev).isSome = true) :
    (writeAll c os now data sevs s).1 = false ∧ Named c (writeAll c os now data sevs s).2 ∧
      ∀ sev, ((writeAll c os now data sevs s).2.file sev).isSome = (s.file sev).isSome := by
  induction sevs generalizing s volumes text with
  | nil => exact ⟨rfl, hnamed, fun sev => rfl⟩
  | cons sev sevs ih =>
      obtain ⟨hfirst, hrest⟩ := List.forall_mem_cons.mp hsome
      obtain ⟨sb, hfile⟩ := Option.isSome_iff_exists.mp hfirst
      have hsb : (s.file sev).getD {} = sb := by rw [hfile]; rfl
      have hstored := h.stored sev
      rw [hsb] at hstored
      have hmade : volumes sev ≠ [] := (h.made sev).mp hfirst
      have hfree (hlt : sb.madeAt / 1000000000 < now sev / 1000000000) (dir : Text) :
          s.disk (c.fname dir sev (now sev)) = none := by
        by_contra hpath
        obtain ⟨found, hfound, hle⟩ := hnamed sev dir (now sev) hpath
        rw [hfile] at hfound
        cases hfound
        exact absurd hlt (Nat.not_lt.mpr hle)
      obtain ⟨hok, hmadeAt, hdates⟩ :=
        hstored.writes haccepts hopens hmade (hnow sev sb hfile) hfree data
      obtain ⟨volumes', hout⟩ := hstored.write haccepts hmade data hok
      have hisSome (other : Severity) :
          ((s.set sev (sb.write c os sev (now sev) data s.disk).2.1
            (sb.write c os sev (now sev) data s.disk).2.2).file other).isSome =
              (s.file other).isSome := by
        rw [set_file]
        by_cases hother : other = sev
        · rw [if_pos hother, hother, hfirst]
          rfl
        · rw [if_neg hother]
      obtain ⟨hokRest, hnamed', hsame⟩ := ih (h.set hsb hout) (hnamed.set hsb hdates)
        (hnow.set hmadeAt) fun other hmem => (hisSome other).trans (hrest other hmem)
      rw [writeAll, hfile]
      dsimp only
      exact ⟨by rw [hok, hokRest]; rfl, hnamed', fun other => (hsame other).trans (hisSome other)⟩

theorem flushAll_named (sevs : List Severity) (hnamed : Named c s) :
    Named c (flushAll os sevs s) ∧
      ∀ sev, ((flushAll os sevs s).file sev).isSome = (s.file sev).isSome := by
  induction sevs generalizing s with
  | nil => exact ⟨hnamed, fun sev => rfl⟩
  | cons sev sevs ih =>
      rw [flushAll]
      split
      · exact ih hnamed
      · rename_i sb hfile
        have hsb : (s.file sev).getD {} = sb := by rw [hfile]; rfl
        have hdates : Dates c sev s.disk sb
            ({ sb with writer := (sb.writer.flush (Disk.write os sb.wr) s.disk).1 },
              (sb.writer.flush (Disk.write os sb.wr) s.disk).2) := by
          refine ⟨Nat.le_refl _, fun path hpath hnew => absurd ?_ hnew⟩
          exact Buffered.flush_device (P := fun d : Disk => d path = none)
            (fun text d hd => Disk.write_eq_none os _ text hd) sb.writer hpath
        obtain ⟨hnamed', hsame⟩ := ih (hnamed.set hsb hdates)
        refine ⟨hnamed', fun other => (hsame other).trans ?_⟩
        rw [set_file]
        by_cases hother : other = sev
        · rw [if_pos hother, hother, hfile]
          rfl
        · rw [if_neg hother]

/-- Some directory takes new files, and every file takes what it is given. -/
structure Works (c : Config) (os : Os) : Prop where
  accepts : os.Accepts
  opens : ∃ dir ∈ c.createLogDirs, os.opens dir = true

/-- The clock is not set back behind the making of a file that is in use. -/
def NotSetBack (s : FileSink) : Action → Prop
  | .emit _ created now _ _ =>
      (∀ sev sb, s.file sev = some sb → sb.madeAt ≤ created) ∧ ∀ sev, created ≤ now sev
  | _ => True

theorem mem_severities (sev : Severity) : sev ∈ severities := by
  cases sev <;> decide

instance (s : FileSink) : ∀ action, Decidable (NotSetBack s action)
  | .emit _ created now _ _ =>
      decidable_of_iff
        ((∀ sev ∈ severities, ((s.file sev).all fun sb => decide (sb.madeAt ≤ created)) = true) ∧
          ∀ sev ∈ severities, created ≤ now sev)
        (by simp [NotSetBack, mem_severities, Option.all_eq_true])
  | .flush _ => isTrue trivial
  | .receive _ => isTrue trivial

/-- What keeps the sink from failing. -/
structure Sound (c : Config) (s : FileSink) : Prop where
  ok : s.failed = false
  named : Named c s
  complete : Complete s
  holds : ∃ volumes text, Holds c s volumes text

theorem Complete.congr {next : FileSink} (hcomplete : Complete s)
    (hsame : ∀ sev, (next.file sev).isSome = (s.file sev).isSome) : Complete next := by
  intro sev other hsev hle
  rw [hsame] at hsev ⊢
  exact hcomplete sev other hsev hle

theorem Sound.flush (h : Sound c s) (haccepts : os.Accepts) (threshold : Severity) :
    Sound c (s.flush os threshold) := by
  obtain ⟨volumes, text, hholds⟩ := h.holds
  obtain ⟨volumes', hflushed⟩ := hholds.flushAll haccepts (downTo threshold)
  have hflush : Named c (flushAll os (downTo threshold) s) ∧
      ∀ sev, ((flushAll os (downTo threshold) s).file sev).isSome = (s.file sev).isSome :=
    flushAll_named (downTo threshold) h.named
  obtain ⟨hnamed, hsame⟩ := hflush
  exact ⟨(failed_flushAll _ s).trans h.ok, hnamed, h.complete.congr hsame, _, _, hflushed⟩

theorem Sound.created (h : Sound c s) (hworks : Works c os) {created : ℕ} {now : Severity → ℕ}
    (hcreated : ∀ sev, created ≤ now sev) (hnow : NotBehind s now) (severity : Severity) :
    (s.createMissingFiles c os created severity).1 = false ∧
      Sound c (s.createMissingFiles c os created severity).2 ∧
      NotBehind (s.createMissingFiles c os created severity).2 now ∧
      ∀ sev ∈ upTo severity,
        ((s.createMissingFiles c os created severity).2.file sev).isSome = true := by
  rw [createMissingFiles]
  split
  · rename_i hsome
    exact ⟨rfl, h, hnow, fun sev hsev => h.complete severity sev hsome (mem_upTo.mp hsev)⟩
  · obtain ⟨volumes, text, hholds⟩ := h.holds
    obtain ⟨hok, hnamed, hnow', hfile⟩ := createMissing_succeeds hworks.accepts hworks.opens
      hcreated (upTo severity) hholds h.named hnow
    obtain ⟨volumes', hafter⟩ := hholds.createMissing hworks.accepts _ hok
    refine ⟨hok, ⟨(failed_createMissing created _ s).trans h.ok, hnamed, ?_, _, _, hafter⟩, hnow',
      fun sev hsev => (hfile sev).mpr (.inr hsev)⟩
    intro sev other hsev hle
    rw [hfile] at hsev ⊢
    rcases hsev with hold | hmem
    · exact .inl (h.complete sev other hold hle)
    · exact .inr (mem_upTo.mpr (hle.trans (mem_upTo.mp hmem)))

theorem Sound.step {next : FileSink} {action : Action} (h : Sound c s)
    (hworks : Works c action.os) (hclock : NotSetBack s action)
    (hstep : FileSink.step c s action = some next) : Sound c next := by
  cases action with
  | flush os =>
      cases hstep
      exact h.flush hworks.accepts .debug
  | receive os =>
      obtain ⟨severity, -, rfl⟩ := Option.map_eq_some_iff.mp hstep
      obtain ⟨hok, hnamed, hcomplete, volumes, text, hholds⟩ := h.flush hworks.accepts severity
      exact ⟨hok, hnamed, hcomplete, volumes, text, hholds.stored, hholds.made, hholds.apart⟩
  | emit os created now severity data =>
      cases hstep
      replace hworks : Works c os := hworks
      obtain ⟨hbefore, hcreated⟩ := hclock
      have hnow : NotBehind s now := fun sev sb hfile => (hbefore sev sb hfile).trans (hcreated sev)
      obtain ⟨hmade, hsound, hnow', hsome⟩ := h.created hworks hcreated hnow severity
      obtain ⟨volumes, text, hholds⟩ := hsound.holds
      obtain ⟨hok, hnamed, hsame⟩ := writeAll_succeeds hworks.accepts hworks.opens data
        (upTo severity).reverse hholds hsound.named hnow'
        fun sev hsev => hsome sev (List.mem_reverse.mp hsev)
      obtain ⟨volumes', hwritten⟩ := hholds.writeAll hworks.accepts data (upTo severity).reverse
        (List.nodup_reverse.2 (nodup_upTo severity)) hok
      rw [FileSink.emit]
      dsimp only
      rw [if_neg (by rw [hmade]; exact Bool.false_ne_true)]
      refine ⟨?_, hnamed, hsound.complete.congr hsame, volumes', _, hwritten.stored, hwritten.made,
        hwritten.apart⟩
      show (_ || _) = false
      rw [failed_writeAll, hok, hsound.ok]
      rfl

end FileSink

end Xrtc.Glog

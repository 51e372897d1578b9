/-
# The files of one severity

What is logged at a severity stands in a chain of files. Each file begins with a header
that names the one before it and ends, once it has been left, with a line that names the
next one; between the two stand records. The last part of the records may still be in the
buffer.

Where the files take what they are given, a rotation begins a new file behind the chain
and keeps all records, and a write puts a record behind the others. Both touch no other
file that was there before than the one that was written to.
-/

import Mathlib.Data.List.Nodup
import Xrtc.Glog.FileSink

namespace Xrtc.Glog

open Xrtc.Machine Xrtc.Framework

/-! ## Files that grow -/

namespace Disk

variable {os : Os} {disk d : Disk} {path start text more : Text}

theorem set_self (disk : Disk) (path : Text) (file : OsFile) :
    disk.set path file path = some file :=
  if_pos rfl

theorem set_other {other : Text} (hne : other ≠ path) (file : OsFile) :
    disk.set path file other = disk other := if_neg hne

/-- A new file leaves those that were there before. -/
theorem set_of_ne_none {other : Text} (hfree : disk path = none) (file : OsFile)
    (hother : disk other ≠ none) : disk.set path file other = disk other := by
  refine set_other ?_ file
  rintro rfl
  exact hother hfree

/-- Whatever the operating system answers, a file holds what it has taken. -/
theorem keeps_write (os : Os) (path : Text) : Buffered.Keeps (write os path) (content path) := by
  intro text d
  rw [write]
  split
  · rename_i start hfile
    refine ⟨Nat.min_le_right _ _, ?_⟩
    show ((d.set path _ path).map OsFile.content).getD [] = content path d ++ text.take _
    rw [set_self, content, hfile]
    rfl
  · exact ⟨Nat.zero_le _, by rw [List.take_zero, List.append_nil]⟩

theorem write_eq (haccepts : os.Accepts) (hfile : disk path = some ⟨start, true⟩) (text : Text) :
    disk.write os path text = (text.length, disk.set path ⟨start ++ text, true⟩) := by
  rw [write, hfile]
  show (min (os.accepts path text) text.length, _) = _
  rw [Nat.min_eq_right (haccepts path text), List.take_length]

/-- An open file has grown behind what it held, and no other file has changed. -/
structure Grown (before : Disk) (path start more : Text) (disk : Disk) : Prop where
  here : disk path = some ⟨start ++ more, true⟩
  others : ∀ other, other ≠ path → disk other = before other

theorem Grown.refl (hfile : disk path = some ⟨start, true⟩) : Grown disk path start [] disk :=
  ⟨by rw [hfile, List.append_nil], fun _ _ => rfl⟩

theorem Grown.wrote {before : Disk} (haccepts : os.Accepts)
    (hgrown : Grown before path start more disk) (text : Text) :
    (disk.write os path text).1 = text.length ∧
      Grown before path start (more ++ text) (disk.write os path text).2 := by
  rw [write_eq haccepts hgrown.here]
  refine ⟨rfl, ⟨?_, ?_⟩⟩
  · show disk.set path _ path = _
    rw [set_self, List.append_assoc]
  · intro other hne
    show disk.set path _ other = _
    rw [set_other hne, hgrown.others other hne]

/-- An open file takes everything, where the operating system does. -/
theorem takes_write (haccepts : os.Accepts) (before : Disk) (path start : Text) :
    Buffered.Takes (write os path) fun d => ∃ more, Grown before path start more d := by
  rintro text d ⟨more, hgrown⟩
  exact ⟨(hgrown.wrote haccepts text).1, _, (hgrown.wrote haccepts text).2⟩

theorem Grown.content_eq (hgrown : Grown disk path start more d) :
    content path d = start ++ more := by
  rw [content, hgrown.here]
  rfl

/-- A buffer that is flushed into an open file. -/
theorem Grown.flushed (haccepts : os.Accepts) {b : Buffered UInt8} (hb : b.failed = false)
    (hfile : disk path = some ⟨start, true⟩) :
    (b.flush (write os path) disk).1 = {} ∧
      Grown disk path start b.buf (b.flush (write os path) disk).2 := by
  have htakes := takes_write haccepts disk path start
  have hstart : ∃ more, Grown disk path start more disk := ⟨[], Grown.refl hfile⟩
  have hempty := Buffered.flush_eq_empty htakes b hstart hb
  obtain ⟨more, hgrown⟩ :=
    Buffered.flush_device (fun text d hd => (htakes text d hd).2) b hstart
  have hheld := Buffered.held_flush (keeps_write os path) b disk
  rw [hempty, hgrown.content_eq, (Grown.refl hfile).content_eq] at hheld
  have hmore : more = b.buf := by simpa using hheld
  exact ⟨hempty, hmore ▸ hgrown⟩

/-- A text that is written through a buffer into an open file. -/
theorem Grown.buffered (haccepts : os.Accepts) {b : Buffered UInt8} (hb : b.failed = false)
    (hfile : disk path = some ⟨start, true⟩) (size : ℕ) (text : Text) :
    (b.write size (write os path) text disk).2.1.failed = false ∧
      ∃ more, Grown disk path start more (b.write size (write os path) text disk).2.2 ∧
        more ++ (b.write size (write os path) text disk).2.1.buf = b.buf ++ text := by
  have htakes := takes_write haccepts disk path start
  have hstart : ∃ more, Grown disk path start more disk := ⟨[], Grown.refl hfile⟩
  have hintact := Buffered.failed_write size htakes text hstart hb
  obtain ⟨more, hgrown⟩ :=
    Buffered.write_device size (fun text d hd => (htakes text d hd).2) text b hstart
  refine ⟨hintact, more, hgrown, ?_⟩
  have htook := Buffered.took_write size (keeps_write os path) text b disk
  have hall := Buffered.failed_or_write size (keeps_write os path) text b disk
  rw [hintact] at hall
  have hheld := htook.append_eq
  rw [hall.resolve_left Bool.false_ne_true, List.take_length, hgrown.content_eq,
    (Grown.refl hfile).content_eq] at hheld
  simpa using hheld

end Disk

/-! ## The files of one severity -/

/-- A file of a severity, and the records in it. -/
structure Volume where
  name : Text
  madeAt : ℕ
  body : Text

/-- What stands at the end of a file that is followed by another one. -/
def ending : Option Text → Text
  | none => []
  | some next => ascii "Next log: " ++ next ++ footer

/-- The file before the newest of these. -/
def previous (volumes : List Volume) : Text :=
  (volumes.head?.map Volume.name).getD (ascii "<none>")

/-- The records in the files, the newest of which is the first in the list. -/
def bodies (volumes : List Volume) : Text := (volumes.map Volume.body).reverse.flatten

/-- The files are on the disk, the newest first. Each one begins with a header that names
the one before and, where it has been closed, ends with a line that names the next. -/
def Chain (c : Config) (disk : Disk) : Option Text → List Volume → Prop
  | _, [] => True
  | next, v :: older =>
      disk v.name =
          some ⟨c.header v.madeAt (previous older) ++ v.body ++ ending next, next.isNone⟩ ∧
        Chain c disk (some v.name) older

theorem bodies_cons (v : Volume) (older : List Volume) :
    bodies (v :: older) = bodies older ++ v.body := by
  rw [bodies, List.map_cons, List.reverse_cons, List.flatten_append, List.flatten_singleton, bodies]

theorem Chain.congr {c : Config} {disk disk' : Disk} {next : Option Text} {volumes : List Volume}
    (hchain : Chain c disk next volumes) (hsame : ∀ v ∈ volumes, disk' v.name = disk v.name) :
    Chain c disk' next volumes := by
  induction volumes generalizing next with
  | nil => trivial
  | cons v older ih =>
      obtain ⟨hv, holder⟩ := List.forall_mem_cons.mp hsame
      exact ⟨hv.trans hchain.1, ih hchain.2 holder⟩

theorem Chain.ne_none {c : Config} {disk : Disk} {next : Option Text} {volumes : List Volume}
    (hchain : Chain c disk next volumes) : ∀ v ∈ volumes, disk v.name ≠ none := by
  induction volumes generalizing next with
  | nil => exact fun v hv => absurd hv List.not_mem_nil
  | cons v older ih =>
      refine List.forall_mem_cons.mpr ⟨?_, ih hchain.2⟩
      rw [hchain.1]
      exact Option.some_ne_none _

/-- The files of a severity and its buffer hold this text. -/
structure Stored (c : Config) (disk : Disk) (sb : SyncBuffer) (volumes : List Volume)
    (text : Text) : Prop where
  file : sb.file = volumes.head?.map Volume.name
  head : ∀ v older, volumes = v :: older → sb.wr = v.name ∧ sb.madeAt = v.madeAt
  names : sb.names = (volumes.map Volume.name).reverse
  nodup : (volumes.map Volume.name).Nodup
  chain : Chain c disk none volumes
  intact : sb.writer.failed = false
  size : sb.writer.buf.length ≤ bufferSize
  text_eq : bodies volumes ++ sb.writer.buf = text

/-- What a call does to the files of a severity: a new file has a new name, and no other
file is touched than the one that was written to. -/
structure Stores (c : Config) (disk : Disk) (sb : SyncBuffer) (volumes : List Volume)
    (out : SyncBuffer × Disk) (volumes' : List Volume) (text' : Text) : Prop where
  stored : Stored c out.2 out.1 volumes' text'
  known : ∀ v ∈ volumes', disk v.name = none ∨ ∃ u ∈ volumes, u.name = v.name
  spares : ∀ path, disk path ≠ none → sb.file ≠ some path → out.2 path = disk path
  newest : out.1.file = sb.file ∨ ∀ path, out.1.file = some path → disk path = none
  made : volumes' ≠ []

theorem Stored.mem_of_file {c : Config} {disk : Disk} {sb : SyncBuffer} {volumes : List Volume}
    {text path : Text} (hstored : Stored c disk sb volumes text) (hfile : sb.file = some path) :
    ∃ v ∈ volumes, v.name = path := by
  rw [hstored.file] at hfile
  obtain ⟨v, hv, hname⟩ := Option.map_eq_some_iff.mp hfile
  exact ⟨v, List.mem_of_mem_head? hv, hname⟩

theorem Stored.notMem_names {c : Config} {disk : Disk} {sb : SyncBuffer} {volumes : List Volume}
    {text name : Text} (hstored : Stored c disk sb volumes text) (hfree : disk name = none) :
    name ∉ volumes.map Volume.name := by
  intro hmem
  obtain ⟨v, hv, rfl⟩ := List.mem_map.mp hmem
  exact hstored.chain.ne_none v hv hfree

/-- One call behind another. -/
theorem Stores.trans {c : Config} {disk : Disk} {sb : SyncBuffer} {volumes volumes' volumes'' :
    List Volume} {text text' text'' : Text} {out out' : SyncBuffer × Disk}
    (hstored : Stored c disk sb volumes text) (hfirst : Stores c disk sb volumes out volumes' text')
    (hsecond : Stores c out.2 out.1 volumes' out' volumes'' text'') :
    Stores c disk sb volumes out' volumes'' text'' where
  stored := hsecond.stored
  known := by
    intro v hv
    rcases hsecond.known v hv with hnone | ⟨u, hu, hname⟩
    · by_cases hfile : sb.file = some v.name
      · exact .inr (hstored.mem_of_file hfile)
      · by_contra hnot
        rw [not_or] at hnot
        exact hnot.1 ((hfirst.spares v.name hnot.1 hfile).symm.trans hnone)
    · rw [← hname]
      exact hfirst.known u hu
  spares := by
    intro path hpath hfile
    have hsame := hfirst.spares path hpath hfile
    rw [← hsame]
    refine hsecond.spares path (by rwa [hsame]) fun hnew => ?_
    rcases hfirst.newest with heq | hfresh
    · exact hfile (heq ▸ hnew)
    · exact hpath (hfresh path hnew)
  newest := by
    rcases hsecond.newest with heq | hfresh
    · rw [heq]
      exact hfirst.newest
    · by_cases hfile : out'.1.file = sb.file
      · exact .inl hfile
      · refine .inr fun path hnew => ?_
        by_contra hpath
        have hother : sb.file ≠ some path := fun h => hfile (hnew.trans h.symm)
        exact hpath ((hfirst.spares path hpath hother).symm.trans (hfresh path hnew))
  made := hsecond.made

section Operations

variable {c : Config} {os : Os} {sev : Severity} {now : ℕ} {sb : SyncBuffer} {disk : Disk}
  {v : Volume} {older volumes : List Volume} {text p : Text}

/-- What has been written to the newest file, and what is left in the buffer. -/
theorem Stored.grow (hstored : Stored c disk sb (v :: older) text) {disk' : Disk} {more p : Text}
    {writer : Buffered UInt8} {nbytes : ℕ}
    (hgrown : Disk.Grown disk v.name (c.header v.madeAt (previous older) ++ v.body) more disk')
    (hintact : writer.failed = false) (hsize : writer.buf.length ≤ bufferSize)
    (hmore : more ++ writer.buf = sb.writer.buf ++ p) :
    Stores c disk sb (v :: older) ({ sb with writer := writer, nbytes := nbytes }, disk')
      ({ v with body := v.body ++ more } :: older) (text ++ p) := by
  have hnodup := hstored.nodup
  rw [List.map_cons, List.nodup_cons] at hnodup
  refine ⟨⟨hstored.file, ?_, hstored.names, hstored.nodup, ⟨?_, ?_⟩, hintact, hsize, ?_⟩,
    ?_, ?_, .inl rfl, ?_⟩
  · rintro u rest h
    cases h
    exact hstored.head v older rfl
  · show disk' v.name = _
    rw [hgrown.here]
    simp only [ending, List.append_nil, List.append_assoc, Option.isNone_none]
  · refine hstored.chain.2.congr fun u hu => hgrown.others _ ?_
    intro heq
    exact hnodup.1 (heq ▸ List.mem_map_of_mem hu)
  · show bodies ({ v with body := v.body ++ more } :: older) ++ writer.buf = text ++ p
    rw [bodies_cons, ← hstored.text_eq, bodies_cons]
    simp only [List.append_assoc, hmore]
  · intro u hu
    rcases List.mem_cons.mp hu with rfl | hmem
    · exact .inr ⟨v, List.mem_cons_self, rfl⟩
    · exact .inr ⟨u, List.mem_cons_of_mem _ hmem, rfl⟩
  · rintro path - hfile
    refine hgrown.others path fun heq => hfile ?_
    rw [hstored.file, heq]
    rfl
  · exact List.cons_ne_nil _ _

theorem Stored.openFile (hstored : Stored c disk sb (v :: older) text) :
    disk v.name = some ⟨c.header v.madeAt (previous older) ++ v.body, true⟩ := by
  have hhead := hstored.chain.1
  rwa [ending, List.append_nil] at hhead

/-- A record goes into the buffer, or through it into the file. -/
theorem Stored.store (haccepts : os.Accepts) (hstored : Stored c disk sb (v :: older) text)
    (p : Text) :
    (sb.store os p disk).1 = false ∧
      ∃ volumes', Stores c disk sb (v :: older) (sb.store os p disk).2 volumes' (text ++ p) := by
  have hwr := (hstored.head v older rfl).1
  obtain ⟨hintact, more, hgrown, hmore⟩ :=
    Disk.Grown.buffered haccepts hstored.intact hstored.openFile bufferSize p
  rw [← hwr] at hintact hmore
  have hgrown' : Disk.Grown disk v.name (c.header v.madeAt (previous older) ++ v.body) more
      (sb.writer.write bufferSize (Disk.write os sb.wr) p disk).2.2 := by rwa [hwr]
  exact ⟨hintact, _, hstored.grow hgrown' hintact
    (Buffered.length_buf_write_le p hstored.size) hmore⟩

/-- A flush empties the buffer into the file. -/
theorem Stored.flush (haccepts : os.Accepts) (hstored : Stored c disk sb (v :: older) text) :
    (sb.writer.flush (Disk.write os sb.wr) disk).1 = {} ∧
      Stores c disk sb (v :: older)
        ({ sb with writer := (sb.writer.flush (Disk.write os sb.wr) disk).1 },
          (sb.writer.flush (Disk.write os sb.wr) disk).2)
        ({ v with body := v.body ++ sb.writer.buf } :: older) text := by
  have hwr := (hstored.head v older rfl).1
  obtain ⟨hempty, hgrown⟩ := Disk.Grown.flushed haccepts hstored.intact hstored.openFile
  rw [← hwr] at hempty
  have hgrown' : Disk.Grown disk v.name (c.header v.madeAt (previous older) ++ v.body)
      sb.writer.buf (sb.writer.flush (Disk.write os sb.wr) disk).2 := by rwa [hwr]
  refine ⟨hempty, ?_⟩
  have hgrow := @Stored.grow _ _ _ _ _ _ hstored _ _ [] _ sb.nbytes hgrown'
    (congrArg Buffered.failed hempty) (by rw [hempty]; exact Nat.zero_le _) (by rw [hempty])
  rwa [List.append_nil] at hgrow

end Operations

/-! ## A new file -/

/-- A file is made where none is, or nothing happens. -/
theorem create_cases (c : Config) (os : Os) (sev : Severity) (t : ℕ) (dirs : List Text)
    (disk : Disk) :
    (create c os sev t dirs disk = (none, disk) ∧
        ∀ dir ∈ dirs, disk (c.fname dir sev t) = none → os.opens dir = false) ∨
      ∃ dir ∈ dirs, disk (c.fname dir sev t) = none ∧
        create c os sev t dirs disk =
          (some (c.fname dir sev t), disk.set (c.fname dir sev t) ⟨[], true⟩) := by
  induction dirs with
  | nil => exact .inl ⟨rfl, fun dir hdir => absurd hdir List.not_mem_nil⟩
  | cons dir dirs ih =>
      rw [create]
      split
      · rename_i hmade
        exact .inr ⟨dir, List.mem_cons_self, hmade.1, rfl⟩
      · rename_i hnot
        rcases ih with ⟨hnone, hall⟩ | ⟨other, hmem, hfree, hmade⟩
        · refine .inl ⟨hnone, List.forall_mem_cons.mpr ⟨fun hfree => ?_, hall⟩⟩
          rw [not_and, Bool.not_eq_true] at hnot
          exact hnot hfree
        · exact .inr ⟨other, List.mem_cons_of_mem _ hmem, hfree, hmade⟩

section Rotation

variable {c : Config} {os : Os} {sev : Severity} {now : ℕ} {sb : SyncBuffer} {disk disk₁ : Disk}
  {v : Volume} {older volumes : List Volume} {text p name : Text}

theorem rotateFile_of_none (hcreate : create c os sev now c.createLogDirs disk = (none, disk₁)) :
    (sb.rotateFile c os sev now disk).1 = true := by
  rw [SyncBuffer.rotateFile, hcreate]

theorem rotateFile_of_some
    (hcreate : create c os sev now c.createLogDirs disk = (some name, disk₁)) :
    sb.rotateFile c os sev now disk =
      (decide ((Disk.write os name (c.header now (sb.file.getD (ascii "<none>")))
          (sb.leave os name disk₁).2).1 < (c.header now (sb.file.getD (ascii "<none>"))).length),
        { sb with
          madeAt := now, file := some name, wr := name, writer := {}, names := sb.names ++ [name]
          nbytes := (Disk.write os name (c.header now (sb.file.getD (ascii "<none>")))
            (sb.leave os name disk₁).2).1 },
        (Disk.write os name (c.header now (sb.file.getD (ascii "<none>")))
          (sb.leave os name disk₁).2).2) := by
  rw [SyncBuffer.rotateFile, hcreate]
  rfl

/-- A file that is left holds all its records and the name of the next file. -/
theorem Stored.closed (haccepts : os.Accepts) (hstored : Stored c disk sb (v :: older) text)
    (next : Text) :
    (sb.leave os next disk).2 v.name = some ⟨c.header v.madeAt (previous older) ++
        (v.body ++ sb.writer.buf) ++ ending (some next), false⟩ ∧
      ∀ other, other ≠ v.name → (sb.leave os next disk).2 other = disk other := by
  have hwr := (hstored.head v older rfl).1
  have hfile : sb.file = some v.name := hstored.file
  obtain ⟨-, hgrown⟩ := Disk.Grown.flushed haccepts hstored.intact hstored.openFile
  have hnext := (hgrown.wrote haccepts (ascii "Next log: ")).2
  have hname := (hnext.wrote haccepts next).2
  have hfooter := (hname.wrote haccepts footer).2
  rw [SyncBuffer.leave, hfile, hwr]
  constructor
  · show Disk.close v.name _ v.name = _
    rw [Disk.close, hfooter.here]
    show Disk.set _ v.name _ v.name = _
    rw [Disk.set_self]
    simp only [ending, List.append_assoc]
  · intro other hne
    show Disk.close v.name _ other = _
    rw [Disk.close, hfooter.here]
    show Disk.set _ v.name _ other = _
    rw [Disk.set_other hne, hfooter.others other hne]

/-- Behind the files that are left, another one may follow. -/
theorem Stored.left (haccepts : os.Accepts) (hstored : Stored c disk sb volumes text)
    (hnew : volumes = [] → text = []) (next : Text) :
    ∃ volumes', volumes'.map Volume.name = volumes.map Volume.name ∧
      Chain c (sb.leave os next disk).2 (some next) volumes' ∧ bodies volumes' = text ∧
      ∀ path, sb.file ≠ some path → (sb.leave os next disk).2 path = disk path := by
  cases volumes with
  | nil =>
      have hfile : sb.file = none := hstored.file
      refine ⟨[], rfl, trivial, (hnew rfl).symm, ?_⟩
      intro path _
      rw [SyncBuffer.leave, hfile]
  | cons v older =>
      obtain ⟨hclosed, hothers⟩ := hstored.closed haccepts next
      have hnodup := hstored.nodup
      rw [List.map_cons, List.nodup_cons] at hnodup
      refine ⟨{ v with body := v.body ++ sb.writer.buf } :: older, rfl, ⟨hclosed, ?_⟩, ?_, ?_⟩
      · refine hstored.chain.2.congr fun u hu => hothers _ ?_
        intro heq
        exact hnodup.1 (heq ▸ List.mem_map_of_mem hu)
      · rw [bodies_cons, ← hstored.text_eq, bodies_cons, List.append_assoc]
      · intro path hpath
        refine hothers path fun heq => hpath ?_
        rw [hstored.file, heq]
        rfl

theorem Stored.on (hstored : Stored c disk sb volumes text) {disk' : Disk}
    (hsame : ∀ path, disk path ≠ none → disk' path = disk path) :
    Stored c disk' sb volumes text :=
  { hstored with
    chain := hstored.chain.congr fun v hv => hsame _ (hstored.chain.ne_none v hv) }

theorem previous_congr {volumes' : List Volume}
    (hnames : volumes'.map Volume.name = volumes.map Volume.name) :
    previous volumes' = previous volumes := by
  rw [previous, previous, ← List.head?_map, ← List.head?_map, hnames]

/-- The new file is open and empty when its header is written. -/
theorem Stored.openNew (haccepts : os.Accepts) (hstored : Stored c disk sb volumes text)
    (hnew : volumes = [] → text = []) (hfree : disk name = none) :
    (sb.leave os name (disk.set name ⟨[], true⟩)).2 name = some ⟨[], true⟩ := by
  have hset (path : Text) : disk path ≠ none → disk.set name ⟨[], true⟩ path = disk path :=
    Disk.set_of_ne_none hfree _
  obtain ⟨-, -, -, -, hothers⟩ := (hstored.on hset).left haccepts hnew name
  rw [hothers name, Disk.set_self]
  intro hfile
  obtain ⟨v, hv, rfl⟩ := hstored.mem_of_file hfile
  exact hstored.notMem_names hfree (List.mem_map_of_mem hv)

/-- **Rotation keeps the records.** -/
theorem Stored.rotateFile (haccepts : os.Accepts) (hstored : Stored c disk sb volumes text)
    (hnew : volumes = [] → text = []) (hok : (sb.rotateFile c os sev now disk).1 = false) :
    ∃ volumes', Stores c disk sb volumes (sb.rotateFile c os sev now disk).2 volumes' text := by
  rcases create_cases c os sev now c.createLogDirs disk with ⟨hnone, -⟩ | ⟨dir, -, hfree, hmade⟩
  · rw [rotateFile_of_none hnone] at hok
    cases hok
  set name := c.fname dir sev now with hname
  have hset (path : Text) : disk path ≠ none → disk.set name ⟨[], true⟩ path = disk path :=
    Disk.set_of_ne_none hfree _
  obtain ⟨left, hnames, hchain, hbodies, hothers⟩ :=
    (hstored.on hset).left haccepts hnew name
  have hopen := hstored.openNew haccepts hnew hfree
  have hprevious : sb.file.getD (ascii "<none>") = previous left := by
    rw [previous_congr hnames, previous, hstored.file]
  have hleft : ∀ u ∈ left, u.name ≠ name := by
    intro u hu heq
    have hmem : u.name ∈ volumes.map Volume.name := hnames ▸ List.mem_map_of_mem hu
    exact hstored.notMem_names hfree (heq ▸ hmem)
  rw [rotateFile_of_some hmade, hprevious, Disk.write_eq haccepts hopen]
  refine ⟨⟨name, now, []⟩ :: left, ⟨rfl, ?_, ?_, ?_, ⟨?_, ?_⟩, rfl, Nat.zero_le _, ?_⟩,
    ?_, ?_, .inr ?_, ?_⟩
  · rintro v older h
    cases h
    exact ⟨rfl, rfl⟩
  · show sb.names ++ [name] = _
    rw [List.map_cons, List.reverse_cons, hnames, hstored.names]
  · rw [List.map_cons, List.nodup_cons, hnames]
    exact ⟨hstored.notMem_names hfree, hstored.nodup⟩
  · show Disk.set _ name _ name = _
    rw [Disk.set_self, ending, List.append_nil, List.append_nil, List.nil_append]
    rfl
  · exact hchain.congr fun u hu => Disk.set_other (hleft u hu) _
  · show bodies (⟨name, now, []⟩ :: left) ++ [] = text
    rw [bodies_cons, List.append_nil, List.append_nil, hbodies]
  · intro u hu
    rcases List.mem_cons.mp hu with rfl | hmem
    · exact .inl hfree
    · have hold : u.name ∈ volumes.map Volume.name := hnames ▸ List.mem_map_of_mem hmem
      obtain ⟨v, hv, hvname⟩ := List.mem_map.mp hold
      exact .inr ⟨v, hv, hvname⟩
  · intro path hpath hother
    show Disk.set _ name _ path = _
    have hne : path ≠ name := by
      rintro rfl
      exact hpath hfree
    rw [Disk.set_other hne, hothers path hother, hset path hpath]
  · intro path hpath
    exact Option.some.inj hpath ▸ hfree
  · exact List.cons_ne_nil _ _

/-- **A record is stored behind the others**, in the same file or in a new one. -/
theorem Stored.write (haccepts : os.Accepts) (hstored : Stored c disk sb volumes text)
    (hmade : volumes ≠ []) (p : Text) (hok : (sb.write c os sev now p disk).1 = false) :
    ∃ volumes', Stores c disk sb volumes (sb.write c os sev now p disk).2 volumes' (text ++ p) := by
  revert hok
  rw [SyncBuffer.write]
  split
  · dsimp only
    split
    · rename_i hfailed
      intro hok
      rw [hfailed] at hok
      cases hok
    · rename_i hrotated
      intro _
      rw [Bool.not_eq_true] at hrotated
      obtain ⟨left, hleft⟩ :=
        hstored.rotateFile haccepts (fun h => absurd h hmade) hrotated
      obtain ⟨v, older, rfl⟩ := List.exists_cons_of_ne_nil hleft.made
      obtain ⟨-, last, hlast⟩ := hleft.stored.store haccepts p
      exact ⟨last, Stores.trans hstored hleft hlast⟩
  · intro _
    obtain ⟨v, older, rfl⟩ := List.exists_cons_of_ne_nil hmade
    exact (hstored.store haccepts p).2

end Rotation

end Xrtc.Glog

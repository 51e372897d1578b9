/-
# The log files of glog

A record is written to the file of its severity and to the files of all lower ones. Each
file stands behind a buffer. A file that grows too large is closed, with a line that names
the next one, and a new file is begun, with a header that names the one before. The name
of a file tells the second in which it was made, and a file is only ever made anew: where
there is one of that name, the next directory is tried.

The operating system may refuse to make a file and may take less than it is given. Any
number of goroutines log under one lock, while a daemon flushes the buffers.
-/

import Xrtc.Framework.ComLog
import Xrtc.Machine.Buffered
import Xrtc.Machine.Calendar
import Xrtc.Machine.Run

namespace Xrtc.Glog

open Xrtc.Machine Xrtc.Framework

/-! ## Severities -/

/-- The number of a severity. -/
def level : Severity → ℕ
  | .debug => 0
  | .info => 1
  | .warning => 2
  | .error => 3
  | .fatal => 4

/-- `Severity.String`. -/
def tag : Severity → Text
  | .debug => ascii "DEBUG"
  | .info => ascii "INFO"
  | .warning => ascii "WARNING"
  | .error => ascii "ERROR"
  | .fatal => ascii "FATAL"

def severities : List Severity := [.debug, .info, .warning, .error, .fatal]

/-- From `Debug` up to a severity. -/
def upTo (severity : Severity) : List Severity :=
  severities.filter fun sev => decide (level sev ≤ level severity)

/-- From `Fatal` down to a severity. -/
def downTo (severity : Severity) : List Severity :=
  (severities.filter fun sev => decide (level severity ≤ level sev)).reverse

/-! ## Files -/

/-- A file, and whether this process has it open. -/
structure OsFile where
  content : Text
  isOpen : Bool
  deriving DecidableEq

/-- The files by their paths. The symbolic links that are made anew beside a log file are
left out; no log file has the name of one. -/
abbrev Disk := Text → Option OsFile

/-- What the operating system answers during a call: whether it makes a new file in a
directory, and how many bytes of a text a file takes. -/
structure Os where
  opens : Text → Bool
  accepts : Text → Text → ℕ

/-- Every file takes what it is given. -/
def Os.Accepts (os : Os) : Prop := ∀ path text, text.length ≤ os.accepts path text

namespace Disk

def set (disk : Disk) (path : Text) (file : OsFile) : Disk :=
  fun other => if other = path then some file else disk other

/-- `File.Write`. A file that is not open takes nothing. -/
def write (os : Os) (path text : Text) (disk : Disk) : ℕ × Disk :=
  match disk path with
  | some ⟨content, true⟩ =>
      let n := min (os.accepts path text) text.length
      (n, disk.set path ⟨content ++ text.take n, true⟩)
  | _ => (0, disk)

def close (path : Text) (disk : Disk) : Disk :=
  match disk path with
  | some file => disk.set path { file with isOpen := false }
  | none => disk

def content (path : Text) (disk : Disk) : Text := ((disk path).map OsFile.content).getD []

end Disk

/-- What the names and the headers of the files are made of. -/
structure Config where
  logDir : Text
  tempDir : Text
  logFileName : Text
  host : Text
  userName : Text
  pid : ℕ
  /-- Compiler, version, operating system and architecture. -/
  binary : Text
  maxSize : ℕ
  logBufLevel : ℤ

namespace Config

variable (c : Config)

def createLogDirs : List Text := (if c.logDir ≠ [] then [c.logDir] else []) ++ [c.tempDir]

/-- The reading of the clock at a time in nanoseconds. -/
def reading (t : ℕ) : Reading := Reading.ofSeconds (t / 1000000000)

/-- Date and time in the name of a file. -/
def stamp (t : ℕ) : Text := (reading t).dateColumns ++ (45 :: (reading t).clockColumns)

/-- `logName`, behind the directory. -/
def fname (dir : Text) (sev : Severity) (t : ℕ) : Text :=
  dir ++ ascii "/" ++ c.logFileName ++ ascii "." ++ c.host ++ ascii "." ++ c.userName ++
    ascii ".log" ++ (46 :: tag sev) ++ (46 :: stamp t) ++ (46 :: natDecimal c.pid)

/-- The symbolic link to the newest file of a severity, the second name of `logName`. -/
def link (program dir : Text) (sev : Severity) : Text :=
  dir ++ ascii "/" ++ program ++ (46 :: tag sev)

/-- The header of a file. -/
def header (t : ℕ) (previous : Text) : Text :=
  let r := reading t
  ascii "Log file created at: " ++ zeroPadded 4 r.date.year ++ ascii "/" ++
    zeroPadded 2 r.date.month ++ ascii "/" ++ zeroPadded 2 r.date.day ++ ascii " " ++
    zeroPadded 2 r.hour ++ ascii ":" ++ zeroPadded 2 r.minute ++ ascii ":" ++
    zeroPadded 2 r.second ++ ascii "\n" ++ ascii "Running on machine: " ++ c.host ++ ascii "\n" ++
    ascii "Binary: Built with " ++ c.binary ++ ascii "\n" ++ ascii "Previous log: " ++ previous ++
    ascii "\n" ++ ascii "Log line format: [IWEF]mmdd hh:mm:ss.uuuuuu threadid file:line] msg\n"

end Config

def bufferSize : ℕ := 256 * 1024

def footer : Text := ascii "\nCONTINUED IN NEXT FILE\n"

/-- `create`: the first directory in which the file can be made. It must not be there,
for it is opened with `O_EXCL`. -/
def create (c : Config) (os : Os) (sev : Severity) (t : ℕ) : List Text → Disk → Option Text × Disk
  | [], disk => (none, disk)
  | dir :: dirs, disk =>
      let fname := c.fname dir sev t
      if disk fname = none ∧ os.opens dir = true then
        (some fname, disk.set fname ⟨[], true⟩)
      else
        create c os sev t dirs disk

/-! ## One severity -/

/-- `syncBuffer`. -/
structure SyncBuffer where
  file : Option Text := none
  /-- The file that the `bufio.Writer` was made for. -/
  wr : Text := []
  writer : Buffered UInt8 := {}
  names : List Text := []
  nbytes : ℕ := 0
  madeAt : ℕ := 0
  deriving DecidableEq

namespace SyncBuffer

/-- What `rotateFile` does with an existing file: the buffer is flushed, the name of the
next file is written, and the file is closed. None of the errors is looked at. -/
def leave (os : Os) (next : Text) (sb : SyncBuffer) (disk : Disk) : Buffered UInt8 × Disk :=
  match sb.file with
  | none => (sb.writer, disk)
  | some file =>
      let flushed := sb.writer.flush (Disk.write os sb.wr) disk
      let disk := (Disk.write os file (ascii "Next log: ") flushed.2).2
      let disk := (Disk.write os file next disk).2
      let disk := (Disk.write os file footer disk).2
      (flushed.1, disk.close file)

/-- `rotateFile`: whether it fails, and what becomes of the buffer and the disk. -/
def rotateFile (c : Config) (os : Os) (sev : Severity) (now : ℕ) (sb : SyncBuffer) (disk : Disk) :
    Bool × SyncBuffer × Disk :=
  let created := create c os sev now c.createLogDirs disk
  let left := sb.leave os (created.1.getD []) created.2
  let sb' :=
    { sb with
      madeAt := now, file := created.1, writer := left.1
      names := sb.names ++ [created.1.getD []], nbytes := 0 }
  match created.1 with
  | none => (true, sb', left.2)
  | some name =>
      let header := c.header now (sb.file.getD (ascii "<none>"))
      let written := Disk.write os name header left.2
      (decide (written.1 < header.length),
        { sb' with wr := name, writer := {}, nbytes := written.1 }, written.2)

/-- `syncBuffer.Write` behind the rotation. -/
def store (os : Os) (p : Text) (sb : SyncBuffer) (disk : Disk) : Bool × SyncBuffer × Disk :=
  let written := sb.writer.write bufferSize (Disk.write os sb.wr) p disk
  (written.2.1.failed, { sb with writer := written.2.1, nbytes := sb.nbytes + written.1 },
    written.2.2)

/-- The file is too large, and a new one would not have the name of this one. -/
def mustRotate (c : Config) (now : ℕ) (p : Text) (sb : SyncBuffer) : Bool :=
  decide (sb.nbytes + p.length ≥ c.maxSize) &&
    (decide (now > sb.madeAt + 1000000000) ||
      decide ((Config.reading now).second ≠ (Config.reading sb.madeAt).second))

/-- `syncBuffer.Write`. -/
def write (c : Config) (os : Os) (sev : Severity) (now : ℕ) (p : Text) (sb : SyncBuffer)
    (disk : Disk) : Bool × SyncBuffer × Disk :=
  if sb.mustRotate c now p then
    let rotated := sb.rotateFile c os sev now disk
    if rotated.1 then rotated else rotated.2.1.store os p rotated.2.2
  else
    sb.store os p disk

end SyncBuffer

/-! ## The sink -/

/-- `fileSink`, and the disk. -/
structure FileSink where
  disk : Disk
  file : Severity → Option SyncBuffer := fun _ => none
  flushChan : Option Severity := none
  /-- A call of `Emit` has returned an error. The process is about to end then. -/
  failed : Bool := false

namespace FileSink

def set (s : FileSink) (sev : Severity) (sb : SyncBuffer) (disk : Disk) : FileSink :=
  { s with disk := disk, file := fun other => if other = sev then some sb else s.file other }

/-- The loop of `createMissingFiles`. -/
def createMissing (c : Config) (os : Os) (now : ℕ) : List Severity → FileSink → Bool × FileSink
  | [], s => (false, s)
  | sev :: rest, s =>
      if (s.file sev).isSome then
        createMissing c os now rest s
      else
        let rotated := SyncBuffer.rotateFile c os sev now {} s.disk
        if rotated.1 then
          (true, { s with disk := rotated.2.2 })
        else
          createMissing c os now rest (s.set sev rotated.2.1 rotated.2.2)

def createMissingFiles (c : Config) (os : Os) (now : ℕ) (severity : Severity) (s : FileSink) :
    Bool × FileSink :=
  if (s.file severity).isSome then (false, s) else createMissing c os now (upTo severity) s

/-- The loop of `Emit`. Each file that may have to be rotated reads the clock anew. -/
def writeAll (c : Config) (os : Os) (now : Severity → ℕ) (data : Text) :
    List Severity → FileSink → Bool × FileSink
  | [], s => (false, s)
  | sev :: rest, s =>
      match s.file sev with
      | none => (true, s)
      | some sb =>
          let written := sb.write c os sev (now sev) data s.disk
          let after := writeAll c os now data rest (s.set sev written.2.1 written.2.2)
          (written.1 || after.1, after.2)

/-- `Emit`. -/
def emit (c : Config) (os : Os) (created : ℕ) (now : Severity → ℕ) (severity : Severity)
    (data : Text) (s : FileSink) : FileSink :=
  let made := s.createMissingFiles c os created severity
  if made.1 then
    { made.2 with failed := true }
  else
    let written := writeAll c os now data (upTo severity).reverse made.2
    { written.2 with
      failed := written.2.failed || written.1
      flushChan :=
        if (level severity : ℤ) > c.logBufLevel ∧ written.2.flushChan = none then some severity
        else written.2.flushChan }

/-- The loop of `flush`. -/
def flushAll (os : Os) : List Severity → FileSink → FileSink
  | [], s => s
  | sev :: rest, s =>
      match s.file sev with
      | none => flushAll os rest s
      | some sb =>
          let flushed := sb.writer.flush (Disk.write os sb.wr) s.disk
          flushAll os rest (s.set sev { sb with writer := flushed.1 } flushed.2)

def flush (os : Os) (threshold : Severity) (s : FileSink) : FileSink :=
  flushAll os (downTo threshold) s

inductive Action
  /-- A record is logged. `created` is the reading of the clock for new files, `now` the
  readings of the files that may have to be rotated. -/
  | emit (os : Os) (created : ℕ) (now : Severity → ℕ) (severity : Severity) (data : Text)
  /-- `Flush`, called by the daemon at every tick or by someone else. -/
  | flush (os : Os)
  /-- The daemon receives a severity from the channel. -/
  | receive (os : Os)

def Action.os : Action → Os
  | .emit os _ _ _ _ | .flush os | .receive os => os

def step (c : Config) (s : FileSink) : Action → Option FileSink
  | .emit os created now severity data => some (s.emit c os created now severity data)
  | .flush os => some (s.flush os .debug)
  | .receive os => s.flushChan.map fun severity =>
      { s.flush os severity with flushChan := none }

/-- What an action logs for the file of a severity. -/
def Action.logs (sev : Severity) : Action → Text
  | .emit _ _ _ severity data => if level sev ≤ level severity then data else []
  | _ => []

/-- What a run has logged for the file of a severity. -/
def logged (sev : Severity) (actions : List Action) : Text :=
  actions.flatMap fun action => action.logs sev

end FileSink

end Xrtc.Glog

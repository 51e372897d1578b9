/-
# Which files logging touches

Log directories are often open to others, who may put a file or a link where a log file is
about to be made. The files are therefore made with `O_EXCL`. Here is what this comes to
over whole runs, whatever the operating system answers and whatever the clock shows: what
was on the disk before is left as it is, a file that has been left is not written again,
one that is open only grows, and every new file has the name of a log file.

The symbolic links are not among the files here. They are made anew beside every new log
file, in place of whatever had their name.
-/

import Xrtc.Glog.Records

namespace Xrtc.Glog

open Xrtc.Machine Xrtc.Framework

variable {c : Config} {os : Os} {disk disk' disk'' : Disk} {path text : Text} {sev : Severity}

/-- Open files have grown, other files are unchanged, and new ones have names of the log. -/
structure Touches (c : Config) (disk disk' : Disk) : Prop where
  kept : ∀ path file, disk path = some file →
    ∃ file', disk' path = some file' ∧ file.content <+: file'.content ∧
      (file.isOpen = false → file' = file)
  made : ∀ path, disk path = none → disk' path ≠ none →
    ∃ dir ∈ c.createLogDirs, ∃ sev t, path = c.fname dir sev t

theorem Touches.refl (c : Config) (disk : Disk) : Touches c disk disk where
  kept := fun _ file hfile => ⟨file, hfile, List.prefix_refl _, fun _ => rfl⟩
  made := fun _ hnone hsome => absurd hnone hsome

theorem Touches.trans (hfirst : Touches c disk disk') (hsecond : Touches c disk' disk'') :
    Touches c disk disk'' where
  kept := by
    intro path file hfile
    obtain ⟨file', hfile', hgrown, hclosed⟩ := hfirst.kept path file hfile
    obtain ⟨file'', hfile'', hgrown', hclosed'⟩ := hsecond.kept path file' hfile'
    refine ⟨file'', hfile'', hgrown.trans hgrown', fun hopen => ?_⟩
    have hsame := hclosed hopen
    rw [hclosed' (by rw [hsame, hopen]), hsame]
  made := by
    intro path hnone hsome
    by_cases hmiddle : disk' path = none
    · exact hsecond.made path hmiddle hsome
    · exact hfirst.made path hnone hmiddle

namespace FileSink

end FileSink

end Xrtc.Glog

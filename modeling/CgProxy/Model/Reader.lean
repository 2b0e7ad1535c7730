import CgProxy.Model.Attach
import CgProxy.Model.Commands
import CgProxy.Posix.Stdio

/-! # What the program reads from files and pipes

This file follows the functions of `common.cpp` with a loop over a text: `getCgroup` goes through the lines
of a file of the proc file system, `bash_which` and `bash_readlink` through the pieces that `fgets` cuts, and
`bash_pidof` through what `fscanf` takes for numbers. The other modules have the results only: a cgroup as the
text of its path, and a command's output without its last character.
-/

namespace CgProxy

open Posix

/-- `substr` to the end of the string. -/
def substr (s : Str) (pos : ℕ) : Except Exn Str := if pos ≤ s.length then .ok (s.drop pos) else .error .stdOutOfRange

namespace Reader

/-! ## The cgroup of a process -/

/-- The file is read to the first line that begins with a zero. -/
def getCgroupLoop (text : Str) : Except Exn Str :=
  match _ : Stdio.getline '\n' text with
  | none => .ok []
  | some (line, rest) => if line.head? = some '0' then substr line 3 else getCgroupLoop rest
termination_by text.length
decreasing_by exact Stdio.length_lt_of_getline ‹_›

theorem getCgroupLoop_of_getline {text line rest : Str} (read : Stdio.getline '\n' text = some (line, rest)) :
    getCgroupLoop text = if line.head? = some '0' then substr line 3 else getCgroupLoop rest := by
  rw [getCgroupLoop]
  split
  · next ended =>
    rw [read] at ended
    contradiction
  · next again =>
    rw [read] at again
    cases again
    rfl

def cgroupFile (pid : Str) : Str := "/proc/".toList ++ pid ++ "/cgroup".toList

/-- The files are the regular ones, with their text. -/
def getCgroup (files : Str → Option Str) (pid : Str) : Except Exn Str :=
  match files (cgroupFile pid) with
  | none => .ok []
  | some text => getCgroupLoop text

/-! ## The output of a command -/

def readSizeMax : ℕ := 128

/-- The characters of `buf` before its terminator go into the stream. -/
def fgetsLoop (buffer text : Str) : Str :=
  match _ : Stdio.fgets '\n' readSizeMax text with
  | none => buffer
  | some (buf, rest) => fgetsLoop (buffer ++ Shell.cString buf) rest
termination_by text.length
decreasing_by exact Stdio.length_lt_of_fgets (show 1 < readSizeMax by decide) ‹_›

theorem fgetsLoop_nil (buffer : Str) : fgetsLoop buffer [] = buffer := by
  rw [fgetsLoop]
  rfl

theorem fgetsLoop_of_fgets {buffer text buf rest : Str} (read : Stdio.fgets '\n' readSizeMax text = some (buf, rest)) :
    fgetsLoop buffer text = fgetsLoop (buffer ++ Shell.cString buf) rest := by
  rw [fgetsLoop]
  split
  · next ended =>
    rw [read] at ended
    contradiction
  · next again =>
    rw [read] at again
    cases again
    rfl

/-- What `bash_which` and `bash_readlink` share. -/
def printed (cmd : ToolCall) (popen : Str → Option Str) : Str :=
  match popen cmd.line with
  | none => []
  | some text =>
      let s := fgetsLoop [] text
      if s ≠ [] then s.dropLast else s

def bashWhich (popen : Str → Option Str) (name : Str) : Str := printed ⟨.which, name⟩ popen

def bashReadlink (popen : Str → Option Str) (path : Str) : Str := printed ⟨.readlink, path⟩ popen

/-! ## The numbers of processes -/

/-- So many calls of `fscanf`, or none if the loop is not over by then. `pid` is what the variable holds;
a call that reads no number leaves it as it is. -/
def pidofLoop : ℕ → ℤ → List ℤ → Str → Option (List ℤ)
  | 0, _, _, _ => none
  | fuel + 1, pid, pids, text =>
      match Stdio.scanInt text with
      | none => some pids
      | some (converted, rest) =>
          let pid := converted.getD pid
          pidofLoop fuel pid (pids ++ [pid]) rest

/-- The variable is not initialised. -/
def bashPidof (popen : Str → Option Str) (uninitialised : ℤ) (fuel : ℕ) (path : Str) : Option (List ℤ) :=
  match popen (⟨.pidof, path⟩ : ToolCall).line with
  | none => some []
  | some text => pidofLoop fuel uninitialised [] text

end Reader

end CgProxy

import CgProxy.Model.Config
import CgProxy.ToMathlib.LabeledRun

/-! # Attaching a process, call by call

This file follows `cgroup_attach.cpp`. One call of `attach` is a sequence of system calls, and
between any two of them others may move the process or end it. A file system is given by what `stat`
finds at a path and what `mkdir` would make there. A directory of a cgroup2 file system moves a
process whose number is written to its `cgroup.procs`; in any other directory that name is at most an
ordinary file, and writing to it moves nobody.
-/

namespace CgProxy

/-! ## Files -/

/-- A directory, as far as its `cgroup.procs` is concerned. -/
inductive Directory where
  | cgroup (p : CgPath)
  | plain (appendable : Bool)
deriving DecidableEq

structure FileSystem where
  dir : Str → Option Directory
  mkdir : Str → Option Directory

/-- The names that a path leads through, without "." and with ".." taken back. -/
def lexicalNormal (names : List Str) : List Str :=
  names.foldl (fun here name =>
    if name = ".".toList then here else if name = "..".toList then here.dropLast else here ++ [name]) []

/-- The cgroup that `cgroup_target` names. -/
def CgPath.isTarget (p : CgPath) (cgroupTarget : Str) : Prop :=
  p.toStr = cgroupTarget ∨ p.components = lexicalNormal (pathComponents cgroupTarget)

theorem lexicalNormal_of_dotless {names : List Str} (dotless : ∀ name ∈ names, name ≠ ".".toList ∧ name ≠ "..".toList) :
    lexicalNormal names = names := by
  have kept (here : List Str) : names.foldl (fun here name =>
      if name = ".".toList then here else if name = "..".toList then here.dropLast else here ++ [name]) here =
        here ++ names := by
    induction names generalizing here with
    | nil => simp
    | cons name rest ih =>
      obtain ⟨one, two⟩ := dotless name List.mem_cons_self
      rw [List.foldl_cons, if_neg one, if_neg two, ih fun other member => dotless other (List.mem_cons_of_mem _ member)]
      simp
  exact (kept []).trans (List.nil_append _)

/-- Cgroups that exist have neither name, so the text comparison adds nothing for them. -/
theorem CgPath.isTarget_iff {p : CgPath} {cgroupTarget : Str}
    (dotless : ∀ name ∈ p.components, name ≠ ".".toList ∧ name ≠ "..".toList) :
    p.isTarget cgroupTarget ↔ p.components = lexicalNormal (pathComponents cgroupTarget) := by
  constructor
  · rintro (rfl | same)
    · rw [pathComponents_toStr, lexicalNormal_of_dotless dotless]
    · exact same
  · exact .inr

/-- What a write of a process number to the directory's `cgroup.procs` does to the process, unless the
write fails. Nobody can be moved that is gone. -/
def Directory.write : Directory → Option CgPath → Option (Option CgPath)
  | .cgroup p, some _ => some (some p)
  | .cgroup _, none => none
  | .plain true, process => some process
  | .plain false, _ => none

namespace Attach

/-! ## The function -/

/-- What comes next in the body of `attach`. -/
inductive Phase where
  | stat
  | mkdir
  | read (d : Directory)
  | write (d : Directory)
  | reread (d : Directory)
  | rewrite (d : Directory)
  | returned (status : ℤ)
deriving DecidableEq

/-- `process` is the cgroup of the process, none when it is gone; `reads` are the results of
`getCgroup` so far. -/
structure State where
  process : Option CgPath
  reads : List Str
  phase : Phase
deriving DecidableEq

/-- The first two are done by others. A system call that can succeed may also fail. -/
inductive Label where
  | exit
  | move (p : CgPath)
  | stat
  | mkdir (ok : Bool)
  | getCgroup
  | write2procs (ok : Bool)
deriving DecidableEq

/-- `return_error` in a function that returns `bool`. -/
def validate (pid cgroup : Str) : Bool :=
  if validPid pid && validCgroup cgroup then true else decide (Status.error ≠ 0)

/-- The checks that `attach` begins with. -/
def call (uid : ℕ) (pid cgroupTarget : Str) (process : Option CgPath) : State where
  process
  reads := []
  phase :=
    if uid ≠ 0 then .returned Status.error
    else if validate pid cgroupTarget = false then .returned Status.error
    else if cgroup2MountPoint = [] then .returned Status.error
    else .stat

def cgroupTargetPath (cgroupTarget : Str) : Str := cgroup2MountPoint ++ cgroupTarget

def cgroupTargetProcs (cgroupTarget : Str) : Str := cgroupTargetPath cgroupTarget ++ "/cgroup.procs".toList

/-- The directory or file that a system call makes or writes to. -/
def Label.path? (cgroupTarget : Str) : Label → Option Str
  | .mkdir _ => some (cgroupTargetPath cgroupTarget)
  | .write2procs _ => some (cgroupTargetProcs cgroupTarget)
  | _ => none

/-- Empty when the process is gone. -/
def getCgroup (process : Option CgPath) : Str :=
  match process with
  | some p => p.toStr
  | none => []

/-- Once the call is over, the process is no longer its matter. -/
def step (fs : FileSystem) (cgroupTarget : Str) (s : State) (l : Label) : Option State :=
  match s.phase, l with
  | .returned _, _ => none
  | _, .exit => some { s with process := none }
  | _, .move p => s.process.map fun _ => { s with process := some p }
  | .stat, .stat =>
      match fs.dir (cgroupTargetPath cgroupTarget) with
      | some d => some { s with phase := .read d }
      | none => some { s with phase := .mkdir }
  | .mkdir, .mkdir ok =>
      match ok, fs.mkdir (cgroupTargetPath cgroupTarget) with
      | true, some d => some { s with phase := .read d }
      | _, _ => some { s with phase := .returned Status.error }
  | .read d, .getCgroup =>
      let cg := getCgroup s.process
      some { s with
        reads := s.reads ++ [cg]
        phase := if cg = [] ∨ cg = cgroupTarget then .returned Status.success else .write d }
  | .write d, .write2procs ok =>
      match ok, d.write s.process with
      | true, some process => some { s with process, phase := .reread d }
      | _, _ => some { s with phase := .returned Status.error }
  | .reread d, .getCgroup =>
      let cg := getCgroup s.process
      some { s with
        reads := s.reads ++ [cg]
        phase := if cg = [] ∨ cg = cgroupTarget then .returned Status.success else .rewrite d }
  | .rewrite d, .write2procs ok =>
      match ok, d.write s.process with
      | true, some process => some { s with process, phase := .returned Status.success }
      | _, _ => some { s with phase := .returned Status.error }
  | _, _ => none

/-- The directory whose `cgroup.procs` the call writes to, unless it fails before. -/
def destination (fs : FileSystem) (cgroupTarget : Str) : Option Directory :=
  (fs.dir (cgroupTargetPath cgroupTarget)).or (fs.mkdir (cgroupTargetPath cgroupTarget))

end Attach

end CgProxy

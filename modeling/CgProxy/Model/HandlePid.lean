import CgProxy.Model.Attach
import CgProxy.Model.Daemon

/-! # A process message beside `handle_pid`

Both threads of the daemon attach processes, without a lock. This file follows `handle_pid` of
`cgproxyd.hpp` from one system call to the next, beside the `attach` that a process message asks for.
They share the process and the file system, and each of them acts on what it has read earlier. The
execsnoop thread calls `handle_pid` again whenever the process executes another program.
-/

namespace CgProxy

/-- What has been made is found from then on, and cannot be made again. -/
def FileSystem.made (fs : FileSystem) (path : Str) (d : Directory) : FileSystem where
  dir := Function.update fs.dir path (some d)
  mkdir := Function.update fs.mkdir path none

namespace HandlePid

/-- What comes next in the body of `handle_pid`: `noproxy` and `proxy` are the reads of the cgroup in
its two blocks. -/
inductive Phase where
  | realpath
  | noproxy (path : Str)
  | proxy (path : Str)
  | attaching (cgroupTarget : Str) (phase : Attach.Phase)
  | returned (status : ℤ)

/-- The cgroup of the process, the socket thread's `attach` and the execsnoop thread's `handle_pid`. -/
structure State where
  fs : FileSystem
  process : Option CgPath
  socket : Attach.Phase
  execsnoop : Phase

/-- The process ends, or executes a program; the rest are system calls of the two threads. -/
inductive Label where
  | exit
  | event
  | realpath (path : Option Str)
  | getCgroup
  | attach (l : Attach.Label)
  | socket (l : Attach.Label)

/-- `handle_pid` returns what its `attach` does. -/
def Phase.attach (cgroupTarget : Str) : Attach.Phase → Phase
  | .returned status => .returned status
  | phase => .attaching cgroupTarget phase

/-- The second block. -/
def proxyStage (c : Config) (path : Str) : Phase :=
  if path ∈ c.programProxy then .proxy path else .returned 0

/-- The first block. -/
def noproxyStage (c : Config) (path : Str) : Phase :=
  if path ∈ c.programNoproxy then .noproxy path else proxyStage c path

/-- What a block does with the cgroup it reads; `next` is what follows the block. -/
def tested (uid : ℕ) (pid : Str) (cgroups : List Str) (slice : Str) (next : Phase) (process : Option CgPath) : Phase :=
  let cg := Attach.getCgroup process
  if cg = [] then .returned 0
  else if preserved cg then .returned 0
  else if belongToCgroups cg cgroups then next
  else .attach slice (Attach.call uid pid slice process).phase

namespace State

/-- A system call of an `attach` that shares the process and the file system with others. -/
def call (s : State) (cgroupTarget : Str) (phase : Attach.Phase) (l : Attach.Label) : Option (State × Attach.Phase) :=
  match l with
  | .exit | .move _ => none
  | l =>
      (Attach.step s.fs cgroupTarget ⟨s.process, [], phase⟩ l).map fun t =>
        let fs :=
          match phase, t.phase with
          | .mkdir, .read d => s.fs.made (Attach.cgroupTargetPath cgroupTarget) d
          | _, _ => s.fs
        ({ s with fs, process := t.process }, t.phase)

/-- `pid` is the number as text, `cgroupTarget` the slice that the message asks for. -/
def step (c : Config) (uid : ℕ) (pid cgroupTarget : Str) (s : State) : Label → Option State
  | .exit => some { s with process := none }
  | .event =>
      match s.execsnoop with
      | .returned _ => some { s with execsnoop := .realpath }
      | _ => none
  | .realpath path =>
      match s.execsnoop, path with
      | .realpath, none => some { s with execsnoop := .returned 0 }
      | .realpath, some path => some { s with execsnoop := noproxyStage c path }
      | _, _ => none
  | .getCgroup =>
      match s.execsnoop with
      | .noproxy path =>
          some { s with
            execsnoop := tested uid pid c.cgroupNoproxy cgroupNoproxyPreserved (proxyStage c path) s.process }
      | .proxy _ =>
          some { s with execsnoop := tested uid pid c.cgroupProxy cgroupProxyPreserved (.returned 0) s.process }
      | _ => none
  | .attach l =>
      match s.execsnoop with
      | .attaching target phase =>
          (s.call target phase l).map fun (s, phase) => { s with execsnoop := .attach target phase }
      | _ => none
  | .socket l => (s.call cgroupTarget s.socket l).map fun (s, socket) => { s with socket }

/-- The message has been read, and the process has executed a program. -/
def started (fs : FileSystem) (uid : ℕ) (pid cgroupTarget : Str) (process : Option CgPath) : State where
  fs
  process
  socket := (Attach.call uid pid cgroupTarget process).phase
  execsnoop := .realpath

end State

end HandlePid

end CgProxy

import CgProxy.Model.HandlePid

/-! # The daemon's threads beside all processes

This file follows `processRunningProgram`, `handle_pid` and the process messages of `cgproxyd.hpp` from
one system call to the next, for all processes at once. The main thread goes over the running
programs, the execsnoop thread is called back for one process after another, the socket thread serves
one message after another. Meanwhile processes fork, are moved by others and end. A child begins in the
cgroup of its parent, and the number of a process that has ended may be used again.
-/

namespace CgProxy

/-- One of the two reserved slices, and the side of the configuration that it stands for. -/
inductive Slice where
  | noproxy
  | proxy
deriving DecidableEq

namespace Slice

def path : Slice → Str
  | noproxy => cgroupNoproxyPreserved
  | proxy => cgroupProxyPreserved

def programs (c : Config) : Slice → List Str
  | noproxy => c.programNoproxy
  | proxy => c.programProxy

def cgroups (c : Config) : Slice → List Str
  | noproxy => c.cgroupNoproxy
  | proxy => c.cgroupProxy

end Slice

namespace Threads

inductive Thread where
  | main
  | socket
  | execsnoop
deriving DecidableEq

/-- The process that a thread is busy with, and how far it is. -/
structure Job where
  pid : ℤ
  phase : HandlePid.Phase

def Job.idle (job : Job) : Bool :=
  match job.phase with
  | .returned _ => true
  | _ => false

/-- Where the main thread stands in the two loops of `processRunningProgram`: the side, the programs that
are left of it, and the processes that are left of the last program. -/
inductive Loop where
  | waiting
  | running (side : Slice) (programs : List Str) (pids : List ℤ)
  | joining

/-- `process` has the cgroups of the processes that there are. -/
structure State where
  fs : FileSystem
  config : Config
  process : ℤ → Option CgPath
  job : Thread → Job
  loop : Loop

/-- The first three are done by others. `message` and `configured` are messages that the socket thread has
read, `event` is a callback, `pidof` is what `bash_pidof` answers for the next program; the rest are calls of
one of the threads. -/
inductive Label where
  | fork (parent child : ℤ)
  | exit (pid : ℤ)
  | moved (pid : ℤ) (p : CgPath)
  | message (pid : ℤ) (slice : Slice)
  | configured (c : Config)
  | event (pid : ℤ)
  | realpath (path : Option Str)
  | loop
  | pidof (pids : List ℤ)
  | getCgroup
  | running
  | attach (thread : Thread) (l : Attach.Label)

def toStr (pid : ℤ) : Str := (toString pid).toList

namespace State

/-- What a thread sees of it. -/
def view (s : State) (thread : Thread) : HandlePid.State where
  fs := s.fs
  process := s.process (s.job thread).pid
  socket := .returned 0
  execsnoop := (s.job thread).phase

def begin (s : State) (thread : Thread) (job : Job) : State := { s with job := Function.update s.job thread job }

/-- A call of a thread for the process it is busy with. -/
def act (s : State) (thread : Thread) (l : HandlePid.Label) : Option State :=
  let pid := (s.job thread).pid
  ((s.view thread).step s.config 0 (toStr pid) [] l).map fun h =>
    { s.begin thread ⟨pid, h.execsnoop⟩ with fs := h.fs, process := Function.update s.process pid h.process }

/-- The body of both loops reads the cgroup of the next process. -/
def running (s : State) : Option State :=
  match s.loop with
  | .running side programs (pid :: pids) =>
      if (s.job .main).idle then
        let phase := HandlePid.tested 0 (toStr pid) (side.cgroups s.config) side.path (.returned 0) (s.process pid)
        some { s.begin .main ⟨pid, phase⟩ with loop := .running side programs pids }
      else none
  | _ => none

def step (s : State) : Label → Option State
  | .fork parent child =>
      if (s.process parent).isSome ∧ s.process child = none then
        some { s with process := Function.update s.process child (s.process parent) }
      else none
  | .exit pid => some { s with process := Function.update s.process pid none }
  | .moved pid p =>
      if (s.process pid).isSome then some { s with process := Function.update s.process pid (some p) } else none
  | .message pid slice =>
      if (s.job .socket).idle then
        some (s.begin .socket ⟨pid, .attach slice.path (Attach.call 0 (toStr pid) slice.path (s.process pid)).phase⟩)
      else none
  | .configured c => if (s.job .socket).idle then some { s with config := c } else none
  | .event pid => if (s.job .execsnoop).idle then some (s.begin .execsnoop ⟨pid, .realpath⟩) else none
  | .realpath path => s.act .execsnoop (.realpath path)
  | .getCgroup => s.act .execsnoop .getCgroup
  | .loop =>
      if (s.job .main).idle then
        match s.loop with
        | .waiting => some { s with loop := .running .noproxy (Slice.noproxy.programs s.config) [] }
        | .running .noproxy [] [] => some { s with loop := .running .proxy (Slice.proxy.programs s.config) [] }
        | .running .proxy [] [] => some { s with loop := .joining }
        | _ => none
      else none
  | .pidof pids =>
      match s.loop with
      | .running side (_ :: programs) [] =>
          if (s.job .main).idle then some { s with loop := .running side programs pids } else none
      | _ => none
  | .running => s.running
  | .attach thread l => s.act thread (.attach l)

end State

end Threads

end CgProxy

import CgProxy.Model.Daemon
import CgProxy.Model.Threads

/-! # From exec to `handle_pid`

This file follows `execsnoop` and `handle_event` of `execsnoop_share.cpp` and `startExecsnoopThread` of
`cgproxyd.hpp`. The execsnoop thread sets the probes up and opens a perf buffer, which has a ring for each
processor. What the exit probe outputs goes to the ring of its processor, if the buffer is open and the ring
has room. The thread hands the events over one after another, and `handle_pid` is called with each. The main
thread waits for the promise, and then goes over the programs that run already.
-/

namespace CgProxy

namespace Notifier

/-- The process of each event, in the order of the ring. -/
abbrev Rings := ℕ → List ℤ

/-- Where the execsnoop thread stands. The first three steps of `execsnoop` need the kernel's consent. -/
inductive Snoop where
  | rlimit
  | load
  | attach
  | mainLoop
  | poll
  | returned (err : ℤ)
deriving DecidableEq

/-- Where the main thread stands in `startExecsnoopThread`. -/
inductive Main where
  | waiting
  | timeout
  | running (side : Slice) (programs : List Str) (pids : List ℤ)
  | joining
deriving DecidableEq

/-- `pb` is the open perf buffer. `status` counts how often the promise has been given its value, `sigint` how
often the process group has been signalled. -/
structure State where
  world : World
  pb : Option Rings := none
  snoop : Snoop := .rlimit
  notified : Bool := false
  status : ℕ := 0
  sigint : ℕ := 0
  main : Main := .waiting

/-- A successful exec, with the processor and whether its event is lost to a full ring, a fork and an exit; what
the calls of the execsnoop thread answer; and the steps of the main thread. -/
inductive Label where
  | exec (cpu : ℕ) (pid : ℤ) (path : Str) (lost : Bool)
  | fork (parent child : ℤ)
  | exit (pid : ℤ)
  | setup (err : ℤ)
  | perfBufferNew (err : ℤ)
  | event (cpu : ℕ)
  | pollFailed (err : ℤ)
  | ready
  | timeout
  | loop
  | pidof (pids : List ℤ)
  | running

def eintr : ℤ := 4

/-! ## Processes -/

/-- The executable that runs in a process, or the end of the process. -/
def ran (w : World) (pid : ℤ) (exe : Option Str) (cgroup : Option CgPath) : World :=
  { w with exe := Function.update w.exe pid exe, cgroup := Function.update w.cgroup pid cgroup }

/-- `bpf_perf_event_output`. -/
def output (pb : Option Rings) (cpu : ℕ) (pid : ℤ) (lost : Bool) : Option Rings :=
  if lost then pb else pb.map fun rings => Function.update rings cpu (rings cpu ++ [pid])

namespace State

/-- The next of the three steps, which returns what failed. `execsnoop_bpf__open_and_load` and `setrlimit`
only say that they did. -/
def setup (s : State) (err : ℤ) : Option State :=
  match s.snoop with
  | .rlimit => some { s with snoop := if err = 0 then .load else .returned 1 }
  | .load => some { s with snoop := if err = 0 then .attach else .returned 1 }
  | .attach => some { s with snoop := if err = 0 then .mainLoop else .returned err }
  | _ => none

/-- From `main_loop` to the first `perf_buffer__poll`. -/
def perfBufferNew (s : State) (err : ℤ) : Option State :=
  match s.snoop with
  | .mainLoop =>
      if err ≠ 0 then some { s with snoop := .returned 1 }
      else some { s with
        pb := some fun _ => []
        snoop := .poll
        status := if s.notified then s.status else s.status + 1
        notified := true }
  | _ => none

/-- A poll hands over an event of one of the rings. -/
def event (c : Config) (s : State) (cpu : ℕ) : Option State :=
  match s.snoop, s.pb with
  | .poll, some rings =>
      match rings cpu with
      | pid :: rest =>
          some { s with world := (handlePid c s.world pid).2, pb := some (Function.update rings cpu rest) }
      | [] => none
  | _, _ => none

/-- A poll fails: the buffer is freed, with all that is in it. -/
def pollFailed (s : State) (err : ℤ) : Option State :=
  match s.snoop with
  | .poll =>
      if 0 ≤ err then none
      else if err = -eintr then some { s with pb := none, snoop := .mainLoop }
      else some { s with pb := none, sigint := s.sigint + 1, snoop := .returned err }
  | _ => none

/-- The loops of `processRunningProgram`, of which `next` says what follows the last program. -/
def loop (c : Config) (s : State) : Option State :=
  match s.main with
  | .running .noproxy [] [] => some { s with main := .running .proxy (Slice.proxy.programs c) [] }
  | .running .proxy [] [] => some { s with main := .joining }
  | _ => none

def step (c : Config) (s : State) : Label → Option State
  | .exec cpu pid path lost =>
      if (s.world.exe pid).isSome then
        some { s with
          world := ran s.world pid (some path) (s.world.cgroup pid)
          pb := output s.pb cpu pid lost }
      else none
  | .fork parent child =>
      if (s.world.exe parent).isSome ∧ s.world.exe child = none then
        some { s with world := ran s.world child (s.world.exe parent) (s.world.cgroup parent) }
      else none
  | .exit pid => some { s with world := ran s.world pid none none }
  | .setup err => s.setup err
  | .perfBufferNew err => s.perfBufferNew err
  | .event cpu => s.event c cpu
  | .pollFailed err => s.pollFailed err
  | .ready =>
      if s.main = .waiting ∧ s.status ≠ 0 then
        some { s with main := .running .noproxy (Slice.noproxy.programs c) [] }
      else none
  | .timeout => if s.main = .waiting ∧ s.status = 0 then some { s with main := .timeout } else none
  | .loop => s.loop c
  | .pidof pids =>
      match s.main with
      | .running side (_ :: programs) [] => some { s with main := .running side programs pids }
      | _ => none
  | .running =>
      match s.main with
      | .running side programs (pid :: pids) =>
          some { s with
            world := handleRunning (side.cgroups c) side.path s.world pid
            main := .running side programs pids }
      | _ => none

end State

end Notifier

end CgProxy

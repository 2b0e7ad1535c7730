import CgProxy.Model.Common
import CgProxy.ToMathlib.LabeledRun

/-! # The exec probes

This file follows `execsnoop.bpf.c` and the probe of `execsnoop-bcc/execsnoop.cpp`. The two probes of
the former share the map `records`, in which the probe at the entry of `execve` leaves an event under
the id of the calling thread for the probe at the exit to complete and output. Around them is what the
kernel does: a call enters with the caller's thread id, and leaves with the same id if it fails and with
the process id if it succeeds, because the thread that succeeds becomes the leader of its group.
-/

namespace CgProxy.Execsnoop

/-- `struct event`. -/
structure Event where
  comm : Str := []
  pid : ℤ := 0
  tgid : ℤ := 0
  ppid : ℤ := 0
  uid : ℤ := 0
deriving DecidableEq

/-- The current task, as the helpers show it to a probe. `pid` is the thread's id. -/
structure Task where
  comm : Str
  pid : ℤ
  tgid : ℤ
  ppid : ℤ
  uid : ℤ
deriving DecidableEq

/-! ## The map -/

def maxEntries : ℕ := 10240

/-- A hash map, by its entries; keys are distinct. -/
abbrev Records := List (ℤ × Event)

namespace Records

/-- `bpf_map_update_elem` with `BPF_NOEXIST`. -/
def updateNoExist (records : Records) (key : ℤ) (event : Event) : Option Records :=
  if records.lookup key ≠ none ∨ maxEntries ≤ records.length then none else some ((key, event) :: records)

/-- A store through the pointer that `bpf_map_lookup_elem` returns. -/
def write (records : Records) (key : ℤ) (event : Event) : Records :=
  records.map fun entry => if entry.1 = key then (key, event) else entry

/-- `bpf_map_delete_elem`. -/
def delete (records : Records) (key : ℤ) : Records := records.filter (·.1 ≠ key)

end Records

/-! ## The probes -/

def syscallEnterExecve (task : Task) (records : Records) : Records :=
  match records.updateNoExist task.pid {} with
  | none => records
  | some records =>
      match records.lookup task.pid with
      | none => records
      | some event =>
          records.write task.pid
            { event with pid := task.pid, tgid := task.tgid, uid := task.uid, ppid := task.ppid }

/-- The map afterwards, and the event that goes to the perf buffer. -/
def syscallExitExecve (task : Task) (ret : ℤ) (records : Records) : Records × Option Event :=
  match records.lookup task.pid with
  | none => (records, none)
  | some event =>
      if ret < 0 then (records.delete task.pid, none)
      else
        let event := { event with comm := task.comm }
        ((records.write task.pid event).delete task.pid, some event)

/-! ## All threads -/

/-- `inFlight` has the thread id and the process id of every call that has entered and not left. -/
structure State where
  records : Records := []
  inFlight : List (ℤ × ℤ) := []
  events : List Event := []
deriving DecidableEq

/-- A call enters, or the call that entered as thread `tid` leaves. -/
inductive Label where
  | enter (task : Task)
  | exit (tid : ℤ) (task : Task) (ret : ℤ)
deriving DecidableEq

def step (s : State) : Label → Option State
  | .enter task =>
      if s.inFlight.lookup task.pid = none ∧ s.inFlight.length < maxEntries then
        some { s with
          records := syscallEnterExecve task s.records
          inFlight := (task.pid, task.tgid) :: s.inFlight }
      else none
  | .exit tid task ret =>
      match s.inFlight.lookup tid with
      | none => none
      | some tgid =>
          if task.tgid = tgid ∧ task.pid = (if ret < 0 then tid else tgid) then
            some {
              records := (syscallExitExecve task ret s.records).1
              inFlight := s.inFlight.filter (·.1 ≠ tid)
              events := s.events ++ (syscallExitExecve task ret s.records).2.toList }
          else none

end CgProxy.Execsnoop

/-! ## The bcc variant

Of the program in `execsnoop-bcc/execsnoop.cpp` only the return probe is attached. It keeps no map: what it
submits depends on the result of the call and on the thread that returns from it.
-/

namespace CgProxy.Bcc

open Execsnoop

/-- The conversion of a `long` to `int`. -/
def toInt (value : ℤ) : ℤ := Int.bmod value 4294967296

/-- `ret_syscall_execve`. -/
def retSyscallExecve (task : Task) (ret : ℤ) : Option ℤ := if toInt ret = 0 then some task.pid else none

/-- What is submitted when a call enters or leaves. -/
def submitted : Label → Option ℤ
  | .enter _ => none
  | .exit _ task ret => retSyscallExecve task ret

end CgProxy.Bcc

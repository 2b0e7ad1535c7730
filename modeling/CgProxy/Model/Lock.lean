import CgProxy.ToMathlib.LabeledRun
import Mathlib.Logic.Function.Basic

/-! # The lock file

This file follows `lock` and `unlock` of `cgproxyd.hpp`, for any number of processes. A lock made by
`flock` belongs to an open file description and excludes others on the same inode, while processes
find the inode by the path, which `unlock` removes after it has closed its descriptor. An exit closes
the descriptor without removing the path.
-/

namespace CgProxy.Lock

/-- Where a process is; the number is the inode that its `lock_fd` refers to. -/
inductive Phase where
  | outside
  | opened (inode : ℕ)
  | locked (inode : ℕ)
  | running (inode : ℕ)
  | unlocking (inode : ℕ)
  | closed
  | exited
deriving DecidableEq, Repr

/-- The inode of an open `lock_fd`. -/
def Phase.inode? : Phase → Option ℕ
  | opened inode | locked inode | running inode | unlocking inode => some inode
  | _ => none

/-- The inode whose lock the process has. -/
def Phase.holds? : Phase → Option ℕ
  | locked inode | running inode | unlocking inode => some inode
  | _ => none

/-- Past a successful `lock()` and not yet in `unlock()`. -/
def Phase.isRunning : Phase → Bool
  | running _ => true
  | _ => false

/-- `path` is the inode that PID_LOCK_FILE names, `owner` who has the lock of an inode. -/
structure State (ι : Type) where
  phase : ι → Phase
  path : Option ℕ
  nextInode : ℕ
  owner : ℕ → Option ι

inductive Label (ι : Type) where
  | openFile (p : ι)
  | flock (p : ι)
  | writePid (p : ι)
  | enterUnlock (p : ι)
  | closeFd (p : ι)
  | unlink (p : ι)
  | die (p : ι)
deriving DecidableEq, Repr

namespace State

variable {ι : Type} [DecidableEq ι]

def setPhase (s : State ι) (p : ι) (phase : Phase) : State ι :=
  { s with phase := Function.update s.phase p phase }

/-- The inode behind the path, with `O_CREAT`. -/
def create (s : State ι) : ℕ × State ι :=
  match s.path with
  | some inode => (inode, s)
  | none => (s.nextInode, { s with path := some s.nextInode, nextInode := s.nextInode + 1 })

/-- What the kernel does when the last descriptor of a process is closed. -/
def release (s : State ι) (p : ι) : State ι :=
  { s with owner := fun inode => if s.owner inode = some p then none else s.owner inode }

def step (s : State ι) : Label ι → Option (State ι)
  | .openFile p =>
      match s.phase p with
      | .outside => some ((s.create.2).setPhase p (.opened s.create.1))
      | _ => none
  | .flock p =>
      match s.phase p with
      | .opened inode =>
          match s.owner inode with
          | none => some ({ s with owner := Function.update s.owner inode (some p) }.setPhase p (.locked inode))
          | some _ => some (s.setPhase p .exited)
      | _ => none
  -- the stream opens the path again, and creates it if it is gone
  | .writePid p =>
      match s.phase p with
      | .locked inode => some ((s.create.2).setPhase p (.running inode))
      | _ => none
  | .enterUnlock p =>
      match s.phase p with
      | .running inode => some (s.setPhase p (.unlocking inode))
      | _ => none
  | .closeFd p =>
      match s.phase p with
      | .unlocking _ => some ((s.release p).setPhase p .closed)
      | _ => none
  | .unlink p =>
      match s.phase p with
      | .closed => some ({ s with path := none }.setPhase p .exited)
      | _ => none
  | .die p => some ((s.release p).setPhase p .exited)

/-- Before any process has started, with or without a file left over from earlier. -/
def initial (leftover : Bool) : State ι where
  phase _ := .outside
  path := if leftover then some 0 else none
  nextInode := 1
  owner _ := none

end State

end CgProxy.Lock

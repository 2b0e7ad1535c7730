import CgProxy.Model.Process
import CgProxy.ToMathlib.LabeledRun

/-! # A signal beside the socket thread

This file follows `applyConfig`, `signalHandler` and `stop` of `cgproxyd.hpp` where they overlap. Each
runs the script by `system`, that is as a process that it waits for; the processes take turns at the
kernel in any order, and go on when the daemon has exited. If the handler interrupts the socket thread
itself, that thread just takes no more steps. The lock that the handler gives up is `Model.Lock`.
-/

namespace CgProxy

open Netfilter Script

/-- The command that a process executes next, if it has come to its commands. -/
def Script.Process.command? : Process → Option Command
  | installing (c :: _) | removing (c :: _) _ => some c
  | _ => none

namespace Signal

/-- The thread that handles the messages, in `applyConfig`: the process it waits for, or where it is. -/
inductive Socket where
  | idle
  | cleaning (p : Process)
  | exported
  | starting (p : Process)

/-- `signalHandler`, and the process it waits for. -/
inductive Handler where
  | quiet
  | cleaning (p : Process)
  | exited

/-- `handled` are the commands that the handler's CLEAN has executed. -/
structure State where
  kernel : Kernel
  config : Config
  env : Env
  socket : Socket
  handler : Handler
  handled : List Command

/-- `script` and `cleanup` are steps of the two processes, `tree` is done by others. -/
inductive Label where
  | message (c : Config)
  | script
  | next
  | signal
  | cleanup
  | exit
  | tree (h : Hierarchy)

/-- The process of the socket thread takes a step. -/
def Socket.step (k : Kernel) : Socket → Option (Socket × Kernel)
  | idle | exported | cleaning .finished | starting .finished => none
  | cleaning p => some (cleaning (p.step k).1, (p.step k).2)
  | starting p => some (starting (p.step k).1, (p.step k).2)

/-- The socket thread waits for no process, or in vain for one that has ended. -/
def Socket.over : Socket → Bool
  | idle | exported | cleaning .finished | starting .finished => true
  | _ => false

/-- The handler's CLEAN has ended. -/
def Handler.over : Handler → Bool
  | cleaning .finished | exited => true
  | _ => false

namespace State

/-- The socket thread goes on when its process has ended. -/
def next (s : State) : Option State :=
  match s.socket with
  | .cleaning .finished => some { s with env := s.config.toEnv s.env, socket := .exported }
  | .exported => some { s with socket := .starting (.launched s.env false) }
  | .starting .finished => some { s with socket := .idle }
  | _ => none

def step (s : State) : Label → Option State
  | .message c =>
      match s.socket, s.handler with
      | .idle, .quiet | .idle, .cleaning _ =>
          some { s with config := c, socket := .cleaning (.launched s.env true) }
      | _, _ => none
  | .script => (s.socket.step s.kernel).map fun (socket, kernel) => { s with socket, kernel }
  | .next =>
      match s.handler with
      | .exited => none
      | _ => s.next
  | .signal =>
      match s.handler with
      | .quiet => some { s with handler := .cleaning (.launched s.env true) }
      | _ => none
  | .cleanup =>
      match s.handler with
      | .quiet | .exited | .cleaning .finished => none
      | .cleaning p =>
          some { s with
            kernel := (p.step s.kernel).2
            handler := .cleaning (p.step s.kernel).1
            handled := s.handled ++ p.command?.toList }
  | .exit =>
      match s.handler with
      | .cleaning .finished => some { s with handler := .exited }
      | _ => none
  | .tree h => some { s with kernel := { s.kernel with hierarchy := h } }

/-- The daemon that has applied its first configuration on a machine, and waits for messages. -/
def started (k : Kernel) (env : Env) (c : Config) : State where
  kernel := start (c.toEnv env) (stop env k)
  config := c
  env := c.toEnv env
  socket := .idle
  handler := .quiet
  handled := []

end State

end Signal

end CgProxy

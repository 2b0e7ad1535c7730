import CgProxy.Model.Daemon
import CgProxy.Posix.Stream
import CgProxy.ToMathlib.LabeledRun

/-! # The control socket

This file follows `socket_client.cpp`, `socket_server.cpp` and the `main` of `cgproxy.hpp`. Clients,
indexed by `ι`, connect at most once each and run `SOCKET::send` or do as they like; the server is one
loop with the callback in it. One step is one system call of one party, and the surroundings decide
what it returns: `none` is -1, a number is the count of bytes. `S` is the state behind the callback
and `κ` what the surroundings give it at a call. A call of the callback need not return: it may block
for ever, as opening a FIFO does, or end the process.
-/

namespace CgProxy.Socket

open Posix

/-! ## Connections -/

/-- The two directions of a connection, seen from the client. -/
structure Link where
  up : Stream UInt8 := {}
  down : Stream UInt8 := {}
deriving DecidableEq

/-- The client's end is closed. -/
def Link.closeClient (l : Link) : Link :=
  ⟨{ l.up with writing := false }, { l.down with reading := false }⟩

/-- The server's end is closed. -/
def Link.closeServer (l : Link) : Link :=
  ⟨{ l.up with reading := false }, { l.down with writing := false }⟩

/-! ## Clients -/

/-- What comes next in a client: the calls of `SOCKET::send` in their order, then the rest of `main`.
A `raw` client is connected and follows no program. -/
inductive Phase where
  | idle
  | writeLength
  | writeMsg
  | readReply
  | returned
  | finished
  | killed
  | raw
deriving DecidableEq, Repr

/-- `status` is the memory of the variable; `command` says that there is a command to run. -/
structure Client where
  msg : List UInt8
  command : Bool
  phase : Phase := .idle
  status : List UInt8 := intBytes (-1)
  executed : Bool := false
deriving DecidableEq

inductive ClientEvent where
  | connect (ok : Bool)
  | connectRaw
  | writeLength (res : Option ℕ)
  | writeMsg (res : Option ℕ)
  | readReply (res : Option ℕ)
  | main
  | quit
  | sendRaw (bytes : List UInt8)
  | receiveRaw (n : ℕ)
deriving DecidableEq

/-- The client enters the backlog. -/
def ClientEvent.connects : ClientEvent → Bool
  | .connect true => true
  | .connectRaw => true
  | _ => false

namespace Client

/-- `return_if_error`. -/
def fail (c : Client) (l : Link) : Client × Link :=
  ({ c with status := intBytes Status.connError, phase := .returned }, l.closeClient)

/-- `int msg_len = strlen(msg)`. -/
def msgLen (c : Client) : ℤ := toInt32 c.msg.length

/-- A write whose result is only compared with -1. Without a reader the signal SIGPIPE ends the
process. -/
def write (c : Client) (l : Link) (data : List UInt8) (next : Phase) (res : Option ℕ) :
    Option (Client × Link) :=
  if l.up.reading = false then some ({ c with phase := .killed }, l.closeClient)
  else
    match res with
    | none => some (c.fail l)
    | some n => (l.up.write data n).map fun up => ({ c with phase := next }, { l with up })

/-- `main` runs the command if the status is 0. -/
def step (listening : Bool) (c : Client) (l : Link) : ClientEvent → Option (Client × Link)
  | .connect ok =>
      if c.phase ≠ .idle then none
      else if ok = false then
        some ({ c with status := intBytes Status.connError, phase := .returned }, l.closeClient)
      else if listening then
        some ({ c with status := intBytes Status.unknownError, phase := .writeLength }, l)
      else none
  | .connectRaw =>
      if c.phase = .idle ∧ listening = true then some ({ c with phase := .raw }, l) else none
  | .writeLength res =>
      if c.phase ≠ .writeLength then none else c.write l (intBytes c.msgLen) .writeMsg res
  | .writeMsg res =>
      if c.phase ≠ .writeMsg then none
      -- as a count, a negative length is refused
      else if c.msgLen < 0 then some (c.fail l)
      else c.write l (c.msg.take c.msgLen.toNat) .readReply res
  | .readReply res =>
      if c.phase ≠ .readReply then none
      else
        match res with
        | none => some (c.fail l)
        | some n =>
            (l.down.read 4 n).map fun (bytes, down) =>
              ({ c with status := overwrite c.status bytes, phase := .returned },
                { l with down }.closeClient)
  | .main =>
      if c.phase ≠ .returned then none
      else some ({ c with phase := .finished, executed := decide (intValue c.status = 0) && c.command }, l)
  | .quit =>
      if c.phase ∈ [.writeLength, .writeMsg, .readReply, .raw] then
        some ({ c with phase := .killed }, l.closeClient)
      else none
  | .sendRaw bytes =>
      if c.phase ≠ .raw then none
      else (l.up.write bytes bytes.length).map fun up => (c, { l with up })
  | .receiveRaw n =>
      if c.phase ≠ .raw then none
      else (l.down.read n n).map fun (_, down) => (c, { l with down })

end Client

/-! ## The server -/

/-- What comes next in the loop of `socketListening`. `msg` is none when `malloc` returned NULL. The loop
is `stuck` in a callback that never returns. -/
inductive Server (ι : Type*) where
  | accept
  | readLength (i : ι)
  | readMsg (i : ι) (msgLen : ℤ) (msg : Option (List UInt8))
  | callback (i : ι) (msg : List UInt8)
  | writeBack (i : ι) (status : ℤ)
  | stuck (i : ι) (msg : List UInt8)
  | dead
deriving DecidableEq

/-- A call of the callback that has returned. -/
structure Call (ι : Type*) where
  client : ι
  msg : List UInt8
  status : ℤ
deriving DecidableEq

/-- `stale` is what was in the memory of `msg_len`, `block` the answer of `malloc`. The callback returns,
blocks for ever (`hang`) or ends the process (`abort`). -/
inductive ServerEvent (κ : Type*) where
  | accept (ok : Bool)
  | readLength (res : Option ℕ) (stale : List UInt8) (block : Option (List UInt8))
  | readMsg (res : Option ℕ)
  | callback (input : κ)
  | hang
  | abort
  | writeBack (res : Option ℕ)

/-- `daemon` is the state behind the callback after the last call that has returned. -/
structure State (ι S : Type*) where
  clients : ι → Client
  links : ι → Link
  backlog : List ι
  server : Server ι
  daemon : S
  calls : List (Call ι)

/-- `kill` is a signal from outside that no handler is installed for. -/
inductive Label (ι κ : Type*) where
  | client (i : ι) (e : ClientEvent)
  | server (e : ServerEvent κ)
  | kill

/-- `malloc(msg_len + 1)`: NULL, or as many bytes of whatever was there. -/
def mallocOk (msgLen : ℤ) : Option (List UInt8) → Bool
  | none => true
  | some memory => decide (0 ≤ msgLen + 1 ∧ (memory.length : ℤ) = msgLen + 1)

/-- The string that a `char *` points to. -/
def cString (memory : List UInt8) : List UInt8 := memory.takeWhile (· ≠ 0)

def intMax : ℤ := 2 ^ 31 - 1

section Steps

variable {ι κ S : Type*} [DecidableEq ι]

namespace State

/-- The end of an iteration, by `continue` or not: `close(cfd)` and back to `accept`. -/
def drop (s : State ι S) (i : ι) : State ι S :=
  { s with links := Function.update s.links i (s.links i).closeServer, server := .accept }

/-- The process is gone, and with it all its connections. -/
def die (s : State ι S) : State ι S :=
  { s with links := fun i => (s.links i).closeServer, server := .dead }

/-- The callback has returned. -/
def called (s : State ι S) (call : Call ι) (daemon : S) : State ι S :=
  { s with daemon, calls := s.calls ++ [call], server := .writeBack call.client call.status }

def serverStep (callback : κ → S → List UInt8 → ℤ × S) (s : State ι S) : ServerEvent κ → Option (State ι S)
  | .accept ok =>
      match s.server, ok, s.backlog with
      | .accept, false, _ => some s
      | .accept, true, i :: rest => some { s with backlog := rest, server := .readLength i }
      | _, _, _ => none
  | .readLength res stale block =>
      match s.server, res with
      | .readLength i, none => some (s.drop i)
      | .readLength i, some n =>
          match (s.links i).up.read 4 n with
          | none => none
          | some (bytes, up) =>
              let msgLen := intValue (overwrite stale bytes)
              let after := { s with links := Function.update s.links i { s.links i with up } }
              if stale.length ≠ 4 then none
              -- msg_len + 1 overflows
              else if msgLen = intMax then some after.die
              else if mallocOk msgLen block then some { after with server := .readMsg i msgLen block }
              else none
      | _, _ => none
  | .readMsg res =>
      match s.server, res with
      | .readMsg i _ _, none => some (s.drop i)
      | .readMsg i msgLen msg, some n =>
          -- a negative length is too large a count
          if msgLen < 0 then none
          else
            match (s.links i).up.read msgLen.toNat n, msg with
            | none, _ => none
            | some (bytes, up), some memory =>
                some { s with
                  links := Function.update s.links i { s.links i with up }
                  server := .callback i (cString ((overwrite memory bytes).set msgLen.toNat 0)) }
            -- nothing can be stored at NULL: a read of bytes fails, and after no bytes msg[msg_len] faults
            | some ([], _), none => some s.die
            | some (_ :: _, _), none => none
      | _, _ => none
  | .callback input =>
      match s.server with
      | .callback i msg =>
          let (status, daemon) := callback input s.daemon msg
          some (s.called ⟨i, msg, status⟩ daemon)
      | _ => none
  | .hang =>
      match s.server with
      | .callback i msg => some { s with server := .stuck i msg }
      | _ => none
  | .abort =>
      match s.server with
      | .callback _ _ => some s.die
      | _ => none
  | .writeBack res =>
      match s.server with
      | .writeBack i status =>
          -- SIGPIPE
          if (s.links i).down.reading = false then some s.die
          else
            match res with
            | none => some (s.drop i)
            | some n =>
                ((s.links i).down.write (intBytes status) n).map fun down =>
                  { s with links := Function.update s.links i { s.links i with down } }.drop i
      | _ => none

/-- The server's socket exists. -/
def listening (s : State ι S) : Bool :=
  match s.server with
  | .dead => false
  | _ => true

def step (callback : κ → S → List UInt8 → ℤ × S) (s : State ι S) : Label ι κ → Option (State ι S)
  | .client i e =>
      (Client.step s.listening (s.clients i) (s.links i) e).map fun (c, l) =>
        { s with
          clients := Function.update s.clients i c
          links := Function.update s.links i l
          backlog := if e.connects then s.backlog ++ [i] else s.backlog }
  | .server e => s.serverStep callback e
  | .kill => if s.listening then some s.die else none

/-- Nobody has connected yet. -/
def initial (msgs : ι → List UInt8) (commands : ι → Bool) (daemon : S) : State ι S where
  clients i := { msg := msgs i, command := commands i }
  links _ := {}
  backlog := []
  server := .accept
  daemon
  calls := []

end State

end Steps

/-! ## The daemon behind the callback -/

/-- What has changed around the daemon when it handles a message. -/
structure Surroundings where
  host : Host
  hierarchy : Hierarchy
  world : World

/-- `handle_msg`, on the bytes of the message. -/
def handleMsg (around : Surroundings) (d : Daemon) (msg : List UInt8) : ℤ × Daemon :=
  { d with kernel := { d.kernel with hierarchy := around.hierarchy }, world := around.world }.handleMsg
    around.host (msg.map fun (b : UInt8) => Char.ofNat b.toNat)

end CgProxy.Socket

import CgProxy.Model.Common
import CgProxy.Posix.Shell

/-! # The wrapper `cgproxy`

This file follows `cgproxy.hpp`: the options, the message about the process, and the command line for
`system`; and `main.cpp`, which looks at the same arguments first, to choose between the wrapper and the
daemon.
-/

namespace CgProxy

open Posix

/-- The loop with an index, over the first `argc` arguments. -/
def join2strArgv (argc : ℕ) (argv : List Str) (delm : Char) : Str :=
  (argv.take argc).zipIdx.foldl (fun s (arg, i) => if i ≠ argc - 1 then s ++ arg ++ [delm] else s ++ arg) []

namespace Wrapper

/-- The variables that `processArgs` sets. -/
structure Options where
  printHelp : Bool := false
  proxy : Bool := true
  enableDebug : Bool := false
  attachPid : Bool := false
  argPid : Str := []
deriving DecidableEq

/-- The three flags that take no argument. -/
def Options.flag (o : Options) (arg : Str) : Options :=
  { o with
    proxy := if arg = "--noproxy".toList then false else o.proxy
    enableDebug := if arg = "--debug".toList then true else o.enableDebug
    printHelp := if arg = "--help".toList then true else o.printHelp }

/-- `args` are the arguments from index `i` on. The second component is `shift`; `none` is `return false`. -/
def processArgs (i : ℕ) (args : List Str) (o : Options) : Option (Options × ℕ) :=
  match args with
  | [] => some (o, i)
  | arg :: rest =>
      if arg = "--pid".toList then
        match rest with
        | [] => none
        | pid :: rest =>
            if validPid pid then processArgs (i + 2) rest { o with attachPid := true, argPid := pid } else none
      else if arg.head? ≠ some '-' then some (o.flag arg, i)
      else processArgs (i + 1) rest (o.flag arg)

/-- The same loop with the variables as it leaves them, also where it returns false and sets no `shift`. -/
def scan (i : ℕ) (args : List Str) (o : Options) : Options × Option ℕ :=
  match args with
  | [] => (o, some i)
  | arg :: rest =>
      if arg = "--pid".toList then
        match rest with
        | [] => ({ o with attachPid := true }, none)
        | pid :: rest =>
            let o := { o with attachPid := true, argPid := pid }
            if validPid pid then scan (i + 2) rest o else (o, none)
      else if arg.head? ≠ some '-' then (o.flag arg, some i)
      else scan (i + 1) rest (o.flag arg)

/-- A number of digits. `none` is the exception for one that is no `int`. -/
def stoi (pid : Str) : Option ℤ :=
  let value := pid.foldl (fun n c => 10 * n + (c.toNat - '0'.toNat)) 0
  if value ≤ 2147483647 then some value else none

/-- How `main` ends. -/
inductive Outcome where
  | exit (status : ℤ)
  | terminated
  | system (line : Str)
deriving DecidableEq

/-- `sendPid` is the status that `send_pid` sets, `self` the process itself. -/
def main (argv : List Str) (self : ℤ) (sendPid : ℤ → Bool → ℤ) : Outcome :=
  let argc := argv.length
  match processArgs 1 (argv.drop 1) {} with
  | none => .exit 1
  | some (o, shift) =>
      if o.printHelp then .exit 0
      else if !o.attachPid ∧ argc = shift then .exit 1
      else
        match if o.attachPid then stoi o.argPid else some self with
        | none => .terminated
        | some pid =>
            if sendPid pid o.proxy ≠ 0 then .exit 1
            else if o.attachPid then .exit 0
            else .system (Shell.cString (join2strArgv (argc - shift) (argv.drop shift) ' '))

end Wrapper

namespace Entry

/-- The loop of `main.cpp` over the arguments from index 1 on, with the variable that it sets. -/
def processArgs (asCgproxyd : Bool) : List Str → Bool
  | [] => asCgproxyd
  | arg :: rest =>
      let asCgproxyd := if arg = "--daemon".toList then true else asCgproxyd
      if arg.head? ≠ some '-' then asCgproxyd else processArgs asCgproxyd rest

/-- The program that runs, the wrapper with what its own scan finds. -/
inductive Role where
  | cgproxyd
  | cgproxy (found : Wrapper.Options × Option ℕ)
deriving DecidableEq

def role (argv : List Str) : Role :=
  if processArgs false (argv.drop 1) then .cgproxyd else .cgproxy (Wrapper.scan 1 (argv.drop 1) {})

end Entry

end CgProxy

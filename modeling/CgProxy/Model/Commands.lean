import CgProxy.Model.Config
import CgProxy.Posix.Shell

/-! # The commands that the daemon runs

This file follows the functions of `common.cpp` that call `popen`. Each of them writes the string it is
given behind the name of a command. For a program name they are called as `getRealExistPath` goes along,
and later once more for every path that a list is left with, by `processRunningProgram`.
-/

namespace CgProxy

open Posix

/-- The programs that are run. -/
inductive Tool where
  | pidof
  | which
  | readlink
deriving DecidableEq

namespace Tool

/-- The text that `to_str` puts before the string. -/
def front : Tool → Str
  | .pidof => "pidof ".toList
  | .which => "which ".toList
  | .readlink => "readlink -e ".toList

/-- The words before the string. -/
def words : Tool → List Str
  | .pidof => ["pidof".toList]
  | .which => ["which".toList]
  | .readlink => ["readlink".toList, "-e".toList]

end Tool

/-- A call of `bash_pidof`, `bash_which` or `bash_readlink`. -/
structure ToolCall where
  tool : Tool
  given : Str
deriving DecidableEq

namespace ToolCall

/-- The argument of `popen`. -/
def line (cmd : ToolCall) : Str := Shell.cString (cmd.tool.front ++ cmd.given)

/-- The shell reads one simple command, with the string as its only argument. -/
def PassedOn (cmd : ToolCall) : Prop := Shell.argumentVector cmd.line = some (cmd.tool.words ++ [cmd.given])

instance (cmd : ToolCall) : Decidable cmd.PassedOn := inferInstanceAs (Decidable (_ = _))

/-- The lines read from the stream, without the newline at the end. -/
def output (cmd : ToolCall) (popen : Str → Option Str) : Str := ((popen cmd.line).getD []).dropLast

end ToolCall

def bashWhich (popen : Str → Option Str) (name : Str) : Str := (⟨.which, name⟩ : ToolCall).output popen

def bashReadlink (popen : Str → Option Str) (path : Str) : Str := (⟨.readlink, path⟩ : ToolCall).output popen

/-- A host with these files, whose commands go through `popen`. -/
def Host.running (host : Host) (fileExist : Str → Bool) (popen : Str → Option Str) : Host :=
  { host with
    fileExist
    bashWhich := CgProxy.bashWhich popen
    bashReadlink := CgProxy.bashReadlink popen }

/-- What `getRealExistPath` calls for a name. -/
def resolveCommands (host : Host) (name : Str) : List ToolCall :=
  if name.head? = some '/' ∧ host.fileExist name then []
  else
    let path := host.bashWhich name
    ⟨.which, name⟩ :: if path = [] then [] else [⟨.readlink, path⟩]

/-- What a load calls, for the names that it has assigned. -/
def loadCommands (host : Host) (assigned : Config) : List ToolCall :=
  assigned.programNoproxy.flatMap (resolveCommands host) ++ assigned.programProxy.flatMap (resolveCommands host)

/-- What one of the two loops of `processRunningProgram` calls. -/
def runningCommands (paths : List Str) : List ToolCall := paths.map fun path => ⟨.pidof, path⟩

end CgProxy

import CgProxy.Model.Script

/-! # The daemon

This file follows `cgproxyd.hpp`. Processes live in a `World`: their executables, their cgroups, and
what each coming call of `attach` will answer and do. `attach` itself is modelled step by step in
`Model.Attach`; here every combination of an answer and an effect is possible, and the calls are
logged. Files and the JSON library are a `Host`, the script's effects are those of `Script`.
-/

namespace CgProxy

/-! ## Processes -/

/-- What a call of `attach` does to its process. -/
inductive Effect where
  | moved
  | stayed
  | gone
deriving DecidableEq, Repr

/-- `attach` returns 0 or -1. -/
structure AttachAnswer where
  success : Bool
  effect : Effect
deriving DecidableEq, Repr

structure AttachCall where
  pid : ℤ
  target : Str
deriving DecidableEq, Repr

/-- The processes as the daemon finds them, and the calls of `attach` so far. -/
structure World where
  exe : ℤ → Option Str
  cgroup : ℤ → Option CgPath
  pidof : Str → List ℤ
  answers : ℕ → AttachAnswer
  calls : List AttachCall := []

namespace World

/-- Empty when the process is gone. -/
def getCgroup (w : World) (pid : ℤ) : Str :=
  match w.cgroup pid with
  | some cg => cg.toStr
  | none => []

def attach (w : World) (pid : ℤ) (target : Str) : ℤ × World :=
  let answer := w.answers w.calls.length
  let cgroup :=
    match answer.effect with
    | .moved => Function.update w.cgroup pid (some (.ofStr target))
    | .stayed => w.cgroup
    | .gone => Function.update w.cgroup pid none
  (if answer.success then Status.success else Status.error,
    { w with cgroup, calls := w.calls ++ [⟨pid, target⟩] })

end World

/-- Already in one of the two reserved slices. -/
def preserved (cg : Str) : Bool :=
  belongToCgroup cg cgroupProxyPreserved || belongToCgroup cg cgroupNoproxyPreserved

/-- One stage of `handle_pid`. `none` is the exit that falls through to what follows it. -/
def handleStage (programs cgroups : List Str) (slice : Str) (w : World) (pid : ℤ) (path : Str) :
    Option (ℤ × World) :=
  if path ∈ programs then
    let cg := w.getCgroup pid
    if cg = [] then some (0, w)
    else if preserved cg then some (0, w)
    else if belongToCgroups cg cgroups then none
    else some (w.attach pid slice)
  else none

def handlePid (c : Config) (w : World) (pid : ℤ) : ℤ × World :=
  match w.exe pid with
  | none => (0, w)
  | some path =>
      match handleStage c.programNoproxy c.cgroupNoproxy cgroupNoproxyPreserved w pid path with
      | some result => result
      | none =>
          (handleStage c.programProxy c.cgroupProxy cgroupProxyPreserved w pid path).getD (0, w)

/-- The body of both loops of `processRunningProgram`. -/
def handleRunning (cgroups : List Str) (slice : Str) (w : World) (pid : ℤ) : World :=
  let cg := w.getCgroup pid
  if cg = [] then w
  else if preserved cg then w
  else if belongToCgroups cg cgroups then w
  else (w.attach pid slice).2

/-- One of the two loops. -/
def runningStage (programs cgroups : List Str) (slice : Str) (w : World) : World :=
  programs.foldl (fun w path => (w.pidof path).foldl (handleRunning cgroups slice) w) w

def processRunningProgram (c : Config) (w : World) : World :=
  runningStage c.programProxy c.cgroupProxy cgroupProxyPreserved
    (runningStage c.programNoproxy c.cgroupNoproxy cgroupNoproxyPreserved w)

/-! ## The daemon's state -/

structure Daemon where
  config : Config
  env : Env
  kernel : Kernel
  world : World

namespace Daemon

/-- The script's own result is ignored. -/
def applyConfig (d : Daemon) : Daemon :=
  let env := d.config.toEnv d.env
  { d with env, kernel := Script.start env (Script.stop d.env d.kernel) }

def msgTypeConfigJson : ℤ := 1
def msgTypeConfigPath : ℤ := 2
def msgTypeProxyPid : ℤ := 3
def msgTypeNoproxyPid : ℤ := 4

/-- The end of both configuration messages. -/
def configLoaded (d : Daemon) (loaded : Except Exn ℤ × Config) : Except Exn ℤ × Daemon :=
  let d := { d with config := loaded.2 }
  match loaded.1 with
  | .error e => (.error e, d)
  | .ok status => (.ok status, if status = Status.success then d.applyConfig else d)

def pidMessage (d : Daemon) (data : Except Exn ℤ) (slice : Str) : Except Exn ℤ × Daemon :=
  match data with
  | .error e => (.error e, d)
  | .ok pid =>
      let (status, world) := d.world.attach pid slice
      (.ok status, { d with world })

/-- The body of the second `try` block. -/
def dispatch (host : Host) (d : Daemon) (j : Json) : Except Exn ℤ × Daemon :=
  match (j.at? "type".toList).bind Json.getInt with
  | .error e => (.error e, d)
  | .ok type =>
      let data := j.at? "data".toList
      if type = msgTypeConfigJson then
        match data with
        | .error e => (.error e, d)
        | .ok data => d.configLoaded (Config.loadFromJsonStr host d.config (host.dump data))
      else if type = msgTypeConfigPath then
        match data.bind Json.getString with
        | .error e => (.error e, d)
        | .ok path => d.configLoaded (Config.loadFromFile host d.config path)
      else if type = msgTypeProxyPid then d.pidMessage (data.bind Json.getInt) cgroupProxyPreserved
      else if type = msgTypeNoproxyPid then d.pidMessage (data.bind Json.getInt) cgroupNoproxyPreserved
      else (.ok Status.msgError, d)

/-- A process message goes straight to `attach`. -/
theorem dispatch_proxyPid {host : Host} {d : Daemon} {j : Json}
    (type : (j.at? "type".toList).bind Json.getInt = .ok msgTypeProxyPid) :
    dispatch host d j = d.pidMessage ((j.at? "data".toList).bind Json.getInt) cgroupProxyPreserved := by
  simp only [dispatch, type]
  rfl

theorem dispatch_noproxyPid {host : Host} {d : Daemon} {j : Json}
    (type : (j.at? "type".toList).bind Json.getInt = .ok msgTypeNoproxyPid) :
    dispatch host d j = d.pidMessage ((j.at? "data".toList).bind Json.getInt) cgroupNoproxyPreserved := by
  simp only [dispatch, type]
  rfl

def handleMsg (host : Host) (d : Daemon) (msg : Str) : ℤ × Daemon :=
  match host.parse msg with
  | .error _ => (Status.msgError, d)
  | .ok j =>
      match dispatch host d j with
      | (.ok status, d) => (status, d)
      | (.error .stdOutOfRange, d) => (Status.msgError, d)
      | (.error _, d) => (Status.error, d)

/-- `start` up to the threads: the status it would return early with, or the exception that leaves it. -/
def start (host : Host) (defaultConfigFile : Str) (d : Daemon) : Except Exn ℤ × Daemon :=
  match Config.loadFromFile host d.config defaultConfigFile with
  | (.error e, c) => (.error e, { d with config := c })
  | (.ok status, c) =>
      if status = Status.success then (.ok 0, { d with config := c }.applyConfig)
      else (.ok (-1), { d with config := c })

def stop (d : Daemon) : Daemon := { d with kernel := Script.stop d.env d.kernel }

end Daemon

end CgProxy

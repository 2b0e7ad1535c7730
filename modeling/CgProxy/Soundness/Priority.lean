import CgProxy.Soundness.Interception
import CgProxy.Soundness.Encoding
import CgProxy.Soundness.ProgramPriority

/-! # The documented priorities, end to end

The daemon decides by its configuration, the kernel by the rules that START could install. A process
ends up in some cgroup; whether its traffic is then marked is a question about the installed lists
and that cgroup. `marked_iff` answers it, and the two priority theorems compare the answer with what
the daemon meant.
-/

namespace CgProxy

open Netfilter Script

/-! ## Marks in a started kernel -/

/-- TPROXY_OUT gives the packet the reroute mark. -/
def Marked (k : Kernel) (prm : Params) (p : Packet) : Prop :=
  .setMark prm.fwmarkReroute ∈ (walk netfilter (k.tables p.family).mangle .output p).fired

/-- An original-direction packet to a unicast destination, of an enabled family and protocol. -/
structure Eligible (prm : Params) (p : Packet) : Prop where
  original : p.reply = false
  unicast : p.dstType = .unicast
  enabled : prm.enableFamily p.family = true
  selected : selects prm p = true

section Started

variable {c : Config} {env : Env} {k : Kernel} {p : Packet} {cg : CgPath}

/-- The mangle tables of a start with an accepted configuration. -/
theorem mangle_start_accepted (accepted : c.Accepted) (f : Family) :
    ((start (c.toEnv env) k).tables f).mangle =
      startedMangle { k.withMount with hierarchy := k.hierarchy.withSlices } (params (c.toEnv env))
        (scriptCgroups k.hierarchy c.cgroupNoproxy) (scriptCgroups k.hierarchy c.cgroupProxy) f := by
  rw [start_accepted accepted, startedMangle]

/-- Preparing the cgroups leaves the tables alone. -/
theorem alone_prepared {f : Family} (alone : Alone (k.tables f)) :
    Alone (({ k.withMount with hierarchy := k.hierarchy.withSlices } : Kernel).tables f) := by
  simpa using alone

/-- A packet of an enabled family is marked when its cgroup is chosen by the installed lists. -/
theorem marked_iff (accepted : c.Accepted) (alone : Alone (k.tables p.family)) (sent : p.cgroup = some cg)
    (enabled : (params (c.toEnv env)).enableFamily p.family = true) :
    Marked (start (c.toEnv env) k) (params (c.toEnv env)) p ↔
      Diverted (params (c.toEnv env)) (scriptCgroups k.hierarchy c.cgroupNoproxy)
        (scriptCgroups k.hierarchy c.cgroupProxy) cg p := by
  rw [Marked, mangle_start_accepted accepted]
  exact (walk_output (alone_prepared alone) _ _ sent enabled).2

/-- For an eligible packet only the cgroup counts. -/
theorem marked_iff_of_eligible (accepted : c.Accepted) (alone : Alone (k.tables p.family))
    (sent : p.cgroup = some cg) (eligible : Eligible (params (c.toEnv env)) p) :
    Marked (start (c.toEnv env) k) (params (c.toEnv env)) p ↔
      Chosen (scriptCgroups k.hierarchy c.cgroupNoproxy) (scriptCgroups k.hierarchy c.cgroupProxy) cg := by
  rw [marked_iff accepted alone sent eligible.enabled, diverted_iff]
  simp [eligible.original, eligible.unicast, eligible.selected]

/-- Nothing is marked in a family that is not enabled. -/
theorem not_marked_of_disabled (accepted : c.Accepted) (alone : Alone (k.tables p.family))
    (disabled : (params (c.toEnv env)).enableFamily p.family = false) :
    ¬ Marked (start (c.toEnv env) k) (params (c.toEnv env)) p := by
  obtain ⟨depth, length⟩ := exists_length_startedMangle (alone_prepared alone) (params (c.toEnv env))
    (scriptCgroups k.hierarchy c.cgroupNoproxy) (scriptCgroups k.hierarchy c.cgroupProxy)
  rw [Marked, mangle_start_accepted accepted, walk, length, walkChain, rules_startedMangle_output (alone_prepared alone),
    disabled]
  simp [walkRules, Passage.idle]

end Started

/-! ## The reserved slices in the installed lists -/

/-- The proxy slice as a cgroup. -/
def proxySlice : CgPath := .ofStr cgroupProxyPreserved

/-- The noproxy slice as a cgroup. -/
def noproxySlice : CgPath := .ofStr cgroupNoproxyPreserved

/-- The reserved slice of a list is installed with it. -/
theorem reserved_mem_scriptCgroups {reserved : Str} {l : List Str} {h : Hierarchy}
    (accepted : Config.ReservedFirst reserved l) (made : h.withSlices.dirExist reserved = true) :
    reserved ∈ scriptCgroups h l := by
  obtain ⟨-, first⟩ := bashReadArray_reservedFirst accepted
  exact List.mem_filter.mpr ⟨List.mem_of_head? first, made⟩

theorem dirExist_withSlices (h : Hierarchy) {path : Str}
    (top : pathComponents path = ["proxy.slice".toList] ∨ pathComponents path = ["noproxy.slice".toList]) :
    h.withSlices.dirExist path = true := by
  rcases top with top | top
  · simp [Hierarchy.dirExist, Hierarchy.withSlices, top]
  · simp [Hierarchy.dirExist, Hierarchy.withSlices, top]

/-- The proxy slice is chosen unless a noproxy rule names it or the root. -/
theorem chosen_proxySlice_iff {c : Config} {h : Hierarchy} (accepted : c.Accepted) :
    Chosen (scriptCgroups h c.cgroupNoproxy) (scriptCgroups h c.cgroupProxy) proxySlice ↔
      ∀ e ∈ scriptCgroups h c.cgroupNoproxy, proxySlice.under e = false := by
  have installed := reserved_mem_scriptCgroups accepted.reserved.1
    (dirExist_withSlices h (.inl (by decide)))
  exact and_iff_left ⟨_, installed, by decide⟩

/-- The noproxy slice is never chosen. -/
theorem not_chosen_noproxySlice {c : Config} {h : Hierarchy} (accepted : c.Accepted) :
    ¬ Chosen (scriptCgroups h c.cgroupNoproxy) (scriptCgroups h c.cgroupProxy) noproxySlice := by
  have installed := reserved_mem_scriptCgroups accepted.reserved.2
    (dirExist_withSlices h (.inr (by decide)))
  intro chosen
  have spared := chosen.1 _ installed
  contradiction

/-! ## program_proxy over cgroup_noproxy -/

section ProgramProxy

variable {c : Config} {w : World} {pid : ℤ} {path : Str} {cg : CgPath}

theorem preserved_toStr_eq_false (outside : cg.under cgroupProxyPreserved = false ∧
    cg.under cgroupNoproxyPreserved = false) : preserved cg.toStr = false := by
  have text (name : Str) (away : cg.under name = false) : belongToCgroup cg.toStr name = false := by
    rcases Bool.eq_false_or_eq_true (belongToCgroup cg.toStr name) with inside | gone
    · rw [CgPath.under_of_belongToCgroup inside] at away
      contradiction
    · exact gone
  rw [preserved, text _ outside.1, text _ outside.2, Bool.or_false]

/-- Where `handle_pid` leaves a proxied program, when an attach moves it. -/
theorem cgroup_handlePid (exe : w.exe pid = some path) (listed : path ∈ c.programProxy)
    (unlisted : path ∉ c.programNoproxy) (readable : w.cgroup pid = some cg)
    (outside : preserved cg.toStr = false) (moves : (w.answers w.calls.length).effect = .moved) :
    (handlePid c w pid).2.cgroup pid =
      some (if belongToCgroups cg.toStr c.cgroupProxy then cg else proxySlice) := by
  have text : w.getCgroup pid = cg.toStr := by rw [World.getCgroup, readable]
  have present : w.getCgroup pid ≠ [] := by
    rw [text]
    exact cg.toStr_ne_nil
  rw [← text] at outside ⊢
  rw [handlePid, exe]
  dsimp only
  rw [handleStage_of_not_listed unlisted]
  dsimp only
  rcases Bool.eq_false_or_eq_true (belongToCgroups (w.getCgroup pid) c.cgroupProxy) with inside | away
  · rw [handleStage_of_belongs present outside inside, if_pos inside]
    exact readable
  · rw [handleStage_of_away listed present outside away, if_neg (by simp [away])]
    exact World.attach_moved moves

end ProgramProxy

theorem Script.Alone.machineWith (cgroups : List Str) (f : Family) : Alone ((machineWith cgroups).tables f) := .blank f

/-- Traffic of a program_proxy process is marked after `handle_pid` exactly when the cgroup it ends up
in is chosen: its own, if the daemon takes it for a proxied one, and the proxy slice otherwise. -/
theorem program_proxy_marked_iff (c : Config) (accepted : c.Accepted) (env : Env) (k : Kernel)
    (alone : ∀ f, Alone (k.tables f)) (w : World) (pid : ℤ) (path : Str) (cg : CgPath)
    (exe : w.exe pid = some path) (listed : path ∈ c.programProxy) (unlisted : path ∉ c.programNoproxy)
    (readable : w.cgroup pid = some cg)
    (outside : cg.under cgroupProxyPreserved = false ∧ cg.under cgroupNoproxyPreserved = false)
    (moves : ∀ n, (w.answers n).effect = .moved) (p : Packet)
    (sent : p.cgroup = (handlePid c w pid).2.cgroup pid) (eligible : Eligible (params (c.toEnv env)) p) :
    Marked (start (c.toEnv env) k) (params (c.toEnv env)) p ↔
      if belongToCgroups cg.toStr c.cgroupProxy then
        Chosen (scriptCgroups k.hierarchy c.cgroupNoproxy) (scriptCgroups k.hierarchy c.cgroupProxy) cg
      else ∀ e ∈ scriptCgroups k.hierarchy c.cgroupNoproxy, proxySlice.under e = false := by
  rw [cgroup_handlePid exe listed unlisted readable (preserved_toStr_eq_false outside) (moves _)] at sent
  rw [marked_iff_of_eligible accepted (alone _) sent eligible]
  split
  · rfl
  · exact chosen_proxySlice_iff accepted

/-- A program moved to the proxy slice from elsewhere, with nothing configured for cgroups. -/
theorem program_proxy_marked_iff_moved :
    Marked (start ((Config.ofLists [] ["/usr/bin/a".toList] [] []).toEnv {}) (machineWith [])) (params {})
      (httpsPacket .ipv4 proxySlice) :=
  (program_proxy_marked_iff (Config.ofLists [] ["/usr/bin/a".toList] [] [])
    (Config.accepted_single "\x7b\"cgroup_noproxy\":[],\"cgroup_proxy\":[],\"program_noproxy\":[],\"program_proxy\":[\"/usr/bin/a\"]\x7d".toList
      (by decide) (by decide) (by decide)) {} (machineWith []) (Alone.machineWith [])
    { runningIn "/user.slice".toList with answers := fun _ => ⟨true, .moved⟩ } 100 "/usr/bin/a".toList
    (.ofStr "/user.slice".toList) rfl (by decide) (by decide) rfl (by decide) (fun _ => rfl)
    (httpsPacket .ipv4 proxySlice) (by decide) ⟨rfl, rfl, rfl, rfl⟩).mpr
    (by rw [if_neg (by decide)]; decide)

/-- A program in a cgroup that is configured both ways. -/
def sharedCgroupConfig : Config :=
  Config.ofLists [] ["/usr/bin/a".toList] ["/user.slice".toList] ["/user.slice".toList]

theorem accepted_sharedCgroup : sharedCgroupConfig.Accepted :=
  Config.accepted_single "\x7b\"cgroup_noproxy\":[\"/user.slice\"],\"cgroup_proxy\":[\"/user.slice\"],\"program_noproxy\":[],\"program_proxy\":[\"/usr/bin/a\"]\x7d".toList
    (by decide) (by decide) (by decide)

/-- Below /user.slice `handle_pid` leaves the process alone, and its traffic is let out. -/
theorem program_proxy_sharedCgroup :
    let c := sharedCgroupConfig
    let w := { runningIn "/user.slice".toList with answers := fun _ => ⟨true, .moved⟩ }
    let p := httpsPacket .ipv4 (.ofStr "/user.slice".toList)
    c.Accepted ∧ w.exe 100 = some "/usr/bin/a".toList ∧ "/usr/bin/a".toList ∈ c.programProxy ∧
      "/usr/bin/a".toList ∉ c.programNoproxy ∧ preserved (w.getCgroup 100) = false ∧
      p.cgroup = (handlePid c w 100).2.cgroup 100 ∧ Eligible (params (c.toEnv {})) p ∧
      ¬ Marked (start (c.toEnv {}) (machineWith ["user.slice".toList])) (params (c.toEnv {})) p := by
  refine ⟨accepted_sharedCgroup, rfl, by decide, by decide, by decide, by decide, ⟨rfl, rfl, rfl, rfl⟩, ?_⟩
  rw [marked_iff_of_eligible accepted_sharedCgroup (Alone.machineWith _ _) rfl ⟨rfl, rfl, rfl, rfl⟩]
  decide

/-! ## The commands over everything -/

/-- The message asks for one process to be placed. -/
def PidMessage (host : Host) (msg : Str) (type pid : ℤ) : Prop :=
  ∃ j, host.parse msg = .ok j ∧ (j.at? "type".toList).bind Json.getInt = .ok type ∧
    (j.at? "data".toList).bind Json.getInt = .ok pid

section Commands

variable {host : Host} {d : Daemon} {msg : Str} {pid : ℤ}

theorem handleMsg_proxyPid (asks : PidMessage host msg Daemon.msgTypeProxyPid pid) :
    (d.handleMsg host msg).2 = { d with world := (d.world.attach pid cgroupProxyPreserved).2 } := by
  obtain ⟨j, parsed, type, data⟩ := asks
  rw [Daemon.handleMsg, parsed]
  dsimp only
  rw [Daemon.dispatch_proxyPid type, data]
  rfl

theorem handleMsg_noproxyPid (asks : PidMessage host msg Daemon.msgTypeNoproxyPid pid) :
    (d.handleMsg host msg).2 = { d with world := (d.world.attach pid cgroupNoproxyPreserved).2 } := by
  obtain ⟨j, parsed, type, data⟩ := asks
  rw [Daemon.handleMsg, parsed]
  dsimp only
  rw [Daemon.dispatch_noproxyPid type, data]
  rfl

end Commands

/-- What a placed process sends: traffic from the proxy slice is marked, and traffic from the noproxy
slice is not, exactly when no installed noproxy cgroup is the proxy slice or the root. -/
theorem command_marked_iff (host : Host) (d : Daemon) (env : Env) (k : Kernel) (accepted : d.config.Accepted)
    (installed : d.kernel = start (d.config.toEnv env) k) (alone : ∀ f, Alone (k.tables f)) (pid : ℤ)
    (proxyMsg noproxyMsg : Str) (asksProxy : PidMessage host proxyMsg Daemon.msgTypeProxyPid pid)
    (asksNoproxy : PidMessage host noproxyMsg Daemon.msgTypeNoproxyPid pid)
    (moves : (d.world.answers d.world.calls.length).effect = .moved) (p q : Packet)
    (sentProxy : p.cgroup = (d.handleMsg host proxyMsg).2.world.cgroup pid)
    (sentNoproxy : q.cgroup = (d.handleMsg host noproxyMsg).2.world.cgroup pid)
    (eligible : Eligible (params (d.config.toEnv env)) p) :
    (Marked (d.handleMsg host proxyMsg).2.kernel (params (d.config.toEnv env)) p ∧
        ¬ Marked (d.handleMsg host noproxyMsg).2.kernel (params (d.config.toEnv env)) q) ↔
      ∀ e ∈ scriptCgroups k.hierarchy d.config.cgroupNoproxy, proxySlice.under e = false := by
  rw [handleMsg_proxyPid asksProxy] at sentProxy ⊢
  rw [handleMsg_noproxyPid asksNoproxy] at sentNoproxy ⊢
  dsimp only at sentProxy sentNoproxy ⊢
  rw [World.attach_moved moves] at sentProxy sentNoproxy
  have unmarked : ¬ Marked (start (d.config.toEnv env) k) (params (d.config.toEnv env)) q := by
    rcases Bool.eq_false_or_eq_true ((params (d.config.toEnv env)).enableFamily q.family) with on | off
    · rw [marked_iff accepted (alone _) sentNoproxy on]
      exact fun diverted => not_chosen_noproxySlice accepted diverted.chosen
    · exact not_marked_of_disabled accepted (alone _) off
  rw [installed, and_iff_left unmarked, marked_iff_of_eligible accepted (alone _) sentProxy eligible]
  exact chosen_proxySlice_iff accepted

/-- The object both clients send. -/
def pidDocument (type pid : ℕ) : Json :=
  .object [("data".toList, .numberUnsigned pid), ("type".toList, .numberUnsigned type)]

def proxyPidText : Str := "\x7b\"data\":100,\"type\":3\x7d".toList

def noproxyPidText : Str := "\x7b\"data\":100,\"type\":4\x7d".toList

/-- A host that can parse the two messages about process 100. -/
def pidHost : Host where
  parse text :=
    if text = proxyPidText then .ok (pidDocument 3 100)
    else if text = noproxyPidText then .ok (pidDocument 4 100)
    else .error .parseError
  dump _ := []
  readFile _ := none
  fileExist _ := false
  bashWhich _ := []
  bashReadlink _ := []

theorem pidHost_proxy : PidMessage pidHost proxyPidText Daemon.msgTypeProxyPid 100 :=
  ⟨pidDocument 3 100, by simp [pidHost], rfl, rfl⟩

theorem pidHost_noproxy : PidMessage pidHost noproxyPidText Daemon.msgTypeNoproxyPid 100 :=
  have other : noproxyPidText ≠ proxyPidText := by decide
  ⟨pidDocument 4 100, by simp [pidHost, other], rfl, rfl⟩

/-- A daemon that has applied the configuration to a blank machine, with process 100 in /user.slice. -/
def appliedDaemon (c : Config) : Daemon where
  config := c
  env := c.toEnv {}
  kernel := start (c.toEnv {}) (machineWith [])
  world := { runningIn "/user.slice".toList with answers := fun _ => ⟨true, .moved⟩ }

theorem kernel_appliedDaemon (c : Config) :
    (appliedDaemon c).kernel = start ((appliedDaemon c).config.toEnv {}) (machineWith []) := rfl

/-- Without configured cgroups both commands work. -/
theorem command_marked_iff_default :
    let d := appliedDaemon (Config.ofLists [] [] [] [])
    Marked (d.handleMsg pidHost proxyPidText).2.kernel (params (d.config.toEnv {}))
        (httpsPacket .ipv4 proxySlice) ∧
      ¬ Marked (d.handleMsg pidHost noproxyPidText).2.kernel (params (d.config.toEnv {}))
        (httpsPacket .ipv4 noproxySlice) := by
  have accepted : (Config.ofLists [] [] [] []).Accepted :=
    Config.accepted_single "\x7b\"cgroup_noproxy\":[],\"cgroup_proxy\":[],\"program_noproxy\":[],\"program_proxy\":[]\x7d".toList
      (by decide) (by decide) (by decide)
  have sentProxy : (httpsPacket .ipv4 proxySlice).cgroup =
      ((appliedDaemon (Config.ofLists [] [] [] [])).handleMsg pidHost proxyPidText).2.world.cgroup 100 := by
    rw [handleMsg_proxyPid pidHost_proxy]
    decide
  have sentNoproxy : (httpsPacket .ipv4 noproxySlice).cgroup =
      ((appliedDaemon (Config.ofLists [] [] [] [])).handleMsg pidHost noproxyPidText).2.world.cgroup 100 := by
    rw [handleMsg_noproxyPid pidHost_noproxy]
    decide
  have plain : ∀ e ∈ scriptCgroups (machineWith []).hierarchy (Config.ofLists [] [] [] []).cgroupNoproxy,
      proxySlice.under e = false := by decide
  exact (command_marked_iff pidHost (appliedDaemon (Config.ofLists [] [] [] [])) {} (machineWith []) accepted
    (kernel_appliedDaemon _) (Alone.machineWith []) 100 proxyPidText noproxyPidText pidHost_proxy pidHost_noproxy rfl _ _ sentProxy
    sentNoproxy ⟨rfl, rfl, rfl, rfl⟩).mpr plain

/-- With the root among the noproxy cgroups the command cgproxy does nothing. -/
theorem command_rootNoproxy :
    let d := appliedDaemon (Config.ofLists [] [] ["/".toList] [])
    let p := httpsPacket .ipv4 proxySlice
    d.config.Accepted ∧ PidMessage pidHost proxyPidText Daemon.msgTypeProxyPid 100 ∧
      p.cgroup = (d.handleMsg pidHost proxyPidText).2.world.cgroup 100 ∧
      Eligible (params (d.config.toEnv {})) p ∧
      ¬ Marked (d.handleMsg pidHost proxyPidText).2.kernel (params (d.config.toEnv {})) p := by
  have accepted : (Config.ofLists [] [] ["/".toList] []).Accepted :=
    Config.accepted_single "\x7b\"cgroup_noproxy\":[\"/\"],\"cgroup_proxy\":[],\"program_noproxy\":[],\"program_proxy\":[]\x7d".toList
      (by decide) (by decide) (by decide)
  refine ⟨accepted, pidHost_proxy, ?_, ⟨rfl, rfl, rfl, rfl⟩, ?_⟩
  · rw [handleMsg_proxyPid pidHost_proxy]
    decide
  · rw [handleMsg_proxyPid pidHost_proxy]
    dsimp only [appliedDaemon]
    rw [marked_iff_of_eligible accepted (Alone.machineWith _ _) rfl ⟨rfl, rfl, rfl, rfl⟩]
    decide

end CgProxy

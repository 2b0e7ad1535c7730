import CgProxy.Soundness.Encoding
import CgProxy.Soundness.ProgramPriority

/-! # One generation of rules over a daemon's run

What the daemon is for, as far as the kernel tables go, is a `Generation`: the configuration applied
last and the cgroup directories that existed at that moment. A message either brings the next
generation or leaves the current one. `Follows` relates the daemon to its generation: the tables are
those of the machine before the run with exactly this generation installed, and the environment is
the one that its configuration exported, so that the next CLEAN takes down what START built.
-/

namespace CgProxy

open Netfilter Script

/-! ## The abstract component -/

/-- The configuration applied last, and the directories at that time. -/
structure Generation where
  config : Config
  accepted : config.Accepted
  hierarchy : Hierarchy

/-- What happens between two states of the daemon: the cgroup tree and the processes have changed in
any way, then one message is handled against the files of its time. -/
structure Event where
  host : Host
  msg : Str
  hierarchy : Hierarchy
  world : World

theorem Config.Accepted.reached {c : Config} (accepted : c.Accepted) : c.Reached := by
  obtain ⟨before, host, js, reached, load⟩ := accepted
  have last := Config.Reached.load host js reached
  rwa [load] at last

/-- The configuration of a load that succeeds. -/
def Config.loaded (result : Except Exn ℤ × Config) : Option Config :=
  if result.1 = .ok Status.success then some result.2 else none

/-- The configuration a message brings, if the daemon accepts it. -/
def delivered (host : Host) (c : Config) (msg : Str) : Option Config := do
  let j ← (host.parse msg).toOption
  let type ← ((j.at? "type".toList).bind Json.getInt).toOption
  let data ← (j.at? "data".toList).toOption
  if type = Daemon.msgTypeConfigJson then Config.loaded (Config.loadFromJsonStr host c (host.dump data))
  else if type = Daemon.msgTypeConfigPath then
    let path ← data.getString.toOption
    Config.loaded (Config.loadFromFile host c path)
  else none

theorem accepted_of_loadFromJsonStr {host : Host} {c c' : Config} {js : Str} (reached : c.Reached)
    (loaded : Config.loaded (Config.loadFromJsonStr host c js) = some c') : c'.Accepted := by
  rw [Config.loaded] at loaded
  split at loaded
  · next success =>
    refine ⟨c, host, js, reached, ?_⟩
    rw [← Option.some.inj loaded, ← success]
  · contradiction

theorem accepted_of_loadFromFile {host : Host} {c c' : Config} {path : Str} (reached : c.Reached)
    (loaded : Config.loaded (Config.loadFromFile host c path) = some c') : c'.Accepted := by
  rw [Config.loadFromFile] at loaded
  split at loaded
  · exact accepted_of_loadFromJsonStr reached loaded
  · simp [Config.loaded, Status.fileError, Status.success] at loaded

theorem accepted_of_delivered {host : Host} {c c' : Config} {msg : Str} (reached : c.Reached)
    (brings : delivered host c msg = some c') : c'.Accepted := by
  simp only [delivered, bind, Option.bind_eq_some_iff] at brings
  obtain ⟨j, -, type, -, data, -, brings⟩ := brings
  split at brings
  · exact accepted_of_loadFromJsonStr reached brings
  · split at brings
    · obtain ⟨path, -, brings⟩ := Option.bind_eq_some_iff.mp brings
      exact accepted_of_loadFromFile reached brings
    · contradiction

namespace Generation

/-- The generation after an event. -/
def next (g : Generation) (e : Event) : Generation :=
  match brings : delivered e.host g.config e.msg with
  | some c => ⟨c, accepted_of_delivered g.accepted.reached brings, e.hierarchy⟩
  | none => g

theorem next_of_delivered {g : Generation} {e : Event} {c : Config}
    (brings : delivered e.host g.config e.msg = some c) :
    g.next e = ⟨c, accepted_of_delivered g.accepted.reached brings, e.hierarchy⟩ := by
  rw [next]
  split
  · next c' brings' =>
    obtain rfl : c' = c := Option.some.inj (brings'.symm.trans brings)
    rfl
  · next nothing =>
    rw [brings] at nothing
    contradiction

theorem next_of_not_delivered {g : Generation} {e : Event} (nothing : delivered e.host g.config e.msg = none) :
    g.next e = g := by
  rw [next]
  split
  · next c brings =>
    rw [nothing] at brings
    contradiction
  · rfl

/-- The generations of a run, from the first one to the last. -/
def visited (g : Generation) (events : List Event) : List Generation := events.scanl next g

/-- The parameters of its START, in a daemon that inherited `env`. -/
def params (g : Generation) (env : Env) : Params := Script.params (g.config.toEnv env)

/-- The generation over the tables of a family. -/
def tables (g : Generation) (env : Env) (f : Family) (t : FamilyTables) : FamilyTables :=
  installed f (g.params env) (scriptCgroups g.hierarchy g.config.cgroupNoproxy)
    (scriptCgroups g.hierarchy g.config.cgroupProxy) t

theorem tproxyEnt_mem_chains (g : Generation) (env : Env) (f : Family) (t : FamilyTables) :
    .tproxyEnt ∈ (g.tables env f t).mangle.chains := by
  rw [tables, installed]
  simp [ownNames]

end Generation

/-! ## CLEAN and START -/

section Scripts

variable {k k₀ : Kernel} {env : Env}

/-- START puts a generation on top of what it finds. -/
theorem tables_start {c : Config} (accepted : c.Accepted) {f : Family} (vacant : Vacant (k.tables f))
    (unrouted : Unrouted (params (c.toEnv env)) (k.tables f)) :
    (start (c.toEnv env) k).tables f =
      Generation.tables ⟨c, accepted, k.hierarchy⟩ env f (k.tables f) := by
  have tables : ({ k.withMount with hierarchy := k.hierarchy.withSlices } : Kernel).tables = k.tables :=
    k.tables_withMount
  rw [start_accepted accepted, runAll_startCommands (by rwa [tables]) (by rwa [tables]), tables]
  rfl

/-- CLEAN leaves an untouched machine alone. -/
theorem stop_of_vacant (vacant : Vacant (k.tables .ipv4)) : stop env k = k :=
  if_pos (vacant.free .tproxyEnt (by decide))

@[simp] theorem stop_hierarchy (env : Env) (k : Kernel) : (stop env k).hierarchy = k.hierarchy := by
  rw [stop]
  split
  · rfl
  · dsimp only
    split <;> simp

/-- CLEAN takes down a generation when the environment still is the one of its START. -/
theorem tables_stop {g : Generation} (pristine : ∀ f, Pristine f (k₀.tables f))
    (unrouted : ∀ f, Unrouted (g.params env) (k₀.tables f))
    (installed : ∀ f, k.tables f = g.tables env f (k₀.tables f)) (f : Family) :
    (stop (g.config.toEnv env) k).tables f = k₀.tables f := by
  have chains : .tproxyEnt ∈ (k.tables .ipv4).mangle.chains := by
    rw [installed]
    exact Generation.tproxyEnt_mem_chains ..
  rw [stop_tables chains, Kernel.runAll_tables, forFamily_stopCommands, installed]
  exact runAll_stopFamily (pristine f) (unrouted f)

end Scripts

/-! ## Messages -/

section Messages

variable {host : Host} {d : Daemon} {msg : Str}

/-- A configuration message applies what it loads, if the load succeeds, and else changes nothing. -/
theorem configLoaded_cases {loaded : Except Exn ℤ × Config}
    (failed : loaded.1 ≠ .ok Status.success → loaded.2 = d.config) :
    d.configLoaded loaded =
      match Config.loaded loaded with
      | some c => (.ok Status.success, { d with config := c }.applyConfig)
      | none => (loaded.1, d) := by
  obtain ⟨result, c⟩ := loaded
  by_cases success : result = .ok Status.success
  · simp [Daemon.configLoaded, Config.loaded, success]
  · obtain rfl : c = d.config := failed success
    cases result with
    | error e => simp [Daemon.configLoaded, Config.loaded]
    | ok status =>
      have other : status ≠ Status.success := fun same => success (by rw [same])
      simp [Daemon.configLoaded, Config.loaded, other]

theorem unchanged_of_loadFromJsonStr (host : Host) (c : Config) (js : Str)
    (failed : (Config.loadFromJsonStr host c js).1 ≠ .ok Status.success) :
    (Config.loadFromJsonStr host c js).2 = c := by
  rcases Config.loadFromJsonStr_cases host c js with ⟨r, same, -⟩ | ⟨j, programs, -, -, done, -⟩
  · rw [same]
  · rw [done] at failed
    exact absurd rfl failed

theorem unchanged_of_loadFromFile (host : Host) (c : Config) (path : Str)
    (failed : (Config.loadFromFile host c path).1 ≠ .ok Status.success) :
    (Config.loadFromFile host c path).2 = c := by
  rw [Config.loadFromFile] at failed ⊢
  cases content : host.readFile path with
  | some js =>
    rw [content] at failed
    exact unchanged_of_loadFromJsonStr host c js failed
  | none => rfl

/-- The handlers turn exceptions into codes, and keep the state. -/
theorem handleMsg_snd {j : Json} (parsed : host.parse msg = .ok j) :
    (d.handleMsg host msg).2 = (d.dispatch host j).2 := by
  rw [Daemon.handleMsg, parsed]
  dsimp only
  rcases d.dispatch host j with ⟨_ | _, after⟩
  · split <;> simp_all
  · rfl

theorem delivered_of_load {loaded : Except Exn ℤ × Config} {brings : Option Config}
    (brought : brings = Config.loaded loaded)
    (failed : loaded.1 ≠ .ok Status.success → loaded.2 = d.config) :
    (∃ c, brings = some c ∧ d.configLoaded loaded = (.ok Status.success, { d with config := c }.applyConfig)) ∨
      (brings = none ∧ ∃ world, (d.configLoaded loaded).2 = { d with world }) := by
  rw [brought, configLoaded_cases failed]
  cases Config.loaded loaded with
  | some c => exact .inl ⟨c, rfl, rfl⟩
  | none => exact .inr ⟨rfl, d.world, rfl⟩

theorem pidMessage_snd (data : Except Exn ℤ) (slice : Str) :
    ∃ world, (d.pidMessage data slice).2 = { d with world } := by
  cases data with
  | error e => exact ⟨d.world, rfl⟩
  | ok pid => exact ⟨(d.world.attach pid slice).2, rfl⟩

/-- The four types and the rest. -/
theorem dispatch_cases {j : Json} {type : ℤ} (parsed : host.parse msg = .ok j)
    (typed : (j.at? "type".toList).bind Json.getInt = .ok type) :
    (∃ c, delivered host d.config msg = some c ∧
        d.dispatch host j = (.ok Status.success, { d with config := c }.applyConfig)) ∨
      (delivered host d.config msg = none ∧ ∃ world, (d.dispatch host j).2 = { d with world }) := by
  simp only [delivered, Daemon.dispatch, parsed, typed, Except.toOption, bind, Option.bind_some]
  cases found : j.at? "data".toList with
  | error e =>
    refine .inr ⟨rfl, ?_⟩
    simp only [Except.bind]
    split
    · exact ⟨d.world, rfl⟩
    split
    · exact ⟨d.world, rfl⟩
    split
    · exact ⟨d.world, rfl⟩
    split
    · exact ⟨d.world, rfl⟩
    · exact ⟨d.world, rfl⟩
  | ok data =>
    simp only [Except.bind, Option.bind_some]
    split
    · exact delivered_of_load rfl (unchanged_of_loadFromJsonStr host d.config _)
    split
    · cases data.getString with
      | error e => exact .inr ⟨rfl, d.world, rfl⟩
      | ok path => exact delivered_of_load rfl (unchanged_of_loadFromFile host d.config path)
    refine .inr ⟨rfl, ?_⟩
    split
    · exact pidMessage_snd _ _
    split
    · exact pidMessage_snd _ _
    · exact ⟨d.world, rfl⟩

/-- What a message does besides moving processes: it applies a configuration and succeeds, or not. -/
theorem handleMsg_cases (host : Host) (d : Daemon) (msg : Str) :
    (∃ c, delivered host d.config msg = some c ∧
        d.handleMsg host msg = (Status.success, { d with config := c }.applyConfig)) ∨
      (delivered host d.config msg = none ∧ ∃ world, (d.handleMsg host msg).2 = { d with world }) := by
  cases parsed : host.parse msg with
  | error e =>
    refine .inr ⟨?_, d.world, ?_⟩
    · simp [delivered, parsed, Except.toOption]
    · rw [Daemon.handleMsg, parsed]
  | ok j =>
    cases typed : (j.at? "type".toList).bind Json.getInt with
    | error e =>
      refine .inr ⟨?_, d.world, ?_⟩
      · simp only [delivered, parsed, typed, Except.toOption, bind, Option.bind]
      · rw [handleMsg_snd parsed]
        simp only [Daemon.dispatch, typed]
    | ok type =>
      rcases dispatch_cases parsed typed with ⟨c, brings, after⟩ | ⟨nothing, world, after⟩
      · refine .inl ⟨c, brings, ?_⟩
        rw [Daemon.handleMsg, parsed]
        simp only [after]
      · exact .inr ⟨nothing, world, by rw [handleMsg_snd parsed, after]⟩

end Messages

/-! ## Runs -/

/-- One event: the surroundings change, then the message is handled. -/
def Daemon.receive (d : Daemon) (e : Event) : Daemon :=
  ({ d with kernel := { d.kernel with hierarchy := e.hierarchy }, world := e.world }.handleMsg e.host e.msg).2

/-- The daemon carries its generation: in its configuration, in the environment it exported, and in
the kernel tables. -/
structure Follows (k₀ : Kernel) (env₀ : Env) (g : Generation) (d : Daemon) : Prop where
  config : d.config = g.config
  env : d.env = g.config.toEnv env₀
  tables : ∀ f, d.kernel.tables f = g.tables env₀ f (k₀.tables f)

section Runs

variable {k₀ : Kernel} {env₀ : Env} {g : Generation} {d : Daemon}

/-- Applying a configuration replaces the generation. -/
theorem Follows.apply (pristine : ∀ f, Pristine f (k₀.tables f)) (follows : Follows k₀ env₀ g d)
    (cleared : ∀ f, Unrouted (g.params env₀) (k₀.tables f)) {c : Config} (accepted : c.Accepted)
    (clear : ∀ f, Unrouted (params (c.toEnv env₀)) (k₀.tables f)) :
    Follows k₀ env₀ ⟨c, accepted, d.kernel.hierarchy⟩ { d with config := c }.applyConfig := by
  have cleaned (f : Family) : (stop d.env d.kernel).tables f = k₀.tables f := by
    rw [follows.env]
    exact tables_stop pristine cleared follows.tables f
  have exported : c.toEnv d.env = c.toEnv env₀ := by rw [follows.env]; rfl
  refine ⟨rfl, exported, fun f => ?_⟩
  have started : (start (c.toEnv env₀) (stop d.env d.kernel)).tables f = _ :=
    tables_start accepted (by rw [cleaned]; exact (pristine f).toVacant) (by rw [cleaned]; exact clear f)
  rw [cleaned, stop_hierarchy] at started
  rw [Daemon.applyConfig]
  dsimp only
  rw [exported, started]

/-- One event takes the daemon from its generation to the next. -/
theorem Follows.receive (pristine : ∀ f, Pristine f (k₀.tables f)) (follows : Follows k₀ env₀ g d)
    (cleared : ∀ f, Unrouted (g.params env₀) (k₀.tables f)) (e : Event)
    (clear : ∀ f, Unrouted ((g.next e).params env₀) (k₀.tables f)) :
    Follows k₀ env₀ (g.next e) (d.receive e) := by
  have before : Follows k₀ env₀ g
      { d with kernel := { d.kernel with hierarchy := e.hierarchy }, world := e.world } :=
    ⟨follows.config, follows.env, follows.tables⟩
  rw [Daemon.receive]
  rcases handleMsg_cases e.host
      { d with kernel := { d.kernel with hierarchy := e.hierarchy }, world := e.world } e.msg with
    ⟨c, brings, after⟩ | ⟨nothing, world, after⟩
  · rw [follows.config] at brings
    rw [Generation.next_of_delivered brings] at clear ⊢
    rw [after]
    exact before.apply pristine cleared _ clear
  · rw [follows.config] at nothing
    rw [Generation.next_of_not_delivered nothing, after]
    exact ⟨follows.config, follows.env, follows.tables⟩

/-- A run of events takes the daemon through the generations. -/
theorem Follows.run (pristine : ∀ f, Pristine f (k₀.tables f)) (follows : Follows k₀ env₀ g d)
    (events : List Event) (clear : ∀ h ∈ g.visited events, ∀ f, Unrouted (h.params env₀) (k₀.tables f)) :
    Follows k₀ env₀ (events.foldl Generation.next g) (events.foldl Daemon.receive d) := by
  induction events generalizing g d with
  | nil => exact follows
  | cons e rest ih =>
    rw [Generation.visited, List.scanl_cons] at clear
    have later : ∀ h ∈ (g.next e).visited rest, ∀ f, Unrouted (h.params env₀) (k₀.tables f) := fun h member =>
      clear h (List.mem_cons_of_mem _ member)
    have first : g.next e ∈ (g.next e).visited rest := by
      cases rest <;> simp [Generation.visited]
    exact ih (follows.receive pristine (clear g List.mem_cons_self) e (later _ first)) later

/-- A start with a loadable configuration installs the first generation. -/
theorem Follows.start (pristine : ∀ f, Pristine f (k₀.tables f)) {host : Host} {file : Str} {w : World}
    {c : Config} (loaded : Config.loadFromFile host {} file = (.ok Status.success, c)) (accepted : c.Accepted)
    (clear : ∀ f, Unrouted (params (c.toEnv env₀)) (k₀.tables f)) :
    Follows k₀ env₀ ⟨c, accepted, k₀.hierarchy⟩
      (Daemon.start host file { config := {}, env := env₀, kernel := k₀, world := w }).2 := by
  have untouched : stop env₀ k₀ = k₀ := stop_of_vacant (pristine .ipv4).toVacant
  rw [Daemon.start, loaded]
  dsimp only
  rw [if_pos rfl, Daemon.applyConfig]
  dsimp only
  rw [untouched]
  exact ⟨rfl, rfl, fun f => tables_start accepted (pristine f).toVacant (clear f)⟩

/-- A stop leaves the tables of the machine before the run. -/
theorem Follows.stop (pristine : ∀ f, Pristine f (k₀.tables f)) (follows : Follows k₀ env₀ g d)
    (cleared : ∀ f, Unrouted (g.params env₀) (k₀.tables f)) (f : Family) :
    d.stop.kernel.tables f = k₀.tables f := by
  rw [Daemon.stop, follows.env]
  exact tables_stop pristine cleared follows.tables f

end Runs

/-- Every object of a generation is there exactly once, the optional ones as the parameters say. -/
structure Single (f : Family) (prm : Params) (t : FamilyTables) : Prop where
  chains : ∀ c ∈ ownNames, t.mangle.chains.count c = 1
  preHook : (t.mangle.rules .prerouting).count preHook = 1
  outHook : (t.mangle.rules .output).count outHook = if prm.enableFamily f then 1 else 0
  masquerade : (t.nat.rules .postrouting).count (masquerade f) = if prm.enableGateway then 1 else 0
  tproxyRule : t.rules.count (.fwmark prm.fwmarkTproxy prm.tableTproxy) = 1
  tproxyRoute : t.routes.count (prm.tableTproxy, .localDefault) = 1
  rerouteRule : prm.fwmarkReroute ≠ prm.fwmarkTproxy →
    t.rules.count (.fwmark prm.fwmarkReroute prm.tableReroute) = 1
  rerouteRoute : prm.fwmarkReroute ≠ prm.fwmarkTproxy →
    t.routes.count (prm.tableReroute, .localDefault) = 1

section Single

variable {f : Family} {prm : Params} {noproxy proxy : List Str} {t : FamilyTables}

private theorem rules_installed {c : Chain} (present : c ∈ t.mangle.chains) :
    (installed f prm noproxy proxy t).mangle.rules c = (hooked f prm t.mangle).rules c := by
  rw [installed]
  exact Ruleset.rules_append_of_mem (by simpa using present)

private theorem count_preHook (pristine : Pristine f t) :
    ((hooked f prm t.mangle).rules .prerouting).count preHook = 1 := by
  have absent : preHook ∉ t.mangle.rules .prerouting := Ruleset.notMem_rules fun rs =>
    Ruleset.notMem_of_not_referenced (pristine.unreferenced .tproxyPre (by decide)) rfl
  have added : ((t.mangle.modify .prerouting (· ++ [preHook])).rules .prerouting).count preHook = 1 := by
    rw [Ruleset.rules_modify_self pristine.prerouting, List.count_append, List.count_eq_zero_of_not_mem absent]
    simp
  rw [hooked]
  split
  · rw [Ruleset.rules_modify_of_ne (by decide), added]
  · exact added

private theorem count_outHook (pristine : Pristine f t) :
    ((hooked f prm t.mangle).rules .output).count outHook = if prm.enableFamily f then 1 else 0 := by
  have absent : outHook ∉ t.mangle.rules .output := Ruleset.notMem_rules fun rs =>
    Ruleset.notMem_of_not_referenced (pristine.unreferenced .tproxyOut (by decide)) rfl
  have before : (t.mangle.modify .prerouting (· ++ [preHook])).rules .output = t.mangle.rules .output :=
    Ruleset.rules_modify_of_ne (by decide)
  rw [hooked]
  split
  · rw [Ruleset.rules_modify_self (by simpa using pristine.output), before, List.count_append,
      List.count_eq_zero_of_not_mem absent]
    simp
  · rw [before, List.count_eq_zero_of_not_mem absent]

private theorem count_masquerade (pristine : Pristine f t) :
    ((installed f prm noproxy proxy t).nat.rules .postrouting).count (masquerade f) =
      if prm.enableGateway then 1 else 0 := by
  have absent : masquerade f ∉ t.nat.rules .postrouting := Ruleset.notMem_rules pristine.unmasked
  rw [installed]
  dsimp only
  split
  · rw [Ruleset.rules_modify_self pristine.postrouting, List.count_append,
      List.count_eq_zero_of_not_mem absent]
    simp
  · rw [List.count_eq_zero_of_not_mem absent]

/-- Installing over tables with nothing of the kind gives one of each. -/
theorem Single.installed (pristine : Pristine f t) (unrouted : Unrouted prm t) :
    Single f prm (installed f prm noproxy proxy t) where
  chains c own := by
    have once : ∀ c ∈ ownNames, ownNames.count c = 1 := by decide
    rw [Script.installed, Ruleset.chains_append, chains_hooked, chains_ownChains, List.count_append,
      List.count_eq_zero_of_not_mem (pristine.free c own), once c own]
  preHook := by rw [rules_installed pristine.prerouting, count_preHook pristine]
  outHook := by rw [rules_installed pristine.output, count_outHook pristine]
  masquerade := count_masquerade pristine
  tproxyRule := by
    have absent := List.count_eq_zero_of_not_mem unrouted.tproxyRule
    rw [Script.installed]
    dsimp only
    split
    · simp [absent]
    · next differ => simp [absent, differ]
  tproxyRoute := by
    have absent : t.routes.count (prm.tableTproxy, .localDefault) = 0 :=
      List.count_eq_zero_of_not_mem fun member => unrouted.tproxyTable _ member rfl
    rw [Script.installed]
    dsimp only
    split
    · simp [absent]
    · next differ => simp [absent, (not_or.mp differ).2]
  rerouteRule differ := by
    have absent := List.count_eq_zero_of_not_mem unrouted.rerouteRule
    rw [Script.installed]
    dsimp only
    rw [if_neg differ]
    simp [absent, Ne.symm differ]
  rerouteRoute differ := by
    have absent : t.routes.count (prm.tableReroute, .localDefault) = 0 :=
      List.count_eq_zero_of_not_mem fun member => unrouted.rerouteTable _ member rfl
    rw [Script.installed]
    dsimp only
    split
    · next same =>
      rw [same.resolve_left differ] at absent ⊢
      simp [absent]
    · next other => simp [absent, Ne.symm (not_or.mp other).2]

end Single

/-- The generation that a start brings. -/
def Generation.initial {host : Host} {file : Str} {c : Config} (h : Hierarchy)
    (loaded : Config.loadFromFile host {} file = (.ok Status.success, c)) : Generation where
  config := c
  accepted := by
    have same : Config.loaded (Config.loadFromFile host {} file) = some c := by
      rw [Config.loaded, loaded]
      exact if_pos rfl
    exact accepted_of_loadFromFile .init same
  hierarchy := h

theorem mem_visited_self (g : Generation) (events : List Event) : g ∈ g.visited events := by
  cases events <;> simp [Generation.visited]

theorem mem_visited_foldl (g : Generation) (events : List Event) :
    events.foldl Generation.next g ∈ g.visited events := by
  induction events generalizing g with
  | nil => simp [Generation.visited]
  | cons e rest ih =>
    rw [Generation.visited, List.scanl_cons]
    exact List.mem_cons_of_mem _ (ih (g.next e))

theorem mem_visited_append {g h : Generation} {events more : List Event} (member : h ∈ g.visited events) :
    h ∈ g.visited (events ++ more) := by
  induction events generalizing g with
  | nil =>
    obtain rfl : h = g := by simpa [Generation.visited] using member
    cases more <;> simp [Generation.visited]
  | cons e rest ih =>
    rw [Generation.visited, List.scanl_cons] at member
    rw [Generation.visited, List.cons_append, List.scanl_cons]
    rcases List.mem_cons.mp member with rfl | later
    · exact List.mem_cons_self
    · exact List.mem_cons_of_mem _ (ih later)

/-- A daemon that has been started stands, after any events, where the generations stand. -/
theorem Follows.foldl_start {k₀ : Kernel} {env₀ : Env} {w : World} (pristine : ∀ f, Pristine f (k₀.tables f))
    {host : Host} {file : Str} {c : Config}
    (loaded : Config.loadFromFile host {} file = (.ok Status.success, c)) (events : List Event)
    (clear : ∀ g ∈ (Generation.initial k₀.hierarchy loaded).visited events,
      ∀ f, Unrouted (g.params env₀) (k₀.tables f)) :
    Follows k₀ env₀ (events.foldl Generation.next (Generation.initial k₀.hierarchy loaded))
      (events.foldl Daemon.receive
        (Daemon.start host file { config := {}, env := env₀, kernel := k₀, world := w }).2) :=
  (Follows.start pristine loaded (Generation.initial k₀.hierarchy loaded).accepted
    (clear _ (mem_visited_self _ events))).run pristine events clear

/-- Exactly one generation of rules, after the start and after every message, whatever the messages
and whatever else the daemon inherited in its environment; and nothing of it after the stop. -/
theorem one_generation (k₀ : Kernel) (env₀ : Env) (w : World) (pristine : ∀ f, Pristine f (k₀.tables f))
    (host : Host) (file : Str) (c : Config)
    (loaded : Config.loadFromFile host {} file = (.ok Status.success, c)) (events : List Event)
    (clear : ∀ g ∈ (Generation.initial k₀.hierarchy loaded).visited events,
      ∀ f, Unrouted (g.params env₀) (k₀.tables f)) :
    let g := events.foldl Generation.next (Generation.initial k₀.hierarchy loaded)
    let d := events.foldl Daemon.receive
      (Daemon.start host file { config := {}, env := env₀, kernel := k₀, world := w }).2
    d.config = g.config ∧
      (∀ f, d.kernel.tables f =
          (start (g.config.toEnv env₀) { k₀ with hierarchy := g.hierarchy }).tables f ∧
        Single f (g.params env₀) (d.kernel.tables f)) ∧
      ∀ f, d.stop.kernel.tables f = k₀.tables f := by
  intro g d
  have last : g ∈ (Generation.initial k₀.hierarchy loaded).visited events := mem_visited_foldl _ events
  have follows : Follows k₀ env₀ g d := .foldl_start pristine loaded events clear
  refine ⟨follows.config, fun f => ⟨?_, ?_⟩, follows.stop pristine (clear g last)⟩
  · rw [follows.tables f]
    have started : (start (g.config.toEnv env₀) { k₀ with hierarchy := g.hierarchy }).tables f = _ :=
      tables_start g.accepted (pristine f).toVacant (clear g last f)
    exact started.symm
  · rw [follows.tables f]
    exact .installed (pristine f) (clear g last f)

/-! ## A run -/

def configText : Str :=
  "\x7b\"cgroup_noproxy\":[],\"cgroup_proxy\":[\"/a\"],\"program_noproxy\":[],\"program_proxy\":[]\x7d".toList

def reloadText : Str := "\x7b\"data\":\"/etc/cgproxy/config.json\",\"type\":2\x7d".toList

/-- A host with one configuration file, that also understands the message to load it. -/
def reloadHost : Host where
  parse text :=
    if text = configText then .ok (Config.listsDocument [] [] [] ["/a".toList])
    else if text = reloadText then
      .ok (.object [("data".toList, .string "/etc/cgproxy/config.json".toList), ("type".toList, .numberUnsigned 2)])
    else .error .parseError
  dump _ := []
  readFile _ := some configText
  fileExist _ := true
  bashWhich _ := []
  bashReadlink _ := []

theorem loadFromFile_reloadHost (file : Str) :
    Config.loadFromFile reloadHost {} file = (.ok Status.success, Config.ofLists [] [] [] ["/a".toList]) := by
  have parsed : reloadHost.parse configText = .ok (Config.listsDocument [] [] [] ["/a".toList]) := by
    simp only [reloadHost, if_true]
  have result : Config.loadFromJsonStr reloadHost {} configText = _ :=
    Config.loadFromJsonStr_listsDocument parsed (fun _ => rfl) (by decide) (by decide) (by decide)
  exact result

theorem accepted_reloadHost : (Config.ofLists [] [] [] ["/a".toList]).Accepted :=
  (Generation.initial (.flat []) (loadFromFile_reloadHost [])).accepted

/-- Nothing understood, then the file again now that /a exists. -/
def reloadEvents : List Event :=
  [⟨reloadHost, [], .flat [], runningIn "/".toList⟩,
    ⟨reloadHost, reloadText, .flat ["a".toList], runningIn "/".toList⟩]

theorem Pristine.blank (f : Family) : Pristine f FamilyTables.blank where
  prerouting := by decide
  output := by decide
  postrouting := by decide
  free := by decide
  unreferenced := by decide
  unmasked rs member := by
    obtain rfl : rs = [] := by simpa [FamilyTables.blank] using member
    exact List.not_mem_nil

/-- The two events on a blank machine. -/
theorem one_generation_reload :
    let d := reloadEvents.foldl Daemon.receive
      (Daemon.start reloadHost [] { config := {}, env := {}, kernel := .blank, world := runningIn [] }).2
    ∀ f, d.stop.kernel.tables f = FamilyTables.blank :=
  (one_generation .blank {} (runningIn []) Pristine.blank reloadHost [] _ (loadFromFile_reloadHost [])
    reloadEvents fun _ _ _ => ⟨List.not_mem_nil, List.not_mem_nil,
      fun _ member => absurd member List.not_mem_nil, fun _ member => absurd member List.not_mem_nil⟩).2.2

end CgProxy

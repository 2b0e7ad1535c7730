import CgProxy.Soundness.Interrupted

/-! # A new daemon after a crash

The first CLEAN of a daemon runs before anything is exported, and so with the parameters that the
script defaults to. Chains, hooks and MASQUERADE rules have the same names in every generation, and
CLEAN finds them. A policy rule and a route are named by a firewall mark and a routing table: what the
dead daemon connected stays unless it is the default pair, and then it is in the way unless the new
configuration connects the same.
-/

namespace CgProxy

open Netfilter

namespace Script

/-- The pairs of a firewall mark and a routing table that START connects. -/
def Params.routings (prm : Params) : List (ℤ × ℤ) :=
  if prm.fwmarkReroute = prm.fwmarkTproxy then [(prm.fwmarkTproxy, prm.tableTproxy)]
  else [(prm.fwmarkReroute, prm.tableReroute), (prm.fwmarkTproxy, prm.tableTproxy)]

/-- The pair of a script that nobody gives parameters. -/
def scriptDefault : ℤ × ℤ := (0x9973, 10007)

def routingRule (r : ℤ × ℤ) : IpRule := .fwmark r.1 r.2

section Routing

variable {f : Family} {prm : Params} {noproxy proxy : List Str} {t : FamilyTables} {c : Config}

theorem rules_installed_eq :
    (installed f prm noproxy proxy t).rules = prm.routings.map routingRule ++ t.rules := by
  rw [installed, Params.routings]
  dsimp only
  split <;> rfl

/-- The tables that START adds a route to. -/
def Params.routed (prm : Params) : List ℤ :=
  if prm.fwmarkReroute = prm.fwmarkTproxy ∨ prm.tableReroute = prm.tableTproxy then [prm.tableTproxy]
  else [prm.tableTproxy, prm.tableReroute]

theorem routes_installed_eq :
    (installed f prm noproxy proxy t).routes = t.routes ++ prm.routed.map fun table => (table, .localDefault) := by
  rw [installed, Params.routed]
  dsimp only
  split <;> rfl

theorem nodup_routed : prm.routed.Nodup := by
  rw [Params.routed]
  split
  · simp
  · next differ => simp [Ne.symm (not_or.mp differ).2]

theorem mem_routings_of_mem_routed {table : ℤ} (member : table ∈ prm.routed) :
    ∃ r ∈ prm.routings, r.2 = table := by
  rw [Params.routed] at member
  rw [Params.routings]
  split at member
  · obtain rfl := List.mem_singleton.mp member
    split <;> simp
  · next differ =>
    rw [if_neg (not_or.mp differ).1]
    rcases List.mem_pair.mp member with rfl | rfl <;> simp

theorem nodup_routings : (prm.routings.map routingRule).Nodup := by
  rw [Params.routings]
  split
  · simp
  · next differ => simp [routingRule, differ]

/-- What the first CLEAN leaves of the rules. -/
theorem rules_clean (unrouted : Unrouted (params {}) t) :
    (stopRouting (params {})).foldl FamilyTables.editRules (installed f prm noproxy proxy t).rules =
      (prm.routings.map routingRule).erase (routingRule scriptDefault) ++ t.rules := by
  have foreign : routingRule scriptDefault ∉ t.rules := unrouted.tproxyRule
  have once : routingRule scriptDefault ∉
      (prm.routings.map routingRule).erase (routingRule scriptDefault) ++ t.rules := by
    rw [List.mem_append, not_or]
    exact ⟨nodup_routings.not_mem_erase, foreign⟩
  have first : ((prm.routings.map routingRule) ++ t.rules).erase (routingRule scriptDefault) =
      (prm.routings.map routingRule).erase (routingRule scriptDefault) ++ t.rules := by
    rw [List.erase_append]
    split
    · rfl
    · next absent => rw [List.erase_of_not_mem foreign, List.erase_of_not_mem absent]
  rw [rules_installed_eq]
  exact (congrArg (·.erase (routingRule scriptDefault)) first).trans (List.erase_of_not_mem once)

/-- What the first CLEAN leaves of the routes. -/
theorem routes_clean (unrouted : Unrouted (params {}) t) :
    (stopRouting (params {})).foldl FamilyTables.editRoutes (installed f prm noproxy proxy t).routes =
      t.routes ++ (prm.routed.filter (· ≠ scriptDefault.2)).map fun table => (table, .localDefault) := by
  have kept : t.routes.filter (fun route => route.1 ≠ scriptDefault.2) = t.routes :=
    List.filter_eq_self.mpr fun route member =>
      decide_eq_true (unrouted.tproxyTable route member : route.1 ≠ scriptDefault.2)
  have first : (installed f prm noproxy proxy t).routes.filter (fun route => route.1 ≠ scriptDefault.2) =
      t.routes ++ (prm.routed.filter (· ≠ scriptDefault.2)).map fun table => (table, .localDefault) := by
    rw [routes_installed_eq, List.filter_append, kept, List.filter_map]
    rfl
  have again : (t.routes ++ (prm.routed.filter (· ≠ scriptDefault.2)).map fun table =>
      (table, Route.localDefault)).filter (fun route => route.1 ≠ scriptDefault.2) =
        t.routes ++ (prm.routed.filter (· ≠ scriptDefault.2)).map fun table => (table, .localDefault) := by
    rw [← first, List.filter_filter]
    simp
  exact (congrArg (List.filter fun route => route.1 ≠ scriptDefault.2) first).trans again

private theorem eq_nil_or_singleton {α : Type*} {l : List α} {b : α} (nodup : l.Nodup) (all : ∀ x ∈ l, x = b) :
    l = [] ∨ l = [b] := by
  rcases l with _ | ⟨x, _ | ⟨y, rest⟩⟩
  · exact .inl rfl
  · exact .inr (by rw [all x List.mem_cons_self])
  · have same : x = y := (all x (by simp)).trans (all y (by simp)).symm
    simp [same] at nodup

/-- The new pair is the only one of the script's exactly when nothing else was left. -/
private theorem insert_eq_cons_iff {left rules : List IpRule} {b : IpRule} (nodup : left.Nodup) (fresh : b ∉ rules) :
    (left ++ rules).insert b = b :: rules ↔ ∀ x ∈ left, x = b := by
  constructor
  · intro same
    by_cases present : b ∈ left ++ rules
    · rw [List.insert_of_mem present] at same
      have sole : left = [b] := List.append_cancel_right (same.trans (List.singleton_append).symm)
      simp [sole]
    · rw [List.insert_of_not_mem present, List.cons.injEq, List.append_left_eq_self] at same
      simp [same.2]
  · intro all
    rcases eq_nil_or_singleton nodup all with rfl | rfl
    · exact List.insert_of_not_mem fresh
    · exact List.insert_of_mem (by simp)

/-- A daemon with nothing in its environment connects one pair. -/
theorem startRouting_fresh (c : Config) :
    startRouting (params (c.toEnv {})) = [.ruleAdd c.fwmark c.table, .routeAdd c.table] := by
  have same : (params (c.toEnv {})).fwmarkReroute = (params (c.toEnv {})).fwmarkTproxy := rfl
  rw [startRouting, if_neg (not_not_intro same)]
  rfl

theorem rules_installed_fresh (c : Config) :
    (installed f (params (c.toEnv {})) noproxy proxy t).rules = routingRule (c.fwmark, c.table) :: t.rules :=
  if_pos rfl

theorem routes_installed_fresh (c : Config) :
    (installed f (params (c.toEnv {})) noproxy proxy t).routes = t.routes ++ [(c.table, .localDefault)] :=
  if_pos (.inl rfl)

/-- The rules after CLEAN with the defaults and START with another configuration. -/
theorem rules_restart_iff (foreign : Unrouted (params {}) t) (fresh : Unrouted (params (c.toEnv {})) t) :
    (startRouting (params (c.toEnv {}))).foldl FamilyTables.editRules
        ((stopRouting (params {})).foldl FamilyTables.editRules (installed f prm noproxy proxy t).rules) =
        routingRule (c.fwmark, c.table) :: t.rules ↔
      ∀ r ∈ prm.routings, r = scriptDefault ∨ r = (c.fwmark, c.table) := by
  have injective {r s : ℤ × ℤ} : routingRule r = routingRule s ↔ r = s := by
    simp [routingRule, Prod.ext_iff]
  rw [rules_clean foreign, startRouting_fresh]
  refine (insert_eq_cons_iff (nodup_routings.erase _) fresh.tproxyRule).trans ?_
  constructor
  · intro all r member
    refine or_iff_not_imp_left.mpr fun other => injective.mp (all _ ?_)
    have differ : routingRule r ≠ routingRule scriptDefault := fun same => other (injective.mp same)
    exact (List.mem_erase_of_ne differ).mpr (List.mem_map_of_mem member)
  · intro all x member
    rw [nodup_routings.mem_erase_iff] at member
    obtain ⟨differ, member⟩ := member
    obtain ⟨r, known, rfl⟩ := List.mem_map.mp member
    exact congrArg routingRule ((all r known).resolve_left fun same => differ (congrArg routingRule same))

/-- The routes, when the rules are right. -/
theorem routes_restart (foreign : Unrouted (params {}) t) (fresh : Unrouted (params (c.toEnv {})) t)
    (all : ∀ r ∈ prm.routings, r = scriptDefault ∨ r = (c.fwmark, c.table)) :
    (startRouting (params (c.toEnv {}))).foldl FamilyTables.editRoutes
        ((stopRouting (params {})).foldl FamilyTables.editRoutes (installed f prm noproxy proxy t).routes) =
      t.routes ++ [(c.table, .localDefault)] := by
  have sole : prm.routed.filter (· ≠ scriptDefault.2) = [] ∨ prm.routed.filter (· ≠ scriptDefault.2) = [c.table] := by
    refine eq_nil_or_singleton (nodup_routed.filter _) fun table member => ?_
    obtain ⟨added, other⟩ := List.mem_filter.mp member
    obtain ⟨r, known, rfl⟩ := mem_routings_of_mem_routed added
    rcases all r known with rfl | rfl
    · simp at other
    · rfl
  have absent : (c.table, Route.localDefault) ∉ t.routes := fun member => fresh.tproxyTable _ member rfl
  rw [routes_clean foreign, startRouting_fresh]
  rcases sole with none | one
  · rw [none, List.map_nil, List.append_nil]
    exact if_neg absent
  · rw [one]
    exact if_pos (List.mem_append_right _ (List.mem_singleton_self _))

end Routing

/-! ## The two scripts -/

section Scripts

variable {f : Family} {prm : Params} {noproxy proxy : List Str} {t : FamilyTables} {c : Config}

/-- CLEAN with the defaults and START with the configuration, when another generation is installed. -/
theorem tables_restart (k : Kernel) (accepted : c.Accepted) (pristine : Pristine f t)
    (present : .tproxyEnt ∈ (k.tables .ipv4).mangle.chains)
    (before : k.tables f = installed f prm noproxy proxy t) :
    (start (c.toEnv {}) (stop {} k)).tables f =
      { installed f (params (c.toEnv {})) (scriptCgroups k.hierarchy c.cgroupNoproxy)
          (scriptCgroups k.hierarchy c.cgroupProxy) t with
        rules := (startRouting (params (c.toEnv {}))).foldl FamilyTables.editRules
          ((stopRouting (params {})).foldl FamilyTables.editRules (installed f prm noproxy proxy t).rules)
        routes := (startRouting (params (c.toEnv {}))).foldl FamilyTables.editRoutes
          ((stopRouting (params {})).foldl FamilyTables.editRoutes (installed f prm noproxy proxy t).routes) } := by
  have cleaned : (stop {} k).tables f =
      { t with
        rules := (stopRouting (params {})).foldl FamilyTables.editRules (installed f prm noproxy proxy t).rules
        routes := (stopRouting (params {})).foldl FamilyTables.editRoutes (installed f prm noproxy proxy t).routes } := by
    rw [stop_tables present, Kernel.runAll_tables, forFamily_stopCommands, before, tables_stopFamily pristine]
  have tables : ({ (stop {} k).withMount with hierarchy := (stop {} k).hierarchy.withSlices } : Kernel).tables =
      (stop {} k).tables := Kernel.tables_withMount _
  have vacant : Vacant ((stop {} k).tables f) := by
    rw [cleaned]
    exact ⟨pristine.prerouting, pristine.output, pristine.postrouting, pristine.free⟩
  rw [start_accepted accepted, tables_startCommands (by rwa [tables]), tables, cleaned, stop_hierarchy]
  rfl

end Scripts

end Script

open Script

/-! ## Two daemons -/

/-- A daemon has started, served any messages and died without a stop; then the cgroup tree and the
mounts have changed in any way, and a new daemon starts with nothing in its environment. The tables
are those of its configuration alone exactly when every pair that the dead daemon's last START
connected is the default pair or the new one. -/
theorem restart_iff (k₀ : Kernel) (env₀ : Env) (w : World) (pristine : ∀ f, Pristine f (k₀.tables f))
    (host : Host) (file : Str) (a : Config)
    (loaded : Config.loadFromFile host {} file = (.ok Status.success, a)) (events : List Event)
    (clear : ∀ g ∈ (Generation.initial k₀.hierarchy loaded).visited events,
      ∀ f, Unrouted (g.params env₀) (k₀.tables f))
    (host' : Host) (file' : Str) (b : Config)
    (loaded' : Config.loadFromFile host' {} file' = (.ok Status.success, b))
    (foreign : ∀ f, Unrouted (params {}) (k₀.tables f)) (fresh : ∀ f, Unrouted (params (b.toEnv {})) (k₀.tables f))
    (mounts : List Str) (h : Hierarchy) (w' : World) :
    let g := events.foldl Generation.next (Generation.initial k₀.hierarchy loaded)
    let d := events.foldl Daemon.receive
      (Daemon.start host file { config := {}, env := env₀, kernel := k₀, world := w }).2
    let restarted := (Daemon.start host' file'
      { config := {}, env := {}, kernel := { d.kernel with mounts, hierarchy := h }, world := w' }).2
    (∀ f, restarted.kernel.tables f = (start (b.toEnv {}) { k₀ with hierarchy := h }).tables f) ↔
      ∀ r ∈ (g.params env₀).routings, r = scriptDefault ∨ r = (b.fwmark, b.table) := by
  intro g d restarted
  have follows : Follows k₀ env₀ g d := .foldl_start pristine loaded events clear
  have accepted : b.Accepted := (Generation.initial h loaded').accepted
  have kernel : restarted.kernel =
      start (b.toEnv {}) (stop {} { d.kernel with mounts, hierarchy := h }) := by
    simp only [restarted, Daemon.start, loaded', if_true]
    rfl
  have chains : .tproxyEnt ∈ (d.kernel.tables .ipv4).mangle.chains := by
    rw [follows.tables]
    exact Generation.tproxyEnt_mem_chains ..
  have expected (f : Family) : (start (b.toEnv {}) { k₀ with hierarchy := h }).tables f =
      installed f (params (b.toEnv {})) (scriptCgroups h b.cgroupNoproxy) (scriptCgroups h b.cgroupProxy)
        (k₀.tables f) := tables_start accepted (pristine f).toVacant (fresh f)
  rw [kernel]
  constructor
  · intro same
    have ipv4 := same .ipv4
    rw [tables_restart { d.kernel with mounts, hierarchy := h } accepted (pristine .ipv4) chains (follows.tables .ipv4), expected] at ipv4
    have rules := congrArg FamilyTables.rules ipv4
    rw [rules_installed_fresh] at rules
    exact (rules_restart_iff (foreign .ipv4) (fresh .ipv4)).mp rules
  · intro all f
    rw [tables_restart { d.kernel with mounts, hierarchy := h } accepted (pristine f) chains (follows.tables f),
      expected, (rules_restart_iff (foreign f) (fresh f)).mpr all, routes_restart (foreign f) (fresh f) all,
      ← rules_installed_fresh b, ← routes_installed_fresh b]

/-- Two daemons with the default pair, and other cgroups when the second one starts. -/
theorem restart_reload :
    let d := reloadEvents.foldl Daemon.receive
      (Daemon.start reloadHost [] { config := {}, env := {}, kernel := .blank, world := runningIn [] }).2
    let restarted := (Daemon.start reloadHost []
      { config := {}, env := {}, kernel := { d.kernel with mounts := [], hierarchy := .flat [] },
        world := runningIn [] }).2
    ∀ f, restarted.kernel.tables f =
      (start ((Config.ofLists [] [] [] ["/a".toList]).toEnv {}) { Kernel.blank with hierarchy := .flat [] }).tables f := by
  have same := (restart_iff .blank {} (runningIn []) Pristine.blank reloadHost [] _ (loadFromFile_reloadHost [])
    reloadEvents (fun _ _ _ => Unrouted.blank _) reloadHost [] _ (loadFromFile_reloadHost [])
    (fun _ => Unrouted.blank _) (fun _ => Unrouted.blank _) [] (.flat []) (runningIn [])).mpr
  dsimp only at same ⊢
  exact same (by decide +kernel)

/-- A host whose configuration file is the document. -/
def fileHost (j : Json) : Host := { Config.singleHost [] j with readFile := fun _ => some [] }

/-- Another routing table, then the defaults: the rule of the first daemon stays. -/
theorem restart_table :
    let d := (Daemon.start (fileHost (.object [("table".toList, .numberUnsigned 100)])) []
      { config := {}, env := {}, kernel := .blank, world := runningIn [] }).2
    let restarted := (Daemon.start (fileHost (.object [])) []
      { config := {}, env := {}, kernel := d.kernel, world := runningIn [] }).2
    .fwmark 0x9973 100 ∈ (restarted.kernel.tables .ipv4).rules ∧
      (100, .localDefault) ∈ (restarted.kernel.tables .ipv4).routes ∧
      .fwmark 0x9973 100 ∉ ((start (restarted.config.toEnv {}) .blank).tables .ipv4).rules := by
  decide +kernel

end CgProxy

import CgProxy.Soundness.Generation
import CgProxy.Soundness.Teardown

/-! # Cleaning up after a killed script

A stop decides by one probe, the IPv4 chain TPROXY_ENT, whether there is anything to clean. A start adds
a policy rule and a route before it creates that chain, and a stop removes the chain long before it
comes to the IPv6 tables. `interrupted_cleaned_iff` is the exact answer for every moment at which either
script can be killed: another stop restores the machine unless the kill falls into one of those gaps.
-/

namespace CgProxy

open Netfilter

namespace Script

/-- Nothing of what a start adds to a family's tables. -/
structure Clean (f : Family) (prm : Params) (t : FamilyTables) : Prop where
  chains : ∀ c ∈ ownNames, c ∉ t.mangle.chains
  preHook : preHook ∉ t.mangle.rules .prerouting
  outHook : outHook ∉ t.mangle.rules .output
  tproxyRule : .fwmark prm.fwmarkTproxy prm.tableTproxy ∉ t.rules
  rerouteRule : .fwmark prm.fwmarkReroute prm.tableReroute ∉ t.rules
  tproxyRoute : (prm.tableTproxy, .localDefault) ∉ t.routes
  rerouteRoute : (prm.tableReroute, .localDefault) ∉ t.routes
  masquerade : masquerade f ∉ t.nat.rules .postrouting

theorem Clean.of_pristine {f : Family} {prm : Params} {t : FamilyTables} (pristine : Pristine f t)
    (unrouted : Unrouted prm t) : Clean f prm t where
  chains := pristine.free
  preHook := Ruleset.notMem_rules fun _ =>
    Ruleset.notMem_of_not_referenced (pristine.unreferenced .tproxyPre (by decide)) rfl
  outHook := Ruleset.notMem_rules fun _ =>
    Ruleset.notMem_of_not_referenced (pristine.unreferenced .tproxyOut (by decide)) rfl
  tproxyRule := unrouted.tproxyRule
  rerouteRule := unrouted.rerouteRule
  tproxyRoute member := unrouted.tproxyTable _ member rfl
  rerouteRoute member := unrouted.rerouteTable _ member rfl
  masquerade := Ruleset.notMem_rules pristine.unmasked

section Commands

variable {k k₀ : Kernel} {prm : Params} {noproxy proxy : List Str} {cmds : List Command} {f : Family}

/-- Only its removal removes a chain. -/
theorem mem_chains_runAll {c : Chain} (present : c ∈ (k.tables f).mangle.chains)
    (spared : ∀ cmd ∈ cmds, cmd ≠ .net f (.mangle (.deleteChain c))) :
    c ∈ ((k.runAll cmds).tables f).mangle.chains := by
  induction cmds generalizing k with
  | nil => exact present
  | cons cmd rest ih =>
    refine @ih (k.runAll [cmd]) ?_ fun other member => spared other (List.mem_cons_of_mem _ member)
    rw [tables_runAll_singleton]
    cases mine : cmd.forFamily f with
    | none => exact present
    | some nc =>
      rw [Option.toList_some, mangle_runAll_singleton]
      cases edit : mangleEdit? nc with
      | none => exact present
      | some e =>
        refine Ruleset.mem_chains_exec present ?_
        rintro rfl
        refine spared cmd List.mem_cons_self ?_
        cases cmd <;> cases nc <;> simp_all [Command.forFamily, mangleEdit?]

/-- Only its flush removes the routes of a table. -/
theorem mem_routes_runAll {route : ℤ × Route} (present : route ∈ (k.tables f).routes)
    (spared : ∀ cmd ∈ cmds, cmd ≠ .net f (.routeFlush route.1)) : route ∈ ((k.runAll cmds).tables f).routes := by
  induction cmds generalizing k with
  | nil => exact present
  | cons cmd rest ih =>
    refine @ih (k.runAll [cmd]) ?_ fun other member => spared other (List.mem_cons_of_mem _ member)
    rw [tables_runAll_singleton]
    cases mine : cmd.forFamily f with
    | none => exact present
    | some nc =>
      rw [Option.toList_some, routes_runAll_singleton]
      cases nc with
      | routeAdd table =>
        rw [FamilyTables.editRoutes]
        split
        · exact present
        · exact List.mem_append_left _ present
      | routeFlush table =>
        refine List.mem_filter.mpr ⟨present, ?_⟩
        have other : route.1 ≠ table := by
          rintro rfl
          refine spared cmd List.mem_cons_self ?_
          cases cmd <;> simp_all [Command.forFamily]
        simpa using other
      | _ => exact present

/-- Without commands for it the nat table stays. -/
theorem nat_runAll (spared : ∀ cmd ∈ cmds, ∀ e, cmd ≠ .net f (.nat e)) :
    ((k.runAll cmds).tables f).nat = (k.tables f).nat := by
  induction cmds generalizing k with
  | nil => rfl
  | cons cmd rest ih =>
    have first : ((k.runAll [cmd]).tables f).nat = (k.tables f).nat := by
      rw [tables_runAll_singleton]
      cases mine : cmd.forFamily f with
      | none => rfl
      | some nc =>
        rw [Option.toList_some, nat_runAll_singleton]
        cases edit : natEdit? nc with
        | none => rfl
        | some e =>
          refine absurd ?_ (spared cmd List.mem_cons_self e)
          cases cmd <;> cases nc <;> simp_all [Command.forFamily, natEdit?]
    rw [← first]
    exact @ih (k.runAll [cmd]) fun other member => spared other (List.mem_cons_of_mem _ member)

/-- A stop that finds TPROXY_ENT restores the machine from any leftover. -/
theorem tables_stop_of_remains {env : Env} (pristine : ∀ f, Pristine f (k₀.tables f))
    (unrouted : ∀ f, Unrouted (params env) (k₀.tables f)) (remains : Remains (fullBy (params env)) k₀ k)
    (present : .tproxyEnt ∈ (k.tables .ipv4).mangle.chains) : (stop env k).tables = k₀.tables := by
  rw [stop_tables present]
  exact remains.restored pristine unrouted

/-- The commands that a killed stop has executed have achieved their aims. -/
theorem gone_take (pristine : ∀ f, Pristine f (k₀.tables f)) (unrouted : ∀ f, Unrouted prm (k₀.tables f))
    (remains : Remains (fullBy prm) k₀ k) {j : ℕ} {c : NetCommand} (member : .net f c ∈ (stopCommands prm).take j) :
    Gone ((k.runAll ((stopCommands prm).take j)).tables f) c := by
  have whole : Cleared prm [] ((stopCommands prm).take j ++ (stopCommands prm).drop j) k := by
    rw [List.take_append_drop]
    exact .start prm k
  exact (whole.run pristine unrouted remains).2 f c (List.mem_filterMap.mpr ⟨_, member, by simp [Command.forFamily]⟩)

end Commands

/-! ## A start that is killed -/

section Start

variable {c : Config} {env : Env} {k k₀ : Kernel}

/-- A start before its commands, with the number of steps until it has come to them. -/
inductive Process.Prepares (env : Env) : ℕ → Process → Prop where
  | launched : Prepares env 6 (.launched env false)
  | mounting (target : Str) : Prepares env 5 (.mounting env target)
  | checking (target : Str) : Prepares env 4 (.checking env target)
  | makingProxy : Prepares env 3 (.makingProxy env)
  | makingNoproxy : Prepares env 2 (.makingNoproxy env)
  | filtering : Prepares env 1 (.filtering env)

theorem Process.make_cases (path : Str) (next : Process) (k : Kernel) :
    Kernel.Alike k (make path next k).2 ∧ ((make path next k).1 = finished ∨ (make path next k).1 = next) := by
  rw [make]
  split
  · exact ⟨.refl k, .inl rfl⟩
  · exact ⟨⟨rfl, rfl⟩, .inr rfl⟩

/-- The steps before the first command edit no tables. -/
theorem Process.Prepares.step {n : ℕ} {p : Process} (prepares : p.Prepares env n) (k : Kernel) :
    Kernel.Alike k (p.step k).2 ∧
      ((p.step k).1.Prepares env (n - 1) ∨ (p.step k).1 = finished ∨
        n = 1 ∧ ∃ noproxy proxy, (p.step k).1 = installing (startCommands (params env) noproxy proxy)) := by
  cases prepares with
  | launched => exact ⟨.refl k, .inl (.mounting _)⟩
  | mounting target =>
    rw [Process.step]
    split
    · exact ⟨.refl k, .inr (.inl rfl)⟩
    · refine ⟨?_, .inl (.checking _)⟩
      dsimp only
      split
      · exact .refl k
      · exact .mount k target
  | checking target =>
    rw [Process.step]
    split
    · exact ⟨.refl k, .inr (.inl rfl)⟩
    · exact ⟨.refl k, .inl .makingProxy⟩
  | makingProxy =>
    obtain ⟨same, ended | next⟩ := make_cases
      ((cgroupArray env.cgroupProxy cgroupProxyPreserved).head?.getD []) (.makingNoproxy env) k
    · exact ⟨same, .inr (.inl ended)⟩
    · refine ⟨same, .inl ?_⟩
      rw [Process.step, next]
      exact .makingNoproxy
  | makingNoproxy =>
    obtain ⟨same, ended | next⟩ := make_cases
      ((cgroupArray env.cgroupNoproxy cgroupNoproxyPreserved).head?.getD []) (.filtering env) k
    · exact ⟨same, .inr (.inl ended)⟩
    · refine ⟨same, .inl ?_⟩
      rw [Process.step, next]
      exact .filtering
  | filtering => exact ⟨.refl k, .inr (.inr ⟨rfl, _, _, rfl⟩)⟩

theorem Process.Prepares.alike_after {m n : ℕ} {p : Process} (prepares : p.Prepares env m) (early : n ≤ m)
    (k : Kernel) : Kernel.Alike k (after n p k).2 := by
  induction n generalizing m p k with
  | zero => exact .refl k
  | succ n ih =>
    rw [after_succ]
    obtain ⟨same, next | ended | ⟨last, -⟩⟩ := prepares.step k
    · exact same.trans (ih next (by omega) _)
    · rw [ended, after_finished]
      exact same
    · obtain rfl : n = 0 := by omega
      exact same

/-- With an accepted configuration a start comes to its commands. -/
theorem Process.after_prelude (accepted : c.Accepted) :
    after 6 (launched (c.toEnv env) false) k =
      (installing (startCommands (params (c.toEnv env)) (scriptCgroups k.hierarchy c.cgroupNoproxy)
          (scriptCgroups k.hierarchy c.cgroupProxy)),
        { k.withMount with hierarchy := k.hierarchy.withSlices }) := by
  obtain ⟨proxy, noproxy⟩ := accepted.reserved
  obtain ⟨proxyPlain, proxyFirst⟩ := bashReadArray_reservedFirst proxy
  obtain ⟨noproxyPlain, noproxyFirst⟩ := bashReadArray_reservedFirst noproxy
  have target : cgroupMountPoint (c.toEnv env) k = cgroup2MountPoint := rfl
  have named : cgroup2MountPoint ≠ [] := by decide
  have checked := after_checking target named k.mount_eq_withMount
  rw [if_neg (not_not_intro k.mem_mounts_withMount)] at checked
  have made := ensureFirst_eq k.hierarchy proxyFirst noproxyFirst
  rw [ensureFirst] at made
  cases first : ensureDir k.hierarchy ((bashReadArray (join2str c.cgroupProxy ':')).head?.getD []) with
  | none => simp [first] at made
  | some h =>
    cases second : ensureDir h ((bashReadArray (join2str c.cgroupNoproxy ':')).head?.getD []) with
    | none => simp [first, second] at made
    | some h' =>
      obtain rfl : h' = k.hierarchy.withSlices := by simpa [first, second] using made
      rw [show 6 = 3 + 3 from rfl, after_add, checked]
      simp only [after, step, make, proxyArray_toEnv, noproxyArray_toEnv, k.hierarchy_withMount, first, second, scriptCgroups,
        keepExisting_eq proxyPlain, keepExisting_eq noproxyPlain]

/-- So a start that is left alone so long has executed the first of its commands. -/
theorem alike_after_start (accepted : c.Accepted) (n : ℕ) :
    Kernel.Alike (k.runAll ((startCommands (params (c.toEnv env)) (scriptCgroups k.hierarchy c.cgroupNoproxy)
      (scriptCgroups k.hierarchy c.cgroupProxy)).take (n - 6))) (Process.after n (.launched (c.toEnv env) false) k).2 := by
  rcases Nat.le_total n 6 with early | late
  · rw [Nat.sub_eq_zero_of_le early]
    exact Process.Prepares.launched.alike_after early k
  · obtain ⟨i, rfl⟩ := Nat.exists_eq_add_of_le late
    have prepared : Kernel.Alike k { k.withMount with hierarchy := k.hierarchy.withSlices } :=
      ⟨k.tables_withMount, k.forwarding_withMount⟩
    rw [Process.after_add, Process.after_prelude accepted, Process.after_installing, Nat.add_sub_cancel_left]
    exact prepared.runAll _

/-- No command of a start removes a chain. -/
theorem spared_of_mem_startCommands {prm : Params} {noproxy proxy : List Str} {cmd : Command}
    (member : cmd ∈ startCommands prm noproxy proxy) (f : Family) (chain : Chain) :
    cmd ≠ .net f (.mangle (.deleteChain chain)) := by
  rintro rfl
  exact builds_buildup _ (forFamily_of_mem_startCommands member (if_pos rfl))

/-- With three commands of a start executed, TPROXY_ENT exists. -/
theorem mem_chains_start (vacant : Vacant (k.tables .ipv4)) {prm : Params} {noproxy proxy : List Str} (m : ℕ) :
    .tproxyEnt ∈ ((k.runAll ((startCommands prm noproxy proxy).take (3 + m))).tables .ipv4).mangle.chains := by
  rw [List.take_add, Kernel.runAll_append]
  refine mem_chains_runAll ?_ fun cmd member =>
    spared_of_mem_startCommands (List.mem_of_mem_drop (List.mem_of_mem_take member)) _ _
  have edits : (((startCommands prm noproxy proxy).take 3).filterMap (Command.forFamily .ipv4)).filterMap mangleEdit? =
      [.newChain .tproxyEnt] := rfl
  rw [Kernel.runAll_tables, FamilyTables.runAll_eq, edits]
  dsimp only
  rw [Ruleset.execAll_cons, Ruleset.execAll_nil, Ruleset.exec, if_neg (vacant.free .tproxyEnt (by decide))]
  simp

/-- With fewer, but at least one, the policy rule is there and TPROXY_ENT is not. -/
theorem tables_start_early (vacant : Vacant (k.tables .ipv4)) {prm : Params} {noproxy proxy : List Str} {i : ℕ}
    (some : 0 < i) (few : i < 3) :
    .tproxyEnt ∉ ((k.runAll ((startCommands prm noproxy proxy).take i)).tables .ipv4).mangle.chains ∧
      .fwmark prm.fwmarkTproxy prm.tableTproxy ∈
        ((k.runAll ((startCommands prm noproxy proxy).take i)).tables .ipv4).rules := by
  obtain rfl | rfl : i = 1 ∨ i = 2 := by omega
  · have cmds : (startCommands prm noproxy proxy).take 1 =
        [.net .ipv4 (.ruleAdd prm.fwmarkTproxy prm.tableTproxy)] := rfl
    rw [cmds, Kernel.runAll_tables, FamilyTables.runAll_eq]
    exact ⟨vacant.free .tproxyEnt (by decide), List.mem_insert_self⟩
  · have cmds : (startCommands prm noproxy proxy).take 2 =
        [.net .ipv4 (.ruleAdd prm.fwmarkTproxy prm.tableTproxy), .net .ipv4 (.routeAdd prm.tableTproxy)] := rfl
    rw [cmds, Kernel.runAll_tables, FamilyTables.runAll_eq]
    exact ⟨vacant.free .tproxyEnt (by decide), List.mem_insert_self⟩

/-- A killed start is cleaned up unless it was killed between its first command and the third. -/
theorem start_cleaned_iff (accepted : c.Accepted) (pristine : ∀ f, Pristine f (k.tables f))
    (unrouted : ∀ f, Unrouted (params (c.toEnv env)) (k.tables f)) (n : ℕ) :
    (∀ f, Clean f (params (c.toEnv env))
        ((stop (c.toEnv env) (Process.after n (.launched (c.toEnv env) false) k).2).tables f)) ↔
      n ≤ 6 ∨ 9 ≤ n := by
  have clean {k' : Kernel} (same : k'.tables = k.tables) (f : Family) :
      Clean f (params (c.toEnv env)) (k'.tables f) := by
    rw [same]
    exact .of_pristine (pristine f) (unrouted f)
  rcases Nat.lt_or_ge n 7 with early | late
  · -- nothing has been added and nothing is removed
    have untouched : (Process.after n (.launched (c.toEnv env) false) k).2.tables = k.tables :=
      (Process.Prepares.launched.alike_after (Nat.le_of_lt_succ early) k).tables
    have absent : ¬ .tproxyEnt ∈ ((Process.after n (.launched (c.toEnv env) false) k).2.tables .ipv4).mangle.chains := by
      rw [untouched]
      exact (pristine .ipv4).free .tproxyEnt (by decide)
    rw [stop, if_pos absent]
    exact iff_of_true (clean untouched) (.inl (Nat.le_of_lt_succ early))
  · obtain ⟨i, rfl⟩ := Nat.exists_eq_add_of_le (Nat.le_of_succ_le late : 6 ≤ n)
    obtain ⟨noproxy, proxy, k', begun, same⟩ : ∃ noproxy proxy k',
        Process.after 6 (.launched (c.toEnv env) false) k =
          (.installing (startCommands (params (c.toEnv env)) noproxy proxy), k') ∧ k'.tables = k.tables := by
      exact ⟨_, _, _, Process.after_prelude accepted, k.tables_withMount⟩
    have vacant : Vacant (k'.tables .ipv4) := by
      rw [same]
      exact (pristine .ipv4).toVacant
    rw [Process.after_add, begun, Process.after_installing]
    rcases Nat.lt_or_ge i 3 with few | many
    · obtain ⟨absent, rule⟩ := @tables_start_early k' vacant (params (c.toEnv env)) noproxy proxy i (by omega) few
      rw [stop, if_pos absent]
      exact iff_of_false (fun cleaned => (cleaned .ipv4).tproxyRule rule) (by omega)
    · obtain ⟨m, rfl⟩ := Nat.exists_eq_add_of_le many
      have remains : Remains (addedBy ((startCommands (params (c.toEnv env)) noproxy proxy).take (3 + m))) k
          (k'.runAll ((startCommands (params (c.toEnv env)) noproxy proxy).take (3 + m))) :=
        .of_start (fun f => (pristine f).toVacant) same fun cmd member => List.mem_of_mem_take member
      have full := remains.full (fun f => (pristine f).toVacant) (List.take_sublist ..)
      exact iff_of_true (clean (tables_stop_of_remains pristine unrouted full (mem_chains_start vacant m))) (by omega)

end Start

/-! ## A stop that is killed -/

section Stop

variable {k k₀ : Kernel} {prm : Params} {noproxy proxy : List Str} {j : ℕ}

/-- How many commands of a stop it takes to remove the last object of a start, an IPv6 one. -/
def removals (prm : Params) : ℕ :=
  if prm.enableGateway then 30
  else if prm.fwmarkReroute ≠ prm.fwmarkTproxy ∧ prm.tableReroute ≠ prm.tableTproxy then 28
  else 27

theorem mem_take_of_le {i : ℕ} (le : i ≤ j) {cmd : Command} (member : cmd ∈ (stopCommands prm).take i) :
    cmd ∈ (stopCommands prm).take j :=
  (List.take_prefix_take_left le).subset member

/-- The first seven commands spare TPROXY_ENT, -/
theorem mem_chains_stop (present : .tproxyEnt ∈ (k.tables .ipv4).mangle.chains) (few : j ≤ 7) :
    .tproxyEnt ∈ ((k.runAll ((stopCommands prm).take j)).tables .ipv4).mangle.chains := by
  refine mem_chains_runAll present fun cmd member => ?_
  have early := mem_take_of_le few member
  rintro rfl
  simp [stopCommands, stopFamily, stopOrder] at early

/-- and the eighth removes it. -/
theorem notMem_chains_stop (pristine : ∀ f, Pristine f (k₀.tables f)) (unrouted : ∀ f, Unrouted prm (k₀.tables f))
    (remains : Remains (fullBy prm) k₀ k) (many : 8 ≤ j) :
    .tproxyEnt ∉ ((k.runAll ((stopCommands prm).take j)).tables .ipv4).mangle.chains := by
  have eighth : Command.net .ipv4 (.mangle (.deleteChain .tproxyEnt)) ∈ (stopCommands prm).take 8 := by
    simp [stopCommands, stopFamily, stopOrder]
  exact gone_take pristine unrouted remains (mem_take_of_le many eighth)

/-- Without a gateway there is no MASQUERADE rule of the script. -/
theorem gone_masquerade {f : Family} {t₀ t : FamilyTables} (pristine : Pristine f t₀)
    (left : Leftover (.added (buildup f prm noproxy proxy)) t₀ t) (none : ¬ prm.enableGateway) :
    Gone t (.nat (.delete .postrouting (masquerade f))) := by
  have same : t.nat = t₀.nat := left.nat.eq_base_of_nil fun c _ => by
    rw [Share.added, natEdits_buildup, if_neg none]
    rfl
  rw [Gone, same]
  exact Ruleset.notMem_rules pristine.unmasked

/-- With one table, or one mark, there is no second route. -/
theorem gone_reroute {f : Family} {t₀ t : FamilyTables} (unrouted : Unrouted prm t₀)
    (left : Leftover (.added (buildup f prm noproxy proxy)) t₀ t)
    (one : ¬ (prm.fwmarkReroute ≠ prm.fwmarkTproxy ∧ prm.tableReroute ≠ prm.tableTproxy))
    (gone : Gone t (.routeFlush prm.tableTproxy)) : Gone t (.routeFlush prm.tableReroute) := by
  by_cases sameTable : prm.tableReroute = prm.tableTproxy
  · rwa [sameTable]
  · have sameMark : prm.fwmarkReroute = prm.fwmarkTproxy := by
      by_contra differ
      exact one ⟨differ, sameTable⟩
    obtain ⟨l, routes, inOurs⟩ := left.routes
    intro route member
    have known := routes ▸ member
    rcases List.mem_append.mp known with base | own
    · exact unrouted.rerouteTable route base
    · have atTproxy : route.1 = prm.tableTproxy := by
        have known := inOurs route own
        rw [Share.added, routeAdded_buildup] at known
        simpa [sameMark] using known
      exact absurd atTproxy (gone route member)

/-- What the commands after the last removal are after is gone already. -/
theorem tables_stop_late (pristine : ∀ f, Pristine f (k₀.tables f)) (unrouted : ∀ f, Unrouted prm (k₀.tables f))
    (remains : Remains (addedBy (startCommands prm noproxy proxy)) k₀ k) (late : removals prm ≤ j) :
    (k.runAll ((stopCommands prm).take j)).tables = k₀.tables := by
  have vacant (f : Family) : Vacant (k₀.tables f) := (pristine f).toVacant
  have left : Remains (addedBy (startCommands prm noproxy proxy)) k₀ (k.runAll ((stopCommands prm).take j)) :=
    remains.runAll pristine unrouted fun cmd member => List.mem_of_mem_take member
  have added (f : Family) : Leftover (.added (buildup f prm noproxy proxy)) (k₀.tables f)
      ((k.runAll ((stopCommands prm).take j)).tables f) := by
    have known := left f
    rwa [addedBy, forFamily_startCommands] at known
  have early {f : Family} {c : NetCommand} (member : .net f c ∈ (stopCommands prm).take (removals prm)) :=
    gone_take pristine unrouted (remains.full vacant (List.Sublist.refl _)) (mem_take_of_le late member)
  funext f
  refine (left.full vacant (List.Sublist.refl _) f).restored (pristine f) fun c stops => ?_
  have member : .net f c ∈ stopCommands prm := by
    have mine : c ∈ (stopCommands prm).filterMap (Command.forFamily f) := by rwa [forFamily_stopCommands]
    obtain ⟨cmd, inside, is⟩ := List.mem_filterMap.mp mine
    cases cmd with
    | net g c' =>
      simp only [Command.forFamily, Option.ite_none_right_eq_some, Option.some.injEq] at is
      obtain ⟨rfl, rfl⟩ := is
      exact inside
    | _ => contradiction
  rw [← List.take_append_drop (removals prm) (stopCommands prm)] at member
  rcases List.mem_append.mp member with first | last
  · exact early first
  rw [removals] at early last
  split at last
  · have none : (stopCommands prm).drop 30 = [] := rfl
    rw [none] at last
    exact absurd last List.not_mem_nil
  next noGateway =>
    have masqueradeGone : Gone _ (.nat (.delete .postrouting (masquerade f))) :=
      gone_masquerade (pristine f) (added f) noGateway
    rw [if_neg noGateway] at early
    split at last
    · have two : (stopCommands prm).drop 28 = [.net .ipv4 (.nat (.delete .postrouting (masquerade .ipv4))),
          .net .ipv6 (.nat (.delete .postrouting (masquerade .ipv6)))] := rfl
      rw [two] at last
      rcases List.mem_pair.mp last with same | same <;> cases same <;> exact masqueradeGone
    next one =>
      have three : (stopCommands prm).drop 27 = [.net .ipv6 (.routeFlush prm.tableReroute),
          .net .ipv4 (.nat (.delete .postrouting (masquerade .ipv4))),
          .net .ipv6 (.nat (.delete .postrouting (masquerade .ipv6)))] := rfl
      rw [if_neg one] at early
      rw [three] at last
      rcases List.mem_cons.mp last with same | masquerades
      · have flushed : Command.net .ipv6 (.routeFlush prm.tableTproxy) ∈ (stopCommands prm).take 27 := by
          simp [stopCommands, stopFamily, stopOrder]
        cases same
        exact gone_reroute (unrouted _) (added _) one (early flushed)
      · rcases List.mem_pair.mp masquerades with same | same <;> cases same <;> exact masqueradeGone

/-- Before the last removal, its object is still there. -/
theorem not_clean_stop (single : Single .ipv6 prm (k.tables .ipv6)) (early : j < removals prm) :
    ¬ Clean .ipv6 prm ((k.runAll ((stopCommands prm).take j)).tables .ipv6) := by
  intro clean
  rw [removals] at early
  split at early
  · next gateway =>
    have present : masquerade .ipv6 ∈ ((k.tables .ipv6).nat.rules .postrouting) := by
      rw [← List.count_pos_iff, single.masquerade, if_pos gateway]
      exact Nat.one_pos
    refine clean.masquerade ?_
    rw [nat_runAll]
    · exact present
    · rintro cmd member e rfl
      have first : _ ∈ (stopCommands prm).take 29 := mem_take_of_le (Nat.le_of_lt_succ early) member
      simp [stopCommands, stopFamily, stopOrder] at first
  split at early
  · next two =>
    have present : (prm.tableReroute, Route.localDefault) ∈ (k.tables .ipv6).routes := by
      rw [← List.count_pos_iff, single.rerouteRoute two.1]
      exact Nat.one_pos
    refine clean.rerouteRoute (mem_routes_runAll present ?_)
    rintro cmd member rfl
    have first : _ ∈ (stopCommands prm).take 27 := mem_take_of_le (Nat.le_of_lt_succ early) member
    simp [stopCommands, stopFamily, stopOrder, two.2] at first
  · have present : (prm.tableTproxy, Route.localDefault) ∈ (k.tables .ipv6).routes := by
      rw [← List.count_pos_iff, single.tproxyRoute]
      exact Nat.one_pos
    refine clean.tproxyRoute (mem_routes_runAll present ?_)
    rintro cmd member rfl
    have first : _ ∈ (stopCommands prm).take 26 := mem_take_of_le (Nat.le_of_lt_succ early) member
    simp [stopCommands, stopFamily, stopOrder] at first

/-- A killed stop, by the commands it has executed: the first two steps are the mount point and the probe. -/
theorem alike_after_stop {env : Env} (present : .tproxyEnt ∈ (k.tables .ipv4).mangle.chains) (n : ℕ) :
    Kernel.Alike (k.runAll ((stopCommands (params env)).take (n - 2))) (Process.after n (.launched env true) k).2 := by
  rcases n with _ | _ | j
  · exact .refl k
  · exact .refl k
  · rw [Nat.add_assoc, Nat.add_comm, Process.after_add, Process.after_probing present, Nat.add_sub_cancel_left]
    exact Process.after_removing j ..

/-- A stop that is killed after a complete start is finished by another stop, unless it was killed after
it had removed TPROXY_ENT and before it had removed everything else. -/
theorem stop_cleaned_iff {c : Config} {env : Env} (accepted : c.Accepted) (pristine : ∀ f, Pristine f (k.tables f))
    (unrouted : ∀ f, Unrouted (params (c.toEnv env)) (k.tables f)) (n : ℕ) :
    (∀ f, Clean f (params (c.toEnv env))
        ((stop (c.toEnv env) (Process.after n (.launched (c.toEnv env) true) (start (c.toEnv env) k)).2).tables f)) ↔
      n ≤ 9 ∨ 2 + removals (params (c.toEnv env)) ≤ n := by
  have clean {k' : Kernel} (same : k'.tables = k.tables) (f : Family) :
      Clean f (params (c.toEnv env)) (k'.tables f) := by
    rw [same]
    exact .of_pristine (pristine f) (unrouted f)
  have installed (f : Family) : (start (c.toEnv env) k).tables f = _ :=
    tables_start accepted (pristine f).toVacant (unrouted f)
  have single : Single .ipv6 (params (c.toEnv env)) ((start (c.toEnv env) k).tables .ipv6) := by
    rw [installed]
    exact .installed (pristine _) (unrouted _)
  have present : .tproxyEnt ∈ ((start (c.toEnv env) k).tables .ipv4).mangle.chains := by
    rw [installed]
    exact Generation.tproxyEnt_mem_chains ..
  obtain ⟨noproxy, proxy, added⟩ : ∃ noproxy proxy,
      Remains (addedBy (startCommands (params (c.toEnv env)) noproxy proxy)) k (start (c.toEnv env) k) := by
    refine ⟨scriptCgroups k.hierarchy c.cgroupNoproxy, scriptCgroups k.hierarchy c.cgroupProxy, ?_⟩
    rw [start_accepted accepted]
    exact .of_start (fun f => (pristine f).toVacant) k.tables_withMount fun _ member => member
  have remains := added.full (fun f => (pristine f).toVacant) (List.Sublist.refl _)
  have killed : (Process.after n (.launched (c.toEnv env) true) (start (c.toEnv env) k)).2.tables = _ :=
    (alike_after_stop present n).tables
  generalize (Process.after n (.launched (c.toEnv env) true) (start (c.toEnv env) k)).2 = k' at killed ⊢
  have still : Remains (fullBy (params (c.toEnv env))) k k' :=
    (remains.runAll pristine unrouted fun cmd member => List.mem_of_mem_take member).congr killed
  have bounds : 27 ≤ removals (params (c.toEnv env)) := by
    rw [removals]
    split
    · decide
    · split <;> decide
  rcases Nat.lt_or_ge 9 n with late | early
  · have absent : .tproxyEnt ∉ (k'.tables .ipv4).mangle.chains := by
      rw [killed]
      exact notMem_chains_stop pristine unrouted remains (by omega)
    rw [stop, if_pos absent]
    rcases Nat.lt_or_ge (n - 2) (removals (params (c.toEnv env))) with before | after
    · refine iff_of_false (fun cleaned => ?_) (by omega)
      have last := cleaned .ipv6
      rw [killed] at last
      exact not_clean_stop single before last
    · exact iff_of_true (clean (killed.trans (tables_stop_late pristine unrouted added after))) (by omega)
  · have probe : .tproxyEnt ∈ (k'.tables .ipv4).mangle.chains := by
      rw [killed]
      exact mem_chains_stop present (by omega)
    exact iff_of_true (clean (tables_stop_of_remains pristine unrouted still probe)) (.inl early)

end Stop

/-! ## Both scripts -/

/-- When either script is killed, another stop in the same environment cleans up: a start has not
executed a command yet (its first six steps look at the mount and make the directories) or has created
the IPv4 TPROXY_ENT; a stop has not removed that chain yet or has nothing left to remove. -/
theorem interrupted_cleaned_iff (c : Config) (accepted : c.Accepted) (env : Env) (k : Kernel)
    (pristine : ∀ f, Pristine f (k.tables f)) (unrouted : ∀ f, Unrouted (params (c.toEnv env)) (k.tables f)) (n : ℕ) :
    let env := c.toEnv env
    ((∀ f, Clean f (params env) ((stop env (Process.after n (.launched env false) k).2).tables f)) ↔
        n ≤ 6 ∨ 9 ≤ n) ∧
      ((∀ f, Clean f (params env) ((stop env (Process.after n (.launched env true) (start env k)).2).tables f)) ↔
        n ≤ 9 ∨ 2 + removals (params env) ≤ n) :=
  ⟨start_cleaned_iff accepted pristine unrouted n, stop_cleaned_iff accepted pristine unrouted n⟩

theorem Unrouted.blank (prm : Params) : Unrouted prm FamilyTables.blank :=
  ⟨List.not_mem_nil, List.not_mem_nil, fun _ member => absurd member List.not_mem_nil,
    fun _ member => absurd member List.not_mem_nil⟩

/-- A configuration with one cgroup, on a blank machine: a start that is killed after TPROXY_ENT exists, and a
stop that is killed before it is gone. -/
theorem interrupted_cleaned_blank :
    let env := (Config.ofLists [] [] [] ["/a".toList]).toEnv {}
    (∀ f, Clean f (params env) ((stop env (Process.after 9 (.launched env false) .blank).2).tables f)) ∧
      ∀ f, Clean f (params env) ((stop env (Process.after 9 (.launched env true) (start env .blank)).2).tables f) := by
  have cleaned (n : ℕ) := interrupted_cleaned_iff _ accepted_reloadHost {} .blank Pristine.blank (fun _ => .blank _) n
  exact ⟨(cleaned 9).1.mpr (.inr (Nat.le_refl 9)), (cleaned 9).2.mpr (.inl (Nat.le_refl 9))⟩

/-- A start that is killed after its first command leaves a policy rule that no stop removes, and a stop
that is killed right after it has removed TPROXY_ENT leaves the whole IPv6 part. -/
theorem interrupted_midway :
    let env := (Config.ofLists [] [] [] ["/a".toList]).toEnv {}
    (Config.ofLists [] [] [] ["/a".toList]).Accepted ∧
      (¬ ∀ f, Clean f (params env) ((stop env (Process.after 7 (.launched env false) .blank).2).tables f)) ∧
      ¬ ∀ f, Clean f (params env)
        ((stop env (Process.after 10 (.launched env true) (start env .blank)).2).tables f) := by
  refine ⟨accepted_reloadHost, fun cleaned => ?_, fun cleaned => ?_⟩
  · have kills := (start_cleaned_iff accepted_reloadHost Pristine.blank (fun _ => .blank _) 7).mp cleaned
    omega
  · have kills := (stop_cleaned_iff accepted_reloadHost Pristine.blank (fun _ => .blank _) 10).mp cleaned
    have bound : removals (params ((Config.ofLists [] [] [] ["/a".toList]).toEnv {})) = 27 := by decide
    omega

end Script

end CgProxy

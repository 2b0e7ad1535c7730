import CgProxy.Model.Process
import CgProxy.Netfilter.Overlay
import CgProxy.Soundness.Installed

/-! # What a start leaves behind

`Leftover` says that tables are those of the machine with any part of what some commands of a start add,
their `Share`. `Gone` is what a command of a stop is after. A command of a start enlarges a leftover by
what it adds, and brings back what is gone only if the command of the stop `Undoes` it.
-/

namespace CgProxy

open Netfilter

/-- The first command, of a stop, takes away what the second one, of a start, adds. -/
def NetCommand.Undoes : NetCommand → NetCommand → Prop
  | .mangle d, .mangle e => d.Undoes e
  | .nat d, .nat e => d.Undoes e
  | .ruleDelete mark table, .ruleAdd mark' table' => mark = mark' ∧ table = table'
  | .routeFlush table, .routeAdd table' => table = table'
  | _, _ => False

/-- The same for commands of one family. -/
def Command.Undoes : Command → Command → Prop
  | .net f d, .net g c => f = g ∧ d.Undoes c
  | _, _ => False

namespace Script

/-- What a script may have added to a family's tables: rules in chains of others, policy rules, and
default routes in these tables. -/
structure Share where
  mangle : Chain → List Rule
  nat : Chain → List Rule
  policy : List IpRule
  tables : List ℤ

/-- What a command adds to the policy rules. -/
def ruleAdded? : NetCommand → Option IpRule
  | .ruleAdd mark table => some (.fwmark mark table)
  | _ => none

/-- The table a command adds the default route to. -/
def routeAdded? : NetCommand → Option ℤ
  | .routeAdd table => some table
  | _ => none

/-- What commands add. -/
def Share.added (cmds : List NetCommand) : Share where
  mangle := Ruleset.appended (cmds.filterMap mangleEdit?)
  nat := Ruleset.appended (cmds.filterMap natEdit?)
  policy := cmds.filterMap ruleAdded?
  tables := cmds.filterMap routeAdded?

/-- What starts with these parameters add, whatever else is configured. -/
def Share.full (f : Family) (prm : Params) : Share where
  mangle
    | .prerouting => [preHook]
    | .output => [outHook]
    | _ => []
  nat
    | .postrouting => [masquerade f]
    | _ => []
  policy := [.fwmark prm.fwmarkTproxy prm.tableTproxy, .fwmark prm.fwmarkReroute prm.tableReroute]
  tables := [prm.tableTproxy, prm.tableReroute]

/-- The machine's tables with any part of the share, and any chains of the script. -/
structure Leftover (share : Share) (t₀ t : FamilyTables) : Prop where
  mangle : Ruleset.Residue share.mangle ownNames t₀.mangle t.mangle
  nat : Ruleset.Residue share.nat [] t₀.nat t.nat
  rules : ∃ l, t.rules = l ++ t₀.rules ∧ l.Nodup ∧ ∀ r ∈ l, r ∈ share.policy
  routes : ∃ l, t.routes = t₀.routes ++ l ∧ ∀ route ∈ l, route.1 ∈ share.tables

/-- One share is part of another, on this machine. -/
structure Share.Le (t₀ : FamilyTables) (share more : Share) : Prop where
  mangle : ∀ c ∈ t₀.mangle.chains, (share.mangle c).Sublist (more.mangle c)
  nat : ∀ c ∈ t₀.nat.chains, (share.nat c).Sublist (more.nat c)
  policy : ∀ r ∈ share.policy, r ∈ more.policy
  tables : ∀ table ∈ share.tables, table ∈ more.tables

/-- What a command of a stop is after. -/
def Gone (t : FamilyTables) : NetCommand → Prop
  | .mangle e => t.mangle.Gone e
  | .nat e => t.nat.Gone e
  | .ruleAdd _ _ | .routeAdd _ => True
  | .ruleDelete mark table => .fwmark mark table ∉ t.rules
  | .routeFlush table => ∀ route ∈ t.routes, route.1 ≠ table

/-- The commands a start is made of. -/
def Builds : NetCommand → Prop
  | .mangle e => Ruleset.Builds ownNames e
  | .nat e => Ruleset.Builds [] e
  | .ruleAdd _ _ | .routeAdd _ => True
  | .ruleDelete _ _ | .routeFlush _ => False

/-- All commands of a start for one family. -/
def buildup (f : Family) (prm : Params) (noproxy proxy : List Str) : List NetCommand :=
  startFamily f prm noproxy proxy ++
    if prm.enableGateway then [.nat (.append .postrouting (masquerade f))] else []

/-- All commands of a stop for one family. -/
def takedown (f : Family) (prm : Params) : List NetCommand :=
  stopFamily f prm ++ [.nat (.delete .postrouting (masquerade f))]

variable {f : Family} {prm : Params} {noproxy proxy : List Str} {t₀ t : FamilyTables} {c : NetCommand}
  {share more : Share}

theorem Leftover.refl (share : Share) (t : FamilyTables) : Leftover share t t :=
  ⟨.refl .., .refl .., ⟨[], rfl, List.nodup_nil, fun _ member => absurd member List.not_mem_nil⟩,
    ⟨[], (List.append_nil _).symm, fun _ member => absurd member List.not_mem_nil⟩⟩

theorem Leftover.mono (left : Leftover share t₀ t) (le : share.Le t₀ more) : Leftover more t₀ t := by
  obtain ⟨mangle, nat, ⟨rules, sameRules, nodup, ours⟩, routes, sameRoutes, inOurs⟩ := left
  exact ⟨mangle.mono le.mangle, nat.mono le.nat, ⟨rules, sameRules, nodup, fun r member => le.policy r (ours r member)⟩,
    ⟨routes, sameRoutes, fun route member => le.tables _ (inOurs route member)⟩⟩

theorem Share.Le.trans {most : Share} (le : share.Le t₀ more) (le' : more.Le t₀ most) : share.Le t₀ most :=
  ⟨fun c present => (le.mangle c present).trans (le'.mangle c present),
    fun c present => (le.nat c present).trans (le'.nat c present),
    fun r member => le'.policy r (le.policy r member), fun table member => le'.tables table (le.tables table member)⟩

theorem Share.le_of_sublist {cmds all : List NetCommand} (part : cmds.Sublist all) : (added cmds).Le t₀ (added all) :=
  ⟨fun _ _ => (part.filterMap _).filterMap _, fun _ _ => (part.filterMap _).filterMap _,
    fun _ member => (part.filterMap _).subset member, fun _ member => (part.filterMap _).subset member⟩

/-! ## One command -/

theorem mangle_runAll_singleton (t : FamilyTables) (c : NetCommand) :
    (t.runAll [c]).mangle = t.mangle.execAll Rule.jump? (mangleEdit? c).toList := by
  rw [FamilyTables.runAll_eq]
  cases c <;> rfl

theorem nat_runAll_singleton (t : FamilyTables) (c : NetCommand) :
    (t.runAll [c]).nat = t.nat.execAll Rule.jump? (natEdit? c).toList := by
  rw [FamilyTables.runAll_eq]
  cases c <;> rfl

theorem rules_runAll_singleton (t : FamilyTables) (c : NetCommand) :
    (t.runAll [c]).rules = FamilyTables.editRules t.rules c := by
  rw [FamilyTables.runAll_eq]
  rfl

theorem routes_runAll_singleton (t : FamilyTables) (c : NetCommand) :
    (t.runAll [c]).routes = FamilyTables.editRoutes t.routes c := by
  rw [FamilyTables.runAll_eq]
  rfl

/-! ## The start -/

section Start

/-- The rules that building one chain appends to another are none. -/
theorem appended_build_of_ne {c d : Chain} (other : d ≠ c) (rs : List Rule) :
    Ruleset.appended (.newChain d :: rs.map (.append d)) c = [] := by
  rw [Ruleset.appended, List.filterMap_eq_nil_iff]
  intro e member
  rcases List.mem_cons.mp member with rfl | appends
  · rfl
  · obtain ⟨r, -, rfl⟩ := List.mem_map.mp appends
    exact if_neg other

theorem mangleEdits_buildup :
    (buildup f prm noproxy proxy).filterMap mangleEdit? =
      (startFamily f prm noproxy proxy).filterMap mangleEdit? := by
  rw [buildup, List.filterMap_append]
  split <;> simp [mangleEdit?, List.filterMap_cons]

theorem natEdits_buildup :
    (buildup f prm noproxy proxy).filterMap natEdit? =
      if prm.enableGateway then [.append .postrouting (masquerade f)] else [] := by
  rw [buildup, List.filterMap_append, natEdits_startFamily]
  split <;> simp [natEdit?]

private theorem routeAdded_mangle (edits : List (Edit Chain Rule)) :
    (edits.map NetCommand.mangle).filterMap routeAdded? = [] := by
  simp [List.filterMap_map, Function.comp_def, routeAdded?]

private theorem ruleAdded_mangle (edits : List (Edit Chain Rule)) :
    (edits.map NetCommand.mangle).filterMap ruleAdded? = [] := by
  simp [List.filterMap_map, Function.comp_def, ruleAdded?]

/-- The policy rules of a start. -/
theorem ruleAdded_buildup :
    (buildup f prm noproxy proxy).filterMap ruleAdded? =
      .fwmark prm.fwmarkTproxy prm.tableTproxy ::
        if prm.fwmarkReroute ≠ prm.fwmarkTproxy then [.fwmark prm.fwmarkReroute prm.tableReroute] else [] := by
  simp only [buildup, startFamily, List.filterMap_append, buildChain_eq_map, ruleAdded_mangle]
  split <;> split <;> split <;> simp [ruleAdded?, List.filterMap_cons]

/-- The tables it adds its default route to. -/
theorem routeAdded_buildup :
    (buildup f prm noproxy proxy).filterMap routeAdded? =
      prm.tableTproxy :: if prm.fwmarkReroute ≠ prm.fwmarkTproxy then [prm.tableReroute] else [] := by
  simp only [buildup, startFamily, List.filterMap_append, buildChain_eq_map, routeAdded_mangle]
  split <;> split <;> split <;> simp [routeAdded?, List.filterMap_cons]

/-- What a start appends to chains that are not its own. -/
theorem appended_startFamily {c : Chain} (foreign : c ∉ ownNames) :
    (Ruleset.appended ((startFamily f prm noproxy proxy).filterMap mangleEdit?) c).Sublist
      ((Share.full f prm).mangle c) := by
  simp only [ownNames, List.mem_cons, List.not_mem_nil, or_false, not_or] at foreign
  obtain ⟨ent, pre, mark, out⟩ := foreign
  simp only [mangleEdits_startFamily, Ruleset.appended_append, appended_build_of_ne (Ne.symm ent),
    appended_build_of_ne (Ne.symm pre), appended_build_of_ne (Ne.symm mark), appended_build_of_ne (Ne.symm out),
    List.append_nil, List.nil_append]
  by_cases enabled : prm.enableFamily f <;> cases c <;> simp_all [Ruleset.appended, Share.full]

/-- What a start adds is in the full share. -/
theorem Share.le_full (vacant : Vacant t₀) : (added (buildup f prm noproxy proxy)).Le t₀ (full f prm) where
  mangle c present := by
    rw [added, mangleEdits_buildup]
    exact appended_startFamily fun own => vacant.free c own present
  nat c _ := by
    rw [added, natEdits_buildup]
    by_cases gateway : prm.enableGateway <;> cases c <;> simp [gateway, full, Ruleset.appended]
  policy r member := by
    rw [added, ruleAdded_buildup] at member
    rcases List.mem_cons.mp member with rfl | reroute
    · exact List.mem_cons_self
    · split at reroute
      · exact List.mem_cons_of_mem _ reroute
      · exact absurd reroute List.not_mem_nil
  tables table member := by
    rw [added, routeAdded_buildup] at member
    rcases List.mem_cons.mp member with rfl | reroute
    · exact List.mem_cons_self
    · split at reroute
      · exact List.mem_cons_of_mem _ reroute
      · exact absurd reroute List.not_mem_nil

theorem builds_buildChain {chain : Chain} (own : chain ∈ ownNames) (rs : List Rule) :
    ∀ c ∈ buildChain chain rs, Builds c := by
  intro c member
  rcases List.mem_cons.mp member with rfl | appends
  · exact own
  · obtain ⟨r, -, rfl⟩ := List.mem_map.mp appends
    trivial

theorem builds_buildup : ∀ c ∈ buildup f prm noproxy proxy, Builds c := by
  intro c member
  simp only [buildup, startFamily, List.mem_append] at member
  rcases member with (((((((routing | ent) | pre) | hook) | reroute) | mark) | out) | hook) | gateway
  · rcases List.mem_pair.mp routing with rfl | rfl <;> trivial
  · exact builds_buildChain (by decide) _ c ent
  · exact builds_buildChain (by decide) _ c pre
  · obtain rfl := List.mem_singleton.mp hook
    trivial
  · split at reroute
    · rcases List.mem_pair.mp reroute with rfl | rfl <;> trivial
    · exact absurd reroute List.not_mem_nil
  · exact builds_buildChain (by decide) _ c mark
  · exact builds_buildChain (by decide) _ c out
  · split at hook
    · obtain rfl := List.mem_singleton.mp hook
      trivial
    · exact absurd hook List.not_mem_nil
  · split at gateway
    · obtain rfl := List.mem_singleton.mp gateway
      trivial
    · exact absurd gateway List.not_mem_nil

/-- A command of a start enlarges a leftover by what it adds. -/
theorem Leftover.build (vacant : Vacant t₀) {cmds : List NetCommand} (left : Leftover (.added cmds) t₀ t)
    (builds : Builds c) : Leftover (.added (cmds ++ [c])) t₀ (t.runAll [c]) := by
  have wider : (Share.added cmds).Le t₀ (.added (cmds ++ [c])) := Share.le_of_sublist (List.sublist_append_left ..)
  have kept := left.mono wider
  cases c with
  | mangle e =>
    refine ⟨?_, by rw [nat_runAll_singleton]; exact kept.nat, by rw [rules_runAll_singleton]; exact kept.rules,
      by rw [routes_runAll_singleton]; exact kept.routes⟩
    rw [mangle_runAll_singleton]
    refine (left.mangle.exec_build vacant.free builds).mono fun chain _ => ?_
    simp only [Share.added, List.filterMap_append, Ruleset.appended_append]
    exact List.Sublist.refl _
  | nat e =>
    refine ⟨by rw [mangle_runAll_singleton]; exact kept.mangle, ?_, by rw [rules_runAll_singleton]; exact kept.rules,
      by rw [routes_runAll_singleton]; exact kept.routes⟩
    rw [nat_runAll_singleton]
    refine (left.nat.exec_build (fun _ member => absurd member List.not_mem_nil) builds).mono fun chain _ => ?_
    simp only [Share.added, List.filterMap_append, Ruleset.appended_append]
    exact List.Sublist.refl _
  | ruleAdd mark table =>
    refine ⟨by rw [mangle_runAll_singleton]; exact kept.mangle, by rw [nat_runAll_singleton]; exact kept.nat, ?_,
      by rw [routes_runAll_singleton]; exact kept.routes⟩
    obtain ⟨l, same, nodup, ours⟩ := kept.rules
    rw [rules_runAll_singleton, FamilyTables.editRules, same]
    by_cases here : IpRule.fwmark mark table ∈ l ++ t₀.rules
    · exact ⟨l, List.insert_of_mem here, nodup, ours⟩
    · refine ⟨.fwmark mark table :: l, List.insert_of_not_mem here,
        List.nodup_cons.mpr ⟨fun member => here (List.mem_append_left _ member), nodup⟩, ?_⟩
      intro r member
      rcases List.mem_cons.mp member with rfl | old
      · simp [Share.added, ruleAdded?]
      · exact ours r old
  | routeAdd table =>
    refine ⟨by rw [mangle_runAll_singleton]; exact kept.mangle, by rw [nat_runAll_singleton]; exact kept.nat,
      by rw [rules_runAll_singleton]; exact kept.rules, ?_⟩
    obtain ⟨l, same, inOurs⟩ := kept.routes
    rw [routes_runAll_singleton, FamilyTables.editRoutes, same]
    split
    · exact ⟨l, rfl, inOurs⟩
    · refine ⟨l ++ [(table, .localDefault)], List.append_assoc .., fun route member => ?_⟩
      rcases List.mem_append.mp member with old | new
      · exact inOurs route old
      · rw [List.mem_singleton.mp new]
        simp [Share.added, routeAdded?]
  | ruleDelete mark table => exact builds.elim
  | routeFlush table => exact builds.elim

/-- A command of a start does not bring back what is gone, unless the command of the stop undoes it. -/
theorem Gone.build {before : NetCommand} (gone : Gone t before) (builds : Builds c) (spared : ¬ before.Undoes c) :
    Gone (t.runAll [c]) before := by
  cases before with
  | mangle e =>
    rw [Gone, mangle_runAll_singleton]
    cases c with
    | mangle e' => exact Ruleset.Gone.exec_build gone builds spared
    | _ => exact gone
  | nat e =>
    rw [Gone, nat_runAll_singleton]
    cases c with
    | nat e' => exact Ruleset.Gone.exec_build gone builds spared
    | _ => exact gone
  | ruleAdd mark table => trivial
  | routeAdd table => trivial
  | ruleDelete mark table =>
    rw [Gone, rules_runAll_singleton]
    cases c with
    | ruleAdd mark' table' =>
      intro member
      rcases List.mem_insert_iff.mp member with new | old
      · exact spared (IpRule.fwmark.inj new)
      · exact gone old
    | ruleDelete _ _ => exact builds.elim
    | _ => exact gone
  | routeFlush table =>
    rw [Gone, routes_runAll_singleton]
    cases c with
    | routeAdd table' =>
      rw [FamilyTables.editRoutes]
      split
      · exact gone
      · intro route member
        rcases List.mem_append.mp member with old | new
        · exact gone route old
        · rw [List.mem_singleton.mp new]
          exact fun same => spared same.symm
    | routeFlush _ => exact builds.elim
    | _ => exact gone

end Start

end Script

end CgProxy

import CgProxy.Model.Script

/-! # What the script installs

`installed` is the closed form of the tables of one family after the commands of `startFamily` and
the gateway rule, over any tables that know none of the script's chains. It is built in two steps:
the hooks are rules added to chains of the base, and the script's own chains come after it.
-/

namespace CgProxy

open Netfilter

namespace Script

/-- The four chains of a generation, in the order of their creation. -/
def ownChains (f : Family) (prm : Params) (noproxy proxy : List Str) : Ruleset Chain Rule :=
  [(.tproxyEnt, entRules f prm), (.tproxyPre, preRules prm), (.tproxyMark, markRules prm),
    (.tproxyOut, outRules noproxy proxy)]

/-- The names of the script's chains. -/
def ownNames : List Chain := [.tproxyEnt, .tproxyPre, .tproxyMark, .tproxyOut]

@[simp] theorem chains_ownChains (f : Family) (prm : Params) (noproxy proxy : List Str) :
    (ownChains f prm noproxy proxy).chains = ownNames := rfl

/-- The base with the two hooks; the OUTPUT hook depends on the family's flag. -/
def hooked (f : Family) (prm : Params) (base : Ruleset Chain Rule) : Ruleset Chain Rule :=
  let base := base.modify .prerouting (· ++ [preHook])
  if prm.enableFamily f then base.modify .output (· ++ [outHook]) else base

@[simp] theorem chains_hooked (f : Family) (prm : Params) (base : Ruleset Chain Rule) :
    (hooked f prm base).chains = base.chains := by
  simp only [hooked]
  split <;> simp

/-- A family's tables with one generation of the script's rules. -/
def installed (f : Family) (prm : Params) (noproxy proxy : List Str) (t : FamilyTables) : FamilyTables where
  mangle := hooked f prm t.mangle ++ ownChains f prm noproxy proxy
  nat := if prm.enableGateway then t.nat.modify .postrouting (· ++ [masquerade f]) else t.nat
  rules :=
    if prm.fwmarkReroute = prm.fwmarkTproxy then .fwmark prm.fwmarkTproxy prm.tableTproxy :: t.rules
    else .fwmark prm.fwmarkReroute prm.tableReroute :: .fwmark prm.fwmarkTproxy prm.tableTproxy :: t.rules
  routes :=
    if prm.fwmarkReroute = prm.fwmarkTproxy ∨ prm.tableReroute = prm.tableTproxy then
      t.routes ++ [(prm.tableTproxy, .localDefault)]
    else t.routes ++ [(prm.tableTproxy, .localDefault), (prm.tableReroute, .localDefault)]

/-- The chains every machine has, and none of the script's. -/
structure Vacant (t : FamilyTables) : Prop where
  prerouting : .prerouting ∈ t.mangle.chains
  output : .output ∈ t.mangle.chains
  postrouting : .postrouting ∈ t.nat.chains
  free : ∀ c ∈ ownNames, c ∉ t.mangle.chains

/-- No policy rule and no route where the script is going to put its own. -/
structure Unrouted (prm : Params) (t : FamilyTables) : Prop where
  tproxyRule : .fwmark prm.fwmarkTproxy prm.tableTproxy ∉ t.rules
  rerouteRule : .fwmark prm.fwmarkReroute prm.tableReroute ∉ t.rules
  tproxyTable : ∀ route ∈ t.routes, route.1 ≠ prm.tableTproxy
  rerouteTable : ∀ route ∈ t.routes, route.1 ≠ prm.tableReroute

/-! ## The mangle table -/

section Mangle

variable {f : Family} {prm : Params} {noproxy proxy : List Str} {base : Ruleset Chain Rule}

private theorem mangleEdits_buildChain (c : Chain) (rs : List Rule) :
    (buildChain c rs).filterMap mangleEdit? = .newChain c :: rs.map (.append c) := by
  rw [buildChain, List.filterMap_cons, List.filterMap_map]
  simp only [mangleEdit?, List.cons.injEq, true_and]
  induction rs with
  | nil => rfl
  | cons r rest ih => simp [mangleEdit?, ih]

/-- Of a family's commands, those that edit the mangle table. -/
theorem mangleEdits_startFamily :
    (startFamily f prm noproxy proxy).filterMap mangleEdit? =
      (.newChain .tproxyEnt :: (entRules f prm).map (.append .tproxyEnt)) ++
        (.newChain .tproxyPre :: (preRules prm).map (.append .tproxyPre)) ++
        [.append .prerouting preHook] ++
        (.newChain .tproxyMark :: (markRules prm).map (.append .tproxyMark)) ++
        (.newChain .tproxyOut :: (outRules noproxy proxy).map (.append .tproxyOut)) ++
        if prm.enableFamily f then [.append .output outHook] else [] := by
  simp only [startFamily, List.filterMap_append, mangleEdits_buildChain]
  split <;> split <;> simp [mangleEdit?, List.filterMap_cons]

theorem target_of_mem_protoRules {target : Target Chain Action} {r : Rule}
    (member : r ∈ protoRules prm target) : r.target = target := by
  simp only [protoRules, List.mem_append] at member
  rcases member with (member | member) | member <;> split at member <;> simp_all

theorem target_of_mem_preGuards {r : Rule} (member : r ∈ preGuards prm) : r.target = .ret := by
  simp only [preGuards, List.mem_append, List.mem_cons, List.not_mem_nil, or_false] at member
  rcases member with (rfl | rfl) | member
  · rfl
  · rfl
  · split at member <;> simp_all

private theorem jump?_eq_none {r : Rule} (plain : ∀ c, r.target ≠ .jump c) : r.jump? = none := by
  cases shape : r.target with
  | jump c => exact absurd shape (plain c)
  | _ => simp [Rule.jump?, shape]

private theorem jump?_entRules {r : Rule} (member : r ∈ entRules f prm) : r.jump? = none := by
  simp only [entRules, List.mem_cons, List.not_mem_nil, or_false] at member
  rcases member with rfl | rfl | rfl | rfl <;> rfl

private theorem jump?_preRules {r : Rule} (member : r ∈ preRules prm) {d : Chain}
    (jumps : r.jump? = some d) : d = .tproxyEnt := by
  rcases List.mem_append.mp member with guard | picks
  · rw [jump?_eq_none (by simp [target_of_mem_preGuards guard])] at jumps
    contradiction
  · simpa [Rule.jump?, target_of_mem_protoRules picks, eq_comm] using jumps

private theorem jump?_markRules {r : Rule} (member : r ∈ markRules prm) : r.jump? = none := by
  rcases List.mem_cons.mp member with rfl | picks
  · rfl
  · exact jump?_eq_none (by simp [target_of_mem_protoRules picks])

private theorem jump?_outRules {r : Rule} (member : r ∈ outRules noproxy proxy) {d : Chain}
    (jumps : r.jump? = some d) : d = .tproxyMark := by
  simp only [outRules, outCgroupRules, cgroupRules, List.mem_cons, List.mem_append, List.mem_map] at member
  rcases member with rfl | ⟨cg, -, rfl⟩ | ⟨cg, -, rfl⟩
  · simp [Rule.jump?] at jumps
  · simp [Rule.jump?] at jumps
  · simpa [Rule.jump?, eq_comm] using jumps

/-- Running the mangle commands of a family over a base without the script's chains. -/
theorem execAll_startFamily (prerouting : .prerouting ∈ base.chains) (output : .output ∈ base.chains)
    (free : ∀ c ∈ ownNames, c ∉ base.chains) :
    base.execAll Rule.jump? ((startFamily f prm noproxy proxy).filterMap mangleEdit?) =
      hooked f prm base ++ ownChains f prm noproxy proxy := by
  let base' := base.modify .prerouting (· ++ [preHook])
  have chains' : base'.chains = base.chains := Ruleset.chains_modify ..
  have ent : base.execAll Rule.jump?
      (.newChain .tproxyEnt :: (entRules f prm).map (.append .tproxyEnt)) =
        base ++ [(Chain.tproxyEnt, entRules f prm)] := by
    apply Ruleset.execAll_build (free _ (by decide))
    intro r member d jumps
    simp [jump?_entRules member] at jumps
  have pre : (base ++ [(Chain.tproxyEnt, entRules f prm)]).execAll Rule.jump?
      (.newChain .tproxyPre :: (preRules prm).map (.append .tproxyPre)) =
        base ++ [(Chain.tproxyEnt, entRules f prm), (Chain.tproxyPre, preRules prm)] := by
    rw [Ruleset.execAll_build (by simp [free Chain.tproxyPre (by decide)]), List.append_assoc]
    · rfl
    · intro r member d jumps
      simp [jump?_preRules member jumps]
  have hookPre : (base ++ [(Chain.tproxyEnt, entRules f prm), (Chain.tproxyPre, preRules prm)]).execAll Rule.jump?
      [.append .prerouting preHook] =
        base' ++ [(Chain.tproxyEnt, entRules f prm), (Chain.tproxyPre, preRules prm)] := by
    rw [Ruleset.execAll_cons, Ruleset.exec_hook prerouting (by simp) (by simp [preHook, Rule.jump?])]
    rfl
  have mark : (base' ++ [(Chain.tproxyEnt, entRules f prm), (Chain.tproxyPre, preRules prm)]).execAll Rule.jump?
      (.newChain .tproxyMark :: (markRules prm).map (.append .tproxyMark)) =
        base' ++ [(Chain.tproxyEnt, entRules f prm), (Chain.tproxyPre, preRules prm),
          (Chain.tproxyMark, markRules prm)] := by
    rw [Ruleset.execAll_build (by simp [chains', free Chain.tproxyMark (by decide)]), List.append_assoc]
    · rfl
    · intro r member d jumps
      simp [jump?_markRules member] at jumps
  have out : (base' ++ [(Chain.tproxyEnt, entRules f prm), (Chain.tproxyPre, preRules prm),
      (Chain.tproxyMark, markRules prm)]).execAll Rule.jump?
      (.newChain .tproxyOut :: (outRules noproxy proxy).map (.append .tproxyOut)) =
        base' ++ ownChains f prm noproxy proxy := by
    rw [Ruleset.execAll_build (by simp [chains', free Chain.tproxyOut (by decide)]), List.append_assoc]
    · rfl
    · intro r member d jumps
      simp [jump?_outRules member jumps]
  have hookOut : (base' ++ ownChains f prm noproxy proxy).execAll Rule.jump?
      (if prm.enableFamily f then [.append .output outHook] else []) =
        hooked f prm base ++ ownChains f prm noproxy proxy := by
    simp only [hooked]
    split
    · rw [Ruleset.execAll_cons, Ruleset.exec_hook (by simpa [chains'] using output)
        (by simp [ownNames]) (by simp [outHook, Rule.jump?, ownNames])]
      rfl
    · rfl
  simp only [mangleEdits_startFamily, Ruleset.execAll_append, ent, pre, hookPre, mark, out, hookOut]

end Mangle

/-! ## All tables -/

section Tables

variable {prm : Params} {noproxy proxy : List Str} {k : Kernel}

theorem forFamily_own (f : Family) (l : List NetCommand) : (l.map (Command.net f)).filterMap (Command.forFamily f) = l := by
  simp [List.filterMap_map, Function.comp_def, Command.forFamily]

theorem forFamily_other {f g : Family} (other : g ≠ f) (l : List NetCommand) :
    (l.map (Command.net g)).filterMap (Command.forFamily f) = [] := by
  simp [List.filterMap_map, Function.comp_def, Command.forFamily, other]

/-- Of all commands, those of one family. -/
theorem forFamily_startCommands (f : Family) :
    (startCommands prm noproxy proxy).filterMap (Command.forFamily f) =
      startFamily f prm noproxy proxy ++
        if prm.enableGateway then [.nat (.append .postrouting (masquerade f))] else [] := by
  simp only [startCommands, List.filterMap_append]
  cases f with
  | ipv4 =>
    rw [forFamily_own, forFamily_other (by decide), List.append_nil]
    split <;> simp [Command.forFamily]
  | ipv6 =>
    rw [forFamily_own, forFamily_other (by decide), List.nil_append]
    split <;> simp [Command.forFamily]

/-- The mangle table after a start, over a base without the script's chains. -/
theorem mangle_startCommands {f : Family} (prm : Params) (noproxy proxy : List Str) (vacant : Vacant (k.tables f)) :
    ((k.runAll (startCommands prm noproxy proxy)).tables f).mangle =
      hooked f prm (k.tables f).mangle ++ ownChains f prm noproxy proxy := by
  have gateway : (if prm.enableGateway then [NetCommand.nat (.append .postrouting (masquerade f))]
      else []).filterMap mangleEdit? = [] := by
    split <;> simp [mangleEdit?, List.filterMap_cons]
  rw [Kernel.runAll_tables, forFamily_startCommands, FamilyTables.runAll_eq]
  simp only [List.filterMap_append, gateway, List.append_nil]
  exact execAll_startFamily vacant.prerouting vacant.output vacant.free

/-! ### The other tables -/

theorem buildChain_eq_map (c : Chain) (rs : List Rule) :
    buildChain c rs = (Edit.newChain c :: rs.map (.append c)).map .mangle := by
  simp [buildChain]

theorem natEdits_mangle (edits : List (Edit Chain Rule)) :
    (edits.map NetCommand.mangle).filterMap natEdit? = [] := by
  simp [List.filterMap_map, Function.comp_def, natEdit?]

theorem foldl_editRules_mangle (edits : List (Edit Chain Rule)) (rules : List IpRule) :
    (edits.map NetCommand.mangle).foldl FamilyTables.editRules rules = rules := by
  induction edits with
  | nil => rfl
  | cons e rest ih => exact ih

theorem foldl_editRoutes_mangle (edits : List (Edit Chain Rule)) (routes : List (ℤ × Route)) :
    (edits.map NetCommand.mangle).foldl FamilyTables.editRoutes routes = routes := by
  induction edits with
  | nil => rfl
  | cons e rest ih => exact ih

/-- A family's commands without its edits of the mangle table. -/
def startRouting (prm : Params) : List NetCommand :=
  [.ruleAdd prm.fwmarkTproxy prm.tableTproxy, .routeAdd prm.tableTproxy] ++
    if prm.fwmarkReroute ≠ prm.fwmarkTproxy then
      [.ruleAdd prm.fwmarkReroute prm.tableReroute, .routeAdd prm.tableReroute] else []

theorem natEdits_startFamily (f : Family) : (startFamily f prm noproxy proxy).filterMap natEdit? = [] := by
  simp only [startFamily, List.filterMap_append, buildChain_eq_map, natEdits_mangle]
  split <;> split <;> simp [natEdit?, List.filterMap_cons]

theorem foldl_editRules_startFamily (f : Family) (rules : List IpRule) :
    (startFamily f prm noproxy proxy).foldl FamilyTables.editRules rules =
      (startRouting prm).foldl FamilyTables.editRules rules := by
  simp only [startFamily, startRouting, List.foldl_append, buildChain_eq_map, foldl_editRules_mangle]
  split <;> split <;> rfl

theorem foldl_editRoutes_startFamily (f : Family) (routes : List (ℤ × Route)) :
    (startFamily f prm noproxy proxy).foldl FamilyTables.editRoutes routes =
      (startRouting prm).foldl FamilyTables.editRoutes routes := by
  simp only [startFamily, startRouting, List.foldl_append, buildChain_eq_map, foldl_editRoutes_mangle]
  split <;> split <;> rfl

/-- The policy rules of a start. -/
theorem rules_startRouting {t : FamilyTables} (unrouted : Unrouted prm t) :
    (startRouting prm).foldl FamilyTables.editRules t.rules =
      if prm.fwmarkReroute = prm.fwmarkTproxy then .fwmark prm.fwmarkTproxy prm.tableTproxy :: t.rules
      else .fwmark prm.fwmarkReroute prm.tableReroute ::
        .fwmark prm.fwmarkTproxy prm.tableTproxy :: t.rules := by
  have first : List.insert (IpRule.fwmark prm.fwmarkTproxy prm.tableTproxy) t.rules =
      .fwmark prm.fwmarkTproxy prm.tableTproxy :: t.rules := List.insert_of_not_mem unrouted.tproxyRule
  simp only [startRouting, List.foldl_append, List.foldl_cons, List.foldl_nil, FamilyTables.editRules, first]
  by_cases same : prm.fwmarkReroute = prm.fwmarkTproxy
  · rw [if_neg (not_not_intro same), if_pos same, List.foldl_nil]
  · have second : IpRule.fwmark prm.fwmarkReroute prm.tableReroute ∉
        IpRule.fwmark prm.fwmarkTproxy prm.tableTproxy :: t.rules := by
      simp [same, unrouted.rerouteRule]
    rw [if_pos same, if_neg same]
    exact List.insert_of_not_mem second

/-- The routes of a start. -/
theorem routes_startRouting {t : FamilyTables} (unrouted : Unrouted prm t) :
    (startRouting prm).foldl FamilyTables.editRoutes t.routes =
      if prm.fwmarkReroute = prm.fwmarkTproxy ∨ prm.tableReroute = prm.tableTproxy then
        t.routes ++ [(prm.tableTproxy, .localDefault)]
      else t.routes ++ [(prm.tableTproxy, .localDefault), (prm.tableReroute, .localDefault)] := by
  have fresh : (prm.tableTproxy, Route.localDefault) ∉ t.routes := fun member =>
    unrouted.tproxyTable _ member rfl
  have fresh' : (prm.tableReroute, Route.localDefault) ∉ t.routes := fun member =>
    unrouted.rerouteTable _ member rfl
  simp only [startRouting, List.foldl_append, List.foldl_cons, List.foldl_nil, FamilyTables.editRoutes,
    if_neg fresh]
  by_cases same : prm.fwmarkReroute = prm.fwmarkTproxy
  · rw [if_neg (not_not_intro same), if_pos (.inl same), List.foldl_nil]
  · rw [if_pos same]
    by_cases sameTable : prm.tableReroute = prm.tableTproxy
    · simp [FamilyTables.editRoutes, sameTable]
    · simp [FamilyTables.editRoutes, same, sameTable, fresh']

/-- A start over tables without the script's chains, whatever their rules and routes. -/
theorem tables_startCommands {f : Family} (vacant : Vacant (k.tables f)) :
    (k.runAll (startCommands prm noproxy proxy)).tables f =
      { installed f prm noproxy proxy (k.tables f) with
        rules := (startRouting prm).foldl FamilyTables.editRules (k.tables f).rules
        routes := (startRouting prm).foldl FamilyTables.editRoutes (k.tables f).routes } := by
  have mangle := mangle_startCommands prm noproxy proxy vacant
  rw [Kernel.runAll_tables, forFamily_startCommands, FamilyTables.runAll_eq] at mangle ⊢
  dsimp only at mangle
  rw [installed, FamilyTables.mk.injEq]
  refine ⟨mangle, ?_, ?_, ?_⟩
  · rw [List.filterMap_append, natEdits_startFamily, List.nil_append]
    split
    · have resolved : (k.tables f).nat.resolves Rule.jump? (masquerade f) = true := by cases f <;> rfl
      simp only [List.filterMap_cons, List.filterMap_nil, natEdit?, Ruleset.execAll_cons, Ruleset.execAll_nil,
        Ruleset.exec, if_pos (And.intro vacant.postrouting resolved), Option.getD_some]
    · rfl
  · have gateway (rules : List IpRule) : (if prm.enableGateway then
        [NetCommand.nat (.append .postrouting (masquerade f))] else []).foldl FamilyTables.editRules rules =
          rules := by split <;> rfl
    rw [List.foldl_append, gateway, foldl_editRules_startFamily]
  · have gateway (routes : List (ℤ × Route)) : (if prm.enableGateway then
        [NetCommand.nat (.append .postrouting (masquerade f))] else []).foldl FamilyTables.editRoutes routes =
          routes := by split <;> rfl
    rw [List.foldl_append, gateway, foldl_editRoutes_startFamily]

/-- A start over tables without a trace of the script. -/
theorem runAll_startCommands {f : Family} (vacant : Vacant (k.tables f)) (unrouted : Unrouted prm (k.tables f)) :
    (k.runAll (startCommands prm noproxy proxy)).tables f = installed f prm noproxy proxy (k.tables f) := by
  rw [tables_startCommands vacant, rules_startRouting unrouted, routes_startRouting unrouted]
  rfl

end Tables

/-! ## Taking a generation down -/

/-- Tables that a start and a stop leave as they were: the script's chains are absent, no rule jumps
to them, and the nat table has no rule of its own that equals the script's. -/
structure Pristine (f : Family) (t : FamilyTables) : Prop extends Vacant t where
  unreferenced : ∀ c ∈ ownNames, t.mangle.referenced Rule.jump? c = false
  unmasked : ∀ rs, (.postrouting, rs) ∈ t.nat → masquerade f ∉ rs

section Stop

variable {f : Family} {prm : Params} {noproxy proxy : List Str} {t : FamilyTables}

theorem forFamily_stopCommands (f : Family) (prm : Params) :
    (stopCommands prm).filterMap (Command.forFamily f) =
      stopFamily f prm ++ [.nat (.delete .postrouting (masquerade f))] := by
  simp only [stopCommands, List.filterMap_append]
  cases f with
  | ipv4 =>
    rw [forFamily_own, forFamily_other (by decide), List.append_nil]
    simp [Command.forFamily]
  | ipv6 =>
    rw [forFamily_own, forFamily_other (by decide), List.nil_append]
    simp [Command.forFamily]

/-- The two hooks go, whether or not the OUTPUT one was there. -/
theorem execAll_unhook (pristine : Pristine f t) :
    (hooked f prm t.mangle ++ ownChains f prm noproxy proxy).execAll Rule.jump?
        [.delete .prerouting preHook, .delete .output outHook] =
      t.mangle ++ ownChains f prm noproxy proxy := by
  have noPre : ∀ rs, (Chain.prerouting, rs) ∈ t.mangle → preHook ∉ rs := fun rs =>
    Ruleset.notMem_of_not_referenced (pristine.unreferenced .tproxyPre (by decide)) rfl
  have noOut : ∀ rs, (Chain.output, rs) ∈ t.mangle → outHook ∉ rs := fun rs =>
    Ruleset.notMem_of_not_referenced (pristine.unreferenced .tproxyOut (by decide)) rfl
  rw [Ruleset.execAll_cons, Ruleset.execAll_cons, Ruleset.execAll_nil, hooked]
  split
  · -- enabled: both hooks are there
    rw [Ruleset.modify_comm (by decide), Ruleset.exec_unhook (by simpa using pristine.prerouting)
      (by simp [ownNames]) (fun rs member => noPre rs (Ruleset.mem_of_mem_modify (by decide) member)),
      Option.getD_some, Ruleset.exec_unhook pristine.output (by simp [ownNames]) noOut, Option.getD_some]
  · -- disabled: deleting the OUTPUT hook is refused
    have absent : outHook ∉ Ruleset.rules (t.mangle ++ ownChains f prm noproxy proxy) .output := by
      rw [Ruleset.rules_append_of_mem pristine.output]
      exact Ruleset.notMem_rules noOut
    rw [Ruleset.exec_unhook pristine.prerouting (by simp [ownNames]) noPre, Option.getD_some,
      Ruleset.exec_delete_of_notMem absent, Option.getD_none]

/-- The edits of the mangle table a stop makes. -/
def stopEdits (f : Family) : List (Edit Chain Rule) :=
  [.delete .prerouting preHook, .delete .output outHook] ++
    ((stopOrder f).map .flush ++ (stopOrder f).map .deleteChain)

/-- The part of a stop that concerns rules and routes. -/
def stopRouting (prm : Params) : List NetCommand :=
  [.ruleDelete prm.fwmarkTproxy prm.tableTproxy, .ruleDelete prm.fwmarkReroute prm.tableReroute,
    .routeFlush prm.tableTproxy, .routeFlush prm.tableReroute]

theorem stopFamily_eq (f : Family) (prm : Params) :
    stopFamily f prm = (stopEdits f).map .mangle ++ stopRouting prm := by
  simp [stopFamily, stopEdits, stopRouting, Function.comp_def]

/-- The mangle table of a generation, taken down. -/
theorem execAll_stopEdits (pristine : Pristine f t) :
    (hooked f prm t.mangle ++ ownChains f prm noproxy proxy).execAll Rule.jump? (stopEdits f) = t.mangle := by
  have same (c : Chain) : c ∈ stopOrder f ↔ c ∈ (ownChains f prm noproxy proxy).chains := by
    rw [chains_ownChains]
    cases f <;> simp only [stopOrder, ownNames, List.mem_cons, List.not_mem_nil, or_false] <;> tauto
  have nodup : (stopOrder f).Nodup := by cases f <;> decide
  rw [stopEdits, Ruleset.execAll_append, execAll_unhook pristine]
  exact Ruleset.execAll_dismantle nodup same same pristine.free pristine.unreferenced

/-- The MASQUERADE rule goes, whether or not it was there. -/
theorem execAll_unmask (pristine : Pristine f t) :
    Ruleset.execAll Rule.jump?
      (if prm.enableGateway then t.nat.modify .postrouting (· ++ [masquerade f]) else t.nat)
      [.delete .postrouting (masquerade f)] = t.nat := by
  rw [Ruleset.execAll_cons, Ruleset.execAll_nil]
  split
  · have unhook : Ruleset.exec Rule.jump? (t.nat.modify .postrouting (· ++ [masquerade f]) ++ [])
        (.delete .postrouting (masquerade f)) = some (t.nat ++ []) :=
      Ruleset.exec_unhook pristine.postrouting List.not_mem_nil pristine.unmasked
    rw [List.append_nil, List.append_nil] at unhook
    rw [unhook, Option.getD_some]
  · rw [Ruleset.exec_delete_of_notMem (Ruleset.notMem_rules pristine.unmasked), Option.getD_none]

theorem rules_stopRouting (unrouted : Unrouted prm t) :
    (stopRouting prm).foldl FamilyTables.editRules (installed f prm noproxy proxy t).rules = t.rules := by
  simp only [stopRouting, List.foldl_cons, List.foldl_nil, FamilyTables.editRules, installed]
  by_cases same : prm.fwmarkReroute = prm.fwmarkTproxy
  · rw [if_pos same, List.erase_cons_head, List.erase_of_not_mem unrouted.rerouteRule]
  · have other : IpRule.fwmark prm.fwmarkReroute prm.tableReroute ≠
        .fwmark prm.fwmarkTproxy prm.tableTproxy := by simp [same]
    rw [if_neg same, List.erase_cons_tail (by simpa using other), List.erase_cons_head, List.erase_cons_head]

theorem routes_stopRouting (unrouted : Unrouted prm t) :
    (stopRouting prm).foldl FamilyTables.editRoutes (installed f prm noproxy proxy t).routes = t.routes := by
  have kept : t.routes.filter (fun route => route.1 ≠ prm.tableTproxy) = t.routes :=
    List.filter_eq_self.mpr fun route member => by simpa using unrouted.tproxyTable route member
  have kept' : t.routes.filter (fun route => route.1 ≠ prm.tableReroute) = t.routes :=
    List.filter_eq_self.mpr fun route member => by simpa using unrouted.rerouteTable route member
  simp only [stopRouting, List.foldl_cons, List.foldl_nil, FamilyTables.editRoutes, installed]
  split
  · rw [List.filter_append, kept]
    simpa using kept'
  · rw [List.filter_append, kept, List.filter_append, kept']
    by_cases sameTable : prm.tableReroute = prm.tableTproxy <;> simp [sameTable]

/-- The tables of a generation, taken down with any parameters: only rules and routes depend on them. -/
theorem tables_stopFamily (pristine : Pristine f t) (prm' : Params) :
    (installed f prm noproxy proxy t).runAll
        (stopFamily f prm' ++ [.nat (.delete .postrouting (masquerade f))]) =
      { t with
        rules := (stopRouting prm').foldl FamilyTables.editRules (installed f prm noproxy proxy t).rules
        routes := (stopRouting prm').foldl FamilyTables.editRoutes (installed f prm noproxy proxy t).routes } := by
  have mangleEdits : (stopFamily f prm' ++ [NetCommand.nat (.delete .postrouting (masquerade f))]).filterMap mangleEdit? =
      stopEdits f := by
    simp [stopFamily_eq, stopRouting, mangleEdit?, List.filterMap_map, Function.comp_def, List.filterMap_cons]
  have natEdits : (stopFamily f prm' ++ [NetCommand.nat (.delete .postrouting (masquerade f))]).filterMap natEdit? =
      [.delete .postrouting (masquerade f)] := by
    simp [stopFamily_eq, stopRouting, natEdit?, List.filterMap_map, Function.comp_def, List.filterMap_cons]
  rw [FamilyTables.runAll_eq, mangleEdits, natEdits, stopFamily_eq]
  simp only [List.foldl_append, foldl_editRules_mangle, foldl_editRoutes_mangle, List.foldl_cons, List.foldl_nil,
    FamilyTables.editRules, FamilyTables.editRoutes, FamilyTables.mk.injEq, and_true]
  exact ⟨execAll_stopEdits pristine, execAll_unmask pristine⟩

/-- The tables of a generation, taken down with the parameters they were built with. -/
theorem runAll_stopFamily (pristine : Pristine f t) (unrouted : Unrouted prm t) :
    (installed f prm noproxy proxy t).runAll
      (stopFamily f prm ++ [.nat (.delete .postrouting (masquerade f))]) = t := by
  rw [tables_stopFamily pristine, rules_stopRouting unrouted, routes_stopRouting unrouted]

end Stop

end Script

end CgProxy

import CgProxy.Soundness.Leftover

/-! # What a stop takes away

Every command of a stop keeps a leftover one, in any order, and what is gone stays gone. A command
achieves its aim once the earlier ones have. So a stop that runs through restores the machine
(`Cleared.restored`), whatever other stop with the same parameters is running, and whatever a start does
that none of its commands so far undoes.
-/

namespace CgProxy

open Netfilter

namespace Script

variable {f : Family} {prm : Params} {noproxy proxy : List Str} {t₀ t : FamilyTables} {c : NetCommand}
  {share : Share}

/-! ## The stop -/

section Stop

theorem mem_takedown :
    c ∈ takedown f prm ↔
      (∃ e ∈ stopEdits f, c = .mangle e) ∨ c ∈ stopRouting prm ∨ c = .nat (.delete .postrouting (masquerade f)) := by
  rw [takedown, stopFamily_eq, List.append_assoc, List.mem_append, List.mem_append, List.mem_singleton, List.mem_map]
  simp only [eq_comm]

theorem mem_stopRouting :
    c ∈ stopRouting prm ↔
      (∃ mark table, c = .ruleDelete mark table ∧ (IpRule.fwmark mark table = .fwmark prm.fwmarkTproxy prm.tableTproxy ∨
        IpRule.fwmark mark table = .fwmark prm.fwmarkReroute prm.tableReroute)) ∨
      ∃ table, c = .routeFlush table ∧ (table = prm.tableTproxy ∨ table = prm.tableReroute) := by
  simp only [stopRouting, List.mem_cons, List.not_mem_nil, or_false]
  constructor
  · rintro (rfl | rfl | rfl | rfl)
    · exact .inl ⟨_, _, rfl, .inl rfl⟩
    · exact .inl ⟨_, _, rfl, .inr rfl⟩
    · exact .inr ⟨_, rfl, .inl rfl⟩
    · exact .inr ⟨_, rfl, .inr rfl⟩
  · rintro (⟨mark, table, rfl, same | same⟩ | ⟨table, rfl, rfl | rfl⟩)
    · obtain ⟨rfl, rfl⟩ := IpRule.fwmark.inj same
      exact .inl rfl
    · obtain ⟨rfl, rfl⟩ := IpRule.fwmark.inj same
      exact .inr (.inl rfl)
    · exact .inr (.inr (.inl rfl))
    · exact .inr (.inr (.inr rfl))

/-- The mangle table of an untouched machine and the edits of a stop. -/
theorem Pristine.mangle (pristine : Pristine f t₀) (prm : Params) :
    Ruleset.Separate Rule.jump? (Share.full f prm).mangle ownNames t₀.mangle
      [(.prerouting, preHook), (.output, outHook)] (stopOrder f) (stopOrder f) where
  free := pristine.free
  unreferenced := pristine.unreferenced
  once c _ := by cases c <;> simp [Share.full]
  foreign hook member := by
    rcases List.mem_pair.mp member with rfl | rfl
    · exact ⟨by decide, fun rs => Ruleset.notMem_of_not_referenced (pristine.unreferenced .tproxyPre (by decide)) rfl⟩
    · exact ⟨by decide, fun rs => Ruleset.notMem_of_not_referenced (pristine.unreferenced .tproxyOut (by decide)) rfl⟩
  hooks c _ r member := by cases c <;> simp_all [Share.full]
  flushed c := by
    cases f <;> simp only [stopOrder, ownNames, List.mem_cons, List.not_mem_nil, or_false] <;> tauto
  removed c := by
    cases f <;> simp only [stopOrder, ownNames, List.mem_cons, List.not_mem_nil, or_false] <;> tauto

theorem Pristine.nat (pristine : Pristine f t₀) (prm : Params) :
    Ruleset.Separate Rule.jump? (Share.full f prm).nat [] t₀.nat [(.postrouting, masquerade f)] [] [] where
  free _ member := absurd member List.not_mem_nil
  unreferenced _ member := absurd member List.not_mem_nil
  once c _ := by cases c <;> simp [Share.full]
  foreign hook member := by
    obtain rfl := List.mem_singleton.mp member
    exact ⟨List.not_mem_nil, pristine.unmasked⟩
  hooks c _ r member := by cases c <;> simp_all [Share.full]
  flushed _ := Iff.rfl
  removed _ := Iff.rfl

theorem Unrouted.notMem_rules (unrouted : Unrouted prm t₀) {r : IpRule}
    (own : r = .fwmark prm.fwmarkTproxy prm.tableTproxy ∨ r = .fwmark prm.fwmarkReroute prm.tableReroute) :
    r ∉ t₀.rules := by
  rcases own with rfl | rfl
  · exact unrouted.tproxyRule
  · exact unrouted.rerouteRule

theorem Unrouted.notMem_routes (unrouted : Unrouted prm t₀) {table : ℤ}
    (own : table = prm.tableTproxy ∨ table = prm.tableReroute) : ∀ route ∈ t₀.routes, route.1 ≠ table := by
  rcases own with rfl | rfl
  · exact unrouted.tproxyTable
  · exact unrouted.rerouteTable

/-- A command of a stop keeps a leftover one. -/
theorem Leftover.remove (pristine : Pristine f t₀) (unrouted : Unrouted prm t₀) (left : Leftover share t₀ t)
    (stops : c ∈ takedown f prm) : Leftover share t₀ (t.runAll [c]) := by
  have mangleRemoves := (pristine.mangle prm).removes
  have natRemoves := (pristine.nat prm).removes
  obtain ⟨mangle, nat, ⟨rules, sameRules, nodup, ours⟩, routes, sameRoutes, inOurs⟩ := left
  rcases mem_takedown.mp stops with ⟨e, inside, rfl⟩ | routing | rfl
  · refine ⟨?_, ?_, ⟨rules, ?_, nodup, ours⟩, routes, ?_, inOurs⟩
    · rw [mangle_runAll_singleton]
      exact mangle.exec_remove pristine.free (mangleRemoves e inside)
    · rwa [nat_runAll_singleton]
    · rwa [rules_runAll_singleton]
    · rwa [routes_runAll_singleton]
  · rcases mem_stopRouting.mp routing with ⟨mark, table, rfl, own⟩ | ⟨table, rfl, own⟩
    · refine ⟨by rwa [mangle_runAll_singleton], by rwa [nat_runAll_singleton],
        ⟨rules.erase (.fwmark mark table), ?_, nodup.erase _, fun r member => ours r (List.mem_of_mem_erase member)⟩,
        routes, by rwa [routes_runAll_singleton], inOurs⟩
      rw [rules_runAll_singleton, sameRules, FamilyTables.editRules]
      by_cases here : IpRule.fwmark mark table ∈ rules
      · exact List.erase_append_left _ here
      · rw [List.erase_append_right _ here, List.erase_of_not_mem here,
          List.erase_of_not_mem (unrouted.notMem_rules own)]
    · refine ⟨by rwa [mangle_runAll_singleton], by rwa [nat_runAll_singleton],
        ⟨rules, by rwa [rules_runAll_singleton], nodup, ours⟩,
        routes.filter (·.1 ≠ table), ?_, fun route member => inOurs route (List.mem_filter.mp member).1⟩
      have kept : t₀.routes.filter (fun route => route.1 ≠ table) = t₀.routes :=
        List.filter_eq_self.mpr fun route member => by simpa using unrouted.notMem_routes own route member
      rw [routes_runAll_singleton, sameRoutes, FamilyTables.editRoutes, List.filter_append, kept]
  · refine ⟨by rwa [mangle_runAll_singleton], ?_, ⟨rules, by rwa [rules_runAll_singleton], nodup, ours⟩,
      routes, by rwa [routes_runAll_singleton], inOurs⟩
    rw [nat_runAll_singleton]
    exact nat.exec_remove (fun _ member => absurd member List.not_mem_nil) (natRemoves _ List.mem_cons_self)

/-- What is gone stays gone during a stop. -/
theorem Gone.remove (pristine : Pristine f t₀) {before : NetCommand} (gone : Gone t before)
    (stops : c ∈ takedown f prm) : Gone (t.runAll [c]) before := by
  have mangle (e : Edit Chain Rule) (gone : t.mangle.Gone e) : (t.runAll [c]).mangle.Gone e := by
    rw [mangle_runAll_singleton]
    rcases mem_takedown.mp stops with ⟨e', inside, rfl⟩ | routing | rfl
    · exact gone.exec ((pristine.mangle prm).removes e' inside)
    · rcases mem_stopRouting.mp routing with ⟨mark, table, rfl, -⟩ | ⟨table, rfl, -⟩ <;> exact gone
    · exact gone
  have nat (e : Edit Chain Rule) (gone : t.nat.Gone e) : (t.runAll [c]).nat.Gone e := by
    rw [nat_runAll_singleton]
    rcases mem_takedown.mp stops with ⟨e', inside, rfl⟩ | routing | rfl
    · exact gone
    · rcases mem_stopRouting.mp routing with ⟨mark, table, rfl, -⟩ | ⟨table, rfl, -⟩ <;> exact gone
    · exact gone.exec ((pristine.nat prm).removes _ List.mem_cons_self)
  have rules : (t.runAll [c]).rules ⊆ t.rules := by
    rw [rules_runAll_singleton]
    rcases mem_takedown.mp stops with ⟨e', inside, rfl⟩ | routing | rfl
    · exact List.Subset.refl _
    · rcases mem_stopRouting.mp routing with ⟨mark, table, rfl, -⟩ | ⟨table, rfl, -⟩
      · exact List.erase_subset
      · exact List.Subset.refl _
    · exact List.Subset.refl _
  have routes : (t.runAll [c]).routes ⊆ t.routes := by
    rw [routes_runAll_singleton]
    rcases mem_takedown.mp stops with ⟨e', inside, rfl⟩ | routing | rfl
    · exact List.Subset.refl _
    · rcases mem_stopRouting.mp routing with ⟨mark, table, rfl, -⟩ | ⟨table, rfl, -⟩
      · exact List.Subset.refl _
      · exact fun route member => (List.mem_filter.mp member).1
    · exact List.Subset.refl _
  cases before with
  | mangle e => exact mangle e gone
  | nat e => exact nat e gone
  | ruleAdd mark table => trivial
  | routeAdd table => trivial
  | ruleDelete mark table => exact fun member => gone (rules member)
  | routeFlush table => exact fun route member => gone route (routes member)

/-- Of a stop's commands for a family, those for its mangle table. -/
theorem mangleEdits_takedown : (takedown f prm).filterMap mangleEdit? = stopEdits f := by
  simp [takedown, stopFamily_eq, stopRouting, mangleEdit?, List.filterMap_map, Function.comp_def, List.filterMap_cons]

/-- A command of a stop achieves its aim once the earlier ones have. -/
theorem Leftover.gone (pristine : Pristine f t₀) (unrouted : Unrouted prm t₀) (left : Leftover (.full f prm) t₀ t)
    {done rest : List NetCommand} (split : done ++ c :: rest = takedown f prm) (gone : ∀ d ∈ done, Gone t d) :
    Gone (t.runAll [c]) c := by
  obtain ⟨mangle, nat, ⟨rules, sameRules, nodup, -⟩, -⟩ := left
  have stops : c ∈ takedown f prm := split ▸ by simp
  rcases mem_takedown.mp stops with ⟨e, -, rfl⟩ | routing | rfl
  · have edits := congrArg (List.filterMap mangleEdit?) split
    rw [mangleEdits_takedown, List.filterMap_append, List.filterMap_cons] at edits
    have doneEdits : ∀ d ∈ done.filterMap mangleEdit?, t.mangle.Gone d := by
      intro d member
      obtain ⟨nc, inside, is⟩ := List.mem_filterMap.mp member
      cases nc with
      | mangle e' =>
        obtain rfl : e' = d := Option.some.inj is
        exact gone _ inside
      | _ => simp [mangleEdit?] at is
    rw [Gone, mangle_runAll_singleton]
    exact mangle.gone_exec (pristine.mangle prm) edits doneEdits
  · rcases mem_stopRouting.mp routing with ⟨mark, table, rfl, own⟩ | ⟨table, rfl, own⟩
    · rw [Gone, rules_runAll_singleton, FamilyTables.editRules, sameRules]
      have absent := unrouted.notMem_rules own
      intro member
      by_cases here : IpRule.fwmark mark table ∈ rules
      · rw [List.erase_append_left _ here] at member
        rcases List.mem_append.mp member with old | base
        · exact nodup.not_mem_erase old
        · exact absent base
      · rw [List.erase_append_right _ here] at member
        rcases List.mem_append.mp member with old | base
        · exact here old
        · exact absent (List.mem_of_mem_erase base)
    · rw [Gone, routes_runAll_singleton, FamilyTables.editRoutes]
      intro route member
      simpa using (List.mem_filter.mp member).2
  · have only : [] ++ Edit.delete Chain.postrouting (masquerade f) :: [] =
        Ruleset.teardown [(Chain.postrouting, masquerade f)] [] [] := rfl
    rw [Gone, nat_runAll_singleton]
    exact nat.gone_exec (pristine.nat prm) only fun _ member => absurd member List.not_mem_nil

/-- When all commands of a stop have achieved their aims, the tables are those of the machine. -/
theorem Leftover.restored (pristine : Pristine f t₀) (left : Leftover (.full f prm) t₀ t)
    (gone : ∀ c ∈ takedown f prm, Gone t c) : t = t₀ := by
  obtain ⟨mangle, nat, ⟨rules, sameRules, -, ours⟩, routes, sameRoutes, inOurs⟩ := left
  have sameMangle : t.mangle = t₀.mangle := mangle.eq_base (pristine.mangle prm) fun e inside =>
    gone (.mangle e) (mem_takedown.mpr (.inl ⟨e, inside, rfl⟩))
  have sameNat : t.nat = t₀.nat := nat.eq_base (pristine.nat prm) fun e inside => by
    obtain rfl := List.mem_singleton.mp inside
    exact gone _ (mem_takedown.mpr (.inr (.inr rfl)))
  have noRules : rules = [] := by
    rw [List.eq_nil_iff_forall_not_mem]
    intro r member
    have own := List.mem_pair.mp (ours r member)
    have deleted : ∃ mark table, r = .fwmark mark table ∧ NetCommand.ruleDelete mark table ∈ takedown f prm := by
      rcases own with rfl | rfl
      · exact ⟨_, _, rfl, mem_takedown.mpr (.inr (.inl (mem_stopRouting.mpr (.inl ⟨_, _, rfl, .inl rfl⟩))))⟩
      · exact ⟨_, _, rfl, mem_takedown.mpr (.inr (.inl (mem_stopRouting.mpr (.inl ⟨_, _, rfl, .inr rfl⟩))))⟩
    obtain ⟨mark, table, rfl, stops⟩ := deleted
    exact gone _ stops (sameRules ▸ List.mem_append_left _ member)
  have noRoutes : routes = [] := by
    rw [List.eq_nil_iff_forall_not_mem]
    intro route member
    have stops : NetCommand.routeFlush route.1 ∈ takedown f prm :=
      mem_takedown.mpr (.inr (.inl (mem_stopRouting.mpr (.inr ⟨_, rfl, List.mem_pair.mp (inOurs route member)⟩))))
    exact gone _ stops route (sameRoutes ▸ List.mem_append_right _ member) rfl
  rw [noRules, List.nil_append] at sameRules
  rw [noRoutes, List.append_nil] at sameRoutes
  obtain ⟨m, n, rl, rt⟩ := t
  simp_all

end Stop

/-! ## Both families -/

/-- The machine's tables with any part of the shares. -/
def Remains (share : Family → Share) (k₀ k : Kernel) : Prop := ∀ f, Leftover (share f) (k₀.tables f) (k.tables f)

/-- What commands add, by family. -/
def addedBy (cmds : List Command) (f : Family) : Share := .added (cmds.filterMap (Command.forFamily f))

/-- What starts with these parameters add, by family. -/
def fullBy (prm : Params) (f : Family) : Share := .full f prm

/-- A stop still has the rest of its commands to do, and what the others are after is gone. -/
def Cleared (prm : Params) (done rest : List Command) (k : Kernel) : Prop :=
  done ++ rest = stopCommands prm ∧ ∀ f, ∀ c ∈ done.filterMap (Command.forFamily f), Gone (k.tables f) c

section Families

variable {shares : Family → Share} {k₀ k k' : Kernel} {cmd : Command} {cmds done rest : List Command}

theorem Remains.congr (remains : Remains shares k₀ k) (same : k'.tables = k.tables) : Remains shares k₀ k' := fun f => by
  rw [same]
  exact remains f

theorem Cleared.congr (cleared : Cleared prm done rest k) (same : k'.tables = k.tables) : Cleared prm done rest k' :=
  ⟨cleared.1, fun f => by rw [same]; exact cleared.2 f⟩

theorem Remains.of_tables (same : k.tables = k₀.tables) : Remains shares k₀ k := fun f => by
  rw [same]
  exact .refl ..

theorem tables_runAll_singleton (k : Kernel) (cmd : Command) (f : Family) :
    (k.runAll [cmd]).tables f = (k.tables f).runAll (cmd.forFamily f).toList := by
  rw [Kernel.runAll_tables, List.filterMap_cons, List.filterMap_nil]
  cases cmd.forFamily f <;> rfl

/-! ### Starting -/

theorem forFamily_of_mem_startCommands {c : NetCommand} (starts : cmd ∈ startCommands prm noproxy proxy)
    (mine : cmd.forFamily f = some c) : c ∈ buildup f prm noproxy proxy := by
  have member : c ∈ (startCommands prm noproxy proxy).filterMap (Command.forFamily f) :=
    List.mem_filterMap.mpr ⟨cmd, starts, mine⟩
  rwa [forFamily_startCommands] at member

theorem addedBy_le_full (vacant : ∀ f, Vacant (k₀.tables f)) (part : cmds.Sublist (startCommands prm noproxy proxy))
    (f : Family) : (addedBy cmds f).Le (k₀.tables f) (fullBy prm f) := by
  have mine : (cmds.filterMap (Command.forFamily f)).Sublist (buildup f prm noproxy proxy) := by
    rw [buildup, ← forFamily_startCommands]
    exact part.filterMap _
  exact (Share.le_of_sublist mine).trans (Share.le_full (vacant f))

theorem Remains.full (vacant : ∀ f, Vacant (k₀.tables f)) (remains : Remains (addedBy cmds) k₀ k)
    (part : cmds.Sublist (startCommands prm noproxy proxy)) : Remains (fullBy prm) k₀ k := fun f =>
  (remains f).mono (addedBy_le_full vacant part f)

/-- The next command of a start. -/
theorem Remains.build (vacant : ∀ f, Vacant (k₀.tables f)) (remains : Remains (addedBy cmds) k₀ k)
    (starts : cmd ∈ startCommands prm noproxy proxy) : Remains (addedBy (cmds ++ [cmd])) k₀ (k.runAll [cmd]) := by
  intro f
  rw [tables_runAll_singleton, addedBy, List.filterMap_append]
  cases mine : cmd.forFamily f with
  | none =>
    rw [List.filterMap_cons_none mine, List.filterMap_nil, List.append_nil]
    exact remains f
  | some c =>
    rw [List.filterMap_cons_some mine, List.filterMap_nil]
    exact (remains f).build (vacant f) (builds_buildup c (forFamily_of_mem_startCommands starts mine))

/-- A start that is interrupted after any of its commands. -/
theorem Remains.of_start (vacant : ∀ f, Vacant (k₀.tables f)) (same : k.tables = k₀.tables)
    (starts : ∀ cmd ∈ cmds, cmd ∈ startCommands prm noproxy proxy) :
    Remains (addedBy cmds) k₀ (k.runAll cmds) := by
  induction cmds using List.reverseRecOn with
  | nil => exact .of_tables same
  | append_singleton cmds cmd ih =>
    rw [Kernel.runAll_append]
    have earlier := ih fun other member => starts other (List.mem_append_left _ member)
    exact earlier.build vacant (starts cmd (List.mem_append_right _ List.mem_cons_self))

/-! ### Stopping -/

theorem mem_takedown_of_forFamily {c : NetCommand} (stops : cmd ∈ stopCommands prm)
    (mine : cmd.forFamily f = some c) : c ∈ takedown f prm := by
  have member : c ∈ (stopCommands prm).filterMap (Command.forFamily f) := List.mem_filterMap.mpr ⟨cmd, stops, mine⟩
  rwa [forFamily_stopCommands] at member

theorem Remains.remove (pristine : ∀ f, Pristine f (k₀.tables f)) (unrouted : ∀ f, Unrouted prm (k₀.tables f))
    (remains : Remains shares k₀ k) (stops : cmd ∈ stopCommands prm) : Remains shares k₀ (k.runAll [cmd]) := by
  intro f
  rw [tables_runAll_singleton]
  cases mine : cmd.forFamily f with
  | none => exact remains f
  | some c => exact (remains f).remove (pristine f) (unrouted f) (mem_takedown_of_forFamily stops mine)

private theorem gone_runAll (pristine : ∀ f, Pristine f (k₀.tables f)) (stops : cmd ∈ stopCommands prm)
    {c : NetCommand} (gone : Gone (k.tables f) c) : Gone ((k.runAll [cmd]).tables f) c := by
  rw [tables_runAll_singleton]
  cases mine : cmd.forFamily f with
  | none => exact gone
  | some c' => exact gone.remove (pristine f) (mem_takedown_of_forFamily stops mine)

theorem Cleared.start (prm : Params) (k : Kernel) : Cleared prm [] (stopCommands prm) k :=
  ⟨rfl, fun _ _ member => absurd member List.not_mem_nil⟩

theorem Cleared.mem (cleared : Cleared prm done (cmd :: rest) k) : cmd ∈ stopCommands prm :=
  cleared.1 ▸ by simp

/-- A stop keeps its achievements while another one with the same parameters runs, -/
theorem Cleared.beside (pristine : ∀ f, Pristine f (k₀.tables f)) (cleared : Cleared prm done rest k)
    (stops : cmd ∈ stopCommands prm) : Cleared prm done rest (k.runAll [cmd]) :=
  ⟨cleared.1, fun f c member => gone_runAll pristine stops (cleared.2 f c member)⟩

/-- and while a start executes a command that none of its commands so far undoes. -/
theorem Cleared.build (cleared : Cleared prm done rest k) (starts : cmd ∈ startCommands prm noproxy proxy)
    (spared : ∀ d ∈ done, ¬ d.Undoes cmd) : Cleared prm done rest (k.runAll [cmd]) := by
  refine ⟨cleared.1, fun f c member => ?_⟩
  have gone := cleared.2 f c member
  rw [tables_runAll_singleton]
  cases mine : cmd.forFamily f with
  | none => exact gone
  | some c' =>
    obtain ⟨d, inside, is⟩ := List.mem_filterMap.mp member
    refine gone.build (builds_buildup c' (forFamily_of_mem_startCommands starts mine)) fun undoes => spared d inside ?_
    cases d <;> cases cmd <;> simp_all [Command.forFamily, Command.Undoes]

/-- The next command of a stop. -/
theorem Cleared.next (pristine : ∀ f, Pristine f (k₀.tables f)) (unrouted : ∀ f, Unrouted prm (k₀.tables f))
    (remains : Remains (fullBy prm) k₀ k) (cleared : Cleared prm done (cmd :: rest) k) :
    Cleared prm (done ++ [cmd]) rest (k.runAll [cmd]) := by
  have stops := cleared.mem
  obtain ⟨split, gone⟩ := cleared
  refine ⟨by rw [List.append_assoc]; exact split, fun f c member => ?_⟩
  rw [List.filterMap_append] at member
  rcases List.mem_append.mp member with earlier | now
  · exact gone_runAll pristine stops (gone f c earlier)
  · obtain ⟨cmd', same, mine⟩ := List.mem_filterMap.mp now
    obtain rfl := List.mem_singleton.mp same
    have splitFamily := congrArg (List.filterMap (Command.forFamily f)) split
    rw [forFamily_stopCommands, List.filterMap_append, List.filterMap_cons_some mine] at splitFamily
    rw [tables_runAll_singleton, mine]
    exact (remains f).gone (pristine f) (unrouted f) splitFamily (gone f)

/-- A stop that has nothing left to do has restored the machine. -/
theorem Cleared.restored (pristine : ∀ f, Pristine f (k₀.tables f)) (remains : Remains (fullBy prm) k₀ k)
    (cleared : Cleared prm done [] k) : k.tables = k₀.tables := by
  obtain ⟨split, gone⟩ := cleared
  rw [List.append_nil] at split
  funext f
  refine (remains f).restored (pristine f) fun c member => gone f c ?_
  rwa [split, forFamily_stopCommands]

/-- Any part of a stop leaves a leftover, -/
theorem Remains.runAll (pristine : ∀ f, Pristine f (k₀.tables f)) (unrouted : ∀ f, Unrouted prm (k₀.tables f))
    (remains : Remains shares k₀ k) (stops : ∀ cmd ∈ cmds, cmd ∈ stopCommands prm) :
    Remains shares k₀ (k.runAll cmds) := by
  induction cmds generalizing k with
  | nil => exact remains
  | cons cmd rest ih =>
    exact ih (remains.remove pristine unrouted (stops cmd List.mem_cons_self)) fun other member =>
      stops other (List.mem_cons_of_mem _ member)

/-- and has achieved what its commands are after. -/
theorem Cleared.run (pristine : ∀ f, Pristine f (k₀.tables f)) (unrouted : ∀ f, Unrouted prm (k₀.tables f))
    (remains : Remains (fullBy prm) k₀ k) (cleared : Cleared prm done (cmds ++ rest) k) :
    Cleared prm (done ++ cmds) rest (k.runAll cmds) := by
  induction cmds generalizing done k with
  | nil => rwa [List.append_nil]
  | cons cmd cmds ih =>
    have later := ih (remains.remove pristine unrouted cleared.mem) (cleared.next pristine unrouted remains)
    rwa [List.append_assoc] at later

/-- A whole stop restores the machine from a leftover. -/
theorem Remains.restored (pristine : ∀ f, Pristine f (k₀.tables f)) (unrouted : ∀ f, Unrouted prm (k₀.tables f))
    (remains : Remains (fullBy prm) k₀ k) : (k.runAll (stopCommands prm)).tables = k₀.tables := by
  have start : Cleared prm [] (stopCommands prm ++ []) k := by
    rw [List.append_nil]
    exact .start prm k
  exact (start.run pristine unrouted remains).restored pristine
    (remains.runAll pristine unrouted fun _ member => member)

end Families

end Script

end CgProxy

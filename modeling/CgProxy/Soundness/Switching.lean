import CgProxy.Soundness.Datapath

/-! # What happens to packets while the rules change

A script changes the tables command by command, and packets do not wait for it. A start hooks what it has
built up before, so at every moment a packet has the fate it had before or the one it will have after. A stop
unhooks PREROUTING first. Until its next command the marked packets still come back to the machine, and
there nobody takes them.
-/

namespace CgProxy

open Netfilter Script

/-- The command edits the chain. -/
def NetCommand.Concerns (c : Chain) (cmd : NetCommand) : Prop := ∃ e ∈ mangleEdit? cmd, e.chain = c

namespace Script

variable {f : Family} {prm : Params} {noproxy proxy : List Str} {t t₀ : FamilyTables} {c : Chain}
  {cmd : NetCommand} {cmds : List NetCommand} {r : Rule} {n : ℕ}

/-! ## Commands for other chains -/

theorem rules_runAll_of_unconcerned (others : ∀ cmd ∈ cmds, ¬ cmd.Concerns c) :
    (t.runAll cmds).mangle.rules c = t.mangle.rules c := by
  rw [FamilyTables.runAll_eq]
  refine Ruleset.rules_execAll_of_forall_ne fun e member same => ?_
  obtain ⟨cmd, inside, edit⟩ := List.mem_filterMap.mp member
  exact others cmd inside ⟨e, edit, same.symm⟩

theorem rules_runAll_take (others : ∀ cmd ∈ cmds.drop n, ¬ cmd.Concerns c) :
    (t.runAll (cmds.take n)).mangle.rules c = (t.runAll cmds).mangle.rules c := by
  have whole : t.runAll cmds = (t.runAll (cmds.take n)).runAll (cmds.drop n) := by
    rw [← FamilyTables.runAll_append, List.take_append_drop]
  rw [whole, rules_runAll_of_unconcerned others]

theorem concerns_mangle {e : Edit Chain Rule} : (NetCommand.mangle e).Concerns c ↔ e.chain = c := by
  simp [NetCommand.Concerns, mangleEdit?]

theorem concerns_buildChain {d : Chain} {rs : List Rule} (member : cmd ∈ buildChain d rs) (concerns : cmd.Concerns c) :
    c = d := by
  rcases List.mem_cons.mp member with rfl | appends
  · exact (concerns_mangle.mp concerns).symm
  · obtain ⟨r, -, rfl⟩ := List.mem_map.mp appends
    exact (concerns_mangle.mp concerns).symm

/-! ## The parts of a start -/

/-- Up to the hook of PREROUTING. -/
def preparing (f : Family) (prm : Params) : List NetCommand :=
  [.ruleAdd prm.fwmarkTproxy prm.tableTproxy, .routeAdd prm.tableTproxy] ++
    buildChain .tproxyEnt (entRules f prm) ++ buildChain .tproxyPre (preRules prm)

/-- From there up to the hook of OUTPUT. -/
def continuing (prm : Params) (noproxy proxy : List Str) : List NetCommand :=
  (if prm.fwmarkReroute ≠ prm.fwmarkTproxy then
    [.ruleAdd prm.fwmarkReroute prm.tableReroute, .routeAdd prm.tableReroute] else []) ++
    buildChain .tproxyMark (markRules prm) ++ buildChain .tproxyOut (outRules noproxy proxy)

/-- The hook of OUTPUT. -/
def finishing (f : Family) (prm : Params) : List NetCommand :=
  if prm.enableFamily f then [.mangle (.append .output outHook)] else []

/-- The gateway. -/
def masking (f : Family) (prm : Params) : List NetCommand :=
  if prm.enableGateway then [.nat (.append .postrouting (masquerade f))] else []

theorem buildup_eq : buildup f prm noproxy proxy =
    preparing f prm ++ (.mangle (.append .prerouting preHook) ::
      (continuing prm noproxy proxy ++ (finishing f prm ++ masking f prm))) := by
  simp [buildup, startFamily, preparing, continuing, finishing, masking]

theorem concerns_preparing (member : cmd ∈ preparing f prm) (concerns : cmd.Concerns c) :
    c = .tproxyEnt ∨ c = .tproxyPre := by
  simp only [preparing, List.mem_append] at member
  rcases member with (routing | ent) | pre
  · rcases List.mem_pair.mp routing with rfl | rfl <;> simp [NetCommand.Concerns, mangleEdit?] at concerns
  · exact .inl (concerns_buildChain ent concerns)
  · exact .inr (concerns_buildChain pre concerns)

theorem concerns_continuing (member : cmd ∈ continuing prm noproxy proxy) (concerns : cmd.Concerns c) :
    c = .tproxyMark ∨ c = .tproxyOut := by
  simp only [continuing, List.mem_append] at member
  rcases member with (routing | mark) | out
  · split at routing
    · rcases List.mem_pair.mp routing with rfl | rfl <;> simp [NetCommand.Concerns, mangleEdit?] at concerns
    · exact absurd routing List.not_mem_nil
  · exact .inl (concerns_buildChain mark concerns)
  · exact .inr (concerns_buildChain out concerns)

theorem concerns_finishing (member : cmd ∈ finishing f prm) (concerns : cmd.Concerns c) :
    c = .output ∧ prm.enableFamily f = true := by
  rw [finishing] at member
  split at member
  · next enabled =>
    obtain rfl := List.mem_singleton.mp member
    exact ⟨(concerns_mangle.mp concerns).symm, enabled⟩
  · exact absurd member List.not_mem_nil

theorem not_concerns_masking (member : cmd ∈ masking f prm) : ¬ cmd.Concerns c := by
  rw [masking] at member
  split at member
  · obtain rfl := List.mem_singleton.mp member
    simp [NetCommand.Concerns, mangleEdit?]
  · exact absurd member List.not_mem_nil

/-! ## The routing on the way -/

/-- The command's policy rule or table is one of the script's. -/
def Ours (prm : Params) : NetCommand → Prop
  | .ruleAdd mark table | .ruleDelete mark table =>
      (mark = prm.fwmarkTproxy ∧ table = prm.tableTproxy) ∨ (mark = prm.fwmarkReroute ∧ table = prm.tableReroute)
  | .routeAdd table | .routeFlush table => table = prm.tableTproxy ∨ table = prm.tableReroute
  | .mangle _ | .nat _ => True

theorem Rerouted.step (rerouted : Rerouted prm t₀ t) (unrouted : Unrouted prm t₀) (ours : Ours prm cmd) :
    Rerouted prm t₀ (t.runAll [cmd]) := by
  obtain ⟨⟨own, rules, ownRules⟩, ⟨added, routes, ownRoutes⟩⟩ := rerouted
  refine ⟨?_, ?_⟩
  · rw [rules_runAll_singleton, rules]
    cases cmd with
    | ruleAdd mark table =>
      rw [FamilyTables.editRules]
      by_cases here : IpRule.fwmark mark table ∈ own ++ t₀.rules
      · exact ⟨own, List.insert_of_mem here, ownRules⟩
      · refine ⟨.fwmark mark table :: own, List.insert_of_not_mem here, fun r member => ?_⟩
        rcases List.mem_cons.mp member with rfl | old
        · rcases ours with ⟨rfl, rfl⟩ | ⟨rfl, rfl⟩
          · exact .inl rfl
          · exact .inr rfl
        · exact ownRules r old
    | ruleDelete mark table =>
      have foreign : IpRule.fwmark mark table ∉ t₀.rules := by
        rcases ours with ⟨rfl, rfl⟩ | ⟨rfl, rfl⟩
        · exact unrouted.tproxyRule
        · exact unrouted.rerouteRule
      rw [FamilyTables.editRules, List.erase_append]
      split
      · exact ⟨_, rfl, fun r member => ownRules r (List.mem_of_mem_erase member)⟩
      · exact ⟨own, by rw [List.erase_of_not_mem foreign], ownRules⟩
    | _ => exact ⟨own, rfl, ownRules⟩
  · rw [routes_runAll_singleton, routes]
    cases cmd with
    | routeAdd table =>
      rw [FamilyTables.editRoutes]
      split
      · exact ⟨added, rfl, ownRoutes⟩
      · refine ⟨added ++ [(table, .localDefault)], by rw [List.append_assoc], fun route member => ?_⟩
        rcases List.mem_append.mp member with old | new
        · exact ownRoutes route old
        · obtain rfl := List.mem_singleton.mp new
          exact ⟨rfl, ours⟩
    | routeFlush table =>
      have kept : t₀.routes.filter (fun route => route.1 ≠ table) = t₀.routes :=
        List.filter_eq_self.mpr fun route member => by
          rcases ours with rfl | rfl
          · simpa using unrouted.tproxyTable route member
          · simpa using unrouted.rerouteTable route member
      rw [FamilyTables.editRoutes, List.filter_append, kept]
      exact ⟨_, rfl, fun route member => ownRoutes route (List.mem_filter.mp member).1⟩
    | _ => exact ⟨added, rfl, ownRoutes⟩

/-- Whatever of the script's commands have been executed, others' routing is in place. -/
theorem Rerouted.runAll (rerouted : Rerouted prm t₀ t) (unrouted : Unrouted prm t₀)
    (ours : ∀ cmd ∈ cmds, Ours prm cmd) : Rerouted prm t₀ (t.runAll cmds) := by
  induction cmds generalizing t with
  | nil => exact rerouted
  | cons cmd rest ih =>
    exact ih (rerouted.step unrouted (ours cmd List.mem_cons_self)) fun later member =>
      ours later (List.mem_cons_of_mem _ member)

theorem ours_of_mem_buildup (member : cmd ∈ buildup f prm noproxy proxy) : Ours prm cmd := by
  have chains {d : Chain} {rs : List Rule} (inside : cmd ∈ buildChain d rs) : Ours prm cmd := by
    rcases List.mem_cons.mp inside with rfl | appends
    · trivial
    · obtain ⟨r, -, rfl⟩ := List.mem_map.mp appends
      trivial
  rw [buildup_eq] at member
  simp only [preparing, continuing, finishing, masking, List.mem_append, List.mem_cons, List.not_mem_nil, or_false]
    at member
  rcases member with (((rfl | rfl) | ent) | pre) | rfl | (((reroute | mark) | out) | hook | mask)
  · exact .inl ⟨rfl, rfl⟩
  · exact .inl rfl
  · exact chains ent
  · exact chains pre
  · trivial
  · split at reroute
    · rcases List.mem_pair.mp reroute with rfl | rfl
      · exact .inr ⟨rfl, rfl⟩
      · exact .inr rfl
    · exact absurd reroute List.not_mem_nil
  · exact chains mark
  · exact chains out
  · split at hook
    · obtain rfl := List.mem_singleton.mp hook
      trivial
    · exact absurd hook List.not_mem_nil
  · split at mask
    · obtain rfl := List.mem_singleton.mp mask
      trivial
    · exact absurd mask List.not_mem_nil

theorem ours_of_mem_takedown (member : cmd ∈ takedown f prm) : Ours prm cmd := by
  rw [takedown, stopFamily_eq] at member
  simp only [List.mem_append, List.mem_map, stopRouting, List.mem_cons, List.not_mem_nil, or_false] at member
  rcases member with (⟨e, -, rfl⟩ | rfl | rfl | rfl | rfl) | rfl
  · trivial
  · exact .inl ⟨rfl, rfl⟩
  · exact .inr ⟨rfl, rfl⟩
  · exact .inl rfl
  · exact .inr rfl
  · trivial

/-- A start does not take back the rules it has added, -/
theorem mem_rules_of_ruleAdd {mark table : ℤ} (added : .ruleAdd mark table ∈ cmds) (builds : ∀ cmd ∈ cmds, Builds cmd) :
    .fwmark mark table ∈ (t.runAll cmds).rules := by
  induction cmds using List.reverseRecOn with
  | nil => exact absurd added List.not_mem_nil
  | append_singleton cmds cmd ih =>
    rw [FamilyTables.runAll_append, rules_runAll_singleton]
    rcases List.mem_append.mp added with earlier | now
    · have present := ih earlier fun other member => builds other (List.mem_append_left _ member)
      cases cmd with
      | ruleAdd mark' table' => exact List.mem_insert_of_mem present
      | ruleDelete mark' table' => exact (builds _ (List.mem_append_right _ List.mem_cons_self)).elim
      | _ => exact present
    · obtain rfl := List.mem_singleton.mp now
      exact List.mem_insert_self

/-- nor the routes. -/
theorem mem_routes_of_routeAdd {table : ℤ} (added : .routeAdd table ∈ cmds) (builds : ∀ cmd ∈ cmds, Builds cmd) :
    (table, .localDefault) ∈ (t.runAll cmds).routes := by
  induction cmds using List.reverseRecOn with
  | nil => exact absurd added List.not_mem_nil
  | append_singleton cmds cmd ih =>
    rw [FamilyTables.runAll_append, routes_runAll_singleton]
    rcases List.mem_append.mp added with earlier | now
    · have present := ih earlier fun other member => builds other (List.mem_append_left _ member)
      cases cmd with
      | routeAdd table' =>
        rw [FamilyTables.editRoutes]
        split
        · exact present
        · exact List.mem_append_left _ present
      | routeFlush table' => exact (builds _ (List.mem_append_right _ List.mem_cons_self)).elim
      | _ => exact present
    · obtain rfl := List.mem_singleton.mp now
      rw [FamilyTables.editRoutes]
      split
      · assumption
      · exact List.mem_append_right _ List.mem_cons_self

/-! ## A start, command by command -/

/-- The numbers of commands after which the hooks are set. -/
def preAt (f : Family) (prm : Params) : ℕ := (preparing f prm).length

def outAt (f : Family) (prm : Params) (noproxy proxy : List Str) : ℕ :=
  preAt f prm + 1 + (continuing prm noproxy proxy).length

/-- All commands of a family give a generation. -/
theorem runAll_buildup (vacant : Vacant t) (unrouted : Unrouted prm t) :
    t.runAll (buildup f prm noproxy proxy) = installed f prm noproxy proxy t := by
  have done : ((⟨fun _ => t, [], .flat [], fun _ => false⟩ : Kernel).runAll (startCommands prm noproxy proxy)).tables f = _ :=
    runAll_startCommands vacant unrouted
  rwa [Kernel.runAll_tables, forFamily_startCommands] at done

section Start

variable (alone : Alone t) (unrouted : Unrouted prm t)

include alone unrouted

/-- With the hook set, PREROUTING is in effect. -/
theorem Catching.start_take (hooked : preAt f prm < n) :
    Catching f prm t (t.runAll ((buildup f prm noproxy proxy).take n)) := by
  obtain ⟨i, rfl⟩ := Nat.exists_eq_add_of_lt hooked
  have rest : (buildup f prm noproxy proxy).drop (preAt f prm + i + 1) =
      (continuing prm noproxy proxy ++ (finishing f prm ++ masking f prm)).drop i := by
    rw [buildup_eq, Nat.add_assoc, preAt, List.drop_length_add_append, List.drop_succ_cons]
  have final {c : Chain} (own : c = .prerouting ∨ c = .tproxyPre ∨ c = .tproxyEnt) :
      (t.runAll ((buildup f prm noproxy proxy).take (preAt f prm + i + 1))).mangle.rules c =
        (installed f prm noproxy proxy t).mangle.rules c := by
    rw [← runAll_buildup alone.toVacant unrouted]
    refine rules_runAll_take fun cmd member concerns => ?_
    rw [rest] at member
    rcases List.mem_append.mp (List.mem_of_mem_drop member) with later | later
    · rcases concerns_continuing later concerns with rfl | rfl <;> simp at own
    · rcases List.mem_append.mp later with hook | mask
      · obtain ⟨rfl, -⟩ := concerns_finishing hook concerns
        simp at own
      · exact not_concerns_masking mask concerns
  have whole : Catching f prm t (installed f prm noproxy proxy t) := (Acting.installed alone unrouted).prerouting
  have begun : (buildup f prm noproxy proxy).take (preAt f prm + i + 1) =
      preparing f prm ++ (.mangle (.append .prerouting preHook) ::
        (continuing prm noproxy proxy ++ (finishing f prm ++ masking f prm)).take i) := by
    rw [buildup_eq, Nat.add_assoc, preAt, List.take_length_add_append, List.take_succ_cons]
  have builds : ∀ cmd ∈ (buildup f prm noproxy proxy).take (preAt f prm + i + 1), Builds cmd := fun cmd member =>
    builds_buildup cmd (List.mem_of_mem_take member)
  refine ⟨(final (.inl rfl)).trans whole.hook, (final (.inr (.inl rfl))).trans whole.pre,
    (final (.inr (.inr rfl))).trans whole.ent, prm.tableTproxy, ?_, unrouted.tproxyRule, ?_⟩
  · refine mem_rules_of_ruleAdd ?_ builds
    rw [begun]
    simp [preparing]
  · refine mem_routes_of_routeAdd ?_ builds
    rw [begun]
    simp [preparing]

/-- With the other hook set, OUTPUT is. -/
theorem Marking.start_take (enabled : prm.enableFamily f = true) (hooked : outAt f prm noproxy proxy < n) :
    Marking prm noproxy proxy t (t.runAll ((buildup f prm noproxy proxy).take n)) := by
  obtain ⟨i, rfl⟩ := Nat.exists_eq_add_of_lt hooked
  have pieces : buildup f prm noproxy proxy =
      (preparing f prm ++ (.mangle (.append .prerouting preHook) :: continuing prm noproxy proxy)) ++
        (.mangle (.append .output outHook) :: masking f prm) := by
    rw [buildup_eq, finishing, if_pos enabled]
    simp
  have length : (preparing f prm ++ (NetCommand.mangle (.append .prerouting preHook) ::
      continuing prm noproxy proxy)).length = outAt f prm noproxy proxy := by
    simp only [List.length_append, List.length_cons, outAt, preAt]
    omega
  have rest : (buildup f prm noproxy proxy).drop (outAt f prm noproxy proxy + i + 1) = (masking f prm).drop i := by
    rw [pieces, Nat.add_assoc, ← length, List.drop_length_add_append, List.drop_succ_cons]
  have final (c : Chain) :
      (t.runAll ((buildup f prm noproxy proxy).take (outAt f prm noproxy proxy + i + 1))).mangle.rules c =
        (installed f prm noproxy proxy t).mangle.rules c := by
    rw [← runAll_buildup alone.toVacant unrouted]
    refine rules_runAll_take fun cmd member concerns => ?_
    rw [rest] at member
    exact not_concerns_masking (List.mem_of_mem_drop member) concerns
  have whole : Marking prm noproxy proxy t (installed f prm noproxy proxy t) := by
    have installed : Acting f prm noproxy proxy true _ t _ := .installed alone unrouted
    have output := installed.output
    rwa [if_pos enabled] at output
  have begun : (buildup f prm noproxy proxy).take (outAt f prm noproxy proxy + i + 1) =
      (preparing f prm ++ (.mangle (.append .prerouting preHook) :: continuing prm noproxy proxy)) ++
        (.mangle (.append .output outHook) :: (masking f prm).take i) := by
    rw [pieces, Nat.add_assoc, ← length, List.take_length_add_append, List.take_succ_cons]
  have builds : ∀ cmd ∈ (buildup f prm noproxy proxy).take (outAt f prm noproxy proxy + i + 1), Builds cmd :=
    fun cmd member => builds_buildup cmd (List.mem_of_mem_take member)
  refine ⟨(final _).trans whole.hook, (final _).trans whole.out, (final _).trans whole.mark, ?_⟩
  by_cases same : prm.fwmarkReroute = prm.fwmarkTproxy
  · refine ⟨prm.tableTproxy, mem_rules_of_ruleAdd ?_ builds, by rw [same]; exact unrouted.tproxyRule,
      mem_routes_of_routeAdd ?_ builds⟩
    · rw [begun, same]
      simp [preparing]
    · rw [begun]
      simp [preparing]
  · refine ⟨prm.tableReroute, mem_rules_of_ruleAdd ?_ builds, unrouted.rerouteRule, mem_routes_of_routeAdd ?_ builds⟩
    · rw [begun]
      simp [continuing, same]
    · rw [begun]
      simp [continuing, same]

/-- What is in effect after any number of commands. -/
theorem Acting.start_take (n : ℕ) :
    Acting f prm noproxy proxy (decide (preAt f prm < n)) (decide (outAt f prm noproxy proxy < n) && prm.enableFamily f)
      t (t.runAll ((buildup f prm noproxy proxy).take n)) := by
  refine ⟨(Rerouted.refl prm t).runAll unrouted fun cmd member => ours_of_mem_buildup (List.mem_of_mem_take member), ?_, ?_⟩
  · split
    · next hooked => exact Catching.start_take alone unrouted (of_decide_eq_true hooked)
    · next early =>
      have few : n ≤ preAt f prm := by simpa using early
      refine Eq.trans (rules_runAll_of_unconcerned fun cmd member concerns => ?_) alone.preroutingEmpty
      rw [buildup_eq, List.take_append_of_le_length few] at member
      rcases concerns_preparing (List.mem_of_mem_take member) concerns with same | same <;> cases same
  · split
    · next hooked =>
      rw [Bool.and_eq_true] at hooked
      exact Marking.start_take alone unrouted hooked.2 (of_decide_eq_true hooked.1)
    · next early =>
      refine Eq.trans (rules_runAll_of_unconcerned fun cmd member concerns => ?_) alone.outputEmpty
      rw [buildup_eq] at member
      have piece : cmd ∈ preparing f prm ∨ cmd = .mangle (.append .prerouting preHook) ∨
          cmd ∈ continuing prm noproxy proxy ∨ (cmd ∈ finishing f prm ∧ outAt f prm noproxy proxy < n) ∨
            cmd ∈ masking f prm := by
        by_cases late : outAt f prm noproxy proxy < n
        · have inside := List.mem_of_mem_take member
          simp only [List.mem_append, List.mem_cons] at inside
          tauto
        · rw [← List.cons_append, ← List.append_assoc, List.take_append_of_le_length] at member
          · have inside := List.mem_of_mem_take member
            simp only [List.mem_append, List.mem_cons] at inside
            tauto
          · simp only [List.length_append, List.length_cons]
            rw [outAt, preAt] at late
            omega
      rcases piece with prepare | rfl | go | ⟨hook, late⟩ | mask
      · rcases concerns_preparing prepare concerns with same | same <;> cases same
      · cases concerns_mangle.mp concerns
      · rcases concerns_continuing go concerns with same | same <;> cases same
      · obtain ⟨-, enabled⟩ := concerns_finishing hook concerns
        simp [late, enabled] at early
      · exact not_concerns_masking mask concerns

end Start

/-! ## The gateway on the way -/

/-- The script's rule in the nat table is there after the last command for the family. -/
theorem nat_start_take (vacant : Vacant t) (unrouted : Unrouted prm t) (n : ℕ) :
    (t.runAll ((buildup f prm noproxy proxy).take n)).nat =
      if prm.enableGateway = true ∧ (buildup f prm noproxy proxy).length ≤ n then (masqueraded f t).nat else t.nat := by
  have earlier {cmds : List NetCommand} (within : cmds <+: startFamily f prm noproxy proxy) :
      (t.runAll cmds).nat = t.nat := by
    have none : cmds.filterMap natEdit? = [] :=
      List.prefix_nil.mp (@natEdits_startFamily prm noproxy proxy f ▸ within.filterMap natEdit?)
    rw [FamilyTables.runAll_eq, none]
    rfl
  by_cases late : (buildup f prm noproxy proxy).length ≤ n
  · rw [List.take_of_length_le late, runAll_buildup vacant unrouted]
    exact (if_congr (and_iff_left late) rfl rfl).symm
  · rw [if_neg fun both => late both.2]
    apply earlier
    cases on : prm.enableGateway with
    | true =>
      have whole : buildup f prm noproxy proxy =
          startFamily f prm noproxy proxy ++ [.nat (.append .postrouting (masquerade f))] := by simp [buildup, on]
      rw [whole, List.length_append, List.length_singleton] at late
      rw [whole, List.take_append_of_le_length (by omega)]
      exact List.take_prefix ..
    | false =>
      have whole : buildup f prm noproxy proxy = startFamily f prm noproxy proxy := by simp [buildup, on]
      rw [whole]
      exact List.take_prefix ..

/-- Forwarding is turned on after all that. -/
theorem take_of_sysctl_mem {i : ℕ} (turned : .sysctl f ∈ (startCommands prm noproxy proxy).take i) :
    ((startCommands prm noproxy proxy).take i).filterMap (Command.forFamily f) = buildup f prm noproxy proxy := by
  have on := sysctl_mem_startCommands_iff.mp (List.mem_of_mem_take turned)
  obtain ⟨netCommands, pieces, nets⟩ : ∃ cmds, startCommands prm noproxy proxy = cmds ++ [.sysctl .ipv4, .sysctl .ipv6] ∧
      .sysctl f ∉ cmds :=
    ⟨(startFamily .ipv4 prm noproxy proxy).map (.net .ipv4) ++ (startFamily .ipv6 prm noproxy proxy).map (.net .ipv6) ++
      [.net .ipv4 (.nat (.append .postrouting (masquerade .ipv4))),
        .net .ipv6 (.nat (.append .postrouting (masquerade .ipv6)))], by simp [startCommands, on], by simp⟩
  have whole : buildup f prm noproxy proxy = _ := (forFamily_startCommands f).symm
  rw [whole, pieces]
  rw [pieces] at turned
  rcases Nat.lt_or_ge netCommands.length i with late | early
  · obtain ⟨j, rfl⟩ := Nat.exists_eq_add_of_lt late
    have silent (l : List Command) (within : l <+: [.sysctl .ipv4, .sysctl .ipv6]) :
        l.filterMap (Command.forFamily f) = [] :=
      List.prefix_nil.mp (within.filterMap (Command.forFamily f))
    rw [Nat.add_assoc, List.take_length_add_append, List.filterMap_append, List.filterMap_append,
      silent _ (List.take_prefix ..), silent _ (List.prefix_refl _)]
  · rw [List.take_append_of_le_length early] at turned
    exact absurd (List.mem_of_mem_take turned) nets

/-- The last command of a stop removes the rule. -/
theorem nat_stop_take (pristine : Pristine f t) (unrouted : Unrouted prm t) (j : ℕ) :
    ((installed f prm noproxy proxy t).runAll ((takedown f prm).take j)).nat =
      if j < (takedown f prm).length then (installed f prm noproxy proxy t).nat else t.nat := by
  by_cases late : j < (takedown f prm).length
  · have none : (stopFamily f prm).filterMap natEdit? = [] := by
      simp [stopFamily_eq, stopRouting, natEdit?, List.filterMap_map, Function.comp_def]
    have first : ((takedown f prm).take j).filterMap natEdit? = [] := by
      rw [takedown, List.length_append, List.length_singleton] at late
      rw [takedown, List.take_append_of_le_length (by omega)]
      exact List.prefix_nil.mp (none ▸ (List.take_prefix ..).filterMap natEdit?)
    rw [if_pos late, FamilyTables.runAll_eq, first]
    rfl
  · rw [if_neg late, List.take_of_length_le (Nat.le_of_not_lt late), takedown, runAll_stopFamily pristine unrouted]

/-! ## A stop, command by command -/

/-- What a stop has to do when the hooks are gone. -/
def dismantling (f : Family) (prm : Params) : List NetCommand :=
  ((stopOrder f).map Edit.flush ++ (stopOrder f).map Edit.deleteChain).map .mangle ++
    (stopRouting prm ++ [.nat (.delete .postrouting (masquerade f))])

theorem takedown_eq : takedown f prm =
    .mangle (.delete .prerouting preHook) :: .mangle (.delete .output outHook) :: dismantling f prm := by
  simp [takedown, stopFamily_eq, stopEdits, dismantling]

theorem concerns_dismantling (member : cmd ∈ dismantling f prm) (concerns : cmd.Concerns c) : c ∈ stopOrder f := by
  simp only [dismantling, List.mem_append, List.mem_map, stopRouting, List.mem_cons, List.not_mem_nil, or_false]
    at member
  rcases member with ⟨e, ⟨d, own, rfl⟩ | ⟨d, own, rfl⟩, rfl⟩ | (rfl | rfl | rfl | rfl) | rfl
  · rwa [← concerns_mangle.mp concerns]
  · rwa [← concerns_mangle.mp concerns]
  all_goals simp [NetCommand.Concerns, mangleEdit?] at concerns

/-- The rest of a stop is not about the chains of others. -/
theorem rules_dismantling (others : c ∉ stopOrder f) (j : ℕ) :
    (t.runAll ((dismantling f prm).take j)).mangle.rules c = t.mangle.rules c :=
  rules_runAll_of_unconcerned fun _ member concerns =>
    others (concerns_dismantling (List.mem_of_mem_take member) concerns)

/-- The first command takes the hook out of PREROUTING and leaves OUTPUT. -/
theorem Marking.unhooked (marking : Marking prm noproxy proxy t₀ t) :
    Marking prm noproxy proxy t₀ (t.runAll [.mangle (.delete .prerouting preHook)]) := by
  have kept {c : Chain} (other : c ≠ .prerouting) :
      (t.runAll [.mangle (.delete .prerouting preHook)]).mangle.rules c = t.mangle.rules c :=
    rules_runAll_of_unconcerned fun cmd member concerns => by
      obtain rfl := List.mem_singleton.mp member
      exact other (concerns_mangle.mp concerns).symm
  refine ⟨(kept (by decide)).trans marking.hook, (kept (by decide)).trans marking.out,
    (kept (by decide)).trans marking.mark, ?_⟩
  obtain ⟨table, rule, fresh, route⟩ := marking.routed
  exact ⟨table, by rwa [rules_runAll_singleton], fresh, by rwa [routes_runAll_singleton]⟩

theorem rules_unhook (hook : t.mangle.rules c = [r] ∨ t.mangle.rules c = []) :
    (t.runAll [.mangle (.delete c r)]).mangle.rules c = [] := by
  rw [mangle_runAll_singleton]
  simp only [mangleEdit?, Option.toList_some, Ruleset.execAll_cons, Ruleset.execAll_nil]
  rw [Ruleset.rules_exec_delete]
  rcases hook with hook | empty
  · rw [hook, List.erase_cons_head]
  · rw [empty, List.erase_nil]

/-- What is still in effect after any number of commands. -/
theorem Acting.stop_take (alone : Alone t) (unrouted : Unrouted prm t) (j : ℕ) :
    Acting f prm noproxy proxy (decide (j = 0)) (decide (j < 2) && prm.enableFamily f) t
      ((Script.installed f prm noproxy proxy t).runAll ((takedown f prm).take j)) := by
  have whole : Acting f prm noproxy proxy true (prm.enableFamily f) t (Script.installed f prm noproxy proxy t) :=
    .installed alone unrouted
  have pre := whole.prerouting
  rw [if_pos rfl] at pre
  have out : (Script.installed f prm noproxy proxy t).mangle.rules .output = [outHook] ∨
      (Script.installed f prm noproxy proxy t).mangle.rules .output = [] := by
    have output := whole.output
    split at output
    · exact .inl output.hook
    · exact .inr output
  have rerouted : Rerouted prm t ((Script.installed f prm noproxy proxy t).runAll ((takedown f prm).take j)) :=
    whole.rerouted.runAll unrouted fun cmd member => ours_of_mem_takedown (List.mem_of_mem_take member)
  have unhooked := rules_unhook (r := preHook) (.inl pre.hook)
  rw [takedown_eq] at rerouted ⊢
  rcases j with _ | _ | j
  · simpa [FamilyTables.runAll] using whole
  · refine ⟨rerouted, unhooked, ?_⟩
    have output := whole.output
    simp only [Nat.zero_add, Nat.one_lt_ofNat, decide_true, Bool.true_and]
    split at output
    · next enabled =>
      rw [if_pos enabled]
      exact output.unhooked
    · next disabled =>
      rw [if_neg disabled]
      refine Eq.trans (rules_runAll_of_unconcerned fun cmd member concerns => ?_) output
      obtain rfl := List.mem_singleton.mp member
      cases concerns_mangle.mp concerns
  · have outside : ∀ c ∈ [Chain.prerouting, .output], c ∉ stopOrder f := by cases f <;> decide
    have pieces : NetCommand.mangle (.delete .prerouting preHook) :: .mangle (.delete .output outHook) ::
        (dismantling f prm).take j =
        [.mangle (.delete .prerouting preHook)] ++ ([.mangle (.delete .output outHook)] ++ (dismantling f prm).take j) := rfl
    have apart {c d : Chain} {r : Rule} (t : FamilyTables) (other : c ≠ d) :
        (t.runAll [.mangle (.delete d r)]).mangle.rules c = t.mangle.rules c :=
      rules_runAll_of_unconcerned fun cmd member concerns => by
        obtain rfl := List.mem_singleton.mp member
        exact other (concerns_mangle.mp concerns).symm
    refine ⟨rerouted, ?_, ?_⟩
    · rw [if_neg (by simp), List.take_succ_cons, List.take_succ_cons, pieces, FamilyTables.runAll_append,
        FamilyTables.runAll_append, rules_dismantling (outside _ (by simp)), apart _ (by decide)]
      exact unhooked
    · rw [if_neg (by simp), List.take_succ_cons, List.take_succ_cons, pieces, FamilyTables.runAll_append,
        FamilyTables.runAll_append, rules_dismantling (outside _ (by simp))]
      exact rules_unhook (by rwa [apart _ (by decide)])

end Script

end CgProxy

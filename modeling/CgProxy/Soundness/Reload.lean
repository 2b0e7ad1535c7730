import CgProxy.Soundness.Switching

/-! # Packets during a start, a stop and a reload

`Soundness.Switching` looks at the commands of one family. Here they come from a running script, or from the two
scripts that a daemon runs when it applies a configuration.
-/

namespace CgProxy

open Netfilter Script

/-- What is seen changes once, if at all, and gets where it should. -/
structure Hitless {α : Type*} (seen : ℕ → α) (before after : α) : Prop where
  either : ∀ n, seen n = before ∨ seen n = after
  lasting : ∀ m n, m ≤ n → seen m = after → seen n = after
  reached : ∃ n, seen n = after

namespace Hitless

variable {α : Type*} {seen : ℕ → α} {before after : α}

theorem const (same : ∀ n, seen n = after) : Hitless seen before after :=
  ⟨fun n => .inr (same n), fun _ n _ _ => same n, ⟨0, same 0⟩⟩

/-- One look at a moment that never goes away is enough. -/
theorem of_switch (switched : ℕ → Prop) [DecidablePred switched] (lasts : ∀ m n, m ≤ n → switched m → switched n)
    (reached : ∃ n, seen n = after) (eq : ∀ n, seen n = if switched n then after else before) :
    Hitless seen before after where
  either n := by
    rw [eq]
    exact (ite_eq_or_eq ..).symm
  lasting m n le arrived := by
    by_cases done : switched m
    · rw [eq, if_pos (lasts m n le done)]
    · have same : before = after := by rwa [eq, if_neg done] at arrived
      rw [eq, same, ite_self]
  reached := reached

end Hitless

section Scripts

variable {δ : Type*} {s : Surroundings δ} {f : Family} {cmds : List Command} {k k₀ : Kernel} {env : Env} {p : Packet}

/-- How many of the first commands are for the family. -/
def executed (f : Family) (cmds : List Command) (n : ℕ) : ℕ := ((cmds.take n).filterMap (Command.forFamily f)).length

theorem filterMap_take (f : Family) (cmds : List Command) (n : ℕ) :
    (cmds.take n).filterMap (Command.forFamily f) =
      (cmds.filterMap (Command.forFamily f)).take (executed f cmds n) :=
  List.prefix_iff_eq_take.mp ((List.take_prefix n cmds).filterMap _)

theorem executed_mono (f : Family) (cmds : List Command) : Monotone (executed f cmds) := fun _ _ le =>
  ((List.take_prefix_take_left le).filterMap _).length_le

@[simp] theorem executed_zero (f : Family) (cmds : List Command) : executed f cmds 0 = 0 := rfl

/-! ## Starting -/

/-- The tables at any moment of a start. -/
theorem tables_after_start {c : Config} (accepted : c.Accepted) (n : ℕ) :
    let prm := params (c.toEnv env)
    let noproxy := scriptCgroups k.hierarchy c.cgroupNoproxy
    let proxy := scriptCgroups k.hierarchy c.cgroupProxy
    (Process.after n (.launched (c.toEnv env) false) k).2.tables f =
      (k.tables f).runAll ((buildup f prm noproxy proxy).take (executed f (startCommands prm noproxy proxy) (n - 6))) := by
  intro prm noproxy proxy
  rw [(alike_after_start accepted n).tables, Kernel.runAll_tables, filterMap_take, forFamily_startCommands]
  rfl

/-- Forwarding at any moment of a start. -/
theorem forwarding_after_start {c : Config} (accepted : c.Accepted) (n : ℕ) :
    (Process.after n (.launched (c.toEnv env) false) k).2.forwarding f =
      (k.forwarding f || decide (.sysctl f ∈ (startCommands (params (c.toEnv env))
        (scriptCgroups k.hierarchy c.cgroupNoproxy) (scriptCgroups k.hierarchy c.cgroupProxy)).take (n - 6))) := by
  rw [(alike_after_start accepted n).forwarding, Kernel.runAll_forwarding]

theorem forwarding_after_start_mono {c : Config} (accepted : c.Accepted) {m n : ℕ} (le : m ≤ n)
    (on : (Process.after m (.launched (c.toEnv env) false) k).2.forwarding f = true) :
    (Process.after n (.launched (c.toEnv env) false) k).2.forwarding f = true := by
  rw [forwarding_after_start accepted, Bool.or_eq_true, decide_eq_true_eq] at on ⊢
  exact on.imp_right fun early => (List.take_prefix_take_left (Nat.sub_le_sub_right le 6)).subset early

/-- A start that is left alone comes to its end, whatever is looked at. -/
theorem exists_after_start {α : Type*} (seen : Kernel → α) (env : Env) (k : Kernel) :
    ∃ n, seen (Process.after n (.launched env false) k).2 = seen (start env k) := by
  obtain ⟨n, done⟩ := Process.start_eq env k
  exact ⟨n, by rw [done]⟩

section Moments

variable {c : Config} (accepted : c.Accepted) (ready : Ready s (params (c.toEnv env)) (k.tables p.family))
  (foreign : Foreign (params (c.toEnv env)) p)

include accepted ready

/-- What is in effect at any moment of a start. -/
theorem Acting.after_start (n : ℕ) :
    let prm := params (c.toEnv env)
    let noproxy := scriptCgroups k.hierarchy c.cgroupNoproxy
    let proxy := scriptCgroups k.hierarchy c.cgroupProxy
    let done := executed p.family (startCommands prm noproxy proxy) (n - 6)
    Acting p.family prm noproxy proxy (decide (preAt p.family prm < done))
      (decide (outAt p.family prm noproxy proxy < done) && c.enableFamily p.family) (k.tables p.family)
      ((Process.after n (.launched (c.toEnv env) false) k).2.tables p.family) := by
  intro prm noproxy proxy done
  rw [tables_after_start accepted, ← enableFamily_params c env]
  exact Acting.start_take ready.alone ready.unrouted done

theorem nat_after_start (n : ℕ) :
    let prm := params (c.toEnv env)
    let noproxy := scriptCgroups k.hierarchy c.cgroupNoproxy
    let proxy := scriptCgroups k.hierarchy c.cgroupProxy
    let done := executed p.family (startCommands prm noproxy proxy) (n - 6)
    ((Process.after n (.launched (c.toEnv env) false) k).2.tables p.family).nat =
      if decide (c.enableGateway = true ∧ (buildup p.family prm noproxy proxy).length ≤ done) then
        (masqueraded p.family (k.tables p.family)).nat
      else (k.tables p.family).nat := by
  intro prm noproxy proxy done
  rw [tables_after_start accepted, nat_start_take ready.alone.toVacant ready.unrouted]
  exact if_congr decide_eq_true_iff.symm rfl rfl

include foreign

/-- What comes in at any moment of a start. -/
theorem arrive_after_start (n : ℕ) :
    let prm := params (c.toEnv env)
    let noproxy := scriptCgroups k.hierarchy c.cgroupNoproxy
    let proxy := scriptCgroups k.hierarchy c.cgroupProxy
    let done := executed p.family (startCommands prm noproxy proxy) (n - 6)
    let now := (Process.after n (.launched (c.toEnv env) false) k).2
    now.arrive s p =
      if preAt p.family prm < done ∧ Taken prm p then handed p.family prm p
      else if c.enableGateway = true ∧ (buildup p.family prm noproxy proxy).length ≤ done then
        (k.withForwarding now.forwarding).masquerading.arrive s p
      else k.arrive s p := by
  intro prm noproxy proxy done now
  rw [(Acting.after_start accepted ready n).arrive_gateway ready foreign (nat_after_start accepted ready n)]
  simp only [decide_eq_true_eq]
  split
  · rfl
  · split
    · rfl
    · next unmasked =>
      -- forwarding is turned on last
      have same : now.forwarding p.family = k.forwarding p.family := by
        rw [forwarding_after_start accepted, decide_eq_false fun turned => unmasked ⟨?_, ?_⟩, Bool.or_false]
        · exact sysctl_mem_startCommands_iff.mp (List.mem_of_mem_take turned)
        · exact (congrArg List.length (take_of_sysctl_mem turned)).ge
      rw [arrive_withForwarding same]

/-- What PREROUTING takes is handed over from when it is hooked. -/
theorem hitless_arrive_of_taken (taken : Taken (params (c.toEnv env)) p) :
    Hitless (fun n => (Process.after n (.launched (c.toEnv env) false) k).2.arrive s p) (k.arrive s p)
      ((start (c.toEnv env) k).arrive s p) := by
  let prm := params (c.toEnv env)
  let noproxy := scriptCgroups k.hierarchy c.cgroupNoproxy
  let proxy := scriptCgroups k.hierarchy c.cgroupProxy
  let done (n : ℕ) := executed p.family (startCommands prm noproxy proxy) (n - 6)
  have more {m n : ℕ} (le : m ≤ n) : done m ≤ done n := executed_mono _ _ (Nat.sub_le_sub_right le 6)
  refine .of_switch (fun n => preAt p.family prm < done n) (fun m n le hooked => lt_of_lt_of_le hooked (more le))
    (exists_after_start (·.arrive s p) _ k) fun n => ?_
  rw [arrive_after_start accepted ready foreign, arrive_started accepted ready foreign, if_pos taken]
  by_cases hooked : preAt p.family prm < done n
  · rw [if_pos ⟨hooked, taken⟩, if_pos hooked]
  · have within : preAt p.family prm < (buildup p.family prm noproxy proxy).length := by
      simp only [preAt, buildup_eq, List.length_append, List.length_cons]
      omega
    rw [if_neg fun both => hooked both.1, if_neg hooked, if_neg fun both => hooked (lt_of_lt_of_le within both.2)]

/-- What it does not take is forwarded from when the gateway forwards and masquerades. -/
theorem hitless_arrive_of_gateway (untaken : ¬ Taken (params (c.toEnv env)) p) (gateway : c.enableGateway = true) :
    Hitless (fun n => (Process.after n (.launched (c.toEnv env) false) k).2.arrive s p) (k.arrive s p)
      ((start (c.toEnv env) k).arrive s p) := by
  let prm := params (c.toEnv env)
  let noproxy := scriptCgroups k.hierarchy c.cgroupNoproxy
  let proxy := scriptCgroups k.hierarchy c.cgroupProxy
  let done (n : ℕ) := executed p.family (startCommands prm noproxy proxy) (n - 6)
  let now (n : ℕ) := (Process.after n (.launched (c.toEnv env) false) k).2
  let whole := (buildup p.family prm noproxy proxy).length
  have more {m n : ℕ} (le : m ≤ n) : done m ≤ done n := executed_mono _ _ (Nat.sub_le_sub_right le 6)
  have turned := forwarding_start accepted env k p.family
  rw [gateway, Bool.or_true] at turned
  -- the rule in the nat table is there when forwarding is turned on, or comes when it has been on before
  refine .of_switch (fun n => (now n).forwarding p.family = true ∧ whole ≤ done n)
    (fun m n le both => ⟨forwarding_after_start_mono accepted le both.1, both.2.trans (more le)⟩)
    (exists_after_start (·.arrive s p) _ k) fun n => ?_
  rw [arrive_after_start accepted ready foreign, arrive_started accepted ready foreign, if_neg untaken,
    if_neg fun both => untaken both.2, if_pos gateway]
  by_cases masks : whole ≤ done n
  · rw [if_pos ⟨gateway, masks⟩]
    cases forwards : (now n).forwarding p.family with
    | true => rw [if_pos ⟨rfl, masks⟩, arrive_masquerading_congr ready.alone (forwards.trans turned.symm)]
    | false =>
      have before : k.forwarding p.family = false := by
        rw [forwarding_after_start accepted, Bool.or_eq_false_iff] at forwards
        exact forwards.1
      rw [if_neg fun both => Bool.false_ne_true both.1, arrive_masquerading_of_closed ready.alone forwards before]
  · rw [if_neg fun both => masks both.2, if_neg fun both => masks both.2]

/-- Packets that come in are treated as before the start until they are treated as after it. -/
theorem hitless_arrive :
    Hitless (fun n => (Process.after n (.launched (c.toEnv env) false) k).2.arrive s p) (k.arrive s p)
      ((start (c.toEnv env) k).arrive s p) := by
  by_cases taken : Taken (params (c.toEnv env)) p
  · exact hitless_arrive_of_taken accepted ready foreign taken
  · cases gateway : c.enableGateway with
    | true => exact hitless_arrive_of_gateway accepted ready foreign taken gateway
    | false =>
      have turned := forwarding_start accepted env k p.family
      rw [gateway, Bool.or_false] at turned
      refine .const fun n => ?_
      rw [arrive_after_start accepted ready foreign, arrive_started accepted ready foreign, if_neg taken,
        if_neg fun both => taken both.2, gateway, if_neg fun both => Bool.false_ne_true both.1,
        if_neg Bool.false_ne_true, arrive_withForwarding turned]

/-- So are packets of this machine. -/
theorem hitless_emit :
    Hitless (fun n => (Process.after n (.launched (c.toEnv env) false) k).2.emit s p) (k.emit s p)
      ((start (c.toEnv env) k).emit s p) := by
  let prm := params (c.toEnv env)
  let noproxy := scriptCgroups k.hierarchy c.cgroupNoproxy
  let proxy := scriptCgroups k.hierarchy c.cgroupProxy
  let done (n : ℕ) := executed p.family (startCommands prm noproxy proxy) (n - 6)
  have lasts (limit m n : ℕ) (le : m ≤ n) (reached : limit < done m) : limit < done n :=
    lt_of_lt_of_le reached (executed_mono _ _ (Nat.sub_le_sub_right le 6))
  have order (n : ℕ) (late : outAt p.family prm noproxy proxy < done n) : preAt p.family prm < done n := by
    rw [outAt] at late
    omega
  have now (n : ℕ) : (Process.after n (.launched (c.toEnv env) false) k).2.emit s p =
      if (outAt p.family prm noproxy proxy < done n ∧ c.enableFamily p.family = true) ∧ Picked prm noproxy proxy p then
        if preAt p.family prm < done n ∧ Taken prm p then handed p.family prm p else .delivered
      else if (k.tables p.family).route s p = .here ∧ preAt p.family prm < done n ∧ Taken prm p then
        handed p.family prm p
      else k.emit s p := by
    rw [Kernel.emit, (Acting.after_start accepted ready n).emit_eq ready.alone ready.unrouted ready.unconsulted foreign]
    simp only [decide_eq_true_eq, Bool.and_eq_true]
    rfl
  have after : (start (c.toEnv env) k).emit s p =
      if c.enableFamily p.family = true ∧ Picked prm noproxy proxy p then
        if Taken prm p then handed p.family prm p else .delivered
      else if (k.tables p.family).route s p = .here ∧ Taken prm p then handed p.family prm p
      else k.emit s p := by
    rw [Kernel.emit, (Acting.start accepted ready).emit_eq ready.alone ready.unrouted ready.unconsulted foreign]
    simp only [true_and]
    rfl
  have ends := exists_after_start (·.emit s p) (c.toEnv env) k
  by_cases picked : c.enableFamily p.family = true ∧ Picked prm noproxy proxy p
  · by_cases back : (k.tables p.family).route s p = .here ∧ Taken prm p
    · -- the packet comes back without a mark, too: PREROUTING decides
      refine .of_switch _ (lasts (preAt p.family prm)) ends fun n => ?_
      rw [now, after, if_pos picked, if_pos back.2]
      by_cases hooked : preAt p.family prm < done n
      · simp only [hooked, back, and_true, if_true, ite_self]
      · have early : ¬ outAt p.family prm noproxy proxy < done n := fun late => hooked (order n late)
        simp only [hooked, early, false_and, and_false, if_false]
    · refine .of_switch _ (lasts (outAt p.family prm noproxy proxy)) ends fun n => ?_
      rw [now, after, if_pos picked]
      by_cases hooked : outAt p.family prm noproxy proxy < done n
      · simp only [hooked, order n hooked, picked, true_and, and_true, if_true]
      · have stays : ¬ ((k.tables p.family).route s p = .here ∧ preAt p.family prm < done n ∧ Taken prm p) :=
          fun all => back ⟨all.1, all.2.2⟩
        simp only [hooked, false_and, if_false, if_neg stays]
  · have unpicked (n : ℕ) : ¬ ((outAt p.family prm noproxy proxy < done n ∧ c.enableFamily p.family = true) ∧
        Picked prm noproxy proxy p) := fun all => picked ⟨all.1.2, all.2⟩
    by_cases back : (k.tables p.family).route s p = .here ∧ Taken prm p
    · refine .of_switch _ (lasts (preAt p.family prm)) ends fun n => ?_
      rw [now, after, if_neg picked, if_neg (unpicked n), if_pos back]
      exact if_congr (by simp [back]) rfl rfl
    · refine .const fun n => ?_
      rw [now, after, if_neg picked, if_neg (unpicked n), if_neg back, if_neg fun all => back ⟨all.1, all.2.2⟩]

end Moments

/-! ## Stopping -/

/-- The tables at any moment of a stop that finds its chain. -/
theorem tables_after_stop (present : .tproxyEnt ∈ (k.tables .ipv4).mangle.chains) (n : ℕ) :
    (Process.after n (.launched env true) k).2.tables f =
      (k.tables f).runAll ((takedown f (params env)).take (executed f (stopCommands (params env)) (n - 2))) := by
  rw [(alike_after_stop present n).tables, Kernel.runAll_tables, filterMap_take, forFamily_stopCommands]
  rfl

/-- Without its chain a stop does nothing, however long it runs. -/
theorem after_stop_of_absent (absent : .tproxyEnt ∉ (k.tables .ipv4).mangle.chains) (env : Env) (n : ℕ) :
    (Process.after n (.launched env true) k).2 = k := by
  have ended : (Process.probing env (cgroupMountPoint env k)).step k = (.finished, k) := if_pos absent
  rcases n with _ | _ | n
  · rfl
  · rfl
  · rw [Process.after_succ, Process.step, Process.after_succ, ended, Process.after_finished]

/-- No stop touches forwarding. -/
theorem forwarding_after_stop (env : Env) (k : Kernel) (n : ℕ) :
    (Process.after n (.launched env true) k).2.forwarding = k.forwarding := by
  by_cases present : .tproxyEnt ∈ (k.tables .ipv4).mangle.chains
  · funext f
    have turns : .sysctl f ∉ (stopCommands (params env)).take (n - 2) := fun member =>
      absurd (List.mem_of_mem_take member) (by simp [stopCommands])
    rw [(alike_after_stop present n).forwarding, Kernel.runAll_forwarding, decide_eq_false turns, Bool.or_false]
  · rw [after_stop_of_absent present]

theorem forwarding_stop (env : Env) (k : Kernel) : (Script.stop env k).forwarding = k.forwarding := by
  obtain ⟨n, finished⟩ := Process.stop_eq env k
  have same := forwarding_after_stop env k n
  rwa [finished] at same

/-- Commands of which two are the first ones for the family. -/
theorem executed_append {before rest : List Command} {first second : Command} {a b : NetCommand}
    (others : before.filterMap (Command.forFamily f) = []) (isFirst : first.forFamily f = some a)
    (isSecond : second.forFamily f = some b) (i : ℕ) :
    executed f (before ++ first :: second :: rest) i =
      if i ≤ before.length then 0 else if i = before.length + 1 then 1 else 2 + executed f rest (i - before.length - 2) := by
  rw [executed]
  rcases Nat.lt_or_ge before.length i with late | early
  · obtain ⟨j, rfl⟩ := Nat.exists_eq_add_of_lt late
    rw [if_neg (by omega), Nat.add_assoc, List.take_length_add_append, List.filterMap_append, others, List.nil_append,
      List.take_succ_cons, List.filterMap_cons_some isFirst, List.length_cons]
    cases j with
    | zero => simp
    | succ j =>
      have left : before.length + (j + 1 + 1) - before.length - 2 = j := by omega
      rw [if_neg (by omega), List.take_succ_cons, List.filterMap_cons_some isSecond, List.length_cons, left, executed]
      omega
  · have none : (before.take i).filterMap (Command.forFamily f) = [] :=
      List.prefix_nil.mp (others ▸ (List.take_prefix i before).filterMap _)
    rw [if_pos early, List.take_append_of_le_length early, none, List.length_nil]

/-- The number of steps after which a stop has executed the first of its commands for the family. -/
def window : Family → ℕ
  | .ipv4 => 3
  | .ipv6 => 17

theorem executed_stop (f : Family) (prm : Params) (n : ℕ) :
    (n < window f ↔ executed f (stopCommands prm) (n - 2) = 0) ∧
      (n = window f ↔ executed f (stopCommands prm) (n - 2) = 1) := by
  have split : ∃ before first second rest a b, stopCommands prm = before ++ first :: second :: rest ∧
      before.length = window f - 3 ∧ before.filterMap (Command.forFamily f) = [] ∧
        Command.forFamily f first = some a ∧ Command.forFamily f second = some b := by
    cases f with
    | ipv4 => exact ⟨[], _, _, _, _, _, rfl, rfl, rfl, rfl, rfl⟩
    | ipv6 => exact ⟨(stopFamily .ipv4 prm).map (.net .ipv4), _, _, _, _, _, rfl, rfl, rfl, rfl, rfl⟩
  obtain ⟨before, first, second, rest, a, b, pieces, length, others, isFirst, isSecond⟩ := split
  have late : 3 ≤ window f := by cases f <;> decide
  rw [pieces, executed_append others isFirst isSecond, length]
  split
  · omega
  · split <;> omega

/-- Commands of which one is the last for the family. -/
theorem executed_lt_iff {before rest : List Command} {last : Command} {a : NetCommand}
    (isLast : last.forFamily f = some a) (others : rest.filterMap (Command.forFamily f) = []) (i : ℕ) :
    executed f (before ++ last :: rest) i < ((before ++ last :: rest).filterMap (Command.forFamily f)).length ↔
      i ≤ before.length := by
  have total : (before ++ last :: rest).filterMap (Command.forFamily f) =
      before.filterMap (Command.forFamily f) ++ [a] := by
    rw [List.filterMap_append, List.filterMap_cons_some isLast, others]
  rw [total, List.length_append, List.length_singleton]
  rcases Nat.lt_or_ge before.length i with late | early
  · refine iff_of_false (Nat.not_lt.mpr ?_) (Nat.not_le.mpr late)
    have upTo : executed f (before ++ last :: rest) (before.length + 1) =
        (before.filterMap (Command.forFamily f)).length + 1 := by
      rw [executed, List.take_length_add_append, List.take_succ_cons, List.take_zero, List.filterMap_append,
        List.filterMap_cons_some isLast, List.filterMap_nil, List.length_append, List.length_singleton]
    rw [← upTo]
    exact executed_mono f _ late
  · refine iff_of_true (Nat.lt_succ_of_le ?_) early
    rw [executed, List.take_append_of_le_length early]
    exact ((List.take_prefix i before).filterMap _).length_le

/-- The number of steps after which a stop has executed the last of its commands for the family. -/
def unmasking : Family → ℕ
  | .ipv4 => 31
  | .ipv6 => 32

theorem executed_stop_lt_iff (f : Family) (prm : Params) (n : ℕ) :
    executed f (stopCommands prm) (n - 2) < (takedown f prm).length ↔ n < unmasking f := by
  have split : ∃ before last rest a, stopCommands prm = before ++ last :: rest ∧ before.length = unmasking f - 3 ∧
      Command.forFamily f last = some a ∧ rest.filterMap (Command.forFamily f) = [] := by
    cases f with
    | ipv4 =>
      refine ⟨(stopFamily .ipv4 prm).map (.net .ipv4) ++ (stopFamily .ipv6 prm).map (.net .ipv6), _, _, _, rfl, rfl,
        rfl, rfl⟩
    | ipv6 =>
      refine ⟨(stopFamily .ipv4 prm).map (.net .ipv4) ++ (stopFamily .ipv6 prm).map (.net .ipv6) ++
        [.net .ipv4 (.nat (.delete .postrouting (masquerade .ipv4)))],
        .net .ipv6 (.nat (.delete .postrouting (masquerade .ipv6))), [], _, ?_, rfl, rfl, rfl⟩
      rw [List.append_assoc, stopCommands]
      rfl
  obtain ⟨before, last, rest, a, pieces, length, isLast, others⟩ := split
  have late : 3 ≤ unmasking f := by cases f <;> decide
  have whole : takedown f prm = _ := (forFamily_stopCommands f prm).symm
  rw [whole, pieces, executed_lt_iff isLast others, length]
  omega

section Moments

variable {g : Generation} (ready : Ready s (g.params env) (k₀.tables p.family))
  (installed : ∀ f, k.tables f = g.tables env f (k₀.tables f)) (foreign : Foreign (g.params env) p)

include ready installed

/-- The first command for a family takes PREROUTING out of effect, the next one OUTPUT. -/
theorem Acting.after_stop (n : ℕ) :
    Acting p.family (g.params env) (scriptCgroups g.hierarchy g.config.cgroupNoproxy)
      (scriptCgroups g.hierarchy g.config.cgroupProxy) (decide (n < window p.family))
      (decide (n ≤ window p.family) && g.config.enableFamily p.family) (k₀.tables p.family)
      ((Process.after n (.launched (g.config.toEnv env) true) k).2.tables p.family) := by
  have present : .tproxyEnt ∈ (k.tables .ipv4).mangle.chains := by
    rw [installed]
    exact Generation.tproxyEnt_mem_chains ..
  obtain ⟨early, first⟩ := executed_stop p.family (g.params env) n
  have acting : Acting p.family _ (scriptCgroups g.hierarchy g.config.cgroupNoproxy)
      (scriptCgroups g.hierarchy g.config.cgroupProxy) _ _ _ _ := Acting.stop_take ready.alone ready.unrouted
    (executed p.family (stopCommands (g.params env)) (n - 2))
  have few : executed p.family (stopCommands (g.params env)) (n - 2) < 2 ↔ n ≤ window p.family := by omega
  rw [tables_after_stop present, installed, ← enableFamily_params g.config env]
  simp only [← early, few] at acting
  exact acting

theorem nat_after_stop (pristine : Pristine p.family (k₀.tables p.family)) (n : ℕ) :
    ((Process.after n (.launched (g.config.toEnv env) true) k).2.tables p.family).nat =
      if decide (g.config.enableGateway = true ∧ n < unmasking p.family) then
        (masqueraded p.family (k₀.tables p.family)).nat
      else (k₀.tables p.family).nat := by
  have present : .tproxyEnt ∈ (k.tables .ipv4).mangle.chains := by
    rw [installed]
    exact Generation.tproxyEnt_mem_chains ..
  have kept : ((g.tables env p.family (k₀.tables p.family)).runAll
      ((takedown p.family (g.params env)).take (executed p.family (stopCommands (g.params env)) (n - 2)))).nat = _ :=
    nat_stop_take pristine ready.unrouted _
  rw [if_congr (executed_stop_lt_iff ..) rfl rfl] at kept
  rw [tables_after_stop present, installed]
  refine kept.trans ?_
  by_cases masked : n < unmasking p.family
  · rw [if_pos masked]
    exact if_congr (by simp only [masked, and_true, decide_eq_true_eq]; rfl) rfl rfl
  · rw [if_neg masked, if_neg fun both => masked (of_decide_eq_true both).2]

include foreign

end Moments

/-! ## A start -/

/-- No packet is lost to a start: until it is treated as after the start, it is treated as before it. -/
theorem start_hitless (c : Config) (accepted : c.Accepted) (env : Env) (k : Kernel) (s : Surroundings δ) (p : Packet)
    (ready : Ready s (params (c.toEnv env)) (k.tables p.family)) (foreign : Foreign (params (c.toEnv env)) p) :
    let moment n := (Process.after n (.launched (c.toEnv env) false) k).2
    Hitless (fun n => (moment n).emit s p) (k.emit s p) ((start (c.toEnv env) k).emit s p) ∧
      Hitless (fun n => (moment n).arrive s p) (k.arrive s p) ((start (c.toEnv env) k).arrive s p) :=
  ⟨hitless_emit accepted ready foreign, hitless_arrive accepted ready foreign⟩

/-- A DNS packet from the proxy slice, with the defaults, on a blank machine. -/
theorem start_hitless_dns :
    let c := Config.ofLists [] [] [] []
    let moment n := (Process.after n (.launched (c.toEnv {}) false) .blank).2
    Hitless (fun n => (moment n).emit outside (dnsPacket .ipv6 proxySlice)) (Kernel.blank.emit outside (dnsPacket .ipv6 proxySlice))
      ((start (c.toEnv {}) .blank).emit outside (dnsPacket .ipv6 proxySlice)) :=
  (start_hitless _ accepted_default {} .blank outside (dnsPacket .ipv6 proxySlice) (.blank _ _)
    (by decide)).1

end Scripts

/-! ## A daemon -/

/-- The kernel while the daemon runs CLEAN. -/
def Daemon.cleaning (d : Daemon) (n : ℕ) : Kernel := (Process.after n (.launched d.env true) d.kernel).2

/-- The kernel while it runs START after that. -/
def Daemon.starting (d : Daemon) (n : ℕ) : Kernel :=
  (Process.after n (.launched (d.config.toEnv d.env) false) (Script.stop d.env d.kernel)).2

/-- That START turns forwarding on for the gateway only. -/
theorem Daemon.forwarding_starting {d : Daemon} (accepted : d.config.Accepted) (f : Family) (n : ℕ) :
    (d.starting n).forwarding f = d.kernel.forwarding f ∨ d.config.enableGateway = true := by
  rw [Daemon.starting, forwarding_after_start accepted, forwarding_stop]
  by_cases turned : .sysctl f ∈ (startCommands (params (d.config.toEnv d.env))
      (scriptCgroups (Script.stop d.env d.kernel).hierarchy d.config.cgroupNoproxy)
      (scriptCgroups (Script.stop d.env d.kernel).hierarchy d.config.cgroupProxy)).take (n - 6)
  · exact .inr (sysctl_mem_startCommands_iff.mp (List.mem_of_mem_take turned))
  · rw [decide_eq_false turned, Bool.or_false]
    exact .inl rfl

/-- The daemon that has loaded what a message brings. -/
def Daemon.loading (d : Daemon) (e : Event) (c : Config) : Daemon :=
  { d with config := c, kernel := { d.kernel with hierarchy := e.hierarchy }, world := e.world }

section Runs

variable {δ : Type*} {s : Surroundings δ} {k₀ : Kernel} {env₀ : Env} {g : Generation} {d : Daemon} {e : Event}
  {c : Config} {p : Packet} {t : FamilyTables}

/-- The machine suits the generation, and the packet has none of its marks. -/
structure Suits (s : Surroundings δ) (k₀ : Kernel) (env₀ : Env) (p : Packet) (g : Generation) : Prop where
  ready : ∀ f, Ready s (g.params env₀) (k₀.tables f)
  foreign : Foreign (g.params env₀) p

/-- What a message brings is visited as soon as it has been handled. -/
theorem mem_visited_of_delivered {events : List Event} {c : Config}
    (brings : delivered e.host (events.foldl Generation.next g).config e.msg = some c) :
    ⟨c, accepted_of_delivered (events.foldl Generation.next g).accepted.reached brings, e.hierarchy⟩ ∈
      g.visited (events ++ [e]) := by
  have last := mem_visited_foldl g (events ++ [e])
  rwa [List.foldl_append, List.foldl_cons, List.foldl_nil, Generation.next_of_delivered brings] at last

/-- CLEAN leaves to START a machine without rules. -/
theorem Follows.cleaned (pristine : ∀ f, Pristine f (k₀.tables f)) (follows : Follows k₀ env₀ g d)
    (suits : Suits s k₀ env₀ p g) (h : Hierarchy) (f : Family) :
    (Script.stop d.env { d.kernel with hierarchy := h }).tables f = k₀.tables f := by
  rw [follows.env]
  exact tables_stop (k := { d.kernel with hierarchy := h }) pristine (fun f => (suits.ready f).unrouted)
    follows.tables f

/-- An event turns forwarding on if the next generation has the gateway. -/
theorem forwarding_receive {f : Family} {b : Bool} (config : d.config = g.config)
    (now : d.kernel.forwarding f = (b || g.config.enableGateway)) :
    (d.receive e).config = (g.next e).config ∧
      (d.receive e).kernel.forwarding f = (b || g.config.enableGateway || (g.next e).config.enableGateway) := by
  rw [Daemon.receive]
  rcases handleMsg_cases e.host
      { d with kernel := { d.kernel with hierarchy := e.hierarchy }, world := e.world } e.msg with
    ⟨c, brings, after⟩ | ⟨nothing, world, after⟩
  · rw [config] at brings
    have accepted := accepted_of_delivered g.accepted.reached brings
    rw [Generation.next_of_delivered brings, after]
    refine ⟨rfl, ?_⟩
    have started := forwarding_start accepted d.env (Script.stop d.env { d.kernel with hierarchy := e.hierarchy }) f
    rw [forwarding_stop] at started
    exact started.trans (congrArg (· || c.enableGateway) now)
  · rw [config] at nothing
    rw [Generation.next_of_not_delivered nothing, after]
    exact ⟨config, by rw [Bool.or_assoc, Bool.or_self]; exact now⟩

/-- Forwarding stays on once a generation has had the gateway. -/
theorem forwarding_run {f : Family} {b : Bool} (config : d.config = g.config)
    (now : d.kernel.forwarding f = (b || g.config.enableGateway)) (events : List Event) :
    (events.foldl Daemon.receive d).config = (events.foldl Generation.next g).config ∧
      (events.foldl Daemon.receive d).kernel.forwarding f =
        (b || (g.visited events).any fun h => h.config.enableGateway) := by
  induction events generalizing d g b with
  | nil => exact ⟨config, by simpa [Generation.visited] using now⟩
  | cons e rest ih =>
    obtain ⟨config', next⟩ := @forwarding_receive g d e f b config now
    have visited : g.visited (e :: rest) = g :: (g.next e).visited rest := List.scanl_cons
    rw [visited, List.any_cons, ← Bool.or_assoc]
    exact ih config' next

end Runs

/-- The configuration and the forwarding of a machine in the life of a daemon. -/
theorem forwarding_foldl {k₀ : Kernel} {env₀ : Env} {w : World} (pristine : ∀ f, Pristine f (k₀.tables f)) {host : Host}
    {file : Str} {c : Config} (loaded : Config.loadFromFile host {} file = (.ok Status.success, c))
    (events : List Event) (f : Family) :
    let g := Generation.initial k₀.hierarchy loaded
    let d := events.foldl Daemon.receive
      (Daemon.start host file { config := {}, env := env₀, kernel := k₀, world := w }).2
    d.config = (events.foldl Generation.next g).config ∧
      d.kernel.forwarding f = (k₀.forwarding f || (g.visited events).any fun h => h.config.enableGateway) := by
  have untouched : Script.stop env₀ k₀ = k₀ := stop_of_vacant (pristine .ipv4).toVacant
  refine forwarding_run ?_ ?_ events
  · rw [Daemon.start, loaded]
    rfl
  · rw [Daemon.start, loaded]
    dsimp only
    rw [if_pos rfl, Daemon.applyConfig]
    dsimp only
    rw [untouched]
    exact forwarding_start (Generation.initial k₀.hierarchy loaded).accepted env₀ k₀ f

/-- The kernel at all moments in the life of a daemon that has loaded `c` at its start and has been `d` then: while
it starts, while it applies what messages bring, and while it stops. -/
inductive Daemon.Moment (d₀ : Daemon) (c : Config) (d : Daemon) (events : List Event) : Kernel → Prop where
  | firstCleaning (n : ℕ) : Moment d₀ c d events ({ d₀ with config := c }.cleaning n)
  | firstStarting (n : ℕ) : Moment d₀ c d events ({ d₀ with config := c }.starting n)
  | cleaning {earlier later : List Event} {e : Event} {c' : Config} (split : events = earlier ++ e :: later)
      (brings : delivered e.host (earlier.foldl Daemon.receive d).config e.msg = some c') (n : ℕ) :
      Moment d₀ c d events (((earlier.foldl Daemon.receive d).loading e c').cleaning n)
  | starting {earlier later : List Event} {e : Event} {c' : Config} (split : events = earlier ++ e :: later)
      (brings : delivered e.host (earlier.foldl Daemon.receive d).config e.msg = some c') (n : ℕ) :
      Moment d₀ c d events (((earlier.foldl Daemon.receive d).loading e c').starting n)
  | stopping (n : ℕ) : Moment d₀ c d events ((events.foldl Daemon.receive d).cleaning n)

/-- What the kernel does with the packet is what it did before. -/
structure Undisturbed {δ : Type*} (s : Surroundings δ) (env₀ : Env) (k₀ : Kernel) (p : Packet) (g : Generation)
    (k : Kernel) : Prop where
  emit : ¬ g.Picks env₀ p → ¬ ((k₀.tables p.family).route s p = .here ∧ Taken (g.params env₀) p) →
    k.emit s p = k₀.emit s p
  arrive : ¬ Taken (g.params env₀) p → (g.config.enableGateway = true → (k₀.tables p.family).route s p = .here) →
    (k.forwarding p.family = k₀.forwarding p.family ∨ (k₀.tables p.family).route s p = .here) →
      k.arrive s p = k₀.arrive s p

section Undisturbed

variable {δ : Type*} {s : Surroundings δ} {k₀ k : Kernel} {env₀ : Env} {g : Generation} {d : Daemon} {p : Packet}

/-- As far as the generation is in effect. -/
theorem Undisturbed.of_acting (suits : Suits s k₀ env₀ p g) {pre out masks : Bool}
    (acting : Acting p.family (g.params env₀) (scriptCgroups g.hierarchy g.config.cgroupNoproxy)
      (scriptCgroups g.hierarchy g.config.cgroupProxy) pre (out && g.config.enableFamily p.family)
      (k₀.tables p.family) (k.tables p.family))
    (nat : (k.tables p.family).nat =
      if masks then (masqueraded p.family (k₀.tables p.family)).nat else (k₀.tables p.family).nat)
    (gateway : masks = true → g.config.enableGateway = true) : Undisturbed s env₀ k₀ p g k := by
  have ready := suits.ready p.family
  have alone : Alone ((k₀.withForwarding k.forwarding).tables p.family) := ready.alone
  have delivered : k₀.arrive s p = _ := arrive_of_alone ready.alone s
  constructor
  · intro unpicked spared
    have outside : ¬ ((out && g.config.enableFamily p.family) = true ∧
        Picked (g.params env₀) (scriptCgroups g.hierarchy g.config.cgroupNoproxy)
          (scriptCgroups g.hierarchy g.config.cgroupProxy) p) := fun both =>
      unpicked ⟨((Bool.and_eq_true _ _).mp both.1).2, both.2⟩
    rw [Kernel.emit,
      acting.emit_eq ready.alone ready.unrouted ready.unconsulted suits.foreign _ (k₀.forwarding p.family),
      if_neg outside, if_neg fun all => spared ⟨all.1, all.2.2⟩]
    rfl
  · intro spared here closed
    rw [acting.arrive_gateway ready suits.foreign nat, if_neg fun both => spared both.2]
    split
    · next masked =>
      rw [delivered, arrive_masquerading alone, here (gateway masked)]
      exact congrArg (Hop.passed .delivered _ _ p) (here (gateway masked))
    · rcases closed with same | back
      · exact arrive_withForwarding same
      · rw [delivered, arrive_of_alone alone, back]
        exact congrArg (Hop.passed .delivered _ _ p) back

theorem Undisturbed.of_alike (alike : k₀.Alike k) : Undisturbed s env₀ k₀ p g k :=
  ⟨fun _ _ => alike.emit s p, fun _ _ _ => alike.arrive s p⟩

theorem Undisturbed.cleaning (suits : Suits s k₀ env₀ p g) (pristine : ∀ f, Pristine f (k₀.tables f))
    (exported : d.env = g.config.toEnv env₀)
    (tables : ∀ f, d.kernel.tables f = g.tables env₀ f (k₀.tables f)) (n : ℕ) :
    Undisturbed s env₀ k₀ p g (d.cleaning n) := by
  rw [Daemon.cleaning, exported]
  exact .of_acting suits (Acting.after_stop (suits.ready _) tables n)
    (nat_after_stop (suits.ready _) tables (pristine _) n) fun masked => (of_decide_eq_true masked).1

/-- A start over tables like those before the run. -/
theorem Undisturbed.starting (k₁ : Kernel) (same : k₁.tables = k₀.tables) (hierarchy : k₁.hierarchy = g.hierarchy)
    (suits : Suits s k₀ env₀ p g) (n : ℕ) :
    Undisturbed s env₀ k₀ p g (Process.after n (.launched (g.config.toEnv env₀) false) k₁).2 := by
  have ready : Ready s (params (g.config.toEnv env₀)) (k₁.tables p.family) := by
    rw [same]
    exact suits.ready p.family
  have acting := Acting.after_start g.accepted ready n
  have nat := nat_after_start g.accepted ready n
  rw [same, hierarchy] at acting nat
  exact .of_acting suits acting nat fun masked => (of_decide_eq_true masked).1

end Undisturbed

/-- At every moment some generation of the run is in effect at most. -/
theorem Daemon.Moment.exists_undisturbed {δ : Type*} {s : Surroundings δ} {k₀ k : Kernel} {env₀ : Env} {w : World}
    {p : Packet} (pristine : ∀ f, Pristine f (k₀.tables f)) {host : Host} {file : Str} {c : Config}
    (loaded : Config.loadFromFile host {} file = (.ok Status.success, c)) {events : List Event}
    (suits : ∀ g ∈ (Generation.initial k₀.hierarchy loaded).visited events, Suits s k₀ env₀ p g)
    (moment : Daemon.Moment { config := {}, env := env₀, kernel := k₀, world := w } c
      (Daemon.start host file { config := {}, env := env₀, kernel := k₀, world := w }).2 events k) :
    ∃ g ∈ (Generation.initial k₀.hierarchy loaded).visited events, Undisturbed s env₀ k₀ p g k := by
  have first := mem_visited_self (Generation.initial k₀.hierarchy loaded) events
  have visited (earlier later : List Event) (split : events = earlier ++ later) :
      earlier.foldl Generation.next (Generation.initial k₀.hierarchy loaded) ∈
        (Generation.initial k₀.hierarchy loaded).visited events := by
    rw [split]
    exact mem_visited_append (mem_visited_foldl _ earlier)
  have run (earlier later : List Event) (split : events = earlier ++ later) :
      Follows k₀ env₀ (earlier.foldl Generation.next (Generation.initial k₀.hierarchy loaded))
        (earlier.foldl Daemon.receive
          (Daemon.start host file { config := {}, env := env₀, kernel := k₀, world := w }).2) :=
    .foldl_start pristine loaded earlier fun h member f =>
      ((suits h (split ▸ mem_visited_append member)).ready f).unrouted
  cases moment with
  | firstCleaning n =>
    refine ⟨_, first, .of_alike ?_⟩
    rw [Daemon.cleaning, after_stop_of_absent ((pristine .ipv4).free _ (by decide))]
    exact .refl k₀
  | firstStarting n =>
    have untouched : Script.stop env₀ k₀ = k₀ := stop_of_vacant (pristine .ipv4).toVacant
    refine ⟨_, first, ?_⟩
    rw [Daemon.starting]
    dsimp only
    rw [untouched]
    exact Undisturbed.starting k₀ rfl rfl (suits _ first) n
  | @cleaning earlier later e c' split brings n =>
    have follows := run earlier (e :: later) split
    have member := visited earlier (e :: later) split
    exact ⟨_, member, Undisturbed.cleaning (d := Daemon.loading _ e c') (suits _ member) pristine
      follows.env follows.tables n⟩
  | @starting earlier later e c' split brings n =>
    have follows := run earlier (e :: later) split
    have member := visited earlier (e :: later) split
    rw [follows.config] at brings
    have next := @mem_visited_append _ _ _ later (mem_visited_of_delivered brings)
    rw [List.append_assoc, List.singleton_append, ← split] at next
    refine ⟨_, next, ?_⟩
    rw [Daemon.starting, Daemon.loading]
    dsimp only
    have exported : c'.toEnv (earlier.foldl Daemon.receive
        (Daemon.start host file { config := {}, env := env₀, kernel := k₀, world := w }).2).env = c'.toEnv env₀ := by
      rw [follows.env]
      rfl
    rw [exported]
    exact Undisturbed.starting _ (funext (follows.cleaned pristine (suits _ member) e.hierarchy))
      (stop_hierarchy _ _) (suits _ next) n
  | stopping n =>
    have follows := run events [] (List.append_nil events).symm
    have member := visited events [] (List.append_nil events).symm
    exact ⟨_, member, .cleaning (suits _ member) pristine follows.env follows.tables n⟩

/-- And forwarding is as before the run, or some generation of the run has the gateway. -/
theorem Daemon.Moment.forwarding_cases {k₀ k : Kernel} {env₀ : Env} {w : World}
    (pristine : ∀ f, Pristine f (k₀.tables f)) {host : Host} {file : Str} {c : Config}
    (loaded : Config.loadFromFile host {} file = (.ok Status.success, c)) {events : List Event} (f : Family)
    (moment : Daemon.Moment { config := {}, env := env₀, kernel := k₀, world := w } c
      (Daemon.start host file { config := {}, env := env₀, kernel := k₀, world := w }).2 events k) :
    k.forwarding f = k₀.forwarding f ∨
      ∃ g ∈ (Generation.initial k₀.hierarchy loaded).visited events, g.config.enableGateway = true := by
  have earlierRun (earlier later : List Event) (split : events = earlier ++ later) :
      (earlier.foldl Daemon.receive
          (Daemon.start host file { config := {}, env := env₀, kernel := k₀, world := w }).2).kernel.forwarding f =
        k₀.forwarding f ∨
          ∃ g ∈ (Generation.initial k₀.hierarchy loaded).visited events, g.config.enableGateway = true := by
    rw [(forwarding_foldl pristine loaded earlier f).2]
    cases any : ((Generation.initial k₀.hierarchy loaded).visited earlier).any fun h => h.config.enableGateway with
    | false => exact .inl (Bool.or_false _)
    | true =>
      obtain ⟨g, member, gateway⟩ := List.any_eq_true.mp any
      exact .inr ⟨g, split ▸ mem_visited_append member, gateway⟩
  cases moment with
  | firstCleaning n => exact .inl (congrFun (forwarding_after_stop ..) f)
  | firstStarting n =>
    exact (Daemon.forwarding_starting (d := { config := c, env := env₀, kernel := k₀, world := w })
      (Generation.initial k₀.hierarchy loaded).accepted f n).imp_right fun gateway =>
        ⟨_, mem_visited_self _ events, gateway⟩
  | @cleaning earlier later e c' split brings n =>
    rw [Daemon.cleaning, forwarding_after_stop]
    exact earlierRun earlier (e :: later) split
  | @starting earlier later e c' split brings n =>
    rw [(forwarding_foldl pristine loaded earlier f).1] at brings
    have visited := @mem_visited_append _ _ _ later (mem_visited_of_delivered brings)
    rw [List.append_assoc, List.singleton_append, ← split] at visited
    rcases Daemon.forwarding_starting (d := Daemon.loading _ e c')
      (accepted_of_delivered (Generation.accepted _).reached brings) f n with same | gateway
    · rw [same]
      exact earlierRun earlier (e :: later) split
    · exact .inr ⟨_, visited, gateway⟩
  | stopping n =>
    rw [Daemon.cleaning, forwarding_after_stop]
    exact earlierRun events [] (List.append_nil events).symm

/-- Whatever a daemon is sent, at no moment of its life, from its start to its stop, does anything become of a
packet that would not without it, if no generation of the run picks it at OUTPUT or takes it at PREROUTING, and
none with the gateway gets it from others for others. -/
theorem undisturbed {δ : Type*} (k₀ : Kernel) (env₀ : Env) (w : World) (pristine : ∀ f, Pristine f (k₀.tables f))
    (host : Host) (file : Str) (c : Config)
    (loaded : Config.loadFromFile host {} file = (.ok Status.success, c)) (events : List Event)
    (s : Surroundings δ) (p : Packet)
    (suits : ∀ g ∈ (Generation.initial k₀.hierarchy loaded).visited events, Suits s k₀ env₀ p g)
    (k : Kernel) :
    let d₀ : Daemon := { config := {}, env := env₀, kernel := k₀, world := w }
    Daemon.Moment d₀ c (Daemon.start host file d₀).2 events k →
      ((∀ g ∈ (Generation.initial k₀.hierarchy loaded).visited events, ¬ g.Picks env₀ p ∧
          ¬ ((k₀.tables p.family).route s p = .here ∧ Taken (g.params env₀) p)) → k.emit s p = k₀.emit s p) ∧
        ((∀ g ∈ (Generation.initial k₀.hierarchy loaded).visited events, ¬ Taken (g.params env₀) p ∧
            (g.config.enableGateway = true → (k₀.tables p.family).route s p = .here)) →
          k.arrive s p = k₀.arrive s p) := by
  intro d₀ moment
  obtain ⟨g, member, same⟩ := moment.exists_undisturbed pristine loaded suits
  refine ⟨fun unpicked => same.emit (unpicked g member).1 (unpicked g member).2, fun spared => ?_⟩
  refine same.arrive (spared g member).1 (spared g member).2 ?_
  exact (moment.forwarding_cases pristine loaded p.family).imp_right fun ⟨h, visited, gateway⟩ =>
    (spared h visited).2 gateway

/-- A packet for others, all the while the file of `reloadHost` is read a second time: the machine drops it. -/
theorem undisturbed_forwarded :
    let d₀ : Daemon := { config := {}, env := {}, kernel := .blank, world := runningIn [] }
    let d := (Daemon.start reloadHost [] d₀).2
    let e : Event := ⟨reloadHost, reloadText, .flat ["a".toList], runningIn []⟩
    ∀ n, ((d.loading e (Config.ofLists [] [] [] ["/a".toList])).starting n).arrive outside (forwardedPacket .ipv4) =
      .dropped := by
  intro d₀ d e n
  have spared : ∀ g ∈ (Generation.initial Kernel.blank.hierarchy (loadFromFile_reloadHost [])).visited [e],
      Foreign (g.params {}) (forwardedPacket .ipv4) ∧ ¬ Taken (g.params {}) (forwardedPacket .ipv4) ∧
        g.config.enableGateway = false := by
    decide +kernel
  have suits : ∀ g ∈ (Generation.initial Kernel.blank.hierarchy (loadFromFile_reloadHost [])).visited [e],
      Suits outside .blank {} (forwardedPacket .ipv4) g := fun g member =>
    ⟨fun f => .blank g.config f, (spared g member).1⟩
  have moment : Daemon.Moment d₀ (Config.ofLists [] [] [] ["/a".toList]) d [e]
      ((d.loading e (Config.ofLists [] [] [] ["/a".toList])).starting n) :=
    @Daemon.Moment.starting _ _ _ _ [] [] e _ rfl (by decide +kernel) n
  exact (undisturbed .blank {} (runningIn []) Pristine.blank reloadHost [] _ (loadFromFile_reloadHost []) [e] outside
    (forwardedPacket .ipv4) suits _ moment).2 fun g member =>
      ⟨(spared g member).2.1, fun gateway => absurd ((spared g member).2.2.symm.trans gateway) Bool.false_ne_true⟩

end CgProxy

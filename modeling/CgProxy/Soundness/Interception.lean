import CgProxy.Soundness.Installed

/-! # Which packets the installed rules divert

A packet of a local process passes OUTPUT, where TPROXY_OUT sends the chosen cgroups to TPROXY_MARK.
A marked packet is routed to the loopback device and comes back through PREROUTING, where TPROXY_PRE
has to choose it again, from the packet alone. `Diverted` is the common verdict of the two passes.
-/

namespace CgProxy

open Netfilter

namespace Script

/-- The protocols a generation takes. -/
def selects (prm : Params) (p : Packet) : Bool :=
  (p.proto = .udp && p.dport = 53 && prm.enableDns) || (p.proto = .udp && prm.enableUdp) ||
    (p.proto = .tcp && prm.enableTcp)

/-- A cgroup that no noproxy rule lets out and some proxy rule takes. -/
def Chosen (noproxy proxy : List Str) (c : CgPath) : Prop :=
  (∀ e ∈ noproxy, c.under e = false) ∧ ∃ e ∈ proxy, c.under e = true

instance (noproxy proxy : List Str) (c : CgPath) : Decidable (Chosen noproxy proxy c) :=
  inferInstanceAs (Decidable (_ ∧ _))

/-- The packets of a cgroup that the rules send through the proxy. -/
structure Diverted (prm : Params) (noproxy proxy : List Str) (c : CgPath) (p : Packet) : Prop where
  original : p.reply = false
  unicast : p.dstType = .unicast
  chosen : Chosen noproxy proxy c
  selected : selects prm p = true

theorem diverted_iff {prm : Params} {noproxy proxy : List Str} {c : CgPath} {p : Packet} :
    Diverted prm noproxy proxy c p ↔
      p.reply = false ∧ Chosen noproxy proxy c ∧ p.dstType = .unicast ∧ selects prm p = true :=
  ⟨fun d => ⟨d.original, d.chosen, d.unicast, d.selected⟩, fun ⟨a, b, c, d⟩ => ⟨a, c, b, d⟩⟩

instance (prm : Params) (noproxy proxy : List Str) (c : CgPath) (p : Packet) :
    Decidable (Diverted prm noproxy proxy c p) := decidable_of_iff _ diverted_iff.symm

/-- Nothing but the script's own rules in the two chains it hooks. -/
structure Alone (t : FamilyTables) : Prop extends Vacant t where
  preroutingEmpty : t.mangle.rules .prerouting = []
  outputEmpty : t.mangle.rules .output = []

/-! ## The chains one by one -/

section Chains

variable {prm : Params} {noproxy proxy : List Str} {p : Packet} {c : CgPath}
  {enter deeper : Chain → Packet → Passage Chain Action Packet}

/-- The rules that pick the traffic fit exactly the selected packets. -/
theorem any_fits_protoRules (target : Target Chain Action) :
    (protoRules prm target).any (·.fits netfilter p) = selects prm p := by
  have dns : (if prm.enableDns then [(⟨[.proto .udp, .dport 53], target⟩ : Rule)] else []).any
      (·.fits netfilter p) = (p.proto = .udp && p.dport = 53 && prm.enableDns) := by
    cases prm.enableDns <;> simp [Rule.fits, netfilter, Condition.holds]
  have udp : (if prm.enableUdp then [(⟨[.proto .udp], target⟩ : Rule)] else []).any
      (·.fits netfilter p) = (p.proto = .udp && prm.enableUdp) := by
    cases prm.enableUdp <;> simp [Rule.fits, netfilter, Condition.holds]
  have tcp : (if prm.enableTcp then [(⟨[.proto .tcp], target⟩ : Rule)] else []).any
      (·.fits netfilter p) = (p.proto = .tcp && prm.enableTcp) := by
    cases prm.enableTcp <;> simp [Rule.fits, netfilter, Condition.holds]
  rw [protoRules, List.any_append, List.any_append, dns, udp, tcp, selects]

/-- The mark is not among the conditions of the rules. -/
theorem fits_perform_setMark (r : Rule) (mark : ℤ) :
    r.fits netfilter (netfilter.perform (.setMark mark) p) = r.fits netfilter p := by
  apply List.all_congr rfl
  intro condition
  cases condition <;> rfl

/-- What TPROXY_MARK makes of a packet. -/
def marked (prm : Params) (p : Packet) : Packet :=
  if p.dstType = .unicast ∧ selects prm p then { p with mark := prm.fwmarkReroute } else p

@[simp] theorem dstType_marked : (marked prm p).dstType = p.dstType := by
  rw [marked]
  split <;> rfl

@[simp] theorem selects_marked : selects prm (marked prm p) = selects prm p := by
  rw [marked]
  split <;> rfl

theorem marked_marked : marked prm (marked prm p) = marked prm p := by
  rw [marked, dstType_marked, selects_marked]
  by_cases taken : p.dstType = .unicast ∧ selects prm p
  · simp only [marked, if_pos taken]
  · rw [if_neg taken]

theorem fits_marked (r : Rule) : r.fits netfilter (marked prm p) = r.fits netfilter p := by
  rw [marked]
  split
  · exact fits_perform_setMark r prm.fwmarkReroute
  · rfl

variable (prm p enter) in
/-- TPROXY_MARK. -/
theorem walk_markRules :
    (walkRules netfilter enter (markRules prm) p).packet = marked prm p ∧
      (walkRules netfilter enter (markRules prm) p).exit ≠ .stopped ∧
      ∀ a, a ∈ (walkRules netfilter enter (markRules prm) p).fired ↔
        a = .setMark prm.fwmarkReroute ∧ p.dstType = .unicast ∧ selects prm p := by
  have picks : ∀ r ∈ protoRules prm (.act (.setMark prm.fwmarkReroute)),
      r.target = .act (.setMark prm.fwmarkReroute) := fun r member => target_of_mem_protoRules member
  by_cases unicast : p.dstType = .unicast
  · obtain ⟨packet, exit, fired⟩ := walkRules_acts netfilter enter p
      picks rfl
      (fun r _ => fits_perform_setMark r prm.fwmarkReroute)
    simp only [any_fits_protoRules] at packet fired
    rw [markRules, walkRules_cons_of_not_fits (by simp [Rule.fits, netfilter, Condition.holds, unicast])]
    refine ⟨packet.trans (if_congr ?_ rfl rfl), by simp [exit], by simpa [unicast] using fired⟩
    rw [and_iff_right unicast]
  · rw [markRules, walkRules_cons_ret (by simp [Rule.fits, netfilter, Condition.holds, unicast]) rfl]
    simp [unicast, marked]

theorem target_of_mem_cgroupRules (target : Target Chain Action) (cgroups : List Str) :
    ∀ r ∈ cgroupRules target cgroups, r.target = target := by
  simp [cgroupRules]

theorem any_fits_cgroupRules (sent : p.cgroup = some c) (target : Target Chain Action) (cgroups : List Str) :
    (cgroupRules target cgroups).any (·.fits netfilter p) = cgroups.any (c.under ·) := by
  simp [cgroupRules, List.any_map, Function.comp_def, Rule.fits, netfilter, Condition.holds, sent]

/-- TPROXY_OUT, when a jump to TPROXY_MARK walks that chain. -/
theorem walk_outRules (sent : p.cgroup = some c)
    (mark : ∀ q, enter .tproxyMark q = walkRules netfilter deeper (markRules prm) q) :
    (walkRules netfilter enter (outRules noproxy proxy) p).packet =
        (if Diverted prm noproxy proxy c p then { p with mark := prm.fwmarkReroute } else p) ∧
      (.setMark prm.fwmarkReroute ∈ (walkRules netfilter enter (outRules noproxy proxy) p).fired ↔
        Diverted prm noproxy proxy c p) := by
  have replyFits : (⟨[.ctdirReply], .ret⟩ : Rule).fits netfilter p = p.reply := by
    simp [Rule.fits, netfilter, Condition.holds]
  rcases Bool.eq_false_or_eq_true p.reply with reply | reply
  · rw [outRules, walkRules_cons_ret (replyFits.trans reply) rfl]
    simp [diverted_iff, reply]
  · rw [outRules, walkRules_cons_of_not_fits (replyFits.trans reply), outCgroupRules, walkRules_append,
      walkRules_guards (target_of_mem_cgroupRules .ret noproxy), any_fits_cgroupRules sent]
    cases excluded : noproxy.any (c.under ·) with
    | true =>
      obtain ⟨e, member, above⟩ := List.any_eq_true.mp excluded
      have unchosen : ¬ Chosen noproxy proxy c := fun chosen => by simp [chosen.1 e member] at above
      simp [diverted_iff, unchosen]
    | false =>
      have unexcluded : ∀ e ∈ noproxy, c.under e = false := by simpa using excluded
      have chosen : Chosen noproxy proxy c ↔ proxy.any (c.under ·) = true := by
        rw [Chosen, and_iff_right unexcluded, List.any_eq_true]
      obtain ⟨packet, exit, fired⟩ := walk_markRules prm p deeper
      obtain ⟨packet', exit', fired'⟩ := walk_markRules prm (marked prm p) deeper
      obtain ⟨jumped, -, jumpFired⟩ := walkRules_jumps netfilter enter p
        (target_of_mem_cgroupRules (.jump .tproxyMark) proxy)
        (by rwa [mark])
        (by
          rw [mark p, packet, mark]
          refine ⟨packet'.trans marked_marked, exit', fun a => ?_⟩
          rw [fired', fired, dstType_marked, selects_marked])
        (fun r _ => by rw [mark, packet, fits_marked])
      rw [any_fits_cgroupRules sent] at jumped
      simp only [any_fits_cgroupRules sent] at jumpFired
      have verdict : Diverted prm noproxy proxy c p ↔
          proxy.any (c.under ·) = true ∧ p.dstType = .unicast ∧ selects prm p = true := by
        rw [diverted_iff, and_iff_right reply, chosen]
      simp only [Bool.false_eq_true, if_false, Passage.idle, Passage.followedBy, if_true, List.nil_append,
        jumped, jumpFired, mark, packet, fired, true_and]
      constructor
      · rw [if_congr verdict rfl rfl, ite_and]
        rfl
      · rw [verdict, and_comm]

/-- The guards of TPROXY_PRE let through what is for a unicast address and, without the gateway, from a
local one. -/
theorem any_fits_preGuards_iff :
    (preGuards prm).any (·.fits netfilter p) = true ↔
      ¬ (p.dstType = .unicast ∧ (prm.enableGateway = true ∨ p.srcType = .localAddr)) := by
  have lone : p.dstType = .localAddr ∨ p.dstType ≠ .unicast ↔ p.dstType ≠ .unicast := by
    cases p.dstType <;> simp
  simp only [preGuards, List.any_append, List.any_cons, List.any_nil, Rule.fits, netfilter, Condition.holds,
    List.all_cons, List.all_nil, Bool.and_true, Bool.or_false, Bool.or_eq_true, decide_eq_true_eq, lone]
  cases prm.enableGateway <;> simp [imp_iff_not_or]

/-- TPROXY_PRE goes on with what its guards let through. -/
theorem walkRules_preRules :
    walkRules netfilter enter (preRules prm) p =
      if p.dstType = .unicast ∧ (prm.enableGateway = true ∨ p.srcType = .localAddr) then
        walkRules netfilter enter (protoRules prm (.jump .tproxyEnt)) p
      else ⟨p, .returned, [], []⟩ := by
  rw [preRules, walkRules_append, walkRules_guards (fun r member => target_of_mem_preGuards member)]
  by_cases inside : p.dstType = .unicast ∧ (prm.enableGateway = true ∨ p.srcType = .localAddr)
  · have passed : (preGuards prm).any (·.fits netfilter p) = false :=
      Bool.eq_false_iff.mpr fun fits => any_fits_preGuards_iff.mp fits inside
    rw [passed, if_pos inside]
    simp [Passage.idle, Passage.followedBy]
  · rw [any_fits_preGuards_iff.mpr inside, if_neg inside]
    rfl

/-- TPROXY_PRE. -/
theorem walk_preRules :
    .tproxyEnt ∈ (walkRules netfilter enter (preRules prm) p).entered ↔
      (p.dstType = .unicast ∧ (prm.enableGateway = true ∨ p.srcType = .localAddr)) ∧ selects prm p = true := by
  rw [walkRules_preRules]
  split
  · next inside =>
    rw [and_iff_right inside, mem_entered_walkRules (fun r member => target_of_mem_protoRules member),
      any_fits_protoRules]
  · next outside => simp [outside]

end Chains

/-! ## Both passes -/

section Passes

variable {k : Kernel} {prm : Params} {noproxy proxy : List Str}

/-- The mangle table of the family after a start. -/
def startedMangle (k : Kernel) (prm : Params) (noproxy proxy : List Str) (f : Family) : Ruleset Chain Rule :=
  ((k.runAll (startCommands prm noproxy proxy)).tables f).mangle

variable {f : Family} (alone : Alone (k.tables f))

include alone

theorem rules_startedMangle_own {c : Chain} (member : c ∈ ownNames) :
    (startedMangle k prm noproxy proxy f).rules c = (ownChains f prm noproxy proxy).rules c := by
  rw [startedMangle, mangle_startCommands _ _ _ alone.toVacant, Ruleset.rules_append_of_notMem]
  simpa using alone.free c member

theorem rules_startedMangle_prerouting :
    (startedMangle k prm noproxy proxy f).rules .prerouting = [preHook] := by
  rw [startedMangle, mangle_startCommands _ _ _ alone.toVacant,
    Ruleset.rules_append_of_mem (by simpa using alone.prerouting)]
  simp only [hooked]
  split <;> simp [Ruleset.rules_modify_of_ne, Ruleset.rules_modify_self alone.prerouting, alone.preroutingEmpty]

theorem rules_startedMangle_output :
    (startedMangle k prm noproxy proxy f).rules .output = if prm.enableFamily f then [outHook] else [] := by
  rw [startedMangle, mangle_startCommands _ _ _ alone.toVacant,
    Ruleset.rules_append_of_mem (by simpa using alone.output)]
  simp only [hooked]
  split
  · rw [Ruleset.rules_modify_self (by simpa using alone.output),
      Ruleset.rules_modify_of_ne (by decide), alone.outputEmpty, List.nil_append]
  · rw [Ruleset.rules_modify_of_ne (by decide), alone.outputEmpty]

/-- The table has more chains than any walk is deep. -/
theorem exists_length_startedMangle (prm : Params) (noproxy proxy : List Str) :
    ∃ depth, (startedMangle k prm noproxy proxy f).length = depth + 3 := by
  have own : (ownChains f prm noproxy proxy).length = 4 := rfl
  rw [startedMangle, mangle_startCommands _ _ _ alone.toVacant, List.length_append, own]
  exact ⟨(hooked f prm (k.tables f).mangle).length + 1, rfl⟩

omit alone in
theorem preHook_fits (p : Packet) : preHook.fits netfilter p = true := rfl

omit alone in
theorem outHook_fits (p : Packet) : outHook.fits netfilter p = true := rfl

/-- A jump to a chain of the script walks its rules. -/
theorem walkChain_own {c : Chain} (member : c ∈ ownNames) (noproxy proxy : List Str) (depth : ℕ) (p : Packet) :
    walkChain netfilter (startedMangle k prm noproxy proxy f) (depth + 1) c p =
      walkRules netfilter (walkChain netfilter (startedMangle k prm noproxy proxy f) depth)
        ((ownChains f prm noproxy proxy).rules c) p := by
  rw [walkChain, rules_startedMangle_own alone member]

/-- The OUTPUT pass of a packet from a local process. -/
theorem walk_output (noproxy proxy : List Str) {p : Packet} {c : CgPath} (sent : p.cgroup = some c) (enabled : prm.enableFamily f = true) :
    (walk netfilter (startedMangle k prm noproxy proxy f) .output p).packet =
        (if Diverted prm noproxy proxy c p then { p with mark := prm.fwmarkReroute } else p) ∧
      (.setMark prm.fwmarkReroute ∈ (walk netfilter (startedMangle k prm noproxy proxy f) .output p).fired ↔
        Diverted prm noproxy proxy c p) := by
  obtain ⟨depth, length⟩ := exists_length_startedMangle alone prm noproxy proxy
  obtain ⟨packet, -, fired⟩ := walkRules_hook netfilter
    (walkChain netfilter (startedMangle k prm noproxy proxy f) (depth + 2)) p (outHook_fits p) rfl
  have out : ∀ q, walkChain netfilter (startedMangle k prm noproxy proxy f) (depth + 2) .tproxyOut q =
      walkRules netfilter (walkChain netfilter (startedMangle k prm noproxy proxy f) (depth + 1))
        (outRules noproxy proxy) q := walkChain_own alone (by decide) noproxy proxy (depth + 1)
  have mark : ∀ q, walkChain netfilter (startedMangle k prm noproxy proxy f) (depth + 1) .tproxyMark q =
      walkRules netfilter (walkChain netfilter (startedMangle k prm noproxy proxy f) depth)
        (markRules prm) q := walkChain_own alone (by decide) noproxy proxy depth
  rw [walk, length, walkChain, rules_startedMangle_output alone, if_pos enabled, packet, fired, out]
  exact walk_outRules sent mark

/-- The PREROUTING pass. -/
theorem walk_prerouting (noproxy proxy : List Str) (p : Packet) :
    .tproxyEnt ∈ (walk netfilter (startedMangle k prm noproxy proxy f) .prerouting p).entered ↔
      (p.dstType = .unicast ∧ (prm.enableGateway = true ∨ p.srcType = .localAddr)) ∧ selects prm p = true := by
  obtain ⟨depth, length⟩ := exists_length_startedMangle alone prm noproxy proxy
  obtain ⟨-, entered, -⟩ := walkRules_hook netfilter
    (walkChain netfilter (startedMangle k prm noproxy proxy f) (depth + 2)) p (preHook_fits p) rfl
  have pre : walkChain netfilter (startedMangle k prm noproxy proxy f) (depth + 2) .tproxyPre p =
      walkRules netfilter (walkChain netfilter (startedMangle k prm noproxy proxy f) (depth + 1))
        (preRules prm) p := walkChain_own alone (by decide) noproxy proxy (depth + 1) p
  rw [walk, length, walkChain, rules_startedMangle_prerouting alone, entered, pre, List.mem_cons,
    or_iff_right (by decide)]
  exact walk_preRules

end Passes

/-- The interception law: what OUTPUT marks is what PREROUTING hands to TPROXY_ENT, and that is
exactly the diverted traffic; OUTPUT does not touch the mark of anything else. -/
theorem interception_law (k : Kernel) (prm : Params) (noproxy proxy : List Str) (p : Packet) (c : CgPath)
    (alone : Alone (k.tables p.family)) (sent : p.cgroup = some c) (enabled : prm.enableFamily p.family = true) :
    let table := startedMangle k prm noproxy proxy p.family
    let out := walk netfilter table .output p
    let pre := walk netfilter table .prerouting { out.packet with srcType := .localAddr }
    (.setMark prm.fwmarkReroute ∈ out.fired ∧ .tproxyEnt ∈ pre.entered ↔ Diverted prm noproxy proxy c p) ∧
      (¬ Diverted prm noproxy proxy c p → out.packet.mark = p.mark) := by
  intro table out pre
  obtain ⟨packet, fired⟩ := walk_output alone noproxy proxy sent enabled
  by_cases diverted : Diverted prm noproxy proxy c p
  · have remarked : out.packet = { p with mark := prm.fwmarkReroute } := packet.trans (if_pos diverted)
    have entered : .tproxyEnt ∈ pre.entered := by
      apply (walk_prerouting alone noproxy proxy _).mpr
      rw [remarked]
      exact ⟨⟨diverted.unicast, .inr rfl⟩, diverted.selected⟩
    exact ⟨iff_of_true ⟨fired.mpr diverted, entered⟩ diverted, fun undiverted => absurd diverted undiverted⟩
  · have unmarked : out.packet = p := packet.trans (if_neg diverted)
    refine ⟨iff_of_false (fun both => diverted (fired.mp both.1)) diverted, fun _ => ?_⟩
    rw [unmarked]

theorem Alone.blank (f : Family) : Alone (Kernel.blank.tables f) where
  prerouting := (by decide : Chain.prerouting ∈ FamilyTables.blank.mangle.chains)
  output := (by decide : Chain.output ∈ FamilyTables.blank.mangle.chains)
  postrouting := (by decide : Chain.postrouting ∈ FamilyTables.blank.nat.chains)
  free := (by decide : ∀ c ∈ ownNames, c ∉ FamilyTables.blank.mangle.chains)
  preroutingEmpty := rfl
  outputEmpty := rfl

/-- A first HTTPS packet of a process in the cgroup. -/
def httpsPacket (f : Family) (c : CgPath) : Packet where
  family := f
  proto := .tcp
  dport := 443
  reply := false
  dstType := .unicast
  srcType := .localAddr
  cgroup := some c
  socket := false
  mark := 0

theorem interception_law_https :
    let p := httpsPacket .ipv4 (.ofStr "/proxy.slice/a".toList)
    let table :=
      startedMangle .blank (params {}) [cgroupNoproxyPreserved] [cgroupProxyPreserved] p.family
    let out := walk netfilter table .output p
    .tproxyEnt ∈ (walk netfilter table .prerouting { out.packet with srcType := .localAddr }).entered :=
  ((interception_law .blank (params {}) [cgroupNoproxyPreserved] [cgroupProxyPreserved]
    (httpsPacket .ipv4 (.ofStr "/proxy.slice/a".toList)) (.ofStr "/proxy.slice/a".toList)
    (.blank .ipv4) rfl rfl).1.mpr (by decide)).2

end Script

end CgProxy

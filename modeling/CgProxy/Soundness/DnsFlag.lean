import CgProxy.Soundness.DisabledFamily

/-! # What the flag for DNS decides

The rule for DNS and the rule for UDP match overlapping packets and stand in the same chains, so a DNS
packet is taken when either of the two is there. The flag alone decides as long as the other rule is not
installed, or it is set itself.
-/

namespace CgProxy

open Netfilter Script

/-- A UDP packet to port 53. -/
def Packet.Dns (p : Packet) : Prop := p.proto = .udp ∧ p.dport = 53

/-- PREROUTING sends the packet to TPROXY_ENT. -/
def Sent (k : Kernel) (p : Packet) : Prop :=
  .tproxyEnt ∈ (walk netfilter (k.tables p.family).mangle .prerouting p).entered

theorem selects_dns {prm : Params} {p : Packet} (dns : p.Dns) :
    selects prm p = (prm.enableDns || prm.enableUdp) := by
  simp [selects, dns.1, dns.2]

namespace Script

section Unsent

variable {k : Kernel} {prm : Params} {f : Family} {noproxy proxy : List Str} {p : Packet}
  {enter : Chain → Packet → Passage Chain Action Packet}

theorem any_fits_cgroupRules_unsent (unsent : p.cgroup = none) (target : Target Chain Action) (cgroups : List Str) :
    (cgroupRules target cgroups).any (·.fits netfilter p) = false := by
  simp [cgroupRules, List.any_map, Function.comp_def, Rule.fits, netfilter, Condition.holds, unsent]

/-- A packet of no process passes TPROXY_OUT without an action. -/
theorem fired_outRules_unsent (unsent : p.cgroup = none) :
    (walkRules netfilter enter (outRules noproxy proxy) p).fired = [] := by
  have replyFits : (⟨[.ctdirReply], .ret⟩ : Rule).fits netfilter p = p.reply := by
    simp [Rule.fits, netfilter, Condition.holds]
  have none := any_fits_cgroupRules_unsent unsent
  rcases Bool.eq_false_or_eq_true p.reply with reply | original
  · rw [outRules, walkRules_cons_ret (replyFits.trans reply) rfl]
  · have idle : walkRules netfilter enter (cgroupRules (.jump .tproxyMark) proxy) p = .idle p := by
      rw [walkRules_jumps_stopped (target_of_mem_cgroupRules (.jump .tproxyMark) proxy) (by simp [none]), none,
        if_neg Bool.false_ne_true]
    rw [outRules, walkRules_cons_of_not_fits (replyFits.trans original), outCgroupRules, walkRules_append,
      walkRules_guards (target_of_mem_cgroupRules .ret noproxy), none, if_neg Bool.false_ne_true]
    simp [Passage.idle, Passage.followedBy, idle]

theorem fired_output_unsent (alone : Alone (k.tables f)) (unsent : p.cgroup = none) :
    (walk netfilter (startedMangle k prm noproxy proxy f) .output p).fired = [] := by
  obtain ⟨depth, length⟩ := exists_length_startedMangle alone prm noproxy proxy
  rw [walk, length, walkChain, rules_startedMangle_output alone]
  split
  · obtain ⟨-, -, fired⟩ := walkRules_hook netfilter
      (walkChain netfilter (startedMangle k prm noproxy proxy f) (depth + 2)) p (outHook_fits p) rfl
    rw [fired, walkChain_own alone (by decide)]
    exact fired_outRules_unsent unsent
  · rfl

end Unsent

end Script

/-! ## Marks and entries after a start -/

section Started

variable {c : Config} {env : Env} {k : Kernel} {p : Packet}

/-- The packets that are marked at OUTPUT. -/
theorem marked_start_iff (accepted : c.Accepted) (alone : Alone (k.tables p.family)) :
    Marked (start (c.toEnv env) k) (params (c.toEnv env)) p ↔
      c.enableFamily p.family = true ∧ ∃ cg, p.cgroup = some cg ∧
        Diverted (params (c.toEnv env)) (scriptCgroups k.hierarchy c.cgroupNoproxy)
          (scriptCgroups k.hierarchy c.cgroupProxy) cg p := by
  rw [← enableFamily_params c env]
  rcases Bool.eq_false_or_eq_true ((params (c.toEnv env)).enableFamily p.family) with enabled | disabled
  · rw [and_iff_right enabled]
    cases sent : p.cgroup with
    | none =>
      rw [Marked, mangle_start_accepted accepted, fired_output_unsent (alone_prepared alone) sent]
      simp
    | some cg =>
      rw [marked_iff accepted alone sent enabled]
      simp
  · simp [disabled, not_marked_of_disabled accepted alone disabled]

/-- The packets that are sent to TPROXY_ENT. -/
theorem sent_start_iff (accepted : c.Accepted) (alone : Alone (k.tables p.family)) :
    Sent (start (c.toEnv env) k) p ↔
      (p.dstType = .unicast ∧ (c.enableGateway = true ∨ p.srcType = .localAddr)) ∧
        selects (params (c.toEnv env)) p = true := by
  rw [Sent, mangle_start_accepted accepted]
  exact walk_prerouting (alone_prepared alone) _ _ p

end Started

/-! ## The flag -/

/-- The flag of the configuration decides what happens to DNS: without it no DNS packet is taken, and with
it all are for which the rest of the configuration speaks. -/
structure DnsDecides (c : Config) (env : Env) (k : Kernel) : Prop where
  off : c.enableDns = false → ∀ p : Packet, p.Dns →
    ¬ Marked (start (c.toEnv env) k) (params (c.toEnv env)) p ∧ ¬ Sent (start (c.toEnv env) k) p
  on : c.enableDns = true → ∀ p : Packet, p.Dns →
    (Marked (start (c.toEnv env) k) (params (c.toEnv env)) p ↔
      c.enableFamily p.family = true ∧ p.reply = false ∧ p.dstType = .unicast ∧ ∃ cg, p.cgroup = some cg ∧
        Chosen (scriptCgroups k.hierarchy c.cgroupNoproxy) (scriptCgroups k.hierarchy c.cgroupProxy) cg) ∧
    (Sent (start (c.toEnv env) k) p ↔
      p.dstType = .unicast ∧ (c.enableGateway = true ∨ p.srcType = .localAddr))

/-- A first DNS packet of a process in the cgroup. -/
def dnsPacket (f : Family) (c : CgPath) : Packet := { httpsPacket f c with proto := .udp, dport := 53 }

/-- It does, unless the rule for UDP stands in for that for DNS. -/
theorem dns_decides_iff (c : Config) (accepted : c.Accepted) (env : Env) (k : Kernel)
    (alone : ∀ f, Alone (k.tables f)) : DnsDecides c env k ↔ c.enableDns = true ∨ c.enableUdp = false := by
  have selected {p : Packet} (dns : p.Dns) :
      selects (params (c.toEnv env)) p = (c.enableDns || c.enableUdp) := selects_dns dns
  constructor
  · intro decides
    by_contra! stands
    obtain ⟨noDns, udp⟩ := stands
    have unsent := (decides.off (by simpa using noDns) (dnsPacket .ipv4 .root) ⟨rfl, rfl⟩).2
    rw [sent_start_iff accepted (alone _), selected ⟨rfl, rfl⟩] at unsent
    exact unsent ⟨⟨rfl, .inr rfl⟩, by simpa [noDns] using udp⟩
  · intro decided
    constructor
    · intro noDns p dns
      have none : selects (params (c.toEnv env)) p = false := by
        rw [selected dns, noDns, decided.resolve_left (by simp [noDns])]
        rfl
      constructor
      · rw [marked_start_iff accepted (alone _)]
        rintro ⟨-, cg, -, diverted⟩
        rw [diverted.selected] at none
        contradiction
      · rw [sent_start_iff accepted (alone _), none]
        simp
    · intro yes p dns
      have taken : selects (params (c.toEnv env)) p = true := by rw [selected dns, yes, Bool.true_or]
      constructor
      · rw [marked_start_iff accepted (alone _)]
        simp only [diverted_iff, taken, and_true]
        tauto
      · rw [sent_start_iff accepted (alone _), taken, and_iff_left rfl]

/-- The defaults take DNS. -/
theorem dns_decides_default : DnsDecides (Config.ofLists [] [] [] []) {} .blank :=
  (dns_decides_iff (Config.ofLists [] [] [] [])
    (Config.accepted_of_slices ⟨rfl, rfl⟩ ⟨rfl, rfl⟩ (by constructor <;> decide)) {} .blank .blank).mpr (.inl rfl)

/-- Everything but DNS. -/
def dnslessConfig : Config := { Config.ofLists [] [] [] [] with enableDns := false }

/-- A DNS packet from the proxy slice is marked all the same, and sent on. -/
theorem dnsless_marked :
    let p := dnsPacket .ipv4 proxySlice
    dnslessConfig.Accepted ∧ dnslessConfig.enableDns = false ∧ p.Dns ∧
      Marked (start (dnslessConfig.toEnv {}) .blank) (params (dnslessConfig.toEnv {})) p ∧
      Sent (start (dnslessConfig.toEnv {}) .blank) p := by
  have accepted : dnslessConfig.Accepted :=
    Config.accepted_of_slices ⟨rfl, rfl⟩ ⟨rfl, rfl⟩ (by constructor <;> decide)
  refine ⟨accepted, rfl, ⟨rfl, rfl⟩, ?_, ?_⟩
  · rw [marked_start_iff accepted (.blank _)]
    refine ⟨rfl, proxySlice, rfl, ⟨rfl, rfl, ?_, rfl⟩⟩
    exact (chosen_proxySlice_iff accepted).mpr (by decide)
  · rw [sent_start_iff accepted (.blank _)]
    exact ⟨⟨rfl, .inr rfl⟩, rfl⟩

end CgProxy

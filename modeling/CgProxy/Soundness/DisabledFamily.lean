import CgProxy.Soundness.Loading

/-! # What happens to a disabled family

The flag of a family decides over its OUTPUT hook. The other hook is installed in any case, so packets
of a disabled family that come to PREROUTING walk through TPROXY_PRE like those of an enabled one, and
what passes its guards is marked for a local socket or handed to the proxy.
-/

namespace CgProxy

open Netfilter Script

/-- The walk has not changed the mark and has not handed the packet to TPROXY. -/
def Untouched (passage : Passage Chain Action Packet) (p : Packet) : Prop :=
  passage.packet.mark = p.mark ∧ ∀ onIp onPort mark, .tproxy onIp onPort mark ∉ passage.fired

/-- The packets that pass the guards of TPROXY_PRE and are changed by TPROXY_ENT. -/
def Entered (prm : Params) (p : Packet) : Prop :=
  p.dstType = .unicast ∧ (prm.enableGateway = true ∨ p.srcType = .localAddr) ∧ selects prm p = true ∧
    (p.socket = true → p.mark ≠ prm.fwmarkTproxy)

namespace Script

section Chains

variable {f : Family} {prm : Params} {p : Packet} {enter : Chain → Packet → Passage Chain Action Packet}

/-- TPROXY_ENT, when the packet has a socket. -/
theorem walk_entRules_socket (socket : p.socket = true) :
    walkRules netfilter enter (entRules f prm) p =
      ⟨{ p with mark := prm.fwmarkTproxy }, .stopped, [], [.setMark prm.fwmarkTproxy, .accept]⟩ := by
  have fits (target : Target Chain Action) (q : Packet) (same : q.socket = p.socket) :
      (⟨[.socket], target⟩ : Rule).fits netfilter q = true := by
    simp [Rule.fits, netfilter, Condition.holds, same, socket]
  rw [entRules, walkRules_cons_act (fits _ p rfl) rfl]
  simp only [walkRules, fits _ (netfilter.perform (.setMark prm.fwmarkTproxy) p) rfl, if_true]
  rfl

/-- TPROXY_ENT, when the packet has none and is of a protocol that can be selected. -/
theorem walk_entRules_proto (unbound : p.socket = false) (known : p.proto = .tcp ∨ p.proto = .udp) :
    walkRules netfilter enter (entRules f prm) p =
      ⟨{ p with mark := prm.fwmarkTproxy }, .stopped, [], [.tproxy (onIp f) prm.port prm.fwmarkTproxy]⟩ := by
  have skips (target : Target Chain Action) : (⟨[.socket], target⟩ : Rule).fits netfilter p = false := by
    simp [Rule.fits, netfilter, Condition.holds, unbound]
  rw [entRules, walkRules_cons_of_not_fits (skips _), walkRules_cons_of_not_fits (skips _)]
  rcases known with tcp | udp
  · simp [walkRules, Rule.fits, netfilter, Condition.holds, Action.perform, tcp]
  · simp [walkRules, Rule.fits, netfilter, Condition.holds, Action.perform, udp]

theorem proto_of_selects (selected : selects prm p = true) : p.proto = .tcp ∨ p.proto = .udp := by
  simp only [selects, Bool.or_eq_true, Bool.and_eq_true, decide_eq_true_eq] at selected
  tauto

/-- A selected packet does not come back from TPROXY_ENT. -/
theorem stopped_entRules (selected : selects prm p = true) :
    (walkRules netfilter enter (entRules f prm) p).exit = .stopped := by
  rcases Bool.eq_false_or_eq_true p.socket with socket | unbound
  · rw [walk_entRules_socket socket]
  · rw [walk_entRules_proto unbound (proto_of_selects selected)]

theorem untouched_entRules_iff (selected : selects prm p = true) :
    Untouched (walkRules netfilter enter (entRules f prm) p) p ↔
      p.socket = true ∧ p.mark = prm.fwmarkTproxy := by
  rcases Bool.eq_false_or_eq_true p.socket with socket | unbound
  · rw [walk_entRules_socket socket]
    simp [Untouched, socket, eq_comm]
  · rw [walk_entRules_proto unbound (proto_of_selects selected)]
    simp [Untouched, unbound]

/-- TPROXY_PRE, when a jump to TPROXY_ENT walks that chain. -/
theorem untouched_preRules_iff {deeper : Chain → Packet → Passage Chain Action Packet}
    (ent : ∀ q, enter .tproxyEnt q = walkRules netfilter deeper (entRules f prm) q) :
    Untouched (walkRules netfilter enter (preRules prm) p) p ↔ ¬ Entered prm p := by
  rw [walkRules_preRules]
  split
  · next inside =>
    have ends (picked : (protoRules prm (.jump .tproxyEnt)).any (·.fits netfilter p) = true) :
        (enter .tproxyEnt p).exit = .stopped := by
      rw [any_fits_protoRules] at picked
      rw [ent]
      exact stopped_entRules picked
    have jumps := walkRules_jumps_stopped (fun r member => target_of_mem_protoRules member) ends
    rw [any_fits_protoRules] at jumps
    rw [Entered, and_iff_right inside.1, and_iff_right inside.2, jumps]
    rcases Bool.eq_false_or_eq_true (selects prm p) with selected | unselected
    · have reached : Untouched (walkRules netfilter deeper (entRules f prm) p) p ↔
          p.socket = true ∧ p.mark = prm.fwmarkTproxy := untouched_entRules_iff selected
      rw [← ent] at reached
      simp only [selected, if_true, true_and]
      exact reached.trans (by tauto)
    · simp [unselected, Untouched, Passage.idle]
  · next outside =>
    have unentered : ¬ Entered prm p := fun entered => outside ⟨entered.1, entered.2.1⟩
    simp [Untouched, unentered]

end Chains

section Started

variable {k : Kernel} {prm : Params} {f : Family} (alone : Alone (k.tables f)) (noproxy proxy : List Str)
  (p : Packet)

include alone

/-- The PREROUTING hook, of either family. -/
theorem untouched_prerouting_iff :
    Untouched (walk netfilter (startedMangle k prm noproxy proxy f) .prerouting p) p ↔ ¬ Entered prm p := by
  obtain ⟨depth, length⟩ := exists_length_startedMangle alone prm noproxy proxy
  obtain ⟨packet, -, fired⟩ := walkRules_hook netfilter
    (walkChain netfilter (startedMangle k prm noproxy proxy f) (depth + 2)) p (preHook_fits p) rfl
  have pre : walkChain netfilter (startedMangle k prm noproxy proxy f) (depth + 2) .tproxyPre p =
      walkRules netfilter (walkChain netfilter (startedMangle k prm noproxy proxy f) (depth + 1))
        (preRules prm) p := walkChain_own alone (by decide) noproxy proxy (depth + 1) p
  have ent : ∀ q, walkChain netfilter (startedMangle k prm noproxy proxy f) (depth + 1) .tproxyEnt q =
      walkRules netfilter (walkChain netfilter (startedMangle k prm noproxy proxy f) depth)
        (entRules f prm) q := walkChain_own alone (by decide) noproxy proxy depth
  rw [walk, length, walkChain, rules_startedMangle_prerouting alone, Untouched, packet, fired, pre]
  exact untouched_preRules_iff ent

/-- The OUTPUT hook of a disabled family is empty. -/
theorem untouched_output (disabled : prm.enableFamily f = false) :
    Untouched (walk netfilter (startedMangle k prm noproxy proxy f) .output p) p := by
  obtain ⟨depth, length⟩ := exists_length_startedMangle alone prm noproxy proxy
  rw [walk, length, walkChain, rules_startedMangle_output alone, disabled]
  simp [walkRules, Passage.idle, Untouched]

end Started

end Script

/-- The flag of a family. -/
def Config.enableFamily (c : Config) : Family → Bool
  | .ipv4 => c.enableIpv4
  | .ipv6 => c.enableIpv6

theorem enableFamily_params (c : Config) (env : Env) (f : Family) :
    (params (c.toEnv env)).enableFamily f = c.enableFamily f := by
  cases f <;> rfl

/-- A packet of a disabled family is left alone at both hooks, unless it passes the guards of TPROXY_PRE
and is of a protocol that is taken. -/
theorem disabled_untouched_iff (c : Config) (accepted : c.Accepted) (env : Env) (k : Kernel) (p : Packet)
    (alone : Alone (k.tables p.family)) (disabled : c.enableFamily p.family = false) :
    (∀ hook ∈ [Chain.prerouting, .output],
        Untouched (walk netfilter ((start (c.toEnv env) k).tables p.family).mangle hook p) p) ↔
      ¬ Entered (params (c.toEnv env)) p := by
  have alone' := alone_prepared alone
  have output := untouched_output alone' (scriptCgroups k.hierarchy c.cgroupNoproxy)
    (scriptCgroups k.hierarchy c.cgroupProxy) p ((enableFamily_params c env p.family).trans disabled)
  rw [mangle_start_accepted accepted, List.forall_mem_cons, List.forall_mem_singleton, and_iff_left output]
  exact untouched_prerouting_iff alone' _ _ p

/-- A machine that forwards for others and leaves IPv4 to them. -/
def gatewayConfig : Config :=
  { Config.ofLists [] [] [] [] with enableIpv4 := false, enableGateway := true }

/-- Whatever the flags are, a configuration without programs can be loaded. -/
theorem Config.accepted_of_lists {c : Config} (programs : c.programProxy = [] ∧ c.programNoproxy = [])
    (proxy : ReservedFirst cgroupProxyPreserved c.cgroupProxy)
    (noproxy : ReservedFirst cgroupNoproxyPreserved c.cgroupNoproxy) (numbers : Numbers c) : c.Accepted := by
  have settled : Settled (singleHost [] c.toJson.reparsed) c :=
    ⟨proxy, noproxy, numbers, fun _ member => by simp [programs.1] at member,
      fun _ member => by simp [programs.2] at member⟩
  exact ⟨{}, _, [], .init, loadFromJsonStr_toJson settled {} (parse_singleHost _ _)⟩

/-- With the reserved cgroups alone. -/
theorem Config.accepted_of_slices {c : Config} (programs : c.programProxy = [] ∧ c.programNoproxy = [])
    (slices : c.cgroupProxy = [cgroupProxyPreserved] ∧ c.cgroupNoproxy = [cgroupNoproxyPreserved])
    (numbers : Numbers c) : c.Accepted := by
  have alone {reserved : Str} (valid : validCgroup reserved = true) : ReservedFirst reserved [reserved] :=
    .of_merge valid (List.forall_mem_nil _)
  refine Config.accepted_of_lists programs ?_ ?_ numbers
  · rw [slices.1]
    exact alone (by decide)
  · rw [slices.2]
    exact alone (by decide)

theorem accepted_gatewayConfig : gatewayConfig.Accepted :=
  Config.accepted_of_slices ⟨rfl, rfl⟩ ⟨rfl, rfl⟩ (by constructor <;> decide)

/-- The same packet as a guest of the gateway sends it. -/
def forwardedPacket (f : Family) : Packet :=
  { httpsPacket f (.ofStr []) with srcType := .unicast, cgroup := none }

/-- What is meant for the gateway itself is not taken. -/
theorem disabled_untouched_local :
    let p := { forwardedPacket .ipv4 with dstType := .localAddr }
    Untouched (walk netfilter ((start (gatewayConfig.toEnv {}) .blank).tables p.family).mangle .prerouting p) p := by
  intro p
  have unentered : ¬ Entered (params (gatewayConfig.toEnv {})) p := fun entered => by cases entered.1
  exact (disabled_untouched_iff gatewayConfig accepted_gatewayConfig {} .blank p (.blank .ipv4) rfl).mpr unentered
    .prerouting List.mem_cons_self

/-- An IPv4 packet on its way through the gateway is handed to the proxy all the same. -/
theorem disabled_touched_forwarded :
    gatewayConfig.Accepted ∧ gatewayConfig.enableIpv4 = false ∧
      ¬ Untouched (walk netfilter ((start (gatewayConfig.toEnv {}) .blank).tables .ipv4).mangle .prerouting
        (forwardedPacket .ipv4)) (forwardedPacket .ipv4) := by
  refine ⟨accepted_gatewayConfig, rfl, ?_⟩
  rw [mangle_start_accepted accepted_gatewayConfig, untouched_prerouting_iff (alone_prepared (.blank .ipv4)), not_not]
  exact ⟨rfl, .inl rfl, rfl, fun bound => by cases bound⟩

end CgProxy

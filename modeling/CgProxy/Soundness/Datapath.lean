import CgProxy.Model.Datapath
import CgProxy.Netfilter.Frames
import CgProxy.Soundness.DnsFlag
import CgProxy.Soundness.Restart

/-! # Where packets end up

The two hooks of a family's tables decide, together with the policy rules behind them. `Acting` says which of
the two are in effect, whatever else of a generation is there, and `arrive_eq` and `emit_eq` say what becomes
of every packet then. Both hold at any moment of a script, see `Soundness.Switching`.
-/

namespace CgProxy

open Netfilter Script

namespace Script

variable {δ : Type*} {s : Surroundings δ} {f : Family} {prm : Params} {noproxy proxy : List Str}
  {t₀ t : FamilyTables} {p : Packet}

/-! ## Routing -/

/-- Nobody else consults the tables of the script. -/
def Unconsulted (s : Surroundings δ) (prm : Params) (t : FamilyTables) : Prop :=
  ∀ r ∈ t.rules, ∀ p table, r.consults s p = some table → table ≠ prm.tableTproxy ∧ table ≠ prm.tableReroute

/-- The packet has no mark of the script. -/
def Foreign (prm : Params) (p : Packet) : Prop := p.mark ≠ prm.fwmarkTproxy ∧ p.mark ≠ prm.fwmarkReroute

instance (prm : Params) (p : Packet) : Decidable (Foreign prm p) := inferInstanceAs (Decidable (_ ∧ _))

/-- The routing of other software, with any part of that of the script. -/
structure Rerouted (prm : Params) (t₀ t : FamilyTables) : Prop where
  rules : ∃ own, t.rules = own ++ t₀.rules ∧ ∀ r ∈ own,
    r = .fwmark prm.fwmarkTproxy prm.tableTproxy ∨ r = .fwmark prm.fwmarkReroute prm.tableReroute
  routes : ∃ own, t.routes = t₀.routes ++ own ∧ ∀ route ∈ own,
    route.2 = .localDefault ∧ (route.1 = prm.tableTproxy ∨ route.1 = prm.tableReroute)

/-- A rule of the script leads packets with the mark to its default route. -/
def Routed (t₀ t : FamilyTables) (mark : ℤ) : Prop :=
  ∃ table, .fwmark mark table ∈ t.rules ∧ .fwmark mark table ∉ t₀.rules ∧ (table, .localDefault) ∈ t.routes

theorem Rerouted.refl (prm : Params) (t : FamilyTables) : Rerouted prm t t :=
  ⟨⟨[], rfl, List.forall_mem_nil _⟩, ⟨[], (List.append_nil _).symm, List.forall_mem_nil _⟩⟩

/-- The tables that are not the script's answer as before. -/
theorem Rerouted.answers_of_ne (rerouted : Rerouted prm t₀ t) {table : ℤ}
    (other : table ≠ prm.tableTproxy ∧ table ≠ prm.tableReroute) : t.answers s table p = t₀.answers s table p := by
  obtain ⟨own, routes, ours⟩ := rerouted.routes
  have apart (route : ℤ × Route) (member : route ∈ own) : route.1 ≠ table := by
    rintro rfl
    exact (ours route member).2.elim other.1 other.2
  have silent : own.findSome? (fun route => if route.1 = table then route.2.answers s p else none) = none :=
    List.findSome?_eq_none_iff.mpr fun route member => if_neg (apart route member)
  have absent : own.any (· = (table, .localDefault)) = false :=
    List.any_eq_false.mpr fun route member => by
      have differ : route ≠ (table, .localDefault) := fun same => apart route member (by rw [same])
      simpa using differ
  rw [FamilyTables.answers, FamilyTables.answers, routes, List.findSome?_append, silent, Option.or_none,
    List.any_append, absent, Bool.or_false]

/-- The script's own tables have the default route or none. -/
theorem Rerouted.answers_own (rerouted : Rerouted prm t₀ t) (unrouted : Unrouted prm t₀) {table : ℤ}
    (own : table = prm.tableTproxy ∨ table = prm.tableReroute) :
    t.answers s table p = if (table, .localDefault) ∈ t.routes then some .here else none := by
  obtain ⟨added, routes, ours⟩ := rerouted.routes
  have silent : t.routes.findSome? (fun route => if route.1 = table then route.2.answers s p else none) = none := by
    refine List.findSome?_eq_none_iff.mpr fun route member => ?_
    rw [routes] at member
    rcases List.mem_append.mp member with old | new
    · refine if_neg ?_
      rintro rfl
      exact own.elim (unrouted.tproxyTable route old) (unrouted.rerouteTable route old)
    · rw [(ours route new).1]
      exact ite_self _
  have present : t.routes.any (· = (table, .localDefault)) = true ↔ (table, .localDefault) ∈ t.routes := by simp
  rw [FamilyTables.answers, silent, Option.none_or]
  exact if_congr present rfl rfl

/-- A packet without the script's marks is routed as if the script did not exist. -/
theorem Rerouted.route_of_foreign (rerouted : Rerouted prm t₀ t) (unconsulted : Unconsulted s prm t₀)
    (foreign : Foreign prm p) : t.route s p = t₀.route s p := by
  obtain ⟨own, rules, ours⟩ := rerouted.rules
  have silent : ∀ r ∈ own, (t.policy s).advice r p = none := by
    intro r member
    have skips : r.consults s p = none := by
      rcases ours r member with rfl | rfl
      · exact if_neg foreign.1
      · exact if_neg foreign.2
    exact Option.bind_eq_none_iff.mpr fun table consults => by cases skips.symm.trans consults
  have same : (t.policy s).lookup t₀.rules p = (t₀.policy s).lookup t₀.rules p :=
    Policy.lookup_congr (fun _ _ => rfl) fun r member table consulted =>
      rerouted.answers_of_ne (unconsulted r member p table consulted)
  rw [FamilyTables.route, FamilyTables.route, rules, Policy.lookup_append_of_silent silent, same]

/-- A packet with a mark that is routed comes to the machine. -/
theorem Rerouted.route_of_routed (rerouted : Rerouted prm t₀ t) (unrouted : Unrouted prm t₀)
    (unicast : p.dstType = .unicast) (routed : Routed t₀ t p.mark) : t.route s p = .here := by
  obtain ⟨own, rules, ours⟩ := rerouted.rules
  obtain ⟨table, present, fresh, route⟩ := routed
  have tables (r : IpRule) (member : r ∈ own) {consulted : ℤ} (consults : r.consults s p = some consulted) :
      consulted = prm.tableTproxy ∨ consulted = prm.tableReroute := by
    rcases ours r member with rfl | rfl
    · exact .inl (by rw [IpRule.consults] at consults; split at consults <;> simp_all)
    · exact .inr (by rw [IpRule.consults] at consults; split at consults <;> simp_all)
  have agree : ∀ r ∈ own, ∀ advised, (t.policy s).advice r p = some advised → advised = .here := by
    intro r member advised advises
    obtain ⟨consulted, consults, answers⟩ := Option.bind_eq_some_iff.mp advises
    have answer : t.answers s consulted p = some advised := answers
    rw [rerouted.answers_own unrouted (tables r member consults)] at answer
    split at answer
    · exact (Option.some.inj answer).symm
    · cases answer
  have decides : ∃ r ∈ own, (t.policy s).advice r p = some .here := by
    rw [rules] at present
    have mine := (List.mem_append.mp present).resolve_right fresh
    have consults : (IpRule.fwmark p.mark table).consults s p = some table := if_pos rfl
    refine ⟨_, mine, ?_⟩
    exact Option.bind_eq_some_iff.mpr
      ⟨table, consults, (rerouted.answers_own unrouted (tables _ mine consults)).trans (if_pos route)⟩
  have decided : (t.policy s).lookup t.rules p = some .here := by
    rw [rules]
    exact Policy.lookup_append_of_agree agree decides
  rw [FamilyTables.route, if_neg (by simp [unicast]), if_neg (by simp [unicast]), decided, Option.getD_some]

/-! ## The hooks -/

/-- What PREROUTING takes, when TPROXY_PRE is hooked. -/
def Taken (prm : Params) (p : Packet) : Prop :=
  (p.dstType = .unicast ∧ (prm.enableGateway = true ∨ p.srcType = .localAddr)) ∧ selects prm p = true

instance (prm : Params) (p : Packet) : Decidable (Taken prm p) := inferInstanceAs (Decidable (_ ∧ _))

/-- What OUTPUT marks, when TPROXY_OUT is hooked. -/
def Picked (prm : Params) (noproxy proxy : List Str) (p : Packet) : Prop :=
  ∃ c ∈ p.cgroup, Diverted prm noproxy proxy c p

instance (prm : Params) (noproxy proxy : List Str) (p : Packet) : Decidable (Picked prm noproxy proxy p) :=
  inferInstanceAs (Decidable (∃ c ∈ p.cgroup, _))

/-- What TPROXY_ENT does with a packet: a socket that is there keeps it. -/
def handed (f : Family) (prm : Params) (p : Packet) : Fate δ :=
  if p.socket then .delivered else .proxied (onIp f) prm.port

/-- PREROUTING is in effect. -/
structure Catching (f : Family) (prm : Params) (t₀ t : FamilyTables) : Prop where
  hook : t.mangle.rules .prerouting = [preHook]
  pre : t.mangle.rules .tproxyPre = preRules prm
  ent : t.mangle.rules .tproxyEnt = entRules f prm
  routed : Routed t₀ t prm.fwmarkTproxy

/-- OUTPUT is in effect. -/
structure Marking (prm : Params) (noproxy proxy : List Str) (t₀ t : FamilyTables) : Prop where
  hook : t.mangle.rules .output = [outHook]
  out : t.mangle.rules .tproxyOut = outRules noproxy proxy
  mark : t.mangle.rules .tproxyMark = markRules prm
  routed : Routed t₀ t prm.fwmarkReroute

/-- Each of the hooks is in effect or not there. -/
structure Acting (f : Family) (prm : Params) (noproxy proxy : List Str) (pre out : Bool) (t₀ t : FamilyTables) : Prop where
  rerouted : Rerouted prm t₀ t
  prerouting : if pre then Catching f prm t₀ t else t.mangle.rules .prerouting = []
  output : if out then Marking prm noproxy proxy t₀ t else t.mangle.rules .output = []

/-- A table with the rules of a hook and two more chains is walked as deep as they need. -/
theorem exists_length {m : Ruleset Chain Rule} {a b c : Chain} (nodup : [a, b, c].Nodup)
    (some : ∀ d ∈ [a, b, c], m.rules d ≠ []) : ∃ depth, m.length = depth + 3 := by
  obtain ⟨depth, same⟩ := Nat.exists_eq_add_of_le (Ruleset.length_le_of_rules_ne_nil nodup some)
  exact ⟨depth, same.trans (Nat.add_comm ..)⟩

theorem walk_entRules (known : selects prm p = true) {enter : Chain → Packet → Passage Chain Action Packet} :
    (walkRules netfilter enter (entRules f prm) p).packet = { p with mark := prm.fwmarkTproxy } ∧
      (walkRules netfilter enter (entRules f prm) p).fired.findSome? Action.listener? =
        if p.socket then none else some (onIp f, prm.port) := by
  rcases Bool.eq_false_or_eq_true p.socket with socket | unbound
  · rw [walk_entRules_socket socket, socket]
    exact ⟨rfl, rfl⟩
  · rw [walk_entRules_proto unbound (proto_of_selects known), unbound]
    exact ⟨rfl, rfl⟩

/-- The walk from PREROUTING. -/
theorem Catching.walk (catching : Catching f prm t₀ t) (p : Packet) :
    let passage := Netfilter.walk netfilter t.mangle .prerouting p
    (Taken prm p → passage.packet = { p with mark := prm.fwmarkTproxy } ∧
        passage.fired.findSome? Action.listener? = if p.socket then none else some (onIp f, prm.port)) ∧
      (¬ Taken prm p → passage.packet = p ∧ passage.fired = []) := by
  obtain ⟨depth, length⟩ := exists_length (m := t.mangle) (a := .prerouting) (b := .tproxyPre) (c := .tproxyEnt)
    (by decide) (by simp [catching.hook, catching.pre, catching.ent, preRules, preGuards, entRules])
  obtain ⟨packet, -, fired⟩ := walkRules_hook netfilter (walkChain netfilter t.mangle (depth + 2)) p (preHook_fits p) rfl
  have pre : walkChain netfilter t.mangle (depth + 2) .tproxyPre p =
      walkRules netfilter (walkChain netfilter t.mangle (depth + 1)) (preRules prm) p := by
    rw [walkChain, catching.pre]
  have ent : walkChain netfilter t.mangle (depth + 1) .tproxyEnt p =
      walkRules netfilter (walkChain netfilter t.mangle depth) (entRules f prm) p := by
    rw [walkChain, catching.ent]
  intro passage
  have passes : passage = walkRules netfilter (walkChain netfilter t.mangle (depth + 2)) [preHook] p := by
    rw [← catching.hook]
    exact congrArg (walkChain netfilter t.mangle · .prerouting p) length
  have ends (picked : (protoRules prm (.jump .tproxyEnt)).any (·.fits netfilter p) = true) :
      (walkChain netfilter t.mangle (depth + 1) .tproxyEnt p).exit = .stopped := by
    rw [ent]
    exact stopped_entRules ((any_fits_protoRules _).symm.trans picked)
  have jumps := walkRules_jumps_stopped (fun r member => target_of_mem_protoRules member) ends
  rw [any_fits_protoRules] at jumps
  rw [passes, packet, fired, pre, walkRules_preRules, jumps, ent]
  constructor
  · intro taken
    rw [if_pos taken.1, if_pos taken.2]
    exact walk_entRules taken.2
  · intro spared
    split
    · next inside =>
      rw [if_neg fun known => spared ⟨inside, known⟩]
      exact ⟨rfl, rfl⟩
    · exact ⟨rfl, rfl⟩

/-- A packet of no process passes TPROXY_OUT unchanged. -/
theorem walk_outRules_unsent {enter : Chain → Packet → Passage Chain Action Packet} (unsent : p.cgroup = none) :
    (walkRules netfilter enter (outRules noproxy proxy) p).packet = p := by
  have replyFits : (⟨[.ctdirReply], .ret⟩ : Rule).fits netfilter p = p.reply := by
    simp [Rule.fits, netfilter, Condition.holds]
  have none := any_fits_cgroupRules_unsent unsent
  rcases Bool.eq_false_or_eq_true p.reply with reply | original
  · rw [outRules, walkRules_cons_ret (replyFits.trans reply) rfl]
  · have idle : walkRules netfilter enter (cgroupRules (.jump .tproxyMark) proxy) p = .idle p := by
      rw [walkRules_jumps_stopped (target_of_mem_cgroupRules (.jump .tproxyMark) proxy) (by simp [none]), none,
        if_neg Bool.false_ne_true]
    rw [outRules, walkRules_cons_of_not_fits (replyFits.trans original), outCgroupRules, walkRules_append,
      walkRules_guards (target_of_mem_cgroupRules .ret noproxy), none, if_neg Bool.false_ne_true]
    simp [Passage.idle, Passage.followedBy, idle]

/-- The walk from OUTPUT. -/
theorem Marking.walk (marking : Marking prm noproxy proxy t₀ t) (p : Packet) :
    (Netfilter.walk netfilter t.mangle .output p).packet =
      if Picked prm noproxy proxy p then { p with mark := prm.fwmarkReroute } else p := by
  obtain ⟨depth, length⟩ := exists_length (m := t.mangle) (a := .output) (b := .tproxyOut) (c := .tproxyMark)
    (by decide) (by simp [marking.hook, marking.out, marking.mark, outRules, markRules])
  obtain ⟨packet, -, -⟩ := walkRules_hook netfilter (walkChain netfilter t.mangle (depth + 2)) p (outHook_fits p) rfl
  have out : walkChain netfilter t.mangle (depth + 2) .tproxyOut p =
      walkRules netfilter (walkChain netfilter t.mangle (depth + 1)) (outRules noproxy proxy) p := by
    rw [walkChain, marking.out]
  have mark : ∀ q, walkChain netfilter t.mangle (depth + 1) .tproxyMark q =
      walkRules netfilter (walkChain netfilter t.mangle depth) (markRules prm) q := fun q => by
    rw [walkChain, marking.mark]
  rw [Netfilter.walk, length, walkChain, marking.hook, packet, out]
  cases sent : p.cgroup with
  | none =>
    have unpicked : ¬ Picked prm noproxy proxy p := by simp [Picked, sent]
    rw [if_neg unpicked, walk_outRules_unsent sent]
  | some c =>
    have picked : Picked prm noproxy proxy p ↔ Diverted prm noproxy proxy c p := by simp [Picked, sent]
    rw [(walk_outRules sent mark).1, if_congr picked rfl rfl, sent]

/-! ## The fates -/

/-- What `Alone` says of the hooks. -/
theorem Acting.of_alone (prm : Params) (noproxy proxy : List Str) (alone : Alone t) :
    Acting f prm noproxy proxy false false t t :=
  ⟨.refl prm t, alone.preroutingEmpty, alone.outputEmpty⟩

section Fates

variable {pre out : Bool} (acting : Acting f prm noproxy proxy pre out t₀ t)

include acting

/-- What PREROUTING takes is handed over, -/
theorem Acting.arrive_of_taken (unrouted : Unrouted prm t₀) (catches : pre = true) (taken : Taken prm p)
    (forwarding : Bool) : t.arrive s forwarding p = handed f prm p := by
  have catching := acting.prerouting
  rw [if_pos catches] at catching
  obtain ⟨packet, listener⟩ := (catching.walk p).1 taken
  have here : t.route s { p with mark := prm.fwmarkTproxy } = .here :=
    acting.rerouted.route_of_routed unrouted taken.1.1 catching.routed
  simp only [FamilyTables.arrive, packet, here, listener, handed, Hop.passed]
  cases p.socket <;> rfl

/-- and what it does not take is only routed. -/
theorem Acting.arrive_of_spared (spared : ¬ (pre = true ∧ Taken prm p)) (forwarding : Bool) :
    t.arrive s forwarding p = (t.route s p).passed .delivered forwarding (t.masquerades p) p := by
  have idle : (walk netfilter t.mangle .prerouting p).packet = p ∧ (walk netfilter t.mangle .prerouting p).fired = [] := by
    cases pre with
    | true =>
      have catching : Catching f prm t₀ t := acting.prerouting
      exact (catching.walk p).2 fun taken => spared ⟨rfl, taken⟩
    | false =>
      rw [walk_of_rules_eq_nil acting.prerouting]
      exact ⟨rfl, rfl⟩
  simp only [FamilyTables.arrive, idle.1, idle.2, List.findSome?_nil, Fate.ofListener]

/-- What becomes of a packet that comes in. -/
theorem Acting.arrive_eq (unrouted : Unrouted prm t₀) (unconsulted : Unconsulted s prm t₀) (foreign : Foreign prm p)
    (forwarding : Bool) :
    t.arrive s forwarding p =
      if pre = true ∧ Taken prm p then handed f prm p
      else (t₀.route s p).passed .delivered forwarding (t.masquerades p) p := by
  split
  · next both => exact acting.arrive_of_taken unrouted both.1 both.2 forwarding
  · next spared => rw [acting.arrive_of_spared spared, acting.rerouted.route_of_foreign unconsulted foreign]

/-- What becomes of a packet of this machine. It is not forwarded. -/
theorem Acting.emit_eq (alone : Alone t₀) (unrouted : Unrouted prm t₀) (unconsulted : Unconsulted s prm t₀)
    (foreign : Foreign prm p) (forwarding forwarding₀ : Bool) :
    t.emit s forwarding p =
      if out = true ∧ Picked prm noproxy proxy p then
        if pre = true ∧ Taken prm p then handed f prm p else .delivered
      else if t₀.route s p = .here ∧ pre = true ∧ Taken prm p then handed f prm p
      else t₀.emit s forwarding₀ p := by
  have passed : (walk netfilter t.mangle .output p).packet =
      if out = true ∧ Picked prm noproxy proxy p then { p with mark := prm.fwmarkReroute } else p := by
    cases out with
    | true =>
      have marking : Marking prm noproxy proxy t₀ t := acting.output
      rw [marking.walk]
      exact (if_congr (and_iff_right rfl) rfl rfl).symm
    | false =>
      rw [walk_of_rules_eq_nil acting.output, if_neg fun both => Bool.false_ne_true both.1]
      rfl
  by_cases picked : out = true ∧ Picked prm noproxy proxy p
  · rw [if_pos picked] at passed ⊢
    have marking : Marking prm noproxy proxy t₀ t := by simpa only [picked.1, if_true] using acting.output
    obtain ⟨c, -, diverted⟩ := picked.2
    have here : t.route s { p with mark := prm.fwmarkReroute } = .here :=
      acting.rerouted.route_of_routed unrouted diverted.unicast marking.routed
    have back : t.emit s forwarding p = t.arrive s forwarding { p with mark := prm.fwmarkReroute } := by
      simp only [FamilyTables.emit, passed, here, Hop.fate]
    rw [back]
    split
    · next both =>
      exact acting.arrive_of_taken (p := { p with mark := prm.fwmarkReroute }) unrouted both.1 both.2 forwarding
    · next spared =>
      rw [acting.arrive_of_spared (p := { p with mark := prm.fwmarkReroute }) spared, here]
      rfl
  · rw [if_neg picked] at passed ⊢
    have unmarked : (walk netfilter t₀.mangle .output p).packet = p := by
      rw [walk_of_rules_eq_nil alone.outputEmpty]
      rfl
    have same := acting.rerouted.route_of_foreign unconsulted foreign
    have before : t₀.arrive s forwarding₀ p = _ :=
      (Acting.of_alone (f := f) prm noproxy proxy alone).arrive_eq unrouted unconsulted foreign forwarding₀
    have now := acting.arrive_eq unrouted unconsulted foreign forwarding
    simp only [FamilyTables.emit, passed, unmarked, same, before, now]
    cases t₀.route s p with
    | away next => simp [Hop.fate]
    | here => simp [Hop.fate, Hop.passed]

end Fates

/-! ## After a start -/

section Installed

variable (alone : Alone t) (unrouted : Unrouted prm t)

theorem Rerouted.installed (f : Family) (prm : Params) (noproxy proxy : List Str) (t : FamilyTables) :
    Rerouted prm t (installed f prm noproxy proxy t) where
  rules := by
    refine ⟨_, rules_installed_eq, fun r member => ?_⟩
    obtain ⟨pair, inside, rfl⟩ := List.mem_map.mp member
    rw [Params.routings] at inside
    split at inside
    · obtain rfl := List.mem_singleton.mp inside
      exact .inl rfl
    · rcases List.mem_pair.mp inside with rfl | rfl
      · exact .inr rfl
      · exact .inl rfl
  routes := by
    refine ⟨_, routes_installed_eq, fun route member => ?_⟩
    obtain ⟨table, inside, rfl⟩ := List.mem_map.mp member
    refine ⟨rfl, ?_⟩
    rw [Params.routed] at inside
    split at inside
    · exact .inl (List.mem_singleton.mp inside)
    · exact List.mem_pair.mp inside

include unrouted

theorem Routed.installed_tproxy : Routed t (installed f prm noproxy proxy t) prm.fwmarkTproxy := by
  refine ⟨prm.tableTproxy, ?_, unrouted.tproxyRule, ?_⟩
  · rw [installed]
    dsimp only
    split <;> simp
  · rw [installed]
    dsimp only
    split <;> simp

theorem Routed.installed_reroute : Routed t (installed f prm noproxy proxy t) prm.fwmarkReroute := by
  by_cases same : prm.fwmarkReroute = prm.fwmarkTproxy
  · rw [same]
    exact installed_tproxy unrouted
  · refine ⟨prm.tableReroute, ?_, unrouted.rerouteRule, ?_⟩
    · rw [installed]
      simp [same]
    · rw [installed]
      by_cases one : prm.tableReroute = prm.tableTproxy <;> simp [same, one]

include alone

/-- A whole generation: PREROUTING is in effect, and OUTPUT if the family is enabled. -/
theorem Acting.installed : Acting f prm noproxy proxy true (prm.enableFamily f) t (installed f prm noproxy proxy t) := by
  have own {c : Chain} (member : c ∈ ownNames) :
      (Script.installed f prm noproxy proxy t).mangle.rules c = (ownChains f prm noproxy proxy).rules c := by
    rw [Script.installed, Ruleset.rules_append_of_notMem]
    simpa using alone.free c member
  have base {c : Chain} (member : c ∈ t.mangle.chains) :
      (Script.installed f prm noproxy proxy t).mangle.rules c = (hooked f prm t.mangle).rules c :=
    Ruleset.rules_append_of_mem (by simpa using member)
  have preHooked : (hooked f prm t.mangle).rules .prerouting = [preHook] := by
    rw [hooked]
    split
    · rw [Ruleset.rules_modify_of_ne (by decide), Ruleset.rules_modify_self alone.prerouting, alone.preroutingEmpty,
        List.nil_append]
    · rw [Ruleset.rules_modify_self alone.prerouting, alone.preroutingEmpty, List.nil_append]
  have outHooked : (hooked f prm t.mangle).rules .output = if prm.enableFamily f then [outHook] else [] := by
    rw [hooked]
    split
    · rw [Ruleset.rules_modify_self (by simpa using alone.output), Ruleset.rules_modify_of_ne (by decide),
        alone.outputEmpty, List.nil_append]
    · rw [Ruleset.rules_modify_of_ne (by decide), alone.outputEmpty]
  refine ⟨.installed f prm noproxy proxy t, ?_, ?_⟩
  · rw [if_pos rfl]
    exact ⟨(base alone.prerouting).trans preHooked, own (by decide), own (by decide), .installed_tproxy unrouted⟩
  · split
    · next enabled =>
      exact ⟨(base alone.output).trans (outHooked.trans (if_pos enabled)), own (by decide), own (by decide),
        .installed_reroute unrouted⟩
    · next disabled => exact (base alone.output).trans (outHooked.trans (if_neg disabled))

end Installed

end Script

section Started

variable {δ : Type*}

/-- What the script relies on in the tables of a family: it is alone in its chains, and nobody uses its routing
tables. -/
structure Ready (s : Surroundings δ) (prm : Params) (t : FamilyTables) : Prop where
  alone : Alone t
  unrouted : Unrouted prm t
  unconsulted : Unconsulted s prm t

/-- The cgroup rules of a generation pick the packet. -/
def Generation.Picks (g : Generation) (env : Env) (p : Packet) : Prop :=
  g.config.enableFamily p.family = true ∧
    Picked (g.params env) (scriptCgroups g.hierarchy g.config.cgroupNoproxy)
      (scriptCgroups g.hierarchy g.config.cgroupProxy) p

instance (g : Generation) (env : Env) (p : Packet) : Decidable (g.Picks env p) := inferInstanceAs (Decidable (_ ∧ _))

theorem Acting.generation {s : Surroundings δ} {g : Generation} {env : Env} {f : Family} {t : FamilyTables}
    (ready : Ready s (g.params env) t) :
    Acting f (g.params env) (scriptCgroups g.hierarchy g.config.cgroupNoproxy)
      (scriptCgroups g.hierarchy g.config.cgroupProxy) true (g.config.enableFamily f) t (g.tables env f t) := by
  rw [← enableFamily_params g.config env]
  exact .installed ready.alone ready.unrouted

theorem Acting.start {s : Surroundings δ} {c : Config} (accepted : c.Accepted) {env : Env} {k : Kernel} {f : Family}
    (ready : Ready s (params (c.toEnv env)) (k.tables f)) :
    Acting f (params (c.toEnv env)) (scriptCgroups k.hierarchy c.cgroupNoproxy)
      (scriptCgroups k.hierarchy c.cgroupProxy) true (c.enableFamily f) (k.tables f) ((start (c.toEnv env) k).tables f) := by
  rw [tables_start accepted ready.alone.toVacant ready.unrouted]
  exact generation (g := ⟨c, accepted, k.hierarchy⟩) ready

/-- After a start TPROXY gets what the rules pick, if it comes from an address of this machine or the gateway is
on, and what others route back to the machine. Everything else goes where it went before. -/
theorem emit_start (c : Config) (accepted : c.Accepted) (env : Env) (k : Kernel) (s : Surroundings δ) (p : Packet)
    (ready : Ready s (params (c.toEnv env)) (k.tables p.family)) (foreign : Foreign (params (c.toEnv env)) p) :
    (start (c.toEnv env) k).emit s p =
      if Generation.Picks ⟨c, accepted, k.hierarchy⟩ env p then
        if Taken (params (c.toEnv env)) p then handed p.family (params (c.toEnv env)) p else .delivered
      else if (k.tables p.family).route s p = .here ∧ Taken (params (c.toEnv env)) p then
        handed p.family (params (c.toEnv env)) p
      else k.emit s p := by
  rw [Kernel.emit, (Acting.start accepted ready).emit_eq ready.alone ready.unrouted ready.unconsulted foreign _
    (k.forwarding p.family)]
  simp only [true_and]
  rfl

/-! ## The gateway -/

/-- The script's rule at the end of the nat table. -/
def masqueraded (f : Family) (t : FamilyTables) : FamilyTables :=
  { t with nat := t.nat.modify .postrouting (· ++ [masquerade f]) }

theorem masquerades_congr {t t' : FamilyTables} (same : t.nat = t'.nat) (p : Packet) :
    t.masquerades p = t'.masquerades p := by
  rw [FamilyTables.masquerades, FamilyTables.masquerades, same]

theorem sysctl_mem_startCommands_iff {f : Family} {prm : Params} {noproxy proxy : List Str} :
    .sysctl f ∈ startCommands prm noproxy proxy ↔ prm.enableGateway = true := by
  rw [startCommands]
  cases prm.enableGateway <;> cases f <;> simp

/-- A start turns forwarding on for the gateway, and leaves it as it is otherwise. -/
theorem forwarding_start {c : Config} (accepted : c.Accepted) (env : Env) (k : Kernel) (f : Family) :
    (start (c.toEnv env) k).forwarding f = (k.forwarding f || c.enableGateway) := by
  have turns : decide (.sysctl f ∈ startCommands (params (c.toEnv env)) (scriptCgroups k.hierarchy c.cgroupNoproxy)
      (scriptCgroups k.hierarchy c.cgroupProxy)) = c.enableGateway :=
    Bool.eq_iff_iff.mpr (decide_eq_true_iff.trans sysctl_mem_startCommands_iff)
  have before : ({ k.withMount with hierarchy := k.hierarchy.withSlices } : Kernel).forwarding = k.forwarding :=
    k.forwarding_withMount
  rw [start_accepted accepted, Kernel.runAll_forwarding, before, turns]

/-- Packets do not see mounts and directories. -/
theorem Kernel.Alike.emit {k k' : Kernel} (alike : k.Alike k') (s : Surroundings δ) (p : Packet) :
    k'.emit s p = k.emit s p := by
  rw [Kernel.emit, Kernel.emit, alike.tables, alike.forwarding]

theorem Kernel.Alike.arrive {k k' : Kernel} (alike : k.Alike k') (s : Surroundings δ) (p : Packet) :
    k'.arrive s p = k.arrive s p := by
  rw [Kernel.arrive, Kernel.arrive, alike.tables, alike.forwarding]

/-- A machine whose hooks are empty only forwards what is not for it. -/
theorem arrive_of_alone {k : Kernel} {p : Packet} (alone : Alone (k.tables p.family)) (s : Surroundings δ) :
    k.arrive s p = ((k.tables p.family).route s p).passed .delivered (k.forwarding p.family)
      ((k.tables p.family).masquerades p) p :=
  (Acting.of_alone (f := p.family) (params {}) [] [] alone).arrive_of_spared (fun both => Bool.false_ne_true both.1) _

/-- With the script's rule in the nat table of both families. -/
def Kernel.masquerading (k : Kernel) : Kernel := { k with tables := fun f => masqueraded f (k.tables f) }

/-- With the forwarding of another moment. -/
def Kernel.withForwarding (k : Kernel) (forwarding : Family → Bool) : Kernel := { k with forwarding }

theorem arrive_masquerading {k : Kernel} {p : Packet} (alone : Alone (k.tables p.family)) (s : Surroundings δ) :
    k.masquerading.arrive s p = ((k.tables p.family).route s p).passed .delivered (k.forwarding p.family)
      ((masqueraded p.family (k.tables p.family)).masquerades p) p := by
  have idle : Acting p.family (params {}) [] [] false false (masqueraded p.family (k.tables p.family))
      (masqueraded p.family (k.tables p.family)) := ⟨.refl _ _, alone.preroutingEmpty, alone.outputEmpty⟩
  exact idle.arrive_of_spared (fun both => Bool.false_ne_true both.1) _

/-- What comes in at a moment at which the hooks, the rule in the nat table and forwarding are in effect or not. -/
theorem Script.Acting.arrive_gateway {s : Surroundings δ} {prm : Params} {noproxy proxy : List Str} {k k' : Kernel} {p : Packet}
    {pre out masks : Bool} (ready : Ready s prm (k.tables p.family)) (foreign : Foreign prm p)
    (acting : Acting p.family prm noproxy proxy pre out (k.tables p.family) (k'.tables p.family))
    (nat : (k'.tables p.family).nat =
      if masks then (masqueraded p.family (k.tables p.family)).nat else (k.tables p.family).nat) :
    k'.arrive s p =
      if pre = true ∧ Taken prm p then handed p.family prm p
      else if masks then (k.withForwarding k'.forwarding).masquerading.arrive s p
      else (k.withForwarding k'.forwarding).arrive s p := by
  have alone : Alone ((k.withForwarding k'.forwarding).tables p.family) := ready.alone
  rw [Kernel.arrive, acting.arrive_eq ready.unrouted ready.unconsulted foreign]
  split
  · rfl
  · split
    · next on =>
      rw [if_pos on] at nat
      rw [masquerades_congr nat, arrive_masquerading alone]
      rfl
    · next off =>
      rw [if_neg off] at nat
      rw [masquerades_congr nat, arrive_of_alone alone]
      rfl

theorem arrive_withForwarding {s : Surroundings δ} {k : Kernel} {p : Packet} {forwarding : Family → Bool}
    (same : forwarding p.family = k.forwarding p.family) : (k.withForwarding forwarding).arrive s p = k.arrive s p := by
  rw [Kernel.arrive, Kernel.arrive, Kernel.withForwarding]
  dsimp only
  rw [same]

theorem arrive_masquerading_congr {s : Surroundings δ} {k : Kernel} {p : Packet} {forwarding forwarding' : Family → Bool}
    (alone : Alone (k.tables p.family)) (same : forwarding p.family = forwarding' p.family) :
    (k.withForwarding forwarding).masquerading.arrive s p = (k.withForwarding forwarding').masquerading.arrive s p := by
  rw [arrive_masquerading (k := k.withForwarding forwarding) alone,
    arrive_masquerading (k := k.withForwarding forwarding') alone, Kernel.withForwarding, Kernel.withForwarding]
  dsimp only
  rw [same]

/-- The rule in the nat table is for machines that forward. -/
theorem arrive_masquerading_of_closed {s : Surroundings δ} {k : Kernel} {p : Packet} {forwarding : Family → Bool}
    (alone : Alone (k.tables p.family)) (closed : forwarding p.family = false) (before : k.forwarding p.family = false) :
    (k.withForwarding forwarding).masquerading.arrive s p = k.arrive s p := by
  rw [arrive_masquerading (k := k.withForwarding forwarding) alone, arrive_of_alone alone, Kernel.withForwarding]
  dsimp only
  rw [closed, before]
  cases (k.tables p.family).route s p <;> rfl

theorem nat_start {s : Surroundings δ} {c : Config} (accepted : c.Accepted) {env : Env} {k : Kernel} {f : Family}
    (ready : Ready s (params (c.toEnv env)) (k.tables f)) :
    ((start (c.toEnv env) k).tables f).nat =
      if c.enableGateway then (masqueraded f (k.tables f)).nat else (k.tables f).nat := by
  rw [tables_start accepted ready.alone.toVacant ready.unrouted]
  rfl

/-- After a start, in terms of what the machine was before but for forwarding. -/
theorem arrive_started {s : Surroundings δ} {c : Config} (accepted : c.Accepted) {env : Env} {k : Kernel} {p : Packet}
    (ready : Ready s (params (c.toEnv env)) (k.tables p.family)) (foreign : Foreign (params (c.toEnv env)) p) :
    let started := start (c.toEnv env) k
    started.arrive s p =
      if Taken (params (c.toEnv env)) p then handed p.family (params (c.toEnv env)) p
      else if c.enableGateway = true then (k.withForwarding started.forwarding).masquerading.arrive s p
      else (k.withForwarding started.forwarding).arrive s p := by
  intro started
  rw [(Acting.start accepted ready).arrive_gateway ready foreign (nat_start accepted ready)]
  simp only [true_and]
  rfl

/-- A machine whose only routes lead outside. -/
def outside : Surroundings Unit where
  consults _ _ := none
  answers _ _ := none
  last _ := .away ()

theorem Ready.blank (c : Config) (f : Family) : Ready outside (params (c.toEnv {})) (Kernel.blank.tables f) where
  alone := .blank f
  unrouted := ⟨List.not_mem_nil, List.not_mem_nil, List.forall_mem_nil _, List.forall_mem_nil _⟩
  unconsulted := List.forall_mem_nil _

theorem accepted_default : (Config.ofLists [] [] [] []).Accepted :=
  Config.accepted_of_slices ⟨rfl, rfl⟩ ⟨rfl, rfl⟩ (by constructor <;> decide)

/-- HTTPS from the proxy slice comes to the proxy. -/
theorem emit_start_https :
    (start ((Config.ofLists [] [] [] []).toEnv {}) .blank).emit outside (httpsPacket .ipv4 proxySlice) =
      .proxied "127.0.0.1".toList 12345 := by
  have picks : Generation.Picks ⟨_, accepted_default, Kernel.blank.hierarchy⟩ {} (httpsPacket .ipv4 proxySlice) := by
    refine ⟨rfl, proxySlice, rfl, rfl, rfl, (chosen_proxySlice_iff accepted_default).mpr (by decide), rfl⟩
  rw [emit_start _ accepted_default {} .blank outside _ (.blank _ _) (by decide), if_pos picks, if_pos (by decide)]
  rfl

end Started

end CgProxy

import CgProxy.Soundness.Datapath

/-! # Servers stay reachable

The first rule of TPROXY_OUT returns replies. Over the traffic of a machine this means: what a process sends is
judged by its cgroup only on connections that were opened from here, and on the others it goes where it went
before. So a server can be in the proxy slice, and the proxy's own answers to its clients are not caught again.
-/

namespace CgProxy

open Netfilter Script

variable {τ δ : Type*} [DecidableEq τ]

section Directed

variable {reverse : τ → τ} {before : List (Traffic τ)} {t : τ} {p : Packet}

/-- The other side has opened the connection of a packet with this tuple, and its entry has been there since. -/
def Answers (reverse : τ → τ) (before : List (Traffic τ)) (t : τ) : Prop :=
  reverse t ≠ t ∧ Conntrack.Opened reverse (before.map Traffic.tracked) (reverse t)

theorem reply_directed_iff (involutive : Function.Involutive reverse) :
    (p.directed reverse before t).reply = true ↔ Answers reverse before t := Conntrack.reply_run_iff involutive

/-- The rules pick a packet exactly if they would pick it as the first of a connection and it is no answer. -/
theorem picks_directed_iff (involutive : Function.Involutive reverse) {g : Generation} {env : Env} :
    g.Picks env (p.directed reverse before t) ↔
      g.Picks env { p with reply := false } ∧ ¬ Answers reverse before t := by
  rw [← @reply_directed_iff _ _ _ before t p involutive, Bool.not_eq_true]
  constructor
  · rintro ⟨enabled, cg, member, original, unicast, chosen, selected⟩
    exact ⟨⟨enabled, cg, member, rfl, unicast, chosen, selected⟩, original⟩
  · rintro ⟨⟨enabled, cg, member, -, unicast, chosen, selected⟩, original⟩
    exact ⟨enabled, cg, member, original, unicast, chosen, selected⟩

/-- A connection that somebody has opened from outside, and whose entry does not expire meanwhile. -/
theorem answers_of_received (involutive : Function.Involutive reverse) (apart : reverse t ≠ t) {opening : Packet}
    {after : List (Traffic τ)} (unopened : ¬ Conntrack.Opened reverse (before.map Traffic.tracked) (reverse t))
    (kept : .expired t ∉ after) : Answers reverse (before ++ .received t opening true :: after) (reverse t) := by
  rw [Answers, involutive t]
  refine ⟨apart.symm, before.map Traffic.tracked, after.map Traffic.tracked, by simp [Traffic.tracked], ?_, ?_⟩
  · rwa [Conntrack.mem_run_iff]
  · intro member
    obtain ⟨event, listed, same⟩ := List.mem_map.mp member
    cases event with
    | received | sent => contradiction
    | expired =>
      cases same
      exact kept listed

end Directed

section Started

variable (reverse : τ → τ) (c : Config) (accepted : c.Accepted) (env : Env) (k : Kernel) (s : Surroundings δ)
  (before : List (Traffic τ)) (t : τ)

/-- Whatever has passed before, and whatever configuration is installed when a packet is sent: the rules treat it
by its cgroup, unless it is an answer on a connection that the other side has opened. Then it goes where it went,
or to TPROXY if the ordinary routes lead it here and PREROUTING takes it. -/
theorem fate_sent (involutive : Function.Involutive reverse) (p : Packet) (confirmed : Bool)
    (ready : Ready s (params (c.toEnv env)) (k.tables p.family))
    (foreign : Foreign (params (c.toEnv env)) p) :
    let picks := Generation.Picks ⟨c, accepted, k.hierarchy⟩ env { p with reply := false }
    let fate := (start (c.toEnv env) k).fate reverse s before (.sent t p confirmed)
    (picks ∧ ¬ Answers reverse before t → fate =
        some (if Taken (params (c.toEnv env)) p then handed p.family (params (c.toEnv env)) p else .delivered)) ∧
      (¬ picks ∨ Answers reverse before t → fate =
        if (k.tables p.family).route s (p.directed reverse before t) = .here ∧ Taken (params (c.toEnv env)) p then
          some (handed p.family (params (c.toEnv env)) p)
        else k.fate reverse s before (.sent t p confirmed)) := by
  intro picks fate
  have ready : Ready s (params (c.toEnv env)) (k.tables (p.directed reverse before t).family) := ready
  have foreign : Foreign (params (c.toEnv env)) (p.directed reverse before t) := foreign
  have emitted : (start (c.toEnv env) k).emit s (p.directed reverse before t) =
      if Generation.Picks ⟨c, accepted, k.hierarchy⟩ env (p.directed reverse before t) then
        if Taken (params (c.toEnv env)) p then handed p.family (params (c.toEnv env)) p else .delivered
      else if (k.tables p.family).route s (p.directed reverse before t) = .here ∧ Taken (params (c.toEnv env)) p then
        handed p.family (params (c.toEnv env)) p
      else k.emit s (p.directed reverse before t) := by
    rw [Kernel.emit, (Acting.start accepted ready).emit_eq ready.alone ready.unrouted ready.unconsulted foreign _
      (k.forwarding p.family)]
    simp only [true_and]
    rfl
  have same : fate = some ((start (c.toEnv env) k).emit s (p.directed reverse before t)) := rfl
  rw [same, emitted]
  constructor
  · intro original
    rw [if_pos ((picks_directed_iff involutive).mpr original)]
  · intro answer
    rw [if_neg fun picked => ?_]
    · split <;> rfl
    · obtain ⟨original, opener⟩ := (picks_directed_iff involutive).mp picked
      exact answer.elim (fun other => other original) opener

include accepted in
/-- A connection from outside to a server here, whose entry does not expire: whatever else passes and whatever
configurations come and go, its packets are treated in both directions as they would be without the rules. -/
theorem server_reachable (involutive : Function.Involutive reverse) (apart : reverse t ≠ t) (opening : Packet)
    (after : List (Traffic τ)) (unopened : ¬ Conntrack.Opened reverse (before.map Traffic.tracked) (reverse t))
    (kept : .expired t ∉ after) (p : Packet) (confirmed : Bool)
    (ready : Ready s (params (c.toEnv env)) (k.tables p.family)) (foreign : Foreign (params (c.toEnv env)) p) :
    let traffic := before ++ .received t opening true :: after
    (p.dstType = .localAddr → (start (c.toEnv env) k).fate reverse s traffic (.received t p confirmed) =
        k.fate reverse s traffic (.received t p confirmed)) ∧
      (¬ ((k.tables p.family).route s (p.directed reverse traffic (reverse t)) = .here ∧
          Taken (params (c.toEnv env)) p) →
        (start (c.toEnv env) k).fate reverse s traffic (.sent (reverse t) p confirmed) =
          k.fate reverse s traffic (.sent (reverse t) p confirmed)) := by
  intro traffic
  constructor
  · intro arrives
    have ready : Ready s (params (c.toEnv env)) (k.tables (p.directed reverse traffic t).family) := ready
    have foreign : Foreign (params (c.toEnv env)) (p.directed reverse traffic t) := foreign
    have untaken : ¬ Taken (params (c.toEnv env)) (p.directed reverse traffic t) := by
      rintro ⟨⟨unicast, -⟩, -⟩
      exact absurd (arrives.symm.trans unicast) (by decide)
    have same := (Acting.start accepted ready).arrive_eq ready.unrouted ready.unconsulted foreign
      ((start (c.toEnv env) k).forwarding p.family)
    have here : (k.tables (p.directed reverse traffic t).family).route s (p.directed reverse traffic t) = .here :=
      if_pos arrives
    have before := arrive_of_alone ready.alone s
    rw [if_neg fun both => untaken both.2, here] at same
    rw [here] at before
    exact congrArg some (same.trans before.symm)
  · intro away
    have answer : Answers reverse traffic (reverse t) := answers_of_received involutive apart unopened kept
    have ready : Ready s (params (c.toEnv env)) (k.tables (p.directed reverse traffic (reverse t)).family) := ready
    have foreign : Foreign (params (c.toEnv env)) (p.directed reverse traffic (reverse t)) := foreign
    have unpicked : ¬ Generation.Picks ⟨c, accepted, k.hierarchy⟩ env (p.directed reverse traffic (reverse t)) :=
      fun picked => ((picks_directed_iff involutive).mp picked).2 answer
    have same := (Acting.start accepted ready).emit_eq ready.alone ready.unrouted ready.unconsulted foreign
      ((start (c.toEnv env) k).forwarding p.family) (k.forwarding p.family)
    have unchanged := same.trans ((if_neg unpicked).trans (if_neg fun both => away ⟨both.1, both.2.2⟩))
    exact congrArg some unchanged

end Started

/-! ## Two connections -/

/-- HTTPS from the proxy slice, as the first packet of its connection, comes to the proxy. -/
theorem fate_sent_https :
    (start ((Config.ofLists [] [] [] []).toEnv {}) .blank).fate Prod.swap outside []
        (.sent (1, 2) (httpsPacket .ipv4 proxySlice) true) = some (.proxied "127.0.0.1".toList 12345) := by
  have picks : Generation.Picks ⟨_, accepted_default, Kernel.blank.hierarchy⟩ {} (httpsPacket .ipv4 proxySlice) :=
    ⟨rfl, proxySlice, rfl, rfl, rfl, (chosen_proxySlice_iff accepted_default).mpr (by decide), rfl⟩
  have first : ¬ Answers Prod.swap [] (1, 2) := by
    rintro ⟨-, before, after, nothing, -⟩
    simp at nothing
  rw [(fate_sent Prod.swap _ accepted_default {} .blank outside [] (1, 2) Prod.swap_swap (httpsPacket .ipv4 proxySlice)
    true (.blank _ _) (by decide)).1 ⟨picks, first⟩, if_pos (by decide)]
  rfl

/-- A client from outside asks for a page. -/
def incoming : Packet := { forwardedPacket .ipv4 with dstType := .localAddr }

/-- A server in the proxy slice gets what the client sends and answers. -/
theorem server_reachable_https :
    let traffic : List (Traffic (ℕ × ℕ)) := [.received (1, 2) incoming true]
    let started := start ((Config.ofLists [] [] [] []).toEnv {}) .blank
    started.fate Prod.swap outside traffic (.received (1, 2) incoming true) = some .delivered ∧
      started.fate Prod.swap outside traffic (.sent (2, 1) (httpsPacket .ipv4 proxySlice) true) =
        some (.sent () { httpsPacket .ipv4 proxySlice with reply := true }) := by
  intro traffic started
  have unopened : ¬ Conntrack.Opened Prod.swap (([] : List (Traffic (ℕ × ℕ))).map Traffic.tracked) (2, 1) := by
    rintro ⟨before, after, nothing, -⟩
    simp at nothing
  have reachable (p : Packet) (foreign : Foreign (params ((Config.ofLists [] [] [] []).toEnv {})) p) :=
    server_reachable Prod.swap _ accepted_default {} .blank outside [] (1, 2) Prod.swap_swap (by decide) incoming []
      unopened List.not_mem_nil p true (.blank _ _) foreign
  exact ⟨((reachable incoming (by decide)).1 rfl).trans (by decide),
    ((reachable (httpsPacket .ipv4 proxySlice) (by decide)).2 fun both => absurd both.1 (by decide)).trans (by decide)⟩

end CgProxy

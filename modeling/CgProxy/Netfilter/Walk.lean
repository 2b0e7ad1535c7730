import CgProxy.Netfilter.Ruleset

/-! # Walking a packet through nested chains

Rules are tried in order. A rule whose conditions all hold returns to the calling chain, enters
another chain, performs a non-terminating action, or performs an action that ends the walk. The end
of a chain resumes the caller just as a return does. Conditions and actions are arbitrary; a
`Semantics` interprets them. A `Passage` records what the packet became, how it left, and in order
which chains it entered and which actions fired.
-/

namespace Netfilter

/-- What a matching rule does. -/
inductive Target (χ α : Type*) where
  | ret
  | jump (c : χ)
  | act (a : α)
  | stop (a : α)
deriving DecidableEq, Repr

/-- A conjunction of conditions and a target. -/
structure Rule (χ μ α : Type*) where
  conditions : List μ
  target : Target χ α
deriving DecidableEq, Repr

/-- The chain a rule jumps to. -/
def Rule.jump? {χ μ α : Type*} (r : Rule χ μ α) : Option χ :=
  match r.target with
  | .jump c => some c
  | _ => none

/-- When a condition holds of a packet, and what an action makes of it. -/
structure Semantics (μ α π : Type*) where
  holds : μ → π → Bool
  perform : α → π → π

/-- How a packet leaves a list of rules. -/
inductive Exit where
  | fellThrough
  | returned
  | stopped
deriving DecidableEq, Repr

/-- The observable part of a walk. -/
structure Passage (χ α π : Type*) where
  packet : π
  exit : Exit
  entered : List χ
  fired : List α
deriving DecidableEq, Repr

variable {χ μ α π : Type*}

namespace Passage

/-- Nothing happened yet. -/
def idle (p : π) : Passage χ α π := ⟨p, .fellThrough, [], []⟩

/-- The second passage continues the first. -/
def followedBy (first second : Passage χ α π) : Passage χ α π :=
  ⟨second.packet, second.exit, first.entered ++ second.entered, first.fired ++ second.fired⟩

end Passage

variable (sem : Semantics μ α π)

/-- All conditions of the rule hold. -/
def Rule.fits (r : Rule χ μ α) (p : π) : Bool := r.conditions.all (sem.holds · p)

/-- Try rules in order; `enter` says what a jump does. -/
def walkRules (enter : χ → π → Passage χ α π) : List (Rule χ μ α) → π → Passage χ α π
  | [], p => .idle p
  | r :: rs, p =>
      if r.fits sem p then
        match r.target with
        | .ret => ⟨p, .returned, [], []⟩
        | .stop a => ⟨sem.perform a p, .stopped, [], [a]⟩
        | .act a =>
            let q := sem.perform a p
            Passage.followedBy ⟨q, .fellThrough, [], [a]⟩ (walkRules enter rs q)
        | .jump c =>
            let inner := enter c p
            let inside : Passage χ α π := { inner with entered := c :: inner.entered }
            if inner.exit = .stopped then inside
            else inside.followedBy (walkRules enter rs inner.packet)
      else walkRules enter rs p

/-- Enter a chain of a table. Nesting deeper than the number of chains would be a loop, which the
kernel refuses to load, so that depth is enough for every walk. -/
def walkChain [DecidableEq χ] (t : Ruleset χ (Rule χ μ α)) : ℕ → χ → π → Passage χ α π
  | 0, _, p => .idle p
  | depth + 1, c, p => walkRules sem (walkChain t depth) (t.rules c) p

/-- The walk a packet takes from a hook of the table. -/
def walk [DecidableEq χ] (t : Ruleset χ (Rule χ μ α)) (hook : χ) (p : π) : Passage χ α π :=
  walkChain sem t t.length hook p

/-! ## Single rules -/

variable {sem} {enter : χ → π → Passage χ α π} {r : Rule χ μ α} {rs : List (Rule χ μ α)} {p : π}
  {c : χ}

section

attribute [local simp] walkRules

theorem walkRules_cons_of_not_fits (fits : r.fits sem p = false) :
    walkRules sem enter (r :: rs) p = walkRules sem enter rs p := by
  simp [fits]

theorem walkRules_cons_ret (fits : r.fits sem p = true) (target : r.target = .ret) :
    walkRules sem enter (r :: rs) p = ⟨p, .returned, [], []⟩ := by
  simp [fits, target]

theorem walkRules_cons_act (fits : r.fits sem p = true) {a : α} (target : r.target = .act a) :
    walkRules sem enter (r :: rs) p =
      Passage.followedBy ⟨sem.perform a p, .fellThrough, [], [a]⟩
        (walkRules sem enter rs (sem.perform a p)) := by
  simp [fits, target]

theorem walkRules_cons_jump (fits : r.fits sem p = true) (target : r.target = .jump c)
    (resumes : (enter c p).exit ≠ .stopped) :
    walkRules sem enter (r :: rs) p =
      Passage.followedBy { enter c p with entered := c :: (enter c p).entered }
        (walkRules sem enter rs (enter c p).packet) := by
  simp [fits, target, resumes]

theorem walkRules_cons_jump_stopped (fits : r.fits sem p = true) (target : r.target = .jump c)
    (ends : (enter c p).exit = .stopped) :
    walkRules sem enter (r :: rs) p = { enter c p with entered := c :: (enter c p).entered } := by
  simp [fits, target, ends]

end

variable (sem enter p) in
/-- A chain that only hands the packet on. -/
theorem walkRules_hook (fits : r.fits sem p = true) (target : r.target = .jump c) :
    (walkRules sem enter [r] p).packet = (enter c p).packet ∧
      (walkRules sem enter [r] p).entered = c :: (enter c p).entered ∧
      (walkRules sem enter [r] p).fired = (enter c p).fired := by
  by_cases ends : (enter c p).exit = .stopped
  · simp [walkRules_cons_jump_stopped fits target ends]
  · rw [walkRules_cons_jump fits target ends]
    simp [Passage.followedBy, walkRules, Passage.idle]

/-! ## Families of rules -/

/-- A rest is only walked when the rules before it were fallen through. -/
theorem walkRules_append (rest : List (Rule χ μ α)) :
    walkRules sem enter (rs ++ rest) p =
      if (walkRules sem enter rs p).exit = .fellThrough then
        (walkRules sem enter rs p).followedBy
          (walkRules sem enter rest (walkRules sem enter rs p).packet)
      else walkRules sem enter rs p := by
  induction rs generalizing p with
  | nil => simp [walkRules, Passage.idle, Passage.followedBy]
  | cons r rs ih =>
    cases fits : r.fits sem p with
    | false => rw [List.cons_append, walkRules_cons_of_not_fits fits, walkRules_cons_of_not_fits fits, ih]
    | true =>
      cases target : r.target with
      | ret => simp [List.cons_append, walkRules_cons_ret fits target]
      | stop a => simp [walkRules, fits, target]
      | act a =>
        rw [List.cons_append, walkRules_cons_act fits target, walkRules_cons_act fits target, ih]
        split <;> simp_all [Passage.followedBy]
      | jump c =>
        by_cases resumes : (enter c p).exit = .stopped
        · simp [walkRules_cons_jump_stopped fits target resumes, resumes]
        · rw [List.cons_append, walkRules_cons_jump fits target resumes,
            walkRules_cons_jump fits target resumes, ih]
          split <;> simp_all [Passage.followedBy]

/-- Guards that only return: the packet leaves at the first that fits, untouched. -/
theorem walkRules_guards (guards : ∀ r ∈ rs, r.target = .ret) :
    walkRules sem enter rs p =
      if rs.any (·.fits sem p) then ⟨p, .returned, [], []⟩ else .idle p := by
  induction rs with
  | nil => simp [walkRules]
  | cons r rest ih =>
    have later := ih fun other member => guards other (List.mem_cons_of_mem _ member)
    cases fits : r.fits sem p with
    | false => simp [walkRules_cons_of_not_fits fits, later, fits]
    | true => simp [walkRules_cons_ret fits (guards r List.mem_cons_self), fits]

variable (sem enter p) in
/-- Rules that all perform the same action leave the packet as one performance of it does,
when repeating the action adds nothing and does not affect the conditions. -/
theorem walkRules_acts {a : α} (acts : ∀ r ∈ rs, r.target = .act a)
    (idempotent : sem.perform a (sem.perform a p) = sem.perform a p)
    (unaffected : ∀ r ∈ rs, r.fits sem (sem.perform a p) = r.fits sem p) :
    (walkRules sem enter rs p).packet = (if rs.any (·.fits sem p) then sem.perform a p else p) ∧
      (walkRules sem enter rs p).exit = .fellThrough ∧
      ∀ b, b ∈ (walkRules sem enter rs p).fired ↔ b = a ∧ rs.any (·.fits sem p) = true := by
  induction rs generalizing p with
  | nil => simp [walkRules, Passage.idle]
  | cons r rest ih =>
    have actsLater := fun other member => acts other (List.mem_cons_of_mem r member)
    have unaffectedLater := fun other member => unaffected other (List.mem_cons_of_mem r member)
    cases fits : r.fits sem p with
    | false =>
      rw [walkRules_cons_of_not_fits fits]
      simpa [fits] using ih p actsLater idempotent unaffectedLater
    | true =>
      obtain ⟨packet, exit, fired⟩ := ih (sem.perform a p) actsLater
        (congrArg (sem.perform a) idempotent)
        (fun other member => congrArg (other.fits sem) idempotent)
      rw [walkRules_cons_act fits (acts r List.mem_cons_self)]
      refine ⟨?_, exit, ?_⟩
      · simp [Passage.followedBy, packet, fits, idempotent]
      · intro b
        simp only [Passage.followedBy, List.mem_append, List.mem_singleton, fired, List.any_cons, fits,
          Bool.true_or, and_true]
        tauto

variable (sem enter p) in
/-- Jumps to one chain that settles: entering it a second time changes nothing more. -/
theorem walkRules_jumps (jumps : ∀ r ∈ rs, r.target = .jump c)
    (resumes : (enter c p).exit ≠ .stopped)
    (settles : (enter c (enter c p).packet).packet = (enter c p).packet ∧
      (enter c (enter c p).packet).exit ≠ .stopped ∧
      ∀ a, a ∈ (enter c (enter c p).packet).fired ↔ a ∈ (enter c p).fired)
    (unaffected : ∀ r ∈ rs, r.fits sem (enter c p).packet = r.fits sem p) :
    (walkRules sem enter rs p).packet =
        (if rs.any (·.fits sem p) then (enter c p).packet else p) ∧
      (walkRules sem enter rs p).exit = .fellThrough ∧
      ∀ a, a ∈ (walkRules sem enter rs p).fired ↔
        a ∈ (enter c p).fired ∧ rs.any (·.fits sem p) = true := by
  induction rs generalizing p with
  | nil => simp [walkRules, Passage.idle]
  | cons r rest ih =>
    have jumpsLater := fun other member => jumps other (List.mem_cons_of_mem r member)
    have unaffectedLater := fun other member => unaffected other (List.mem_cons_of_mem r member)
    cases fits : r.fits sem p with
    | false =>
      rw [walkRules_cons_of_not_fits fits]
      simpa [fits] using ih p jumpsLater resumes settles unaffectedLater
    | true =>
      obtain ⟨packet, exit, fired⟩ := ih (enter c p).packet jumpsLater settles.2.1
        (by rw [settles.1]; exact ⟨settles.1, settles.2.1, fun _ => Iff.rfl⟩)
        (fun other _ => by rw [settles.1])
      rw [walkRules_cons_jump fits (jumps r List.mem_cons_self) resumes]
      refine ⟨?_, exit, ?_⟩
      · simp [Passage.followedBy, packet, fits, settles.1]
      · intro a
        simp only [Passage.followedBy, List.mem_append, fired, settles.2.2, List.any_cons, fits,
          Bool.true_or, and_true]
        tauto

/-- Of jumps to a chain that ends the walk, only the first that fits is taken. -/
theorem walkRules_jumps_stopped (jumps : ∀ r ∈ rs, r.target = .jump c)
    (ends : rs.any (·.fits sem p) = true → (enter c p).exit = .stopped) :
    walkRules sem enter rs p =
      if rs.any (·.fits sem p) then { enter c p with entered := c :: (enter c p).entered } else .idle p := by
  induction rs with
  | nil => simp [walkRules]
  | cons r rest ih =>
    have jumpsLater := fun other member => jumps other (List.mem_cons_of_mem r member)
    cases fits : r.fits sem p with
    | false =>
      have same : (r :: rest).any (·.fits sem p) = rest.any (·.fits sem p) := by simp [fits]
      rw [walkRules_cons_of_not_fits fits, same]
      exact ih jumpsLater fun later => ends (same.trans later)
    | true =>
      have first : (r :: rest).any (·.fits sem p) = true := by simp [fits]
      rw [walkRules_cons_jump_stopped fits (jumps r List.mem_cons_self) (ends first), if_pos first]

/-- Among jumps to one chain, the chain is entered exactly when one of them fits. -/
theorem mem_entered_walkRules (jumps : ∀ r ∈ rs, r.target = .jump c) :
    c ∈ (walkRules sem enter rs p).entered ↔ rs.any (·.fits sem p) = true := by
  induction rs generalizing p with
  | nil => simp [walkRules, Passage.idle]
  | cons r rest ih =>
    have later := fun other member => jumps other (List.mem_cons_of_mem r member)
    cases fits : r.fits sem p with
    | false => simpa [walkRules_cons_of_not_fits fits, fits] using ih later
    | true =>
      by_cases ends : (enter c p).exit = .stopped
      · simp [walkRules_cons_jump_stopped fits (jumps r List.mem_cons_self) ends, fits]
      · simp [walkRules_cons_jump fits (jumps r List.mem_cons_self) ends, Passage.followedBy, fits]

/-! ## Hooks -/

/-- A hook without rules lets every packet pass. -/
theorem walk_of_rules_eq_nil [DecidableEq χ] {t : Ruleset χ (Rule χ μ α)} {hook : χ} (empty : t.rules hook = [])
    (p : π) : walk sem t hook p = .idle p := by
  rw [walk]
  cases t.length with
  | zero => rfl
  | succ depth => rw [walkChain, empty, walkRules]

end Netfilter

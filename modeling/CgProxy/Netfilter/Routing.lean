import Mathlib.Data.List.Basic

/-! # Policy routing

Rules are tried in the order of their preference. A rule that concerns a packet names a table, a table with a
route for the packet answers, and the first answer decides. A `Policy` says how rules and tables are read.
The lemmas are about changes: rules that concern other packets, tables that nobody consults for this one,
and rules in front of all others that agree on what to answer.
-/

namespace Netfilter

/-- Which table a rule consults for a packet, and what a table answers. -/
structure Policy (ρ τ π η : Type*) where
  consults : ρ → π → Option τ
  answers : τ → π → Option η

namespace Policy

variable {ρ τ π η : Type*}

/-- What one rule contributes. -/
def advice (policy : Policy ρ τ π η) (r : ρ) (p : π) : Option η := (policy.consults r p).bind (policy.answers · p)

/-- The first answer. -/
def lookup (policy : Policy ρ τ π η) (rules : List ρ) (p : π) : Option η := rules.findSome? (policy.advice · p)

variable {policy other : Policy ρ τ π η} {rules own : List ρ} {r : ρ} {p : π} {hop : η}

@[simp] theorem lookup_nil (policy : Policy ρ τ π η) (p : π) : policy.lookup [] p = none := rfl

theorem lookup_cons (r : ρ) (rules : List ρ) (p : π) :
    policy.lookup (r :: rules) p = (policy.advice r p).or (policy.lookup rules p) := by
  rw [lookup, List.findSome?_cons]
  cases policy.advice r p <;> rfl

/-- Rules in front of others that have no advice for the packet. -/
theorem lookup_append_of_silent (silent : ∀ r ∈ own, policy.advice r p = none) :
    policy.lookup (own ++ rules) p = policy.lookup rules p := by
  induction own with
  | nil => rfl
  | cons r rest ih =>
    rw [List.cons_append, lookup_cons, silent r List.mem_cons_self, Option.none_or,
      ih fun other member => silent other (List.mem_cons_of_mem _ member)]

/-- Rules in front of others that agree, as far as they have advice, and one of them has. -/
theorem lookup_append_of_agree (agree : ∀ r ∈ own, ∀ advised, policy.advice r p = some advised → advised = hop)
    (decides : ∃ r ∈ own, policy.advice r p = some hop) : policy.lookup (own ++ rules) p = some hop := by
  induction own with
  | nil =>
    obtain ⟨r, member, -⟩ := decides
    exact absurd member List.not_mem_nil
  | cons r rest ih =>
    rw [List.cons_append, lookup_cons]
    cases advised : policy.advice r p with
    | some found => rw [agree r List.mem_cons_self found advised, Option.some_or]
    | none =>
      rw [Option.none_or]
      refine ih (fun other member => agree other (List.mem_cons_of_mem _ member)) ?_
      obtain ⟨decider, member, decides⟩ := decides
      rcases List.mem_cons.mp member with rfl | later
      · simp [advised] at decides
      · exact ⟨decider, later, decides⟩

/-- Two policies that read the rules alike and agree on the tables that are consulted for the packet. -/
theorem lookup_congr (consults : ∀ r ∈ rules, other.consults r p = policy.consults r p)
    (answers : ∀ r ∈ rules, ∀ table, policy.consults r p = some table → other.answers table p = policy.answers table p) :
    other.lookup rules p = policy.lookup rules p := by
  induction rules with
  | nil => rfl
  | cons r rest ih =>
    have first : other.advice r p = policy.advice r p := by
      rw [advice, advice, consults r List.mem_cons_self]
      cases consulted : policy.consults r p with
      | none => rfl
      | some table => exact answers r List.mem_cons_self table consulted
    rw [lookup_cons, lookup_cons, first, ih (fun later member => consults later (List.mem_cons_of_mem _ member))
      fun later member => answers later (List.mem_cons_of_mem _ member)]

end Policy

end Netfilter

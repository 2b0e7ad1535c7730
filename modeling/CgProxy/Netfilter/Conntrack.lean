import Mathlib.Data.List.Induction
import Mathlib.Logic.Function.Basic

/-! # Connection tracking

A connection is known by the tuple of the packet that opened it, and packets of the other direction carry the
reverse tuple. An unknown packet opens a connection once it is through, and entries can expire at any time. So
the table holds a tuple exactly if a packet with it opened a connection that has not expired since; whether a
packet is a reply is thus a question about the packets before it.
-/

namespace Netfilter.Conntrack

variable {τ : Type*} [DecidableEq τ]

/-- A packet passes, and is let through or not; or an entry expires. -/
inductive Event (τ : Type*) where
  | packet (t : τ) (confirmed : Bool)
  | expire (t : τ)
deriving DecidableEq

section Table

variable (reverse : τ → τ)

/-- The entries are the tuples of their first packets. -/
def step (table : List τ) : Event τ → List τ
  | .packet t confirmed =>
      if t ∈ table ∨ reverse t ∈ table ∨ confirmed = false then table else t :: table
  | .expire t => table.filter (· ≠ t)

def run (events : List (Event τ)) : List τ := events.foldl (step reverse) []

/-- The packet belongs to a connection that the other side has opened. -/
def reply (table : List τ) (t : τ) : Bool := decide (t ∉ table ∧ reverse t ∈ table)

/-- A packet opened the connection, and the entry has been there since. -/
def Opened (events : List (Event τ)) (t : τ) : Prop :=
  ∃ before after, events = before ++ .packet t true :: after ∧ reverse t ∉ run reverse before ∧ .expire t ∉ after

variable {reverse} {events : List (Event τ)} {e : Event τ} {t : τ}

theorem run_concat (events : List (Event τ)) (e : Event τ) :
    run reverse (events ++ [e]) = step reverse (run reverse events) e := by
  rw [run, List.foldl_append]
  rfl

theorem mem_step_iff {table : List τ} :
    t ∈ step reverse table e ↔
      t ∈ table ∧ e ≠ .expire t ∨ e = .packet t true ∧ t ∉ table ∧ reverse t ∉ table := by
  cases e with
  | expire other =>
    simp only [step, List.mem_filter, decide_eq_true_eq, reduceCtorEq, false_and, or_false, ne_eq, Event.expire.injEq]
    exact and_congr_right fun _ => not_congr eq_comm
  | packet other confirmed =>
    simp only [step, ne_eq, reduceCtorEq, not_false_eq_true, and_true, Event.packet.injEq]
    split
    · next known =>
      refine ⟨.inl, fun found => found.elim id ?_⟩
      rintro ⟨⟨rfl, rfl⟩, absent, unopened⟩
      exact absurd known (by simp [absent, unopened])
    · next fresh =>
      obtain ⟨absent, unopened, confirmed⟩ : other ∉ table ∧ reverse other ∉ table ∧ confirmed = true := by
        simpa using fresh
      rw [List.mem_cons, or_comm]
      refine or_congr_right ⟨?_, fun opened => opened.1.1.symm⟩
      rintro rfl
      exact ⟨⟨rfl, confirmed⟩, absent, unopened⟩

/-- An entry stays until it expires. -/
theorem mem_foldl {table : List τ} (known : t ∈ table) (kept : .expire t ∉ events) :
    t ∈ events.foldl (step reverse) table := by
  induction events generalizing table with
  | nil => exact known
  | cons e rest ih =>
    rw [List.mem_cons, not_or] at kept
    exact ih (mem_step_iff.mpr (.inl ⟨known, Ne.symm kept.1⟩)) kept.2

/-- Never two entries for one connection. -/
theorem not_both (involutive : Function.Involutive reverse) (events : List (Event τ)) {t : τ}
    (known : t ∈ run reverse events) (other : reverse t ∈ run reverse events) : reverse t = t := by
  induction events using List.reverseRecOn with
  | nil => exact absurd known List.not_mem_nil
  | append_singleton events e ih =>
    rw [run_concat, mem_step_iff] at known other
    rcases known with ⟨old, -⟩ | ⟨rfl, absent, unopened⟩
    · rcases other with ⟨also, -⟩ | ⟨-, -, unopened⟩
      · exact ih old also
      · rw [involutive t] at unopened
        exact absurd old unopened
    · rcases other with ⟨also, -⟩ | ⟨same, -⟩
      · exact absurd also unopened
      · simpa using same.symm

/-- The table holds the connections that have been opened and not expired. -/
theorem mem_run_iff : t ∈ run reverse events ↔ Opened reverse events t := by
  constructor
  · intro known
    induction events using List.reverseRecOn with
    | nil => exact absurd known List.not_mem_nil
    | append_singleton events e ih =>
      rw [run_concat, mem_step_iff] at known
      rcases known with ⟨old, kept⟩ | ⟨rfl, -, unopened⟩
      · obtain ⟨before, after, rfl, unopened, since⟩ := ih old
        refine ⟨before, after ++ [e], by simp, unopened, ?_⟩
        rw [List.mem_append, List.mem_singleton, not_or]
        exact ⟨since, Ne.symm kept⟩
      · exact ⟨events, [], rfl, unopened, List.not_mem_nil⟩
  · rintro ⟨before, after, rfl, unopened, since⟩
    rw [run, List.foldl_append, List.foldl_cons]
    refine mem_foldl (mem_step_iff.mpr ?_) since
    by_cases known : t ∈ run reverse before
    · exact .inl ⟨known, by simp⟩
    · exact .inr ⟨rfl, known, unopened⟩

/-- A packet is a reply exactly if a packet of the other direction has opened its connection. -/
theorem reply_run_iff (involutive : Function.Involutive reverse) :
    reply reverse (run reverse events) t = true ↔ reverse t ≠ t ∧ Opened reverse events (reverse t) := by
  rw [reply, decide_eq_true_eq, ← mem_run_iff]
  constructor
  · rintro ⟨absent, known⟩
    exact ⟨fun same => absent (same ▸ known), known⟩
  · rintro ⟨apart, known⟩
    exact ⟨fun also => apart (not_both involutive events also known), known⟩

end Table

end Netfilter.Conntrack

import CgProxy.Netfilter.Overlay
import Mathlib.Data.List.Perm.Subperm

/-! # What edits leave alone

An edit changes the rules of one chain at most. A chain has therefore the rules of the start as long as no
edit has concerned it, and those of the end once no edit will concern it any more.
-/

namespace Netfilter

/-- The chain an edit is about. -/
def Edit.chain {χ ρ : Type*} : Edit χ ρ → χ
  | .newChain c | .append c _ | .delete c _ | .flush c | .deleteChain c => c

namespace Ruleset

variable {χ ρ : Type*} [DecidableEq χ] {refers : ρ → Option χ} {t : Ruleset χ ρ} {c d : χ}

theorem rules_remove_of_ne (other : d ≠ c) (t : Ruleset χ ρ) : (t.remove c).rules d = t.rules d := by
  induction t with
  | nil => rfl
  | cons entry rest ih =>
    by_cases dropped : entry.1 = c
    · have first : remove c (entry :: rest) = remove c rest := List.filter_cons_of_neg (by simpa using dropped)
      have apart : d ≠ entry.1 := fun here => other (here.trans dropped)
      rw [first, ih, rules_cons, if_neg apart]
    · have first : remove c (entry :: rest) = entry :: remove c rest := List.filter_cons_of_pos (by simpa using dropped)
      rw [first, rules_cons, rules_cons, ih]

/-- A chain with rules is one of the table's. -/
theorem mem_chains_of_rules_ne_nil (some : t.rules c ≠ []) : c ∈ t.chains := by
  by_contra absent
  exact some (rules_of_notMem absent)

/-- Different chains with rules are counted in the length of the table. -/
theorem length_le_of_rules_ne_nil {names : List χ} (nodup : names.Nodup) (some : ∀ c ∈ names, t.rules c ≠ []) :
    names.length ≤ t.length := by
  have inside : names ⊆ t.chains := fun c member => mem_chains_of_rules_ne_nil (some c member)
  have counted := (List.subperm_of_subset nodup inside).length_le
  rwa [chains, List.length_map] at counted

variable [DecidableEq ρ]

theorem rules_exec_of_ne {e : Edit χ ρ} (other : d ≠ e.chain) :
    ((t.exec refers e).getD t).rules d = t.rules d := by
  cases e with
  | newChain c =>
    rw [exec]
    split
    · rfl
    · rw [Option.getD_some, rules_newChain]
  | append c r =>
    rw [exec]
    split
    · rw [Option.getD_some, rules_modify_of_ne (c := c) other]
    · rfl
  | delete c r =>
    rw [exec]
    split
    · rw [Option.getD_some, rules_modify_of_ne (c := c) other]
    · rfl
  | flush c =>
    rw [exec]
    split
    · rw [Option.getD_some, rules_modify_of_ne (c := c) other]
    · rfl
  | deleteChain c =>
    rw [exec]
    split
    · rw [Option.getD_some, rules_remove_of_ne (c := c) other]
    · rfl

/-- A deletion removes the first such rule, if there is one. -/
theorem rules_exec_delete (c : χ) (r : ρ) : ((t.exec refers (.delete c r)).getD t).rules c = (t.rules c).erase r := by
  rw [exec]
  split
  · next found => rw [Option.getD_some, rules_modify_self found.1]
  · next absent =>
    have gone : r ∉ t.rules c := fun member =>
      absent ⟨mem_chains_of_rules_ne_nil (List.ne_nil_of_mem member), member⟩
    rw [Option.getD_none, List.erase_of_not_mem gone]

/-- Edits of other chains leave the rules of a chain. -/
theorem rules_execAll_of_forall_ne {edits : List (Edit χ ρ)} (others : ∀ e ∈ edits, d ≠ e.chain) :
    (t.execAll refers edits).rules d = t.rules d := by
  induction edits generalizing t with
  | nil => rfl
  | cons e rest ih =>
    rw [execAll_cons, ih fun later member => others later (List.mem_cons_of_mem _ member),
      rules_exec_of_ne (others e List.mem_cons_self)]

/-- A chain that the rest of the edits does not concern has its final rules already. -/
theorem rules_execAll_take {edits : List (Edit χ ρ)} {n : ℕ} (others : ∀ e ∈ edits.drop n, d ≠ e.chain) :
    (t.execAll refers (edits.take n)).rules d = (t.execAll refers edits).rules d := by
  have whole : t.execAll refers edits = (t.execAll refers (edits.take n)).execAll refers (edits.drop n) := by
    rw [← execAll_append, List.take_append_drop]
  rw [whole, rules_execAll_of_forall_ne others]

end Ruleset

end Netfilter

import Mathlib.Data.List.Basic
import Mathlib.Data.List.Nodup

/-! # Tables of named chains and the commands that edit them

A table is its chains in creation order. Every command answers `none` when the kernel would
refuse it: creating a chain that exists, appending to a chain that does not, appending a jump to a
missing chain, deleting an absent rule, and removing a chain that still has rules or is still
jumped to. Rules are arbitrary data; `refers` says which chain a rule jumps to, if any.

The lemmas follow the two halves of a script: `execAll_build` adds one complete chain at the end of
a table, and `execAll_dismantle` takes down the chains added on top of a base that knows none of
their names.
-/

namespace Netfilter

/-- The chains of one table, in creation order. -/
abbrev Ruleset (χ ρ : Type*) := List (χ × List ρ)

/-- The edits `iptables` makes to one table. -/
inductive Edit (χ ρ : Type*) where
  | newChain (c : χ)
  | append (c : χ) (r : ρ)
  | delete (c : χ) (r : ρ)
  | flush (c : χ)
  | deleteChain (c : χ)
deriving DecidableEq, Repr

namespace Ruleset

variable {χ ρ : Type*}

/-- The names of the chains, in order. -/
def chains (t : Ruleset χ ρ) : List χ := t.map Prod.fst

@[simp] theorem chains_nil : chains ([] : Ruleset χ ρ) = [] := rfl

@[simp] theorem chains_cons (entry : χ × List ρ) (t : Ruleset χ ρ) :
    chains (entry :: t) = entry.1 :: chains t := rfl

@[simp] theorem chains_append (t u : Ruleset χ ρ) : chains (t ++ u) = chains t ++ chains u :=
  List.map_append

variable [DecidableEq χ]

/-- The rules of a chain. A missing chain has none. -/
def rules (t : Ruleset χ ρ) (c : χ) : List ρ := (t.lookup c).getD []

/-- Rewrite the rules of one chain and leave all others. -/
def modify (c : χ) (f : List ρ → List ρ) (t : Ruleset χ ρ) : Ruleset χ ρ :=
  t.map fun entry => if entry.1 = c then (entry.1, f entry.2) else entry

/-- Drop a chain. -/
def remove (c : χ) (t : Ruleset χ ρ) : Ruleset χ ρ := t.filter fun entry => entry.1 ≠ c

/-- Some rule of the table jumps to the chain. -/
def referenced (refers : ρ → Option χ) (t : Ruleset χ ρ) (c : χ) : Bool :=
  t.any fun entry => entry.2.any fun r => refers r = some c

/-- The jump of a rule, if it has one, leads to a chain of the table. -/
def resolves (refers : ρ → Option χ) (t : Ruleset χ ρ) (r : ρ) : Bool :=
  (refers r).all (· ∈ t.chains)

/-! ## Reading and rewriting -/

variable {t base own : Ruleset χ ρ} {c d : χ} {r : ρ} {f g : List ρ → List ρ}

@[simp] theorem chains_modify (c : χ) (f : List ρ → List ρ) (t : Ruleset χ ρ) :
    (t.modify c f).chains = t.chains := by
  induction t with
  | nil => rfl
  | cons entry rest ih =>
    simp only [modify, List.map_cons, chains_cons] at ih ⊢
    rw [ih]
    split <;> rfl

theorem modify_append (c : χ) (f : List ρ → List ρ) (t u : Ruleset χ ρ) :
    modify c f (t ++ u) = modify c f t ++ modify c f u := List.map_append

theorem modify_cons (c : χ) (f : List ρ → List ρ) (entry : χ × List ρ) (t : Ruleset χ ρ) :
    modify c f (entry :: t) = (if entry.1 = c then (entry.1, f entry.2) else entry) :: modify c f t := rfl

theorem modify_of_notMem (absent : c ∉ t.chains) : t.modify c f = t := by
  induction t with
  | nil => rfl
  | cons entry rest ih =>
    simp only [chains_cons, List.mem_cons, not_or] at absent
    rw [modify_cons, ih absent.2, if_neg (Ne.symm absent.1)]

theorem modify_modify : (t.modify c f).modify c g = t.modify c (g ∘ f) := by
  induction t with
  | nil => rfl
  | cons entry rest ih =>
    simp only [modify_cons, ih]
    by_cases same : entry.1 = c <;> simp [same]

theorem modify_comm (other : c ≠ d) (t : Ruleset χ ρ) :
    (t.modify c f).modify d g = (t.modify d g).modify c f := by
  induction t with
  | nil => rfl
  | cons entry rest ih =>
    simp only [modify_cons, ih]
    by_cases atC : entry.1 = c
    · have notD : entry.1 ≠ d := fun atD => other (atC.symm.trans atD)
      rw [if_pos atC, if_neg notD, if_neg notD, if_pos atC]
    · by_cases atD : entry.1 = d
      · simp only [if_neg atC, if_pos atD]
      · simp only [if_neg atC, if_neg atD]

/-- Rewriting one chain keeps the entries of the others. -/
theorem mem_of_mem_modify {rs : List ρ} (other : d ≠ c) (member : (d, rs) ∈ t.modify c f) : (d, rs) ∈ t := by
  obtain ⟨entry, inside, same⟩ := List.mem_map.mp member
  split at same
  · next here => exact absurd ((congrArg Prod.fst same).symm.trans here) other
  · rwa [← same]

theorem rules_cons (entry : χ × List ρ) (t : Ruleset χ ρ) (c : χ) :
    rules (entry :: t) c = if c = entry.1 then entry.2 else t.rules c := by
  obtain ⟨name, rs⟩ := entry
  by_cases same : c = name
  · simp [rules, same]
  · simp only [rules, List.lookup_cons, beq_eq_false_iff_ne.mpr same, if_neg same]

@[simp] theorem rules_nil (c : χ) : rules ([] : Ruleset χ ρ) c = [] := rfl

theorem rules_append_of_notMem (absent : c ∉ base.chains) :
    rules (base ++ own) c = rules own c := by
  induction base with
  | nil => rfl
  | cons entry rest ih =>
    simp only [chains_cons, List.mem_cons, not_or] at absent
    rw [List.cons_append, rules_cons, if_neg absent.1, ih absent.2]

theorem rules_append_of_mem (present : c ∈ base.chains) :
    rules (base ++ own) c = rules base c := by
  induction base with
  | nil => simp at present
  | cons entry rest ih =>
    simp only [List.cons_append, rules_cons]
    split
    · rfl
    · next other =>
      exact ih ((List.mem_cons.mp present).resolve_left other)

theorem rules_modify_self (present : c ∈ t.chains) : (t.modify c f).rules c = f (t.rules c) := by
  induction t with
  | nil => simp at present
  | cons entry rest ih =>
    rw [modify_cons]
    by_cases same : entry.1 = c
    · simp [rules_cons, same]
    · rw [if_neg same, rules_cons, rules_cons, if_neg (Ne.symm same), if_neg (Ne.symm same)]
      exact ih ((List.mem_cons.mp present).resolve_left (Ne.symm same))

theorem rules_modify_of_ne (other : d ≠ c) : (t.modify c f).rules d = t.rules d := by
  induction t with
  | nil => rfl
  | cons entry rest ih =>
    rw [modify_cons, rules_cons, rules_cons, ih]
    by_cases same : entry.1 = c <;> simp [same, other]

/-- What no entry of a chain contains, its rules do not. -/
theorem notMem_rules (absent : ∀ rs, (c, rs) ∈ t → r ∉ rs) : r ∉ t.rules c := by
  induction t with
  | nil => simp
  | cons entry rest ih =>
    rw [rules_cons]
    split
    · next here => exact absent entry.2 (by rw [here]; exact List.mem_cons_self)
    · exact ih fun rs member => absent rs (List.mem_cons_of_mem _ member)

/-- A chain that no rule jumps to is the target of none of them. -/
theorem notMem_of_not_referenced {refers : ρ → Option χ} (quiet : t.referenced refers d = false)
    (jumps : refers r = some d) {rs : List ρ} (inside : (c, rs) ∈ t) : r ∉ rs := by
  intro member
  have found : t.referenced refers d = true :=
    List.any_eq_true.mpr ⟨(c, rs), inside, List.any_eq_true.mpr ⟨r, member, by simpa using jumps⟩⟩
  rw [found] at quiet
  contradiction

theorem rules_eq_nil (empty : ∀ entry ∈ t, entry.2 = []) : t.rules c = [] := by
  induction t with
  | nil => rfl
  | cons entry rest ih =>
    rw [rules_cons, empty entry List.mem_cons_self,
      ih fun other member => empty other (List.mem_cons_of_mem _ member), ite_self]

theorem remove_append (c : χ) (t u : Ruleset χ ρ) :
    remove c (t ++ u) = remove c t ++ remove c u := List.filter_append ..

theorem remove_of_notMem (absent : c ∉ t.chains) : t.remove c = t := by
  apply List.filter_eq_self.mpr
  intro entry member
  have : entry.1 ≠ c := fun same => absent (same ▸ List.mem_map_of_mem member)
  simpa using this

theorem referenced_append (refers : ρ → Option χ) (t u : Ruleset χ ρ) (c : χ) :
    referenced refers (t ++ u) c = (referenced refers t c || referenced refers u c) :=
  List.any_append ..

/-! ## Commands -/

variable [DecidableEq ρ] (refers : ρ → Option χ)

/-- One command. `none` is a refusal, which leaves the table as it was. -/
def exec (t : Ruleset χ ρ) : Edit χ ρ → Option (Ruleset χ ρ)
  | .newChain c => if c ∈ t.chains then none else some (t ++ [(c, [])])
  | .append c r =>
      if c ∈ t.chains ∧ t.resolves refers r then some (t.modify c (· ++ [r])) else none
  | .delete c r =>
      if c ∈ t.chains ∧ r ∈ t.rules c then some (t.modify c (·.erase r)) else none
  | .flush c => if c ∈ t.chains then some (t.modify c fun _ => []) else none
  | .deleteChain c =>
      if c ∈ t.chains ∧ t.rules c = [] ∧ ¬ t.referenced refers c then some (t.remove c) else none

/-- A list of commands with every refusal ignored, as an unchecked shell script runs them. -/
def execAll (t : Ruleset χ ρ) (edits : List (Edit χ ρ)) : Ruleset χ ρ :=
  edits.foldl (fun t e => (t.exec refers e).getD t) t

variable {refers}

@[simp] theorem execAll_nil : t.execAll refers [] = t := rfl

theorem execAll_cons (e : Edit χ ρ) (edits : List (Edit χ ρ)) :
    t.execAll refers (e :: edits) = ((t.exec refers e).getD t).execAll refers edits := rfl

theorem execAll_append (first second : List (Edit χ ρ)) :
    t.execAll refers (first ++ second) = (t.execAll refers first).execAll refers second :=
  List.foldl_append ..

private theorem execAll_appends (absent : c ∉ base.chains) (rs done : List ρ)
    (targets : ∀ r ∈ rs, ∀ d, refers r = some d → d ∈ base.chains) :
    (base ++ [(c, done)]).execAll refers (rs.map (.append c)) = base ++ [(c, done ++ rs)] := by
  induction rs generalizing done with
  | nil => simp
  | cons r rest ih =>
    have present : c ∈ chains (base ++ [(c, done)]) := by simp
    have resolved : (base ++ [(c, done)]).resolves refers r = true := by
      cases jump : refers r with
      | none => simp [resolves, jump]
      | some d => simp [resolves, jump, targets r List.mem_cons_self d jump]
    have appended : modify c (· ++ [r]) (base ++ [(c, done)]) = base ++ [(c, done ++ [r])] := by
      rw [modify_append, modify_of_notMem absent]
      simp [modify]
    rw [List.map_cons, execAll_cons, exec, if_pos ⟨present, resolved⟩, Option.getD_some, appended,
      ih (done ++ [r]) (fun other member => targets other (List.mem_cons_of_mem _ member)),
      List.append_assoc, List.singleton_append]

/-- Creating a chain and appending its rules in order adds exactly that chain. -/
theorem execAll_build (absent : c ∉ base.chains) (rs : List ρ)
    (targets : ∀ r ∈ rs, ∀ d, refers r = some d → d ∈ base.chains) :
    base.execAll refers (.newChain c :: rs.map (.append c)) = base ++ [(c, rs)] := by
  rw [execAll_cons, exec, if_neg absent, Option.getD_some, execAll_appends absent rs [] targets,
    List.nil_append]

/-- Appending a rule to a chain of the base leaves what was added on top in place. -/
theorem exec_hook (present : c ∈ base.chains) (free : c ∉ own.chains)
    (target : ∀ d, refers r = some d → d ∈ base.chains ++ own.chains) :
    (base ++ own).exec refers (.append c r) = some (base.modify c (· ++ [r]) ++ own) := by
  have resolved : (base ++ own).resolves refers r = true := by
    cases jump : refers r with
    | none => simp [resolves, jump]
    | some d => simpa [resolves, jump] using target d jump
  rw [exec, if_pos ⟨by simp [present], resolved⟩, modify_append, modify_of_notMem free]

private theorem modify_unhook (fresh : ∀ rs, (c, rs) ∈ base → r ∉ rs) :
    (base.modify c (· ++ [r])).modify c (·.erase r) = base := by
  rw [modify_modify]
  induction base with
  | nil => rfl
  | cons entry rest ih =>
    rw [modify_cons, ih fun rs member => fresh rs (List.mem_cons_of_mem _ member)]
    by_cases same : entry.1 = c
    · have absent : r ∉ entry.2 := fresh entry.2 (by rw [← same]; exact List.mem_cons_self)
      rw [if_pos same, Function.comp_apply, List.erase_append_right _ absent, List.erase_cons_head,
        List.append_nil]
    · rw [if_neg same]

/-- Deleting a rule that was appended to a chain of the base restores the base. -/
theorem exec_unhook (present : c ∈ base.chains) (free : c ∉ own.chains)
    (fresh : ∀ rs, (c, rs) ∈ base → r ∉ rs) :
    (base.modify c (· ++ [r]) ++ own).exec refers (.delete c r) = some (base ++ own) := by
  have member : r ∈ rules (base.modify c (· ++ [r]) ++ own) c := by
    rw [rules_append_of_mem (by simpa using present), rules_modify_self present]
    simp
  rw [exec, if_pos ⟨by simp [present], member⟩, modify_append, modify_unhook fresh,
    modify_of_notMem free]

/-- Deleting a rule that is not there is refused. -/
theorem exec_delete_of_notMem (absent : r ∉ t.rules c) : t.exec refers (.delete c r) = none := by
  simp [exec, absent]

/-- The added chains with those in `names` emptied. -/
private def emptied (names : List χ) (own : Ruleset χ ρ) : Ruleset χ ρ :=
  own.map fun entry => if entry.1 ∈ names then (entry.1, []) else entry

private theorem execAll_flush (names : List χ) (inOwn : ∀ c ∈ names, c ∈ own.chains)
    (free : ∀ c ∈ names, c ∉ base.chains) :
    (base ++ own).execAll refers (names.map .flush) = base ++ emptied names own := by
  induction names generalizing own with
  | nil => simp [emptied]
  | cons c rest ih =>
    have here : c ∈ chains (base ++ own) := by simp [inOwn c List.mem_cons_self]
    rw [List.map_cons, execAll_cons, exec, if_pos here, Option.getD_some, modify_append,
      modify_of_notMem (free c List.mem_cons_self), ih]
    · congr 1
      simp only [emptied, modify, List.map_map, List.map_inj_left, Function.comp_apply]
      intro entry _
      by_cases same : entry.1 = c <;> simp [same]
    · intro d member
      simpa using inOwn d (List.mem_cons_of_mem _ member)
    · exact fun d member => free d (List.mem_cons_of_mem _ member)

private theorem execAll_remove (names : List χ) (nodup : names.Nodup)
    (inOwn : ∀ c ∈ names, c ∈ own.chains) (free : ∀ c ∈ names, c ∉ base.chains)
    (unreferenced : ∀ c ∈ names, base.referenced refers c = false)
    (empty : ∀ entry ∈ own, entry.2 = []) :
    (base ++ own).execAll refers (names.map .deleteChain) =
      base ++ own.filter fun entry => entry.1 ∉ names := by
  induction names generalizing own with
  | nil => simp
  | cons c rest ih =>
    obtain ⟨later, nodup⟩ := List.nodup_cons.mp nodup
    have here : c ∈ chains (base ++ own) := by simp [inOwn c List.mem_cons_self]
    have bare : rules (base ++ own) c = [] := by
      rw [rules_append_of_notMem (free c List.mem_cons_self), rules_eq_nil empty]
    have unused : ¬ (base ++ own).referenced refers c = true := by
      have quiet : own.referenced refers c = false := by
        apply List.any_eq_false.mpr
        intro entry member
        simp [empty entry member]
      simp [referenced_append, unreferenced c List.mem_cons_self, quiet]
    rw [List.map_cons, execAll_cons, exec, if_pos ⟨here, bare, unused⟩, Option.getD_some,
      remove_append, remove_of_notMem (free c List.mem_cons_self), ih nodup]
    · congr 1
      simp only [remove, List.filter_filter]
      apply List.filter_congr
      intro entry _
      simp [not_or, Bool.and_comm]
    · intro d member
      have other : d ≠ c := fun same => later (same ▸ member)
      obtain ⟨entry, inside, rfl⟩ := List.mem_map.mp (inOwn d (List.mem_cons_of_mem _ member))
      exact List.mem_map_of_mem (List.mem_filter.mpr ⟨inside, by simpa using other⟩)
    · exact fun d member => free d (List.mem_cons_of_mem _ member)
    · exact fun d member => unreferenced d (List.mem_cons_of_mem _ member)
    · exact fun entry member => empty entry (List.mem_filter.mp member).1

/-- Flushing all added chains and then removing them, each in any order, leaves the base.
Emptying them all first is what makes the removals possible: the chains refer to each other. -/
theorem execAll_dismantle {flushed removed : List χ} (nodup : removed.Nodup)
    (sameFlushed : ∀ c, c ∈ flushed ↔ c ∈ own.chains) (sameRemoved : ∀ c, c ∈ removed ↔ c ∈ own.chains)
    (free : ∀ c ∈ own.chains, c ∉ base.chains)
    (unreferenced : ∀ c ∈ own.chains, base.referenced refers c = false) :
    (base ++ own).execAll refers (flushed.map .flush ++ removed.map .deleteChain) = base := by
  have names : (emptied flushed own).chains = own.chains := by
    simp only [chains, emptied, List.map_map, List.map_inj_left, Function.comp_apply]
    intro entry _
    split <;> rfl
  have gone : (emptied flushed own).filter (fun entry => entry.1 ∉ removed) = [] := by
    apply List.filter_eq_nil_iff.mpr
    intro entry member
    have known : entry.1 ∈ own.chains := names ▸ List.mem_map_of_mem member
    simp [(sameRemoved _).mpr known]
  rw [execAll_append, execAll_flush flushed (fun c member => (sameFlushed c).mp member)
    (fun c member => free c ((sameFlushed c).mp member)), execAll_remove removed nodup, gone,
    List.append_nil]
  · intro c member
    rw [names]
    exact (sameRemoved c).mp member
  · exact fun c member => free c ((sameRemoved c).mp member)
  · exact fun c member => unreferenced c ((sameRemoved c).mp member)
  · intro entry member
    obtain ⟨original, inside, rfl⟩ := List.mem_map.mp member
    rw [if_pos ((sameFlushed _).mpr (List.mem_map_of_mem inside))]

end Ruleset

end Netfilter

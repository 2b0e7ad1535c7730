import CgProxy.Netfilter.Ruleset
import Mathlib.Logic.Function.Basic

/-! # What an interrupted script leaves on a table

A script adds rules to chains of a base and creates chains of its own. At any moment the table is the
base with some of these hooks and some of these chains, a `Residue`. Edits that build only enlarge it,
edits that take down only shrink it, in whatever order and by however many scripts they are executed.
`Gone` is what an edit that takes down is after. Once it holds it stays, so that a script which goes
through a whole `teardown` restores the base from every residue, also when another one is taking the
same things down at the same time.
-/

namespace Netfilter

/-- The first edit, one that takes down, takes away what the second one adds. -/
def Edit.Undoes {χ ρ : Type*} : Edit χ ρ → Edit χ ρ → Prop
  | .delete c r, .append d r' => c = d ∧ r = r'
  | .flush c, .append d _ => c = d
  | .deleteChain c, .newChain d => c = d
  | _, _ => False

namespace Ruleset

variable {χ ρ : Type*}

/-- Every chain with its hooks at the end. -/
def extend (hooks : χ → List ρ) (base : Ruleset χ ρ) : Ruleset χ ρ :=
  base.map fun entry => (entry.1, entry.2 ++ hooks entry.1)

/-- The base with hooks among the allowed ones, and chains with names of the script. -/
def Residue (allowed : χ → List ρ) (names : List χ) (base t : Ruleset χ ρ) : Prop :=
  ∃ hooks own, t = base.extend hooks ++ own ∧ (∀ c ∈ base.chains, (hooks c).Sublist (allowed c)) ∧
    (∀ c ∈ own.chains, c ∈ names) ∧ own.chains.Nodup

/-- Which edits a starting script may make: it creates no chains but its own. -/
def Builds (names : List χ) : Edit χ ρ → Prop
  | .newChain c => c ∈ names
  | .append _ _ => True
  | .delete _ _ | .flush _ | .deleteChain _ => False

/-- Which edits a stopping script may make: it deletes hooks of its own and takes its chains down. -/
def Removes (names : List χ) (base : Ruleset χ ρ) : Edit χ ρ → Prop
  | .newChain _ | .append _ _ => False
  | .delete c r => c ∉ names ∧ ∀ rs, (c, rs) ∈ base → r ∉ rs
  | .flush c | .deleteChain c => c ∈ names

variable {allowed : χ → List ρ} {names : List χ} {base t own : Ruleset χ ρ} {hooks : χ → List ρ} {c : χ} {r : ρ}

@[simp] theorem chains_extend (hooks : χ → List ρ) (base : Ruleset χ ρ) :
    (base.extend hooks).chains = base.chains := by
  simp [chains, extend, Function.comp_def]

theorem extend_nil (none : ∀ c ∈ base.chains, hooks c = []) : base.extend hooks = base := by
  rw [extend]
  refine (List.map_congr_left fun entry member => ?_).trans (List.map_id base)
  rw [none _ (List.mem_map_of_mem member), List.append_nil]
  rfl

theorem Residue.refl (allowed : χ → List ρ) (names : List χ) (base : Ruleset χ ρ) :
    Residue allowed names base base :=
  ⟨fun _ => [], [], by rw [extend_nil fun _ _ => rfl, List.append_nil],
    fun _ _ => List.nil_sublist _, fun _ member => absurd member List.not_mem_nil, List.nodup_nil⟩

theorem Residue.mono {more : χ → List ρ} (residue : Residue allowed names base t)
    (wider : ∀ c ∈ base.chains, (allowed c).Sublist (more c)) : Residue more names base t := by
  obtain ⟨hooks, own, same, within, known, nodup⟩ := residue
  exact ⟨hooks, own, same, fun c present => (within c present).trans (wider c present), known, nodup⟩

/-- A script that adds nothing leaves nothing. -/
theorem Residue.eq_base_of_nil (residue : Residue allowed [] base t) (nothing : ∀ c ∈ base.chains, allowed c = []) :
    t = base := by
  obtain ⟨hooks, own, rfl, within, known, -⟩ := residue
  have bare : ∀ c ∈ base.chains, hooks c = [] := fun c present =>
    List.sublist_nil.mp (nothing c present ▸ within c present)
  have none : own.chains = [] := List.eq_nil_iff_forall_not_mem.mpr fun c member =>
    absurd (known c member) List.not_mem_nil
  rw [extend_nil bare, List.map_eq_nil_iff.mp none, List.append_nil]

variable [DecidableEq χ]

theorem rules_extend (present : c ∈ base.chains) : (base.extend hooks).rules c = base.rules c ++ hooks c := by
  induction base with
  | nil => simp at present
  | cons entry rest ih =>
    have first : extend hooks (entry :: rest) = (entry.1, entry.2 ++ hooks entry.1) :: extend hooks rest := rfl
    rw [first, rules_cons, rules_cons]
    by_cases here : c = entry.1
    · rw [if_pos here, if_pos here, here]
    · rw [if_neg here, if_neg here]
      exact ih ((List.mem_cons.mp present).resolve_left here)

theorem rules_of_notMem (absent : c ∉ t.chains) : t.rules c = [] := by
  have same : rules (t ++ []) c = rules [] c := rules_append_of_notMem absent
  rwa [List.append_nil] at same

theorem rules_of_mem (nodup : t.chains.Nodup) {entry : χ × List ρ} (member : entry ∈ t) :
    t.rules entry.1 = entry.2 := by
  induction t with
  | nil => exact absurd member List.not_mem_nil
  | cons first rest ih =>
    obtain ⟨other, nodup⟩ := List.nodup_cons.mp nodup
    rw [rules_cons]
    rcases List.mem_cons.mp member with rfl | later
    · exact if_pos rfl
    · have differ : entry.1 ≠ first.1 := fun same => other (same ▸ List.mem_map_of_mem later)
      rw [if_neg differ, ih nodup later]

/-- An edit of a chain of the base that leaves the base's own rules alone edits its hooks. -/
theorem modify_extend {f : List ρ → List ρ}
    (outside : ∀ rs, (c, rs) ∈ base → f (rs ++ hooks c) = rs ++ f (hooks c)) :
    (base.extend hooks).modify c f = base.extend (Function.update hooks c (f (hooks c))) := by
  simp only [modify, extend, List.map_map]
  refine List.map_congr_left fun entry member => ?_
  rw [Function.comp_apply]
  dsimp only
  by_cases here : entry.1 = c
  · subst here
    rw [if_pos rfl, Function.update_self, outside entry.2 member]
  · rw [if_neg here, Function.update_of_ne here]

theorem nodup_chains_remove (nodup : own.chains.Nodup) : (own.remove c).chains.Nodup :=
  nodup.sublist (List.filter_sublist.map _)

theorem chains_remove_subset : ∀ d ∈ (own.remove c).chains, d ∈ own.chains := by
  intro d member
  obtain ⟨entry, inside, rfl⟩ := List.mem_map.mp member
  exact List.mem_map_of_mem (List.mem_filter.mp inside).1

section Edits

variable [DecidableEq ρ] {refers : ρ → Option χ} {e : Edit χ ρ} {es : List (Edit χ ρ)}

/-- The rules that edits append to a chain, in order. -/
def appended (es : List (Edit χ ρ)) (c : χ) : List ρ :=
  es.filterMap fun
    | .append d r => if d = c then some r else none
    | _ => none

omit [DecidableEq ρ] in
theorem appended_append (first second : List (Edit χ ρ)) (c : χ) :
    appended (first ++ second) c = appended first c ++ appended second c := List.filterMap_append ..

/-! ## Building -/

/-- One edit that builds: a refused one changes nothing, an accepted one adds a chain of the script's
or a rule, which is a new hook if the chain is the base's. -/
theorem Residue.exec_build (free : ∀ c ∈ names, c ∉ base.chains) (residue : Residue allowed names base t)
    (builds : Builds names e) :
    Residue (fun c => allowed c ++ appended [e] c) names base ((t.exec refers e).getD t) := by
  have unchanged : Residue (fun c => allowed c ++ appended [e] c) names base t :=
    residue.mono fun c _ => List.sublist_append_left ..
  obtain ⟨hooks, own, rfl, within, known, nodup⟩ := residue
  have kept : ∀ c ∈ base.chains, (hooks c).Sublist (allowed c ++ appended [e] c) := fun c present =>
    (within c present).trans (List.sublist_append_left ..)
  cases e with
  | newChain c =>
    rw [exec]
    split
    · exact unchanged
    · next absent =>
      have apart : c ∉ own.chains := by simp_all
      refine ⟨hooks, own ++ [(c, [])], by rw [Option.getD_some, List.append_assoc], kept, ?_, ?_⟩
      · intro d member
        rcases List.mem_append.mp (chains_append .. ▸ member) with old | new
        · exact known d old
        · obtain rfl : d = c := by simpa using new
          exact builds
      · rw [chains_append, List.nodup_append]
        refine ⟨nodup, by simp, ?_⟩
        intro d member d' new same
        obtain rfl : d' = c := by simpa using new
        exact apart (same ▸ member)
  | append c r =>
    rw [exec]
    split
    · next accepted =>
      rw [Option.getD_some, modify_append]
      by_cases inBase : c ∈ base.chains
      · have apart : c ∉ own.chains := fun member => free c (known c member) inBase
        rw [modify_of_notMem apart, modify_extend fun rs _ => List.append_assoc ..]
        refine ⟨_, own, rfl, fun d present => ?_, known, nodup⟩
        by_cases here : d = c
        · subst here
          rw [Function.update_self]
          simpa [appended] using within d present
        · rw [Function.update_of_ne here]
          exact kept d present
      · rw [modify_of_notMem (by simpa using inBase)]
        exact ⟨hooks, own.modify c (· ++ [r]), rfl, kept, by simpa using known, by simpa using nodup⟩
    · exact unchanged
  | delete c r => exact builds.elim
  | flush c => exact builds.elim
  | deleteChain c => exact builds.elim

/-! ## Taking down -/

/-- One edit that takes down leaves a residue of the same kind. -/
theorem Residue.exec_remove (residue : Residue allowed names base t) (free : ∀ c ∈ names, c ∉ base.chains)
    (removes : Removes names base e) : Residue allowed names base ((t.exec refers e).getD t) := by
  have unchanged := residue
  obtain ⟨hooks, own, rfl, within, known, nodup⟩ := residue
  cases e with
  | newChain c => exact removes.elim
  | append c r => exact removes.elim
  | delete c r =>
    obtain ⟨foreign, fresh⟩ := removes
    rw [exec]
    split
    · rw [Option.getD_some, modify_append, modify_of_notMem fun member => foreign (known c member),
        modify_extend fun rs member => List.erase_append_right _ (fresh rs member)]
      refine ⟨_, own, rfl, fun d present => ?_, known, nodup⟩
      by_cases here : d = c
      · subst here
        rw [Function.update_self]
        exact List.erase_sublist.trans (within d present)
      · rw [Function.update_of_ne here]
        exact within d present
    · exact unchanged
  | flush c =>
    have outside : c ∉ (base.extend hooks).chains := by simpa using free c removes
    rw [exec]
    split
    · rw [Option.getD_some, modify_append, modify_of_notMem outside]
      exact ⟨hooks, own.modify c fun _ => [], rfl, within, by simpa using known, by simpa using nodup⟩
    · exact unchanged
  | deleteChain c =>
    have outside : c ∉ (base.extend hooks).chains := by simpa using free c removes
    rw [exec]
    split
    · rw [Option.getD_some, remove_append, remove_of_notMem outside]
      exact ⟨hooks, own.remove c, rfl, within, fun d member => known d (chains_remove_subset d member),
        nodup_chains_remove nodup⟩
    · exact unchanged

/-- What an edit that takes down is after. -/
def Gone (t : Ruleset χ ρ) : Edit χ ρ → Prop
  | .newChain _ | .append _ _ => True
  | .delete c r => r ∉ t.rules c
  | .flush c => t.rules c = []
  | .deleteChain c => c ∉ t.chains

omit [DecidableEq ρ] in
theorem rules_remove_sublist (t : Ruleset χ ρ) (c d : χ) : ((t.remove c).rules d).Sublist (t.rules d) := by
  induction t with
  | nil => exact List.Sublist.refl _
  | cons entry rest ih =>
    by_cases dropped : entry.1 = c
    · have first : remove c (entry :: rest) = remove c rest := List.filter_cons_of_neg (by simpa using dropped)
      rw [first, rules_cons]
      split
      · next here =>
        have absent : d ∉ (remove c rest).chains := by
          rw [here, dropped]
          simp [chains, remove]
        rw [show (remove c rest).rules d = [] from rules_of_notMem absent]
        exact List.nil_sublist _
      · exact ih
    · have first : remove c (entry :: rest) = entry :: remove c rest := List.filter_cons_of_pos (by simpa using dropped)
      rw [first, rules_cons, rules_cons]
      split
      · exact List.Sublist.refl _
      · exact ih

/-- An edit that takes down shrinks every chain, -/
theorem rules_exec_sublist (removes : Removes names base e) (d : χ) :
    (((t.exec refers e).getD t).rules d).Sublist (t.rules d) := by
  have modified {c : χ} {f : List ρ → List ρ} (shrinks : ∀ rs, (f rs).Sublist rs) (present : c ∈ t.chains) :
      ((t.modify c f).rules d).Sublist (t.rules d) := by
    by_cases here : d = c
    · subst here
      rw [rules_modify_self present]
      exact shrinks _
    · rw [rules_modify_of_ne here]
  cases e with
  | newChain c => exact removes.elim
  | append c r => exact removes.elim
  | delete c r =>
    rw [exec]
    split
    · next present => exact modified (fun _ => List.erase_sublist) present.1
    · exact List.Sublist.refl _
  | flush c =>
    rw [exec]
    split
    · next present => exact modified (fun _ => List.nil_sublist _) present
    · exact List.Sublist.refl _
  | deleteChain c =>
    rw [exec]
    split
    · exact rules_remove_sublist ..
    · exact List.Sublist.refl _

/-- and creates none. -/
theorem chains_exec_subset (removes : Removes names base e) :
    ∀ d ∈ ((t.exec refers e).getD t).chains, d ∈ t.chains := by
  cases e with
  | newChain c => exact removes.elim
  | append c r => exact removes.elim
  | delete c r =>
    rw [exec]
    split <;> simp
  | flush c =>
    rw [exec]
    split <;> simp
  | deleteChain c =>
    rw [exec]
    split
    · exact chains_remove_subset
    · exact fun d member => member

/-- Only its removal removes a chain. -/
theorem mem_chains_exec (present : c ∈ t.chains) (spared : e ≠ .deleteChain c) :
    c ∈ ((t.exec refers e).getD t).chains := by
  cases e with
  | newChain d =>
    rw [exec]
    split <;> simp [present]
  | append d r =>
    rw [exec]
    split <;> simp [present]
  | delete d r =>
    rw [exec]
    split <;> simp [present]
  | flush d =>
    rw [exec]
    split <;> simp [present]
  | deleteChain d =>
    rw [exec]
    split
    · obtain ⟨entry, inside, rfl⟩ := List.mem_map.mp present
      have other : entry.1 ≠ d := fun same => spared (by rw [same])
      exact List.mem_map_of_mem (List.mem_filter.mpr ⟨inside, by simpa using other⟩)
    · exact present

omit [DecidableEq ρ] in
/-- A chain that has just been created changes no rules. -/
theorem rules_newChain (t : Ruleset χ ρ) (c d : χ) : rules (t ++ [(d, [])]) c = t.rules c := by
  by_cases present : c ∈ t.chains
  · exact rules_append_of_mem present
  · rw [rules_append_of_notMem present, rules_of_notMem present, rules_cons, rules_nil, ite_self]

/-- An edit that builds does not bring back what is gone, unless the one that took it down undoes it. -/
theorem Gone.exec_build {before : Edit χ ρ} (gone : Gone t before) (builds : Builds names e)
    (spared : ¬ before.Undoes e) : Gone ((t.exec refers e).getD t) before := by
  cases e with
  | newChain d =>
    rw [exec]
    split
    · exact gone
    · rw [Option.getD_some]
      cases before with
      | newChain c => trivial
      | append c r => trivial
      | delete c r => rwa [Gone, rules_newChain]
      | flush c => rwa [Gone, rules_newChain]
      | deleteChain c =>
        have other : c ≠ d := spared
        rw [Gone, chains_append]
        exact fun member => (List.mem_append.mp member).elim gone fun new => other (List.mem_singleton.mp new)
  | append d r' =>
    rw [exec]
    split
    · next accepted =>
      rw [Option.getD_some]
      cases before with
      | newChain c => trivial
      | append c r => trivial
      | delete c r =>
        by_cases here : c = d
        · subst here
          have other : r ≠ r' := fun same => spared ⟨rfl, same⟩
          rw [Gone, rules_modify_self accepted.1]
          exact fun member => (List.mem_append.mp member).elim gone fun new => other (List.mem_singleton.mp new)
        · rwa [Gone, rules_modify_of_ne here]
      | flush c =>
        have other : c ≠ d := spared
        rwa [Gone, rules_modify_of_ne other]
      | deleteChain c => rwa [Gone, chains_modify]
    · exact gone
  | delete d r' => exact builds.elim
  | flush d => exact builds.elim
  | deleteChain d => exact builds.elim

/-- What is gone stays gone. -/
theorem Gone.exec {before : Edit χ ρ} (gone : Gone t before) (removes : Removes names base e) :
    Gone ((t.exec refers e).getD t) before := by
  have sublist (d : χ) : (((t.exec refers e).getD t).rules d).Sublist (t.rules d) := rules_exec_sublist removes d
  cases before with
  | newChain c => trivial
  | append c r => trivial
  | delete c r => exact fun member => gone ((sublist c).subset member)
  | flush c => exact List.sublist_nil.mp (gone ▸ sublist c)
  | deleteChain c => exact fun member => gone (chains_exec_subset removes c member)

/-- A sequence that takes a script's whole work down: first the hooks, then the rules of its chains,
then the chains. -/
def teardown (deleted : List (χ × ρ)) (flushed removed : List χ) : List (Edit χ ρ) :=
  deleted.map (fun hook => .delete hook.1 hook.2) ++ (flushed.map .flush ++ removed.map .deleteChain)

/-- The base knows nothing of the script, and the sequence forgets nothing the script may have added. -/
structure Separate (refers : ρ → Option χ) (allowed : χ → List ρ) (names : List χ) (base : Ruleset χ ρ)
    (deleted : List (χ × ρ)) (flushed removed : List χ) : Prop where
  free : ∀ c ∈ names, c ∉ base.chains
  unreferenced : ∀ c ∈ names, base.referenced refers c = false
  once : ∀ c ∈ base.chains, (allowed c).Nodup
  foreign : ∀ hook ∈ deleted, hook.1 ∉ names ∧ ∀ rs, (hook.1, rs) ∈ base → hook.2 ∉ rs
  hooks : ∀ c ∈ base.chains, ∀ r ∈ allowed c, (c, r) ∈ deleted
  flushed : ∀ c, c ∈ flushed ↔ c ∈ names
  removed : ∀ c, c ∈ removed ↔ c ∈ names

section Teardown

variable {deleted : List (χ × ρ)} {flushed removed : List χ}

omit [DecidableEq ρ] in
theorem Separate.removes (apart : Separate refers allowed names base deleted flushed removed) :
    ∀ e ∈ teardown deleted flushed removed, Removes names base e := by
  intro e member
  rcases List.mem_append.mp member with early | later
  · obtain ⟨hook, inside, rfl⟩ := List.mem_map.mp early
    exact apart.foreign hook inside
  rcases List.mem_append.mp later with flush | remove
  · obtain ⟨c, inside, rfl⟩ := List.mem_map.mp flush
    exact (apart.flushed c).mp inside
  · obtain ⟨c, inside, rfl⟩ := List.mem_map.mp remove
    exact (apart.removed c).mp inside

omit [DecidableEq ρ] in
/-- Without its hooks and with its chains empty, a residue is the base and empty chains. -/
theorem Residue.emptied (apart : Separate refers allowed names base deleted flushed removed)
    (residue : Residue allowed names base t) (unhooked : ∀ hook ∈ deleted, Gone t (.delete hook.1 hook.2))
    (empty : ∀ c ∈ flushed, Gone t (.flush c)) :
    ∃ own, t = base ++ own ∧ (∀ entry ∈ own, entry.2 = []) ∧ (∀ c ∈ own.chains, c ∈ names) := by
  obtain ⟨hooks, own, rfl, within, known, nodup⟩ := residue
  have bare : ∀ c ∈ base.chains, hooks c = [] := by
    intro c present
    rw [List.eq_nil_iff_forall_not_mem]
    intro r member
    have rules : rules (base.extend hooks ++ own) c = base.rules c ++ hooks c := by
      rw [rules_append_of_mem (by simpa using present), rules_extend present]
    refine unhooked (c, r) (apart.hooks c present r ((within c present).subset member)) ?_
    rw [rules]
    exact List.mem_append_right _ member
  refine ⟨own, by rw [extend_nil bare], ?_, known⟩
  intro entry member
  have own' : entry.1 ∈ own.chains := List.mem_map_of_mem member
  have outside : entry.1 ∉ (base.extend hooks).chains := by simpa using apart.free _ (known _ own')
  have rules : rules (base.extend hooks ++ own) entry.1 = entry.2 := by
    rw [rules_append_of_notMem outside, rules_of_mem nodup member]
  rw [← rules]
  exact empty _ ((apart.flushed _).mpr (known _ own'))

/-- An edit of the sequence has achieved its aim once the edits before it have. -/
theorem Residue.gone_exec (apart : Separate refers allowed names base deleted flushed removed)
    (residue : Residue allowed names base t) {done rest : List (Edit χ ρ)}
    (split : done ++ e :: rest = teardown deleted flushed removed) (gone : ∀ d ∈ done, Gone t d) :
    Gone ((t.exec refers e).getD t) e := by
  have removes : Removes names base e := apart.removes e (split ▸ by simp)
  cases e with
  | newChain c => trivial
  | append c r => trivial
  | delete c r =>
    obtain ⟨foreign, fresh⟩ := removes
    obtain ⟨hooks, own, rfl, within, known, nodup⟩ := residue
    rw [exec]
    split
    · next accepted =>
      have present : c ∈ (base.extend hooks).chains := by
        have either : c ∈ (base.extend hooks).chains ∨ c ∈ own.chains := by simpa using accepted.1
        exact either.resolve_right fun member => foreign (known c member)
      have inBase : c ∈ base.chains := by simpa using present
      have rules : rules (base.extend hooks ++ own) c = base.rules c ++ hooks c := by
        rw [rules_append_of_mem present, rules_extend inBase]
      rw [Gone, Option.getD_some, rules_modify_self accepted.1, rules,
        List.erase_append_right _ (notMem_rules fresh)]
      intro member
      rcases List.mem_append.mp member with old | hook
      · exact notMem_rules fresh old
      · exact ((apart.once c inBase).sublist (within c inBase)).not_mem_erase hook
    · next refused =>
      intro member
      refine refused ⟨?_, member⟩
      by_contra absent
      rw [Option.getD_none, rules_of_notMem absent] at member
      exact List.not_mem_nil member
  | flush c =>
    rw [exec]
    split
    · next present =>
      rw [Gone, Option.getD_some, rules_modify_self present]
    · next absent => exact rules_of_notMem absent
  | deleteChain c =>
    -- the hooks and the rules of all chains are gone, so nothing refers to the chain
    have early : ∀ d ∈ deleted.map (fun hook => Edit.delete hook.1 hook.2) ++ flushed.map .flush, Gone t d := by
      intro d member
      refine gone d ?_
      rw [teardown, ← List.append_assoc] at split
      rcases List.append_eq_append_iff.mp split with ⟨between, first, later⟩ | ⟨between, first, -⟩
      · cases between with
        | nil =>
          rw [List.append_nil] at first
          rwa [← first]
        | cons e between =>
          obtain rfl : Edit.deleteChain c = e := (List.cons.inj later).1
          have found : Edit.deleteChain c ∈
              deleted.map (fun hook => Edit.delete hook.1 hook.2) ++ flushed.map .flush := by
            rw [first]
            simp
          simp at found
      · rw [first]
        exact List.mem_append_left _ member
    obtain ⟨own, rfl, empty, known⟩ := residue.emptied apart
      (fun hook inside => early _ (List.mem_append_left _ (List.mem_map_of_mem inside)))
      (fun d inside => early _ (List.mem_append_right _ (List.mem_map_of_mem inside)))
    have quiet : own.referenced refers c = false := by
      apply List.any_eq_false.mpr
      intro entry member
      simp [empty entry member]
    have bare : rules (base ++ own) c = [] := by
      rw [rules_append_of_notMem (apart.free c removes), rules_eq_nil empty]
    rw [exec]
    split
    · rw [Option.getD_some, Gone]
      simp [chains, remove]
    · next refused =>
      intro present
      exact refused ⟨present, bare, by simp [referenced_append, apart.unreferenced c removes, quiet]⟩

omit [DecidableEq ρ] in
/-- When the whole sequence has achieved its aims, only the base is left. -/
theorem Residue.eq_base (apart : Separate refers allowed names base deleted flushed removed)
    (residue : Residue allowed names base t) (gone : ∀ e ∈ teardown deleted flushed removed, Gone t e) :
    t = base := by
  obtain ⟨own, rfl, -, known⟩ := residue.emptied apart
    (fun hook inside => gone _ (List.mem_append_left _ (List.mem_map_of_mem inside)))
    (fun d inside => gone _ (List.mem_append_right _ (List.mem_append_left _ (List.mem_map_of_mem inside))))
  have none : own.chains = [] := by
    rw [List.eq_nil_iff_forall_not_mem]
    intro c member
    have late : Edit.deleteChain c ∈ teardown deleted flushed removed :=
      List.mem_append_right _ (List.mem_append_right _
        (List.mem_map_of_mem ((apart.removed c).mpr (known c member))))
    exact gone _ late (by simp [member])
  rw [List.map_eq_nil_iff.mp none, List.append_nil]

end Teardown

end Edits

end Ruleset

end Netfilter

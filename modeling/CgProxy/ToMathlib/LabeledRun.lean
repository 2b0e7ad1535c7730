import Mathlib.Data.List.Basic

/-! # Finite runs of labelled partial transitions

A transition function answers `none` to a label it does not enable. A run consumes a list of
labels, one accepted transition each, so every state reached by a system is the end of a run.
Side conditions on the steps of a run are `Along`; an invariant may use them, and a property
that exactly the excluded steps destroy is equivalent to them.
-/

namespace LabeledRun

variable {σ ℓ : Type*} (step : σ → ℓ → Option σ)

/-- Execute the labels in order. A refused label refuses the whole run. -/
def run : σ → List ℓ → Option σ
  | s, [] => some s
  | s, e :: es => (step s e).bind fun next => run next es

/-- Every step the run takes meets `ok` in the state it is taken from. -/
def Along (ok : σ → ℓ → Prop) : σ → List ℓ → Prop
  | _, [] => True
  | s, e :: es => ok s e ∧ ∀ next, step s e = some next → Along ok next es

/-- The states of a run, from the one it starts in to the last one it reaches. -/
def visited : σ → List ℓ → List σ
  | s, [] => [s]
  | s, e :: es => s :: ((step s e).map fun next => visited next es).getD []

variable {step} {ok : σ → ℓ → Prop} {s t : σ} {e : ℓ} {es : List ℓ}

@[simp] theorem run_nil : run step s [] = some s := rfl

theorem run_cons_iff :
    run step s (e :: es) = some t ↔ ∃ mid, step s e = some mid ∧ run step mid es = some t := by
  simp only [run, Option.bind_eq_some_iff]

/-- Runs compose at their shared endpoint. -/
theorem run_append (first second : List ℓ) :
    run step s (first ++ second) = (run step s first).bind fun mid => run step mid second := by
  induction first generalizing s with
  | nil => rfl
  | cons e rest ih => simp only [List.cons_append, run, ih, Option.bind_assoc]

theorem along_cons_of_step {mid : σ} (taken : step s e = some mid) :
    Along step ok s (e :: es) ↔ ok s e ∧ Along step ok mid es := by
  simp only [Along, taken, Option.some.injEq, forall_eq']

instance decidableAlong [∀ s e, Decidable (ok s e)] (s : σ) (es : List ℓ) : Decidable (Along step ok s es) :=
  match es with
  | [] => .isTrue trivial
  | e :: es =>
      match taken : step s e with
      | none => decidable_of_iff (ok s e) ⟨fun good => ⟨good, by simp [taken]⟩, And.left⟩
      | some mid =>
          have := decidableAlong mid es
          decidable_of_iff (ok s e ∧ Along step ok mid es) (along_cons_of_step taken).symm

theorem Along.imp {weaker : σ → ℓ → Prop} (weaken : ∀ s e, ok s e → weaker s e)
    (along : Along step ok s es) : Along step weaker s es := by
  induction es generalizing s with
  | nil => trivial
  | cons e rest ih => exact ⟨weaken s e along.1, fun next taken => ih (along.2 next taken)⟩

theorem Along.and {other : σ → ℓ → Prop} (along : Along step ok s es) (also : Along step other s es) :
    Along step (fun s e => ok s e ∧ other s e) s es := by
  induction es generalizing s with
  | nil => trivial
  | cons e rest ih =>
    exact ⟨⟨along.1, also.1⟩, fun next taken => ih (along.2 next taken) (also.2 next taken)⟩

/-- Side conditions compose like runs. -/
theorem along_append_of_run {first second : List ℓ} {mid : σ} (success : run step s first = some mid) :
    Along step ok s (first ++ second) ↔ Along step ok s first ∧ Along step ok mid second := by
  induction first generalizing s with
  | nil =>
    cases success
    exact ⟨fun along => ⟨trivial, along⟩, And.right⟩
  | cons e rest ih =>
    obtain ⟨next, taken, tail⟩ := run_cons_iff.mp success
    rw [List.cons_append, along_cons_of_step taken, along_cons_of_step taken, ih tail, and_assoc]

/-- A condition on labels alone holds along a run of such labels. -/
theorem along_of_forall_mem {allowed : ℓ → Prop} (all : ∀ e ∈ es, allowed e) :
    Along step (fun _ e => allowed e) s es := by
  induction es generalizing s with
  | nil => trivial
  | cons e rest ih =>
    exact ⟨all e List.mem_cons_self, fun _ _ => ih fun e member => all e (List.mem_cons_of_mem _ member)⟩

/-- What one step preserves, under its side condition, a whole run preserves. -/
theorem run_preserves {Inv : σ → Prop}
    (preserved : ∀ s e t, Inv s → ok s e → step s e = some t → Inv t)
    (along : Along step ok s es) (initial : Inv s) (success : run step s es = some t) : Inv t := by
  induction es generalizing s with
  | nil => cases success; exact initial
  | cons e rest ih =>
    obtain ⟨mid, taken, tail⟩ := run_cons_iff.mp success
    exact ih (along.2 mid taken) (preserved s e mid initial along.1 taken) tail

/-- The unconditional rule: an inductive property holds of every reachable state. -/
theorem run_invariant {Inv : σ → Prop} (preserved : ∀ s e t, Inv s → step s e = some t → Inv t)
    (initial : Inv s) (success : run step s es = some t) : Inv t := by
  induction es generalizing s with
  | nil => cases success; exact initial
  | cons e rest ih =>
    obtain ⟨mid, taken, tail⟩ := run_cons_iff.mp success
    exact ih (preserved s e mid initial taken) tail

/-- A property of the state and the number of steps so far. -/
theorem run_counted {Inv : ℕ → σ → Prop} (preserved : ∀ n s e t, Inv n s → step s e = some t → Inv (n + 1) t)
    {n : ℕ} (initial : Inv n s) (success : run step s es = some t) : Inv (n + es.length) t := by
  induction es generalizing n s with
  | nil => cases success; exact initial
  | cons e rest ih =>
    obtain ⟨mid, taken, tail⟩ := run_cons_iff.mp success
    have later := ih (preserved n s e mid initial taken) tail
    rwa [Nat.add_right_comm, Nat.add_assoc] at later

/-- A property of the state and the labels so far. -/
theorem run_recorded {Inv : List ℓ → σ → Prop}
    (preserved : ∀ done s e t, Inv done s → step s e = some t → Inv (done ++ [e]) t) {done : List ℓ} (initial : Inv done s)
    (success : run step s es = some t) : Inv (done ++ es) t := by
  induction es generalizing done s with
  | nil =>
    cases success
    rwa [List.append_nil]
  | cons e rest ih =>
    obtain ⟨mid, taken, tail⟩ := run_cons_iff.mp success
    have later := ih (preserved done s e mid initial taken) tail
    rwa [List.append_assoc, List.singleton_append] at later

/-- What an inductive property implies is a side condition on all runs from there. -/
theorem along_of_invariant {Inv : σ → Prop} (preserved : ∀ s e t, Inv s → step s e = some t → Inv t)
    (implies : ∀ s e, Inv s → ok s e) (initial : Inv s) : Along step ok s es := by
  induction es generalizing s with
  | nil => trivial
  | cons e rest ih => exact ⟨implies s e initial, fun next taken => ih (preserved s e next initial taken)⟩

/-- What is permanent and does not hold at the end did not hold before. -/
theorem along_not_of_final {P : σ → Prop} (permanent : ∀ s e t, P s → step s e = some t → P t)
    (success : run step s es = some t) (final : ¬ P t) : Along step (fun s _ => ¬ P s) s es := by
  induction es generalizing s with
  | nil => trivial
  | cons e rest ih =>
    refine ⟨fun early => final (run_invariant permanent early success), fun next taken => ?_⟩
    obtain ⟨mid, same, tail⟩ := run_cons_iff.mp success
    rw [taken] at same
    cases same
    exact ih tail

/-- A rank that each step lowers bounds the number of steps. -/
theorem run_length_le {rank : σ → ℕ} {Inv : σ → Prop}
    (preserved : ∀ s e t, Inv s → ok s e → step s e = some t → Inv t)
    (lowers : ∀ s e t, Inv s → ok s e → step s e = some t → rank t < rank s)
    (along : Along step ok s es) (initial : Inv s) (success : run step s es = some t) :
    es.length + rank t ≤ rank s := by
  induction es generalizing s with
  | nil => cases success; simp
  | cons e rest ih =>
    obtain ⟨mid, taken, tail⟩ := run_cons_iff.mp success
    have bound := ih (along.2 mid taken) (preserved s e mid initial along.1 taken) tail
    have drop := lowers s e mid initial along.1 taken
    simp only [List.length_cons]
    omega

/-- Side conditions that agree on the steps from the states of an invariant agree on its runs. -/
theorem along_congr {Inv : σ → Prop} {other : σ → ℓ → Prop}
    (preserved : ∀ s e t, Inv s → step s e = some t → Inv t)
    (agree : ∀ s e t, Inv s → step s e = some t → (ok s e ↔ other s e)) (initial : Inv s)
    (success : run step s es = some t) : Along step ok s es ↔ Along step other s es := by
  induction es generalizing s with
  | nil => exact Iff.rfl
  | cons e rest ih =>
    obtain ⟨mid, taken, tail⟩ := run_cons_iff.mp success
    rw [along_cons_of_step taken, along_cons_of_step taken, agree s e mid initial taken,
      ih (preserved s e mid initial taken) tail]

/-- If failure is permanent and exactly the steps outside `ok` cause it, then a run ends without
failure precisely when all its steps meet `ok`. -/
theorem along_iff_not_failed {failed : σ → Prop}
    (causes : ∀ s e t, ¬ failed s → step s e = some t → (¬ failed t ↔ ok s e))
    (permanent : ∀ s e t, failed s → step s e = some t → failed t)
    (initial : ¬ failed s) (success : run step s es = some t) :
    ¬ failed t ↔ Along step ok s es := by
  induction es generalizing s with
  | nil => cases success; simp [Along, initial]
  | cons e rest ih =>
    obtain ⟨mid, taken, tail⟩ := run_cons_iff.mp success
    rw [along_cons_of_step taken]
    by_cases good : ok s e
    · have alive : ¬ failed mid := (causes s e mid initial taken).mpr good
      rw [ih alive tail, and_iff_right good]
    · have broken : failed mid := by
        by_contra alive
        exact good ((causes s e mid initial taken).mp alive)
      have still : failed t := run_invariant permanent broken tail
      simp only [good, still, not_true_eq_false, false_and]

theorem mem_visited_self : s ∈ visited step s es := by
  cases es <;> simp [visited]

theorem mem_visited_of_step {mid u : σ} (taken : step s e = some mid)
    (member : u ∈ visited step mid es) : u ∈ visited step s (e :: es) := by
  simp only [visited, taken, Option.map_some, Option.getD_some]
  exact List.mem_cons_of_mem _ member

/-- What holds in all states of a run is a side condition on its steps. -/
theorem along_of_forall_visited {P : σ → Prop} (all : ∀ u ∈ visited step s es, P u) :
    Along step (fun s e => P s ∧ ∀ next, step s e = some next → P next) s es := by
  induction es generalizing s with
  | nil => trivial
  | cons e rest ih =>
    have later (next : σ) (taken : step s e = some next) : ∀ u ∈ visited step next rest, P u :=
      fun u member => all u (mem_visited_of_step taken member)
    exact ⟨⟨all s mem_visited_self, fun next taken => later next taken next mem_visited_self⟩,
      fun next taken => ih (later next taken)⟩

end LabeledRun

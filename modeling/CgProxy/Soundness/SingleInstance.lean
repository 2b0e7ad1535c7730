import CgProxy.Model.Lock

/-! # One daemon at a time

As long as nobody removes the path under a process that has the file open, everybody who has it open
has the inode that the path names, and the lock of that inode excludes. A removal under such a
process is what lets a third one in: it makes a new inode, whose lock is free.
-/

namespace CgProxy.Lock

open LabeledRun

variable {ι : Type} [DecidableEq ι]

/-- A process removes the path only while no other one has the file open. -/
def Undisturbed (s : State ι) : Label ι → Prop
  | .unlink p => ∀ q, q ≠ p → (s.phase q).inode? = none
  | _ => True

instance {n : ℕ} (s : State (Fin n)) : DecidablePred (Undisturbed s)
  | .unlink p => inferInstanceAs (Decidable (∀ q, q ≠ p → (s.phase q).inode? = none))
  | .openFile _ | .flock _ | .writePid _ | .enterUnlock _ | .closeFd _ | .die _ => .isTrue trivial

/-- Who has the file open has the inode of the path, and who has a lock owns it. -/
structure Consistent (s : State ι) : Prop where
  path : ∀ q inode, (s.phase q).inode? = some inode → s.path = some inode
  owner : ∀ q inode, (s.phase q).holds? = some inode → s.owner inode = some q

theorem inode?_of_holds? {phase : Phase} {inode : ℕ} (holds : phase.holds? = some inode) :
    phase.inode? = some inode := by
  cases phase <;> simp_all [Phase.holds?, Phase.inode?]

omit [DecidableEq ι] in
theorem consistent_initial (leftover : Bool) : Consistent (State.initial leftover : State ι) := by
  constructor
  · intro q inode opened
    contradiction
  · intro q inode holds
    contradiction

section Steps

variable {s t : State ι} {p : ι}

/-- A process changes its own phase only. -/
theorem phase_setPhase (s : State ι) (p q : ι) (phase : Phase) :
    (s.setPhase p phase).phase q = if q = p then phase else s.phase q := Function.update_apply ..

omit [DecidableEq ι] in
/-- Opening finds the inode of the path, or makes the path. -/
theorem create_path (s : State ι) : (s.create.2).path = some s.create.1 := by
  rw [State.create]
  split
  · next found => exact found
  · rfl

omit [DecidableEq ι] in
/-- A path is only made when nobody has the file open. -/
theorem Consistent.create (consistent : Consistent s) : Consistent s.create.2 := by
  rw [State.create]
  split
  · exact consistent
  · next removed =>
    have none (q : ι) (inode : ℕ) : (s.phase q).inode? ≠ some inode := fun opened => by
      rw [consistent.path q inode opened] at removed
      contradiction
    constructor
    · intro q inode opened
      exact absurd opened (none q inode)
    · intro q inode holds
      exact absurd (inode?_of_holds? holds) (none q inode)

/-- A phase that opens nothing and locks nothing new keeps the state consistent. -/
theorem Consistent.setPhase (consistent : Consistent s) {phase : Phase}
    (path : ∀ inode, phase.inode? = some inode → s.path = some inode)
    (owner : ∀ inode, phase.holds? = some inode → s.owner inode = some p) : Consistent (s.setPhase p phase) := by
  constructor
  · intro q inode opened
    rw [phase_setPhase] at opened
    split at opened
    · exact path inode opened
    · exact consistent.path q inode opened
  · intro q inode holds
    rw [phase_setPhase] at holds
    split at holds
    · next same =>
      rw [same]
      exact owner inode holds
    · exact consistent.owner q inode holds

/-- Closing releases the locks of the process and of no other. -/
theorem Consistent.release (consistent : Consistent s) {phase : Phase} (closed : phase.inode? = none) :
    Consistent ((s.release p).setPhase p phase) := by
  have none (inode : ℕ) : phase.holds? ≠ some inode := fun holds => by
    rw [inode?_of_holds? holds] at closed
    contradiction
  constructor
  · intro q inode opened
    rw [phase_setPhase] at opened
    split at opened
    · rw [closed] at opened
      contradiction
    · exact consistent.path q inode opened
  · intro q inode holds
    rw [phase_setPhase] at holds
    split at holds
    · exact absurd holds (none inode)
    · next other =>
      have owns := consistent.owner q inode holds
      have differ : some q ≠ some p := fun same => other (Option.some.inj same)
      change (if s.owner inode = some p then Option.none else s.owner inode) = some q
      rw [owns, if_neg differ]

omit [DecidableEq ι] in
/-- A lock is only given when nobody has it. -/
theorem Consistent.own (consistent : Consistent s) {inode : ℕ} (free : s.owner inode = none) (p : ι) :
    Consistent { s with owner := Function.update s.owner inode (some p) } := by
  refine ⟨consistent.path, fun q inode' holds => ?_⟩
  have owns := consistent.owner q inode' holds
  have other : inode' ≠ inode := by
    rintro rfl
    rw [owns] at free
    contradiction
  exact (Function.update_of_ne other _ _).trans owns

/-- Without the path nobody has the file open. -/
theorem Consistent.unlink (undisturbed : ∀ q, q ≠ p → (s.phase q).inode? = none) :
    Consistent ({ s with path := none }.setPhase p .exited) := by
  have none (q : ι) : (({ s with path := none }.setPhase p .exited).phase q).inode? = none := by
    rw [phase_setPhase]
    split
    · rfl
    · next other => exact undisturbed q other
  constructor
  · intro q inode opened
    rw [none] at opened
    contradiction
  · intro q inode holds
    have opened := inode?_of_holds? holds
    rw [none] at opened
    contradiction

/-- No step of a process that leaves open files their path breaks the consistency. -/
theorem consistent_step {l : Label ι} (consistent : Consistent s) (undisturbed : Undisturbed s l)
    (taken : s.step l = some t) : Consistent t := by
  cases l with
  | openFile p =>
    rw [State.step] at taken
    split at taken
    · obtain rfl := Option.some.inj taken
      apply consistent.create.setPhase
      · intro inode opened
        rw [create_path, Option.some.inj opened]
      · intro inode holds
        contradiction
    · contradiction
  | flock p =>
    rw [State.step] at taken
    split at taken
    · next inode opened =>
      split at taken
      · next free =>
        obtain rfl := Option.some.inj taken
        apply (consistent.own free p).setPhase
        · intro inode' same
          exact consistent.path p inode' (by rw [opened]; exact same)
        · intro inode' same
          obtain rfl : inode = inode' := Option.some.inj same
          exact Function.update_self ..
      · obtain rfl := Option.some.inj taken
        apply consistent.setPhase
        · intro inode opened
          contradiction
        · intro inode holds
          contradiction
    · contradiction
  | writePid p =>
    rw [State.step] at taken
    split at taken
    · next inode locked =>
      obtain rfl := Option.some.inj taken
      have same : s.create.2 = s := by
        rw [State.create, consistent.path p inode (by rw [locked]; rfl)]
      rw [same]
      apply consistent.setPhase
      · intro inode' opened
        exact consistent.path p inode' (by rw [locked]; exact opened)
      · intro inode' holds
        exact consistent.owner p inode' (by rw [locked]; exact holds)
    · contradiction
  | enterUnlock p =>
    rw [State.step] at taken
    split at taken
    · next inode running =>
      obtain rfl := Option.some.inj taken
      apply consistent.setPhase
      · intro inode' opened
        exact consistent.path p inode' (by rw [running]; exact opened)
      · intro inode' holds
        exact consistent.owner p inode' (by rw [running]; exact holds)
    · contradiction
  | closeFd p =>
    rw [State.step] at taken
    split at taken
    · obtain rfl := Option.some.inj taken
      exact consistent.release rfl
    · contradiction
  | unlink p =>
    rw [State.step] at taken
    split at taken
    · obtain rfl := Option.some.inj taken
      exact Consistent.unlink undisturbed
    · contradiction
  | die p =>
    rw [State.step] at taken
    obtain rfl := Option.some.inj taken
    exact consistent.release rfl

end Steps

omit [DecidableEq ι] in
theorem Consistent.exclusive {s : State ι} (consistent : Consistent s) {p q : ι} (pRuns : (s.phase p).isRunning = true)
    (qRuns : (s.phase q).isRunning = true) : p = q := by
  have holds (r : ι) (runs : (s.phase r).isRunning = true) : ∃ inode, (s.phase r).holds? = some inode := by
    cases phase : s.phase r <;> simp_all [Phase.isRunning, Phase.holds?]
  obtain ⟨i, pHolds⟩ := holds p pRuns
  obtain ⟨j, qHolds⟩ := holds q qRuns
  have samePath : some i = some j :=
    (consistent.path p i (inode?_of_holds? pHolds)).symm.trans (consistent.path q j (inode?_of_holds? qHolds))
  obtain rfl := Option.some.inj samePath
  exact Option.some.inj ((consistent.owner p i pHolds).symm.trans (consistent.owner q i qHolds))

/-- In every run, of any number of processes, in which nobody removes the path while another process has
the file open, at most one process is past `lock()` and not yet in `unlock()`. -/
theorem single_instance (leftover : Bool) (labels : List (Label ι)) (t : State ι)
    (undisturbed : Along State.step Undisturbed (State.initial leftover) labels)
    (success : run State.step (State.initial leftover) labels = some t) :
    ∀ p q, (t.phase p).isRunning = true → (t.phase q).isRunning = true → p = q := by
  intro p q pRuns qRuns
  have consistent : Consistent t :=
    run_preserves (fun _ _ _ consistent undisturbed taken => consistent_step consistent undisturbed taken)
      undisturbed (consistent_initial leftover) success
  exact consistent.exclusive pRuns qRuns

/-! ## Three processes -/

/-- One after the other, and the third gives up. -/
def sequenceLabels : List (Label (Fin 3)) :=
  [.openFile 0, .flock 0, .writePid 0, .enterUnlock 0, .closeFd 0, .unlink 0, .openFile 1, .flock 1, .writePid 1,
    .openFile 2, .flock 2]

theorem single_instance_sequence :
    let t := (run State.step (State.initial false) sequenceLabels).get rfl
    (t.phase 1).isRunning = true ∧
      ∀ p q, (t.phase p).isRunning = true → (t.phase q).isRunning = true → p = q :=
  ⟨rfl, single_instance false sequenceLabels _ (by decide) (Option.some_get _).symm⟩

/-- The second opens the file while the first has it and locks it when the first has closed it; then
the first removes the path. -/
def overlapLabels : List (Label (Fin 3)) :=
  [.openFile 0, .flock 0, .writePid 0, .openFile 1, .enterUnlock 0, .closeFd 0, .flock 1, .writePid 1,
    .unlink 0, .openFile 2, .flock 2, .writePid 2]

/-- The second and the third run. -/
theorem two_instances :
    (run State.step (State.initial false) overlapLabels).map (fun t =>
      (t.phase 1).isRunning && (t.phase 2).isRunning) = some true := rfl

end CgProxy.Lock

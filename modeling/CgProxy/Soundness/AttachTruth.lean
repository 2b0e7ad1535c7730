import CgProxy.Model.Attach
import CgProxy.Model.Daemon

/-! # What a successful attach says

`attach` looks for its directory but not for the file system it is on, and it does not read the
cgroup again after its last write. A success is therefore worth as much as the directory that the
call writes to: `Truthful` holds of exactly the calls that cannot write elsewhere, or that find the
process in place.
-/

namespace CgProxy

/-- A write to the directory can succeed only by moving the process to the target. -/
def Directory.leadsTo (d : Directory) (cgroupTarget : Str) : Prop :=
  match d with
  | .cgroup p => p.isTarget cgroupTarget
  | .plain appendable => appendable = false

namespace Attach

/-- The process is where the call wants it. -/
def InTarget (cgroupTarget : Str) (s : State) : Prop := ∃ p, s.process = some p ∧ p.isTarget cgroupTarget

/-- Every run of the call, whatever others do to the process meanwhile and whichever system calls
fail, tells the truth when it returns success. -/
def Truthful (fs : FileSystem) (uid : ℕ) (pid cgroupTarget : Str) (cg : CgPath) : Prop :=
  ∀ labels s, LabeledRun.run (step fs cgroupTarget) (call uid pid cgroupTarget (some cg)) labels = some s →
    s.phase = .returned Status.success →
      [] ∈ s.reads ∨ ∃ t ∈ LabeledRun.visited (step fs cgroupTarget) (call uid pid cgroupTarget (some cg)) labels,
        InTarget cgroupTarget t

section Steps

variable {fs : FileSystem} {cgroupTarget : Str} {s t : State} {l : Label} {d : Directory}

/-- Everything that one step can do. -/
inductive Taken (fs : FileSystem) (cgroupTarget : Str) (s : State) (l : Label) : State → Prop
  | exit : Taken fs cgroupTarget s l { s with process := none }
  | move (p : CgPath) (label : l = .move p) (alive : s.process.isSome) :
      Taken fs cgroupTarget s l { s with process := some p }
  | failed : Taken fs cgroupTarget s l { s with phase := .returned Status.error }
  | found (d : Directory) (phase : s.phase = .stat)
      (dir : fs.dir (cgroupTargetPath cgroupTarget) = some d) :
      Taken fs cgroupTarget s l { s with phase := .read d }
  | missing (phase : s.phase = .stat) (dir : fs.dir (cgroupTargetPath cgroupTarget) = none) :
      Taken fs cgroupTarget s l { s with phase := .mkdir }
  | made (d : Directory) (phase : s.phase = .mkdir)
      (made : fs.mkdir (cgroupTargetPath cgroupTarget) = some d) :
      Taken fs cgroupTarget s l { s with phase := .read d }
  | done (d : Directory) (phase : s.phase = .read d ∨ s.phase = .reread d)
      (enough : getCgroup s.process = [] ∨ getCgroup s.process = cgroupTarget) :
      Taken fs cgroupTarget s l
        { s with reads := s.reads ++ [getCgroup s.process], phase := .returned Status.success }
  | outside (d : Directory) (phase : s.phase = .read d)
      (other : ¬ (getCgroup s.process = [] ∨ getCgroup s.process = cgroupTarget)) :
      Taken fs cgroupTarget s l { s with reads := s.reads ++ [getCgroup s.process], phase := .write d }
  | still (d : Directory) (phase : s.phase = .reread d)
      (other : ¬ (getCgroup s.process = [] ∨ getCgroup s.process = cgroupTarget)) :
      Taken fs cgroupTarget s l { s with reads := s.reads ++ [getCgroup s.process], phase := .rewrite d }
  | wrote (d : Directory) (process : Option CgPath) (phase : s.phase = .write d)
      (written : d.write s.process = some process) :
      Taken fs cgroupTarget s l { s with process, phase := .reread d }
  | rewrote (d : Directory) (process : Option CgPath) (phase : s.phase = .rewrite d)
      (written : d.write s.process = some process) :
      Taken fs cgroupTarget s l { s with process, phase := .returned Status.success }

theorem taken_of_step (taken : step fs cgroupTarget s l = some t) : Taken fs cgroupTarget s l t := by
  unfold step at taken
  split at taken
  · contradiction
  · cases taken
    exact .exit
  · next p _ =>
    obtain ⟨cg, alive, rfl⟩ := Option.map_eq_some_iff.mp taken
    exact .move p rfl (by simp [alive])
  · next phase =>
    split at taken <;> cases taken
    · next d dir => exact .found d phase dir
    · next dir => exact .missing phase dir
  · next ok phase =>
    split at taken <;> cases taken
    · next d made => exact .made d phase made
    · exact .failed
  · next d phase =>
    cases taken
    split
    · next enough => exact .done d (.inl phase) enough
    · next other => exact .outside d phase other
  · next d ok phase =>
    split at taken <;> cases taken
    · next process written => exact .wrote d process phase written
    · exact .failed
  · next d phase =>
    cases taken
    split
    · next enough => exact .done d (.inr phase) enough
    · next other => exact .still d phase other
  · next d ok phase =>
    split at taken <;> cases taken
    · next process written => exact .rewrote d process phase written
    · exact .failed
  · contradiction

/-- Where a call stands that cannot write elsewhere and has not met its process in the target. -/
def Standing (fs : FileSystem) (cgroupTarget : Str) (s : State) : Prop :=
  match s.phase with
  | .stat => True
  | .mkdir => fs.dir (cgroupTargetPath cgroupTarget) = none
  | .read d | .write d => destination fs cgroupTarget = some d
  | .reread _ | .rewrite _ => False
  | .returned status => status = Status.success → [] ∈ s.reads

theorem inTarget_of_write {process process' : Option CgPath} (leads : d.leadsTo cgroupTarget)
    (written : d.write process = some process') : ∃ p, process' = some p ∧ p.isTarget cgroupTarget := by
  cases d with
  | cgroup p =>
    cases process with
    | none => contradiction
    | some cg =>
      cases written
      exact ⟨p, rfl, leads⟩
  | plain appendable =>
    obtain rfl : appendable = false := leads
    contradiction

/-- A read after which the call returns has found nothing, or the target. -/
theorem inTarget_of_enough (enough : getCgroup s.process = [] ∨ getCgroup s.process = cgroupTarget) :
    getCgroup s.process = [] ∨ InTarget cgroupTarget s := by
  cases process : s.process with
  | none => exact .inl rfl
  | some p =>
    rw [process] at enough
    have shown : p.toStr = cgroupTarget := enough.resolve_left p.toStr_ne_nil
    exact .inr ⟨p, process, .inl shown⟩

theorem standing_of_step (leads : ∀ d, destination fs cgroupTarget = some d → d.leadsTo cgroupTarget)
    (standing : Standing fs cgroupTarget s)
    (never : ¬ InTarget cgroupTarget s ∧ ∀ next, step fs cgroupTarget s l = some next → ¬ InTarget cgroupTarget next)
    (taken : step fs cgroupTarget s l = some t) : Standing fs cgroupTarget t := by
  have after := never.2 t taken
  cases taken_of_step taken with
  | exit | move => exact standing
  | failed =>
    rintro success
    contradiction
  | found d phase dir => exact (by rw [destination, dir]; rfl : destination fs cgroupTarget = some d)
  | missing phase dir => exact dir
  | made d phase made =>
    rw [Standing, phase] at standing
    exact (by rw [destination, standing, made]; rfl : destination fs cgroupTarget = some d)
  | done d phase enough =>
    have empty := (inTarget_of_enough enough).resolve_right never.1
    intro _
    simp [empty]
  | outside d phase other =>
    rw [Standing, phase] at standing
    exact standing
  | still d phase other =>
    rw [Standing, phase] at standing
    exact standing.elim
  | wrote d process phase written =>
    rw [Standing, phase] at standing
    exact absurd (inTarget_of_write (leads d standing) written) after
  | rewrote d process phase written =>
    rw [Standing, phase] at standing
    exact standing.elim

end Steps

theorem validate_eq_true (pid cgroup : Str) : validate pid cgroup = true := by
  rw [validate]
  split
  · rfl
  · decide

/-- No parameter makes the call fail early. -/
theorem call_zero (pid cgroupTarget : Str) (process : Option CgPath) :
    call 0 pid cgroupTarget process = { process, reads := [], phase := .stat } := by
  have mounted : cgroup2MountPoint ≠ [] := by decide
  simp [call, validate_eq_true, mounted]

section Calls

variable {fs : FileSystem} {cgroupTarget : Str} {cg : CgPath} {d : Directory}

theorem truthful_of_leadsTo {uid : ℕ} {pid : Str}
    (leads : ∀ d, destination fs cgroupTarget = some d → d.leadsTo cgroupTarget) :
    Truthful fs uid pid cgroupTarget cg := by
  intro labels s success returned
  by_contra! untrue
  obtain ⟨seen, never⟩ := untrue
  have initial : Standing fs cgroupTarget (call uid pid cgroupTarget (some cg)) := by
    rw [call]
    split_ifs <;> simp [Standing, Status.error, Status.success]
  have final : Standing fs cgroupTarget s :=
    LabeledRun.run_preserves (fun _ _ _ standing never => standing_of_step leads standing never)
      (LabeledRun.along_of_forall_visited never) initial success
  rw [Standing, returned] at final
  exact seen (final rfl)

theorem truthful_of_isTarget {uid : ℕ} {pid : Str} (inPlace : cg.isTarget cgroupTarget) :
    Truthful fs uid pid cgroupTarget cg := fun _ _ _ _ =>
  .inr ⟨_, LabeledRun.mem_visited_self, cg, rfl, inPlace⟩

/-- The call as far as its first read. -/
theorem exists_enter (pid : Str) (reached : destination fs cgroupTarget = some d) :
    ∃ labels, ∀ rest,
      LabeledRun.run (step fs cgroupTarget) (call 0 pid cgroupTarget (some cg)) (labels ++ rest) =
          LabeledRun.run (step fs cgroupTarget) { process := some cg, reads := [], phase := .read d } rest ∧
        ∀ t ∈ LabeledRun.visited (step fs cgroupTarget) (call 0 pid cgroupTarget (some cg)) (labels ++ rest),
          t.process = some cg ∨
            t ∈ LabeledRun.visited (step fs cgroupTarget) { process := some cg, reads := [], phase := .read d } rest := by
  rw [call_zero]
  cases dir : fs.dir (cgroupTargetPath cgroupTarget) with
  | some d' =>
    obtain rfl : d' = d := by simpa [destination, dir] using reached
    refine ⟨[.stat], fun rest => ?_⟩
    simp only [List.singleton_append, LabeledRun.run, LabeledRun.visited, step, dir, Option.bind_some,
      Option.map_some, Option.getD_some, List.mem_cons]
    exact ⟨trivial, fun t member => member.imp (fun same => by rw [same]) id⟩
  | none =>
    have made : fs.mkdir (cgroupTargetPath cgroupTarget) = some d := by simpa [destination, dir] using reached
    refine ⟨[.stat, .mkdir true], fun rest => ?_⟩
    simp only [List.cons_append, List.nil_append, LabeledRun.run, LabeledRun.visited, step, dir, made,
      Option.bind_some, Option.map_some, Option.getD_some, List.mem_cons]
    refine ⟨trivial, ?_⟩
    rintro t (rfl | rfl | member)
    · exact .inl rfl
    · exact .inl rfl
    · exact .inr member

/-- Where a directory that does not lead to the target can leave the process. -/
theorem exists_write_of_not_leadsTo (elsewhere : ¬ d.leadsTo cgroupTarget) (outside : ¬ cg.isTarget cgroupTarget) :
    ∃ p, d.write (some cg) = some (some p) ∧ d.write (some p) = some (some p) ∧ ¬ p.isTarget cgroupTarget := by
  cases d with
  | cgroup p => exact ⟨p, rfl, rfl, elsewhere⟩
  | plain appendable =>
    obtain rfl : appendable = true := by simpa [Directory.leadsTo] using elsewhere
    exact ⟨cg, rfl, rfl, outside⟩

theorem getCgroup_of_not_isTarget {p : CgPath} (outside : ¬ p.isTarget cgroupTarget) :
    ¬ (getCgroup (some p) = [] ∨ getCgroup (some p) = cgroupTarget) := by
  rintro (empty | same)
  · exact p.toStr_ne_nil empty
  · exact outside (.inl same)

/-- Two writes elsewhere, and a success. -/
theorem not_truthful (pid : Str) (reached : destination fs cgroupTarget = some d)
    (elsewhere : ¬ d.leadsTo cgroupTarget) (outside : ¬ cg.isTarget cgroupTarget) :
    ¬ Truthful fs 0 pid cgroupTarget cg := by
  intro truthful
  obtain ⟨p, first, second, away⟩ := exists_write_of_not_leadsTo elsewhere outside
  obtain ⟨labels, enter⟩ := @exists_enter fs cgroupTarget cg d pid reached
  obtain ⟨run, visits⟩ := enter [.getCgroup, .write2procs true, .getCgroup, .write2procs true]
  have read₁ : step fs cgroupTarget ⟨some cg, [], .read d⟩ .getCgroup =
      some ⟨some cg, [cg.toStr], .write d⟩ := by
    simp only [step, if_neg (getCgroup_of_not_isTarget outside)]
    rfl
  have write₁ : step fs cgroupTarget ⟨some cg, [cg.toStr], .write d⟩ (.write2procs true) =
      some ⟨some p, [cg.toStr], .reread d⟩ := by
    simp only [step, first]
  have read₂ : step fs cgroupTarget ⟨some p, [cg.toStr], .reread d⟩ .getCgroup =
      some ⟨some p, [cg.toStr, p.toStr], .rewrite d⟩ := by
    simp only [step, if_neg (getCgroup_of_not_isTarget away)]
    rfl
  have write₂ : step fs cgroupTarget ⟨some p, [cg.toStr, p.toStr], .rewrite d⟩ (.write2procs true) =
      some ⟨some p, [cg.toStr, p.toStr], .returned Status.success⟩ := by
    simp only [step, second]
  simp only [LabeledRun.run, LabeledRun.visited, read₁, write₁, read₂, write₂, Option.bind_some,
    Option.map_some, Option.getD_some, List.mem_cons, List.not_mem_nil, or_false] at run visits
  rcases truthful _ _ run rfl with empty | ⟨t, visited, q, process, inTarget⟩
  · simp [cg.toStr_ne_nil.symm, p.toStr_ne_nil.symm] at empty
  · have places : t.process = some cg ∨ t.process = some p := by
      rcases visits t visited with early | rfl | rfl | rfl | rfl | rfl
      · exact .inl early
      · exact .inl rfl
      · exact .inl rfl
      · exact .inr rfl
      · exact .inr rfl
      · exact .inr rfl
    rw [process] at places
    rcases places with same | same
    · exact outside (Option.some.inj same ▸ inTarget)
    · exact away (Option.some.inj same ▸ inTarget)

/-- A call that begins with other rights than root's fails. -/
theorem truthful_of_uid_ne_zero {uid : ℕ} (other : uid ≠ 0) (pid : Str) :
    Truthful fs uid pid cgroupTarget cg := by
  intro labels s success returned
  have initial : (call uid pid cgroupTarget (some cg)).phase = .returned Status.error := by
    rw [call]
    exact if_pos other
  cases labels with
  | nil =>
    cases success
    rw [initial] at returned
    contradiction
  | cons l rest =>
    obtain ⟨mid, taken, -⟩ := LabeledRun.run_cons_iff.mp success
    simp only [step, initial] at taken
    contradiction

/-- A call tells the truth when it does not run as root, when it finds its process in place, or when
the only directory it can write to is the target's; and in no other case. -/
theorem truthful_iff (fs : FileSystem) (uid : ℕ) (pid cgroupTarget : Str) (cg : CgPath) :
    Truthful fs uid pid cgroupTarget cg ↔
      uid ≠ 0 ∨ cg.isTarget cgroupTarget ∨
        ∀ d, destination fs cgroupTarget = some d → d.leadsTo cgroupTarget := by
  constructor
  · intro truthful
    by_contra! reasons
    obtain ⟨rfl, outside, d, reached, elsewhere⟩ := reasons
    exact not_truthful pid reached elsewhere outside truthful
  · rintro (other | inPlace | leads)
    · exact truthful_of_uid_ne_zero other pid
    · exact truthful_of_isTarget inPlace
    · exact truthful_of_leadsTo leads

/-- Nothing is mounted at the mount point, and it is an ordinary directory. -/
def unmounted : FileSystem where
  dir _ := none
  mkdir _ := some (.plain true)

/-- Without the mount the process stays in /user.slice and the call succeeds. -/
theorem truthful_unmounted :
    validPid "100".toList = true ∧ validCgroup cgroupProxyPreserved = true ∧
      ¬ Truthful unmounted 0 "100".toList cgroupProxyPreserved (.ofStr "/user.slice".toList) := by
  refine ⟨by decide, by decide, ?_⟩
  exact not_truthful "100".toList rfl (by simp [Directory.leadsTo]) (by unfold CgPath.isTarget; decide)

end Calls

/-! ## What bad parameters stop

`validate` gives its `-1` as a `bool`, which is true, so the checks of `attach` stop other users than
root and nothing else.
-/

/-- The calls that `attach` makes itself. -/
def Label.own : Label → Bool
  | .exit | .move _ => false
  | _ => true

/-- How many calls of its own `attach` can still make. -/
def Phase.left : Phase → ℕ
  | .stat => 6
  | .mkdir => 5
  | .read _ => 4
  | .write _ => 3
  | .reread _ => 2
  | .rewrite _ => 1
  | .returned _ => 0

section Parameters

variable {fs : FileSystem} {cgroupTarget : Str} {s t : State} {l : Label}

/-- The parameters that `validate` is there to stop. -/
def BadParameters (pid cgroup : Str) : Prop := validPid pid = false ∨ validCgroup cgroup = false

/-- Whatever others do meanwhile, the call makes no directory and writes to no file, and all it returns
is errors. -/
def Rejects (fs : FileSystem) (uid : ℕ) (pid cgroupTarget : Str) (process : Option CgPath) : Prop :=
  ∀ labels s, LabeledRun.run (step fs cgroupTarget) (call uid pid cgroupTarget process) labels = some s →
    (∀ ok, .mkdir ok ∉ labels) ∧ (∀ ok, .write2procs ok ∉ labels) ∧
      ∀ status, s.phase = .returned status → status ≠ Status.success

theorem left_lt_of_step (own : l.own = true) (taken : step fs cgroupTarget s l = some t) :
    t.phase.left < s.phase.left := by
  obtain ⟨process, reads, phase⟩ := s
  cases l with
  | exit | move => contradiction
  | stat =>
    cases phase <;> try contradiction
    simp only [step] at taken
    split at taken <;> cases taken <;> simp [Phase.left]
  | mkdir ok =>
    cases phase <;> try contradiction
    simp only [step] at taken
    split at taken <;> cases taken <;> simp [Phase.left]
  | getCgroup =>
    cases phase <;> try contradiction
    all_goals
      cases taken
      dsimp only
      split <;> simp [Phase.left]
  | write2procs ok =>
    cases phase <;> try contradiction
    all_goals
      simp only [step] at taken
      split at taken <;> cases taken <;> simp [Phase.left]

theorem phase_of_step (others : l.own = false) (taken : step fs cgroupTarget s l = some t) :
    t.phase = s.phase := by
  obtain ⟨process, reads, phase⟩ := s
  cases l with
  | exit => cases phase <;> cases taken <;> rfl
  | move p =>
    cases phase <;> try contradiction
    all_goals
      obtain ⟨_, _, rfl⟩ := Option.map_eq_some_iff.mp taken
      rfl
  | stat | mkdir | getCgroup | write2procs => contradiction

/-- Before its end the call can always go on. -/
theorem exists_own_call (unfinished : 0 < s.phase.left) :
    ∃ l : Label, l.own = true ∧ (step fs cgroupTarget s l).isSome = true := by
  obtain ⟨process, reads, phase⟩ := s
  cases phase with
  | stat =>
    refine ⟨.stat, rfl, ?_⟩
    simp only [step]
    split <;> rfl
  | mkdir => exact ⟨.mkdir false, rfl, rfl⟩
  | read d | reread d => exact ⟨.getCgroup, rfl, rfl⟩
  | write d | rewrite d => exact ⟨.write2procs false, rfl, rfl⟩
  | returned status => simp [Phase.left] at unfinished

/-- And it comes to its end after at most six calls of its own. -/
theorem own_calls_le {labels : List Label} (success : LabeledRun.run (step fs cgroupTarget) s labels = some t) :
    labels.countP Label.own + t.phase.left ≤ s.phase.left := by
  induction labels generalizing s with
  | nil =>
    cases success
    simp
  | cons l rest ih =>
    obtain ⟨mid, taken, tail⟩ := LabeledRun.run_cons_iff.mp success
    have later := ih tail
    cases own : l.own with
    | true =>
      have lower := left_lt_of_step own taken
      rw [List.countP_cons_of_pos own]
      omega
    | false =>
      have same := phase_of_step own taken
      rw [List.countP_cons_of_neg (by simp [own]), ← same]
      exact later

/-- Bad parameters are stopped when the caller is not root, and otherwise never. -/
theorem rejects_iff (fs : FileSystem) (uid : ℕ) (pid cgroupTarget : Str) (process : Option CgPath) :
    (BadParameters pid cgroupTarget → Rejects fs uid pid cgroupTarget process) ↔
      (BadParameters pid cgroupTarget → uid ≠ 0) := by
  refine forall_congr' fun _ => ⟨?_, ?_⟩
  · rintro rejects rfl
    rw [Rejects, call_zero] at rejects
    cases dir : fs.dir (cgroupTargetPath cgroupTarget) with
    | none =>
      -- the directory is missing, and `mkdir` is called
      have run : LabeledRun.run (step fs cgroupTarget) ⟨process, [], .stat⟩ [.stat, .mkdir false] =
          some ⟨process, [], .returned Status.error⟩ := by
        simp only [LabeledRun.run, step, dir, Option.bind_some]
      exact (rejects _ _ run).1 false (by simp)
    | some d =>
      -- there is no process, and the call succeeds
      have run : LabeledRun.run (step fs cgroupTarget) ⟨process, [], .stat⟩ [.stat, .exit, .getCgroup] =
          some ⟨none, [[]], .returned Status.success⟩ := by
        simp only [LabeledRun.run, step, dir, Option.bind_some, getCgroup, true_or, if_true, List.nil_append]
      exact (rejects _ _ run).2.2 _ rfl rfl
  · intro other labels s success
    have initial : call uid pid cgroupTarget process = ⟨process, [], .returned Status.error⟩ := by
      rw [call, if_pos other]
    rw [initial] at success
    cases labels with
    | nil =>
      cases success
      refine ⟨by simp, by simp, fun status returned => ?_⟩
      cases returned
      decide
    | cons l rest =>
      obtain ⟨mid, taken, -⟩ := LabeledRun.run_cons_iff.mp success
      contradiction

/-- Process -5, as a pid message can name it: the slice is made and the call succeeds. -/
theorem not_rejects_negative :
    BadParameters "-5".toList cgroupProxyPreserved ∧
      ¬ Rejects unmounted 0 "-5".toList cgroupProxyPreserved none := by
  refine ⟨.inl (by decide), fun rejects => ?_⟩
  have run : LabeledRun.run (step unmounted cgroupProxyPreserved)
      (call 0 "-5".toList cgroupProxyPreserved none) [.stat, .mkdir true, .getCgroup] =
        some ⟨none, [[]], .returned Status.success⟩ := by decide
  exact (rejects _ _ run).2.2 _ rfl rfl

end Parameters

/-! ## The answers the daemon counts on

The daemon's model calls `attach` in one step with any answer and any effect. An undisturbed call
whose directory is the target's, or is no cgroup, has one of them.
-/

section Answers

variable {fs : FileSystem} {cgroupTarget : Str} {cg : CgPath} {s t : State} {l : Label}

/-- What an undisturbed call keeps to. -/
structure Undisturbed (fs : FileSystem) (cgroupTarget : Str) (cg : CgPath) (s : State) : Prop where
  process : s.process = some cg ∨ s.process = some (.ofStr cgroupTarget) ∨ s.process = none
  status : ∀ status, s.phase = .returned status → status = Status.success ∨ status = Status.error
  missing : s.phase = .mkdir → fs.dir (cgroupTargetPath cgroupTarget) = none
  reached : ∀ d, s.phase ∈ [.read d, .write d, .reread d, .rewrite d] → destination fs cgroupTarget = some d

theorem Undisturbed.write {d : Directory} {process : Option CgPath}
    (place : ∀ p, destination fs cgroupTarget = some (.cgroup p) → p = .ofStr cgroupTarget)
    (undisturbed : Undisturbed fs cgroupTarget cg s) (reached : destination fs cgroupTarget = some d)
    (written : d.write s.process = some process) :
    process = some cg ∨ process = some (.ofStr cgroupTarget) ∨ process = none := by
  cases d with
  | cgroup p =>
    obtain rfl := place p reached
    cases alive : s.process with
    | none =>
      rw [alive] at written
      contradiction
    | some q =>
      rw [alive] at written
      cases written
      exact .inr (.inl rfl)
  | plain appendable =>
    cases appendable with
    | false => contradiction
    | true =>
      cases written
      exact undisturbed.process

theorem Undisturbed.step (place : ∀ p, destination fs cgroupTarget = some (.cgroup p) → p = .ofStr cgroupTarget)
    (undisturbed : Undisturbed fs cgroupTarget cg s) (alone : ∀ p, l ≠ .move p)
    (taken : step fs cgroupTarget s l = some t) : Undisturbed fs cgroupTarget cg t := by
  obtain ⟨process, status, missing, reached⟩ := undisturbed
  cases taken_of_step taken with
  | exit => exact ⟨.inr (.inr rfl), status, missing, reached⟩
  | move p label => exact absurd label (alone p)
  | failed => exact ⟨process, by simp, by simp, by simp⟩
  | found d phase dir => exact ⟨process, by simp, by simp, by simp [destination, dir]⟩
  | missing phase dir => exact ⟨process, by simp, by simp [dir], by simp⟩
  | made d phase made => exact ⟨process, by simp, by simp, by simp [destination, missing phase, made]⟩
  | done d phase enough => exact ⟨process, by simp, by simp, by simp⟩
  | outside d phase other => exact ⟨process, by simp, by simp, by simp [reached d (by simp [phase])]⟩
  | still d phase other => exact ⟨process, by simp, by simp, by simp [reached d (by simp [phase])]⟩
  | wrote d after phase written =>
    have here := reached d (by simp [phase])
    exact ⟨Undisturbed.write place ⟨process, status, missing, reached⟩ here written, by simp, by simp,
      by simp [here]⟩
  | rewrote d after phase written =>
    have here := reached d (by simp [phase])
    exact ⟨Undisturbed.write place ⟨process, status, missing, reached⟩ here written, by simp, by simp, by simp⟩

/-- An undisturbed call is one of the answers that `World.attach` can give. -/
theorem exists_answer (w : World) (pid : ℤ) {uid : ℕ} {text : Str} {labels : List Label} {status : ℤ}
    (alive : w.cgroup pid = some cg)
    (place : ∀ p, destination fs cgroupTarget = some (.cgroup p) → p = .ofStr cgroupTarget)
    (alone : ∀ l ∈ labels, ∀ p, l ≠ .move p)
    (success : LabeledRun.run (Attach.step fs cgroupTarget) (call uid text cgroupTarget (some cg)) labels = some s)
    (returned : s.phase = .returned status) :
    ∃ answer, (({ w with answers := fun _ => answer } : World).attach pid cgroupTarget).1 = status ∧
      (({ w with answers := fun _ => answer } : World).attach pid cgroupTarget).2.cgroup pid = s.process := by
  have initial : Undisturbed fs cgroupTarget cg (call uid text cgroupTarget (some cg)) := by
    refine ⟨.inl rfl, ?_, ?_, ?_⟩ <;> rw [call] <;> dsimp only <;> split_ifs <;> simp [eq_comm]
  have along : LabeledRun.Along (Attach.step fs cgroupTarget) (fun _ l => ∀ p, l ≠ .move p)
      (call uid text cgroupTarget (some cg)) labels := LabeledRun.along_of_forall_mem alone
  have final : Undisturbed fs cgroupTarget cg s :=
    LabeledRun.run_preserves (fun _ _ _ undisturbed alone taken => undisturbed.step place alone taken)
      along initial success
  have effects : ∃ effect : Effect, ∀ success : Bool,
      (({ w with answers := fun _ => ⟨success, effect⟩ } : World).attach pid cgroupTarget).2.cgroup pid =
        s.process := by
    rcases final.process with stayed | moved | gone
    · exact ⟨.stayed, fun _ => by simp [World.attach, alive, stayed]⟩
    · exact ⟨.moved, fun _ => by simp [World.attach, moved]⟩
    · exact ⟨.gone, fun _ => by simp [World.attach, gone]⟩
  obtain ⟨effect, after⟩ := effects
  rcases final.status status returned with rfl | rfl
  · exact ⟨⟨true, effect⟩, rfl, after true⟩
  · exact ⟨⟨false, effect⟩, rfl, after false⟩

end Answers

end Attach

end CgProxy

import CgProxy.Model.HandlePid
import CgProxy.Soundness.CatchUp
import CgProxy.Soundness.AttachTruth

/-! # An explicit command beside execsnoop

A process in one of the reserved slices is left alone by every test that `handle_pid` makes from then
on. But a call that has made its test before the message's `attach` wrote goes on to its own `attach`,
which moves the process away again. `Threatens` says where such a call stands, and what it stands for.
-/

namespace CgProxy

open LabeledRun

/-- A write there takes a process out of the slice. -/
def Directory.Elsewhere (slice : Str) : Directory → Prop
  | .cgroup p => p ≠ .ofStr slice
  | .plain _ => False

namespace HandlePid

/-- The `attach` of `handle_pid` is going to take the process out of the slice. -/
def Phase.Threatens (fs : FileSystem) (slice : Str) : Phase → Prop
  | .attaching target .stat => target ≠ slice ∧ ∃ d, Attach.destination fs target = some d ∧ d.Elsewhere slice
  | .attaching target .mkdir =>
      target ≠ slice ∧ ∃ d, fs.mkdir (Attach.cgroupTargetPath target) = some d ∧ d.Elsewhere slice
  | .attaching target (.read d) | .attaching target (.reread d) => target ≠ slice ∧ d.Elsewhere slice
  | .attaching _ (.write d) | .attaching _ (.rewrite d) => d.Elsewhere slice
  | _ => False

/-- A step of `handle_pid`. -/
def Label.execsnoop : Label → Bool
  | realpath _ | getCgroup | attach _ => true
  | _ => false

/-- Once the message's `attach` has succeeded, `handle_pid` does not move the process out of the slice. -/
def Respects (c : Config) (uid : ℕ) (pid slice : Str) (s : State) (l : Label) : Prop :=
  s.socket = .returned Status.success → l.execsnoop = true → s.process = some (.ofStr slice) →
    ∀ t, s.step c uid pid slice l = some t → t.process = some (.ofStr slice)

/-! ## `handle_pid` alone -/

section Alone

variable {c : Config} {pid slice : Str} {w : World} {n : ℤ} {process : Option CgPath}

/-- A block reads and decides like a stage of the daemon's model. -/
theorem tested_cases (pid : Str) {programs cgroups : List Str} {own path : Str} (next : Phase) (listed : path ∈ programs)
    (here : process = w.cgroup n) :
    (tested 0 pid cgroups own next process = .returned 0 ∧ handleStage programs cgroups own w n path = some (0, w)) ∨
      (tested 0 pid cgroups own next process = next ∧ handleStage programs cgroups own w n path = none) ∨
      (tested 0 pid cgroups own next process = .attaching own .stat ∧
        handleStage programs cgroups own w n path = some (w.attach n own)) := by
  have same : Attach.getCgroup process = w.getCgroup n := by
    rw [here]
    rfl
  rw [tested, handleStage, if_pos listed, same, Attach.call_zero]
  dsimp only [Phase.attach]
  split_ifs
  · exact .inl ⟨rfl, rfl⟩
  · exact .inl ⟨rfl, rfl⟩
  · exact .inr (.inl ⟨rfl, rfl⟩)
  · exact .inr (.inr ⟨rfl, rfl⟩)

/-- The second block. -/
private theorem run_proxyStage (c : Config) (pid slice path : Str) (s : State) (w : World) (n : ℤ)
    (here : s.process = w.cgroup n) :
    ∃ labels phase, run (State.step c 0 pid slice) { s with execsnoop := proxyStage c path } labels =
        some { s with execsnoop := phase } ∧
      ((phase = .returned 0 ∧
          (handleStage c.programProxy c.cgroupProxy cgroupProxyPreserved w n path).getD (0, w) = (0, w)) ∨
        ∃ target, phase = .attaching target .stat ∧
          (handleStage c.programProxy c.cgroupProxy cgroupProxyPreserved w n path).getD (0, w) = w.attach n target) := by
  by_cases listed : path ∈ c.programProxy
  · have block : proxyStage c path = .proxy path := if_pos listed
    refine ⟨[.getCgroup], tested 0 pid c.cgroupProxy cgroupProxyPreserved (.returned 0) s.process, ?_, ?_⟩
    · rw [block]
      rfl
    · rcases tested_cases pid (.returned 0) listed here with ⟨phase, stage⟩ | ⟨phase, stage⟩ | ⟨phase, stage⟩
      · exact .inl ⟨phase, by rw [stage]; rfl⟩
      · exact .inl ⟨phase, by rw [stage]; rfl⟩
      · exact .inr ⟨_, phase, by rw [stage]; rfl⟩
  · exact ⟨[], .returned 0, by rw [proxyStage, if_neg listed]; rfl,
      .inl ⟨rfl, by rw [handleStage, if_neg listed]; rfl⟩⟩

/-- The reads of `handle_pid`, when nobody comes between, lead to the call that the daemon's model makes. -/
theorem run_alone (c : Config) (pid slice : Str) (s : State) (w : World) (n : ℤ) (launched : s.execsnoop = .realpath)
    (here : s.process = w.cgroup n) :
    ∃ labels phase, run (State.step c 0 pid slice) s labels = some { s with execsnoop := phase } ∧
      ((phase = .returned 0 ∧ handlePid c w n = (0, w)) ∨
        ∃ target, phase = .attaching target .stat ∧ handlePid c w n = w.attach n target) := by
  cases exe : w.exe n with
  | none =>
    have taken : s.step c 0 pid slice (.realpath none) = some { s with execsnoop := .returned 0 } := by
      simp only [State.step, launched]
    exact ⟨[.realpath none], .returned 0, by rw [run, taken]; rfl, .inl ⟨rfl, by rw [handlePid, exe]⟩⟩
  | some path =>
    have taken : s.step c 0 pid slice (.realpath (some path)) = some { s with execsnoop := noproxyStage c path } := by
      simp only [State.step, launched]
    obtain ⟨labels, phase, second, meets⟩ := run_proxyStage c pid slice path s w n here
    by_cases listed : path ∈ c.programNoproxy
    · have block : noproxyStage c path = .noproxy path := if_pos listed
      have tests : State.step c 0 pid slice { s with execsnoop := .noproxy path } .getCgroup = some { s with
          execsnoop := tested 0 pid c.cgroupNoproxy cgroupNoproxyPreserved (proxyStage c path) s.process } := rfl
      rw [block] at taken
      rcases tested_cases pid (proxyStage c path) listed here with ⟨first, stage⟩ | ⟨first, stage⟩ | ⟨first, stage⟩
      · refine ⟨[.realpath (some path), .getCgroup], .returned 0, ?_, .inl ⟨rfl, ?_⟩⟩
        · rw [run, taken, Option.bind_some, run, tests, first]
          rfl
        · simp only [handlePid, exe, stage]
      · refine ⟨.realpath (some path) :: .getCgroup :: labels, phase, ?_, ?_⟩
        · rw [run, taken, Option.bind_some, run, tests, first, Option.bind_some, second]
        · simp only [handlePid, exe, stage]
          exact meets
      · refine ⟨[.realpath (some path), .getCgroup], .attaching cgroupNoproxyPreserved .stat, ?_,
          .inr ⟨cgroupNoproxyPreserved, rfl, ?_⟩⟩
        · rw [run, taken, Option.bind_some, run, tests, first]
          rfl
        · simp only [handlePid, exe, stage]
    · have block : noproxyStage c path = proxyStage c path := if_neg listed
      have stage : handleStage c.programNoproxy c.cgroupNoproxy cgroupNoproxyPreserved w n path = none := if_neg listed
      rw [block] at taken
      refine ⟨.realpath (some path) :: labels, phase, ?_, ?_⟩
      · rw [run, taken, Option.bind_some, second]
      · simp only [handlePid, exe, stage]
        exact meets

end Alone

/-! ## A system call of either `attach` -/

/-- Everything that a system call can do. -/
inductive Called (s : State) (target : Str) : Attach.Phase → State → Attach.Phase → Prop
  | failed {phase : Attach.Phase} : Called s target phase s (.returned Status.error)
  | found (d : Directory) (dir : s.fs.dir (Attach.cgroupTargetPath target) = some d) :
      Called s target .stat s (.read d)
  | missing (dir : s.fs.dir (Attach.cgroupTargetPath target) = none) : Called s target .stat s .mkdir
  | made (d : Directory) (made : s.fs.mkdir (Attach.cgroupTargetPath target) = some d) :
      Called s target .mkdir { s with fs := s.fs.made (Attach.cgroupTargetPath target) d } (.read d)
  | done (d : Directory) {phase : Attach.Phase} (reads : phase = .read d ∨ phase = .reread d)
      (enough : Attach.getCgroup s.process = [] ∨ Attach.getCgroup s.process = target) :
      Called s target phase s (.returned Status.success)
  | outside (d : Directory) (other : ¬ (Attach.getCgroup s.process = [] ∨ Attach.getCgroup s.process = target)) :
      Called s target (.read d) s (.write d)
  | still (d : Directory) (other : ¬ (Attach.getCgroup s.process = [] ∨ Attach.getCgroup s.process = target)) :
      Called s target (.reread d) s (.rewrite d)
  | wrote (d : Directory) (process : Option CgPath) (written : d.write s.process = some process) :
      Called s target (.write d) { s with process } (.reread d)
  | rewrote (d : Directory) (process : Option CgPath) (written : d.write s.process = some process) :
      Called s target (.rewrite d) { s with process } (.returned Status.success)

section Calls

variable {c : Config} {uid : ℕ} {pid slice target : Str} {s t : State} {phase phase' : Attach.Phase} {l : Label}

theorem called_of_call {l : Attach.Label} (called : s.call target phase l = some (t, phase')) :
    Called s target phase t phase' := by
  unfold State.call at called
  split at called
  · contradiction
  · contradiction
  · next notExit notMove =>
    obtain ⟨after, taken, same⟩ := Option.map_eq_some_iff.mp called
    obtain ⟨rfl, rfl⟩ := Prod.mk.inj same
    unfold Attach.step at taken
    dsimp only at taken
    split at taken
    · contradiction
    · exact absurd rfl notExit
    · exact absurd rfl (notMove _)
    · split at taken <;> cases taken
      · next d dir => exact .found d dir
      · next dir => exact .missing dir
    · split at taken <;> cases taken
      · next d made => exact .made d made
      · exact .failed
    · next d =>
      cases taken
      by_cases enough : Attach.getCgroup s.process = [] ∨ Attach.getCgroup s.process = target
      · rw [if_pos enough]
        exact .done d (.inl rfl) enough
      · rw [if_neg enough]
        exact .outside d enough
    · next d _ =>
      split at taken <;> cases taken
      · next process written => exact .wrote d process written
      · exact .failed
    · next d =>
      cases taken
      by_cases enough : Attach.getCgroup s.process = [] ∨ Attach.getCgroup s.process = target
      · rw [if_pos enough]
        exact .done d (.inr rfl) enough
      · rw [if_neg enough]
        exact .still d enough
    · next d _ =>
      split at taken <;> cases taken
      · next process written => exact .rewrote d process written
      · exact .failed
    · contradiction

theorem Called.socket (called : Called s target phase t phase') : t.socket = s.socket := by
  cases called <;> rfl

theorem call_returned (status : ℤ) (l : Attach.Label) : s.call target (.returned status) l = none := by
  cases l <;> rfl

/-! ## After the answer -/

/-- An answer is not taken back. -/
theorem answered_permanent {status : ℤ} (answered : s.socket = .returned status)
    (taken : s.step c uid pid slice l = some t) : t.socket = .returned status := by
  obtain ⟨fs, process, socket, execsnoop⟩ := s
  obtain rfl : socket = .returned status := answered
  cases l with
  | exit =>
    cases taken
    rfl
  | event =>
    cases execsnoop <;> cases taken
    rfl
  | realpath path =>
    cases execsnoop <;> cases path <;> cases taken <;> rfl
  | getCgroup =>
    cases execsnoop <;> cases taken <;> rfl
  | attach l =>
    cases execsnoop with
    | attaching target phase =>
      obtain ⟨⟨after, phase'⟩, call, rfl⟩ := Option.map_eq_some_iff.mp taken
      exact (called_of_call call).socket
    | _ => contradiction
  | socket l =>
    obtain ⟨after, called, -⟩ := Option.map_eq_some_iff.mp taken
    rw [call_returned] at called
    contradiction

theorem write_of_not_elsewhere {d : Directory} {process : Option CgPath} (here : ¬ d.Elsewhere slice)
    (written : d.write (some (.ofStr slice)) = some process) : process = some (.ofStr slice) := by
  cases d with
  | cgroup p =>
    cases written
    rw [not_not.mp here]
  | plain appendable =>
    cases appendable with
    | false => contradiction
    | true =>
      cases written
      rfl

theorem not_elsewhere_of_write {d : Directory} {process : Option CgPath}
    (written : d.write process = some (some (.ofStr slice))) : ¬ d.Elsewhere slice := by
  cases d with
  | cgroup p =>
    cases process with
    | none => contradiction
    | some q =>
      obtain rfl : p = .ofStr slice := by simpa [Directory.write] using written
      exact not_not_intro rfl
  | plain appendable => exact id

theorem toStr_slice (reserved : slice = cgroupProxyPreserved ∨ slice = cgroupNoproxyPreserved) :
    (CgPath.ofStr slice).toStr = slice := by
  rcases reserved with rfl | rfl <;> decide

theorem preserved_slice (reserved : slice = cgroupProxyPreserved ∨ slice = cgroupNoproxyPreserved) :
    preserved (CgPath.ofStr slice).toStr = true := by
  rcases reserved with rfl | rfl
  · exact preserved_proxySlice
  · exact preserved_noproxySlice

/-- No call that `handle_pid` is in takes the process out of the slice. -/
def Safe (slice : Str) (s : State) : Prop :=
  s.process = some (.ofStr slice) → ¬ s.execsnoop.Threatens s.fs slice

/-- A system call of its `attach`. -/
theorem safe_of_called (reserved : slice = cgroupProxyPreserved ∨ slice = cgroupNoproxyPreserved)
    (safe : s.process = some (.ofStr slice) → ¬ (Phase.attaching target phase).Threatens s.fs slice)
    (called : Called s target phase t phase') :
    (s.process = some (.ofStr slice) → t.process = some (.ofStr slice)) ∧
      (t.process = some (.ofStr slice) → ¬ (Phase.attach target phase').Threatens t.fs slice) := by
  have read_other (inside : s.process = some (.ofStr slice))
      (other : ¬ (Attach.getCgroup s.process = [] ∨ Attach.getCgroup s.process = target)) : target ≠ slice := by
    rintro rfl
    rw [inside] at other
    exact other (.inr (toStr_slice reserved))
  cases called with
  | failed => exact ⟨id, fun _ => id⟩
  | found d dir =>
    refine ⟨id, fun inside threat => safe inside ⟨threat.1, d, ?_, threat.2⟩⟩
    rw [Attach.destination, dir]
    rfl
  | missing dir =>
    refine ⟨id, fun inside threat => safe inside ⟨threat.1, ?_⟩⟩
    rw [Attach.destination, dir]
    exact threat.2
  | made d made => exact ⟨id, fun inside threat => safe inside ⟨threat.1, d, made, threat.2⟩⟩
  | done d reads enough => exact ⟨id, fun _ => id⟩
  | outside d other => exact ⟨id, fun inside threat => safe inside ⟨read_other inside other, threat⟩⟩
  | still d other => exact ⟨id, fun inside threat => safe inside ⟨read_other inside other, threat⟩⟩
  | wrote d process written =>
    refine ⟨fun inside => ?_, fun inside threat => ?_⟩
    · rw [inside] at written
      exact write_of_not_elsewhere (safe inside) written
    · dsimp only at inside
      rw [inside] at written
      exact not_elsewhere_of_write written threat.2
  | rewrote d process written =>
    refine ⟨fun inside => ?_, fun _ => id⟩
    rw [inside] at written
    exact write_of_not_elsewhere (safe inside) written

theorem not_threatens_noproxyStage (c : Config) (path : Str) (fs : FileSystem) :
    ¬ (noproxyStage c path).Threatens fs slice := by
  rw [noproxyStage, proxyStage]
  split_ifs <;> exact id

/-- A test that finds the process in the slice leaves it alone. -/
theorem tested_slice (reserved : slice = cgroupProxyPreserved ∨ slice = cgroupNoproxyPreserved)
    (uid : ℕ) (pid : Str) (cgroups : List Str) (own : Str) (next : Phase) :
    tested uid pid cgroups own next (some (.ofStr slice)) = .returned 0 := by
  have shown : Attach.getCgroup (some (.ofStr slice)) = (CgPath.ofStr slice).toStr := rfl
  have nonempty := (CgPath.ofStr slice).toStr_ne_nil
  simp only [tested, shown, nonempty, preserved_slice reserved, if_true, if_false]

/-- What a step keeps when the message's `attach` has returned. -/
theorem Safe.step (reserved : slice = cgroupProxyPreserved ∨ slice = cgroupNoproxyPreserved) {status : ℤ}
    (answered : s.socket = .returned status) (safe : Safe slice s) (taken : s.step c uid pid slice l = some t) :
    Safe slice t ∧ (l.execsnoop = true → s.process = some (.ofStr slice) → t.process = some (.ofStr slice)) := by
  obtain ⟨fs, process, socket, execsnoop⟩ := s
  cases l with
  | exit =>
    cases taken
    exact ⟨nofun, nofun⟩
  | event =>
    cases execsnoop <;> cases taken
    exact ⟨fun _ => id, nofun⟩
  | realpath path =>
    cases execsnoop with
    | realpath =>
      cases path with
      | none =>
        cases taken
        exact ⟨fun _ => id, fun _ => id⟩
      | some path =>
        cases taken
        exact ⟨fun _ => not_threatens_noproxyStage c path fs, fun _ => id⟩
    | _ => cases path <;> contradiction
  | getCgroup =>
    cases execsnoop with
    | noproxy | proxy =>
      cases taken
      refine ⟨fun inside => ?_, fun _ => id⟩
      obtain rfl : process = some (.ofStr slice) := inside
      dsimp only
      rw [tested_slice reserved]
      exact id
    | _ => contradiction
  | attach l =>
    cases execsnoop with
    | attaching target phase =>
      obtain ⟨⟨after, phase'⟩, call, rfl⟩ := Option.map_eq_some_iff.mp taken
      obtain ⟨stays, spared⟩ := safe_of_called reserved safe (called_of_call call)
      exact ⟨spared, fun _ => stays⟩
    | _ => contradiction
  | socket l =>
    obtain rfl : socket = .returned status := answered
    obtain ⟨after, called, -⟩ := Option.map_eq_some_iff.mp taken
    rw [call_returned] at called
    contradiction

/-- What `handle_pid` begins from then on does no harm. -/
theorem Safe.respects (reserved : slice = cgroupProxyPreserved ∨ slice = cgroupNoproxyPreserved)
    (answered : s.socket = .returned Status.success) (safe : Safe slice s) (later : List Label) :
    Along (State.step c uid pid slice) (Respects c uid pid slice) s later := by
  refine @along_of_invariant _ _ _ _ _ _ (fun s => s.socket = .returned Status.success ∧ Safe slice s) ?_ ?_
    ⟨answered, safe⟩
  · rintro s l t ⟨answered, safe⟩ taken
    exact ⟨answered_permanent answered taken, (safe.step reserved answered taken).1⟩
  · rintro s l ⟨answered, safe⟩ - own inside t taken
    exact (safe.step reserved answered taken).2 own inside

/-! ## Going on -/

theorem not_along_cons {mid : State} {later : List Label} (taken : s.step c uid pid slice l = some mid)
    (bad : ¬ Along (State.step c uid pid slice) (Respects c uid pid slice) mid later) :
    ¬ Along (State.step c uid pid slice) (Respects c uid pid slice) s (l :: later) := fun along =>
  bad ((along_cons_of_step taken).mp along).2

/-- A write takes the process away, -/
theorem exists_override_of_write (s : State) (answered : s.socket = .returned Status.success)
    (inside : s.process = some (.ofStr slice)) {d : Directory} (away : d.Elsewhere slice)
    (writes : s.execsnoop = .attaching target (.write d) ∨ s.execsnoop = .attaching target (.rewrite d)) :
    ∃ later, ¬ Along (State.step c uid pid slice) (Respects c uid pid slice) s later := by
  cases d with
  | plain appendable => contradiction
  | cgroup p =>
    refine ⟨[.attach (.write2procs true)], fun along => away ?_⟩
    rcases writes with writes | writes
    · have taken : s.step c uid pid slice (.attach (.write2procs true)) = some { s with
          process := some p, execsnoop := .attaching target (.reread (.cgroup p)) } := by
        rw [State.step, writes]
        simp only [State.call, Attach.step, inside, Directory.write, Option.map_some, Phase.attach]
      exact Option.some.inj (along.1 answered rfl inside _ taken)
    · have taken : s.step c uid pid slice (.attach (.write2procs true)) = some { s with
          process := some p, execsnoop := .returned Status.success } := by
        rw [State.step, writes]
        simp only [State.call, Attach.step, inside, Directory.write, Option.map_some, Phase.attach]
      exact Option.some.inj (along.1 answered rfl inside _ taken)

/-- a read finds another slice than its own, -/
theorem exists_override_of_read (reserved : slice = cgroupProxyPreserved ∨ slice = cgroupNoproxyPreserved)
    (s : State) (answered : s.socket = .returned Status.success) (inside : s.process = some (.ofStr slice))
    {d : Directory} (other : target ≠ slice) (away : d.Elsewhere slice)
    (reads : s.execsnoop = .attaching target (.read d) ∨ s.execsnoop = .attaching target (.reread d)) :
    ∃ later, ¬ Along (State.step c uid pid slice) (Respects c uid pid slice) s later := by
  have differs : ¬ (Attach.getCgroup s.process = [] ∨ Attach.getCgroup s.process = target) := by
    rw [inside]
    rintro (empty | same)
    · exact CgPath.toStr_ne_nil _ empty
    · exact other (same.symm.trans (toStr_slice reserved))
  rcases reads with reads | reads
  · have taken : s.step c uid pid slice (.attach .getCgroup) =
        some { s with execsnoop := .attaching target (.write d) } := by
      rw [State.step, reads]
      simp only [State.call, Attach.step, if_neg differs, Option.map_some, Phase.attach]
    obtain ⟨later, bad⟩ := exists_override_of_write { s with execsnoop := .attaching target (.write d) } answered inside
      away (.inl rfl)
    exact ⟨_ :: later, not_along_cons taken bad⟩
  · have taken : s.step c uid pid slice (.attach .getCgroup) =
        some { s with execsnoop := .attaching target (.rewrite d) } := by
      rw [State.step, reads]
      simp only [State.call, Attach.step, if_neg differs, Option.map_some, Phase.attach]
    obtain ⟨later, bad⟩ := exists_override_of_write { s with execsnoop := .attaching target (.rewrite d) } answered inside
      away (.inr rfl)
    exact ⟨_ :: later, not_along_cons taken bad⟩

/-- the directory can be made, -/
theorem exists_override_of_mkdir (reserved : slice = cgroupProxyPreserved ∨ slice = cgroupNoproxyPreserved)
    (s : State) (answered : s.socket = .returned Status.success) (inside : s.process = some (.ofStr slice))
    {d : Directory} (other : target ≠ slice) (away : d.Elsewhere slice)
    (makes : s.fs.mkdir (Attach.cgroupTargetPath target) = some d) (mkdir : s.execsnoop = .attaching target .mkdir) :
    ∃ later, ¬ Along (State.step c uid pid slice) (Respects c uid pid slice) s later := by
  have taken : s.step c uid pid slice (.attach (.mkdir true)) = some { s with
      fs := s.fs.made (Attach.cgroupTargetPath target) d, execsnoop := .attaching target (.read d) } := by
    rw [State.step, mkdir]
    simp only [State.call, Attach.step, makes, Option.map_some, Phase.attach]
  obtain ⟨later, bad⟩ := exists_override_of_read reserved { s with
    fs := s.fs.made (Attach.cgroupTargetPath target) d, execsnoop := .attaching target (.read d) } answered inside
    other away (.inl rfl)
  exact ⟨_ :: later, not_along_cons taken bad⟩

/-- and is found where there is one. -/
theorem exists_override_of_stat (reserved : slice = cgroupProxyPreserved ∨ slice = cgroupNoproxyPreserved)
    (s : State) (answered : s.socket = .returned Status.success) (inside : s.process = some (.ofStr slice))
    {d : Directory} (other : target ≠ slice) (away : d.Elsewhere slice)
    (leads : Attach.destination s.fs target = some d) (stat : s.execsnoop = .attaching target .stat) :
    ∃ later, ¬ Along (State.step c uid pid slice) (Respects c uid pid slice) s later := by
  rw [Attach.destination] at leads
  cases dir : s.fs.dir (Attach.cgroupTargetPath target) with
  | some found =>
    rw [dir] at leads
    obtain rfl : found = d := Option.some.inj leads
    have taken : s.step c uid pid slice (.attach .stat) =
        some { s with execsnoop := .attaching target (.read found) } := by
      rw [State.step, stat]
      simp only [State.call, Attach.step, dir, Option.map_some, Phase.attach]
    obtain ⟨later, bad⟩ := exists_override_of_read reserved { s with execsnoop := .attaching target (.read found) }
      answered inside other away (.inl rfl)
    exact ⟨_ :: later, not_along_cons taken bad⟩
  | none =>
    rw [dir, Option.none_or] at leads
    have taken : s.step c uid pid slice (.attach .stat) =
        some { s with execsnoop := .attaching target .mkdir } := by
      rw [State.step, stat]
      simp only [State.call, Attach.step, dir, Option.map_some, Phase.attach]
    obtain ⟨later, bad⟩ := exists_override_of_mkdir reserved { s with execsnoop := .attaching target .mkdir } answered
      inside other away leads rfl
    exact ⟨_ :: later, not_along_cons taken bad⟩

/-- A threat can be carried out. -/
theorem exists_override (reserved : slice = cgroupProxyPreserved ∨ slice = cgroupNoproxyPreserved)
    (answered : s.socket = .returned Status.success) (inside : s.process = some (.ofStr slice))
    (threat : s.execsnoop.Threatens s.fs slice) :
    ∃ later, ¬ Along (State.step c uid pid slice) (Respects c uid pid slice) s later := by
  cases stands : s.execsnoop with
  | attaching target phase =>
    rw [stands] at threat
    cases phase with
    | stat =>
      obtain ⟨other, d, leads, away⟩ := threat
      exact exists_override_of_stat reserved s answered inside other away leads stands
    | mkdir =>
      obtain ⟨other, d, makes, away⟩ := threat
      exact exists_override_of_mkdir reserved s answered inside other away makes stands
    | read d => exact exists_override_of_read reserved s answered inside threat.1 threat.2 (.inl stands)
    | write d => exact exists_override_of_write s answered inside threat (.inl stands)
    | reread d => exact exists_override_of_read reserved s answered inside threat.1 threat.2 (.inr stands)
    | rewrite d => exact exists_override_of_write s answered inside threat (.inr stands)
    | returned status => contradiction
  | _ =>
    rw [stands] at threat
    contradiction

/-! ## The command has priority -/

/-- Of every run up to the moment when the message's `attach` returns success: nothing that can follow
takes the process out of the slice, if and only if `handle_pid` is not at that moment in an `attach` of
its own that is still to write to another cgroup (or the process is not in the slice then). -/
theorem never_overridden_iff (c : Config) (fs : FileSystem) (uid : ℕ) (pid slice : Str) (process : Option CgPath)
    (reserved : slice = cgroupProxyPreserved ∨ slice = cgroupNoproxyPreserved) (before : List Label) (u s : State)
    (l : Label) (reached : run (State.step c uid pid slice) (.started fs uid pid slice process) before = some u)
    (unanswered : u.socket ≠ .returned Status.success) (taken : u.step c uid pid slice l = some s)
    (answered : s.socket = .returned Status.success) :
    (∀ later, Along (State.step c uid pid slice) (Respects c uid pid slice) (.started fs uid pid slice process)
        (before ++ l :: later)) ↔
      ¬ (s.process = some (.ofStr slice) ∧ s.execsnoop.Threatens s.fs slice) := by
  have quiet : Along (State.step c uid pid slice) (Respects c uid pid slice) (.started fs uid pid slice process)
      before := by
    have early := along_not_of_final (fun _ _ _ answered taken => answered_permanent answered taken) reached unanswered
    exact early.imp fun _ _ not answered => absurd answered not
  have split (later : List Label) : Along (State.step c uid pid slice) (Respects c uid pid slice)
      (.started fs uid pid slice process) (before ++ l :: later) ↔
        Along (State.step c uid pid slice) (Respects c uid pid slice) s later := by
    rw [along_append_of_run reached, along_cons_of_step taken]
    exact ⟨fun along => along.2.2, fun along => ⟨quiet, fun answered => absurd answered unanswered, along⟩⟩
  simp only [split]
  constructor
  · rintro all ⟨inside, threat⟩
    obtain ⟨later, bad⟩ := exists_override reserved answered inside threat
    exact bad (all later)
  · intro harmless later
    exact Safe.respects reserved answered (fun inside threat => harmless ⟨inside, threat⟩) later

end Calls

/-! ## Two runs -/

/-- Both reserved slices are there, on a cgroup2 file system. -/
def mounted : FileSystem where
  dir path :=
    if path = Attach.cgroupTargetPath cgroupProxyPreserved then some (.cgroup (.ofStr cgroupProxyPreserved))
    else if path = Attach.cgroupTargetPath cgroupNoproxyPreserved then some (.cgroup (.ofStr cgroupNoproxyPreserved))
    else none
  mkdir _ := none

/-- The process of the runs is in /system.slice when the message for the proxy slice comes. -/
def messaged : State := .started mounted 0 "100".toList cgroupProxyPreserved (some (.ofStr "/system.slice".toList))

/-- The message's `attach` is through before `handle_pid` begins. -/
theorem never_overridden_iff_idle :
    ∃ s, run (State.step bothListsConfig 0 "100".toList cgroupProxyPreserved) messaged
        [.socket .stat, .socket .getCgroup, .socket (.write2procs true), .socket .getCgroup] = some s ∧
      s.socket = .returned Status.success ∧
      ∀ later, Along (State.step bothListsConfig 0 "100".toList cgroupProxyPreserved)
        (Respects bothListsConfig 0 "100".toList cgroupProxyPreserved) messaged
        ([.socket .stat, .socket .getCgroup, .socket (.write2procs true)] ++ .socket .getCgroup :: later) := by
  refine ⟨⟨mounted, some (.ofStr cgroupProxyPreserved), .returned Status.success, .realpath⟩, by rfl, rfl, ?_⟩
  refine (never_overridden_iff bothListsConfig mounted 0 "100".toList cgroupProxyPreserved
    (some (.ofStr "/system.slice".toList)) (.inl rfl) _
    ⟨mounted, some (.ofStr cgroupProxyPreserved), .reread (.cgroup (.ofStr cgroupProxyPreserved)), .realpath⟩ _ _
    (by rfl) (by decide) (by rfl) rfl).mpr ?_
  rintro ⟨-, threat⟩
  exact threat

/-- `handle_pid` has made its test before the message's `attach` writes. -/
theorem overridden :
    bothListsConfig.Accepted ∧
      ¬ ∀ labels, Along (State.step bothListsConfig 0 "100".toList cgroupProxyPreserved)
        (Respects bothListsConfig 0 "100".toList cgroupProxyPreserved) messaged labels := by
  refine ⟨accepted_bothLists, fun all => ?_⟩
  let before : List Label := [.realpath (some "/usr/bin/a".toList), .getCgroup, .socket .stat, .socket .getCgroup,
    .socket (.write2procs true), .socket .getCgroup]
  have reached : run (State.step bothListsConfig 0 "100".toList cgroupProxyPreserved) messaged before =
      some ⟨mounted, some (.ofStr cgroupProxyPreserved), .returned Status.success,
        .attaching cgroupNoproxyPreserved .stat⟩ := by rfl
  have away : CgPath.ofStr cgroupNoproxyPreserved ≠ .ofStr cgroupProxyPreserved := by decide
  obtain ⟨later, bad⟩ := @exists_override bothListsConfig 0 "100".toList cgroupProxyPreserved
    ⟨mounted, some (.ofStr cgroupProxyPreserved), .returned Status.success, .attaching cgroupNoproxyPreserved .stat⟩
    (.inl rfl) rfl rfl ⟨by decide, .cgroup (.ofStr cgroupNoproxyPreserved), by rfl, away⟩
  exact bad ((along_append_of_run reached).mp (all (before ++ later))).2

end HandlePid

end CgProxy

import CgProxy.Model.Daemon

/-! # When a noproxy program is moved to the proxy slice

Both `handle_pid` and the pass over running programs have a noproxy stage before the proxy stage,
and both can fall through from the one to the other: the first when the process already is under a
noproxy cgroup, the second also when the noproxy attach fails. The two theorems give the exact
conditions, over every sequence of answers of `attach`.
-/

namespace CgProxy

namespace World

variable {w : World} {pid q : ℤ} {target : Str}

@[simp] theorem attach_calls : (w.attach pid target).2.calls = w.calls ++ [⟨pid, target⟩] := rfl

@[simp] theorem attach_exe : (w.attach pid target).2.exe = w.exe := rfl

@[simp] theorem attach_answers : (w.attach pid target).2.answers = w.answers := rfl

@[simp] theorem attach_pidof : (w.attach pid target).2.pidof = w.pidof := rfl

/-- An attach leaves its process where it was, moves it to the target or finds it gone. -/
theorem attach_cgroup (w : World) (pid : ℤ) (target : Str) :
    (w.attach pid target).2.cgroup pid = w.cgroup pid ∨
      (w.attach pid target).2.cgroup pid = some (.ofStr target) ∨
      (w.attach pid target).2.cgroup pid = none := by
  cases effect : (w.answers w.calls.length).effect <;> simp [attach, effect]

theorem attach_cgroup_of_ne (other : q ≠ pid) : (w.attach pid target).2.cgroup q = w.cgroup q := by
  cases effect : (w.answers w.calls.length).effect <;> simp [attach, effect, Function.update_of_ne other]

/-- What an attach does when it moves its process. -/
theorem attach_moved (moves : (w.answers w.calls.length).effect = .moved) :
    (w.attach pid target).2.cgroup pid = some (.ofStr target) := by
  simp [attach, moves]

theorem getCgroup_eq_nil : w.getCgroup pid = [] ↔ w.cgroup pid = none := by
  rw [getCgroup]
  cases w.cgroup pid with
  | none => simp
  | some cg => simp [cg.toStr_ne_nil]

theorem getCgroup_of_eq {w' : World} (same : w.cgroup pid = w'.cgroup pid) : w.getCgroup pid = w'.getCgroup pid := by
  rw [getCgroup, getCgroup, same]

end World

/-! ## `handle_pid` -/

section HandlePid

variable {c : Config} {w : World} {pid : ℤ} {path : Str}

/-- A stage that is left without falling through and without an attach. -/
theorem handleStage_of_left {programs cgroups : List Str} {slice : Str} (listed : path ∈ programs)
    (left : w.getCgroup pid = [] ∨ preserved (w.getCgroup pid) = true) :
    handleStage programs cgroups slice w pid path = some (0, w) := by
  rcases left with gone | reserved
  · simp [handleStage, listed, gone]
  · simp [handleStage, listed, reserved]

theorem handleStage_of_belongs {programs cgroups : List Str} {slice : Str}
    (readable : w.getCgroup pid ≠ []) (outside : preserved (w.getCgroup pid) = false)
    (belongs : belongToCgroups (w.getCgroup pid) cgroups = true) :
    handleStage programs cgroups slice w pid path = none := by
  simp [handleStage, readable, outside, belongs]

theorem handleStage_of_away {programs cgroups : List Str} {slice : Str} (listed : path ∈ programs)
    (readable : w.getCgroup pid ≠ []) (outside : preserved (w.getCgroup pid) = false)
    (away : belongToCgroups (w.getCgroup pid) cgroups = false) :
    handleStage programs cgroups slice w pid path = some (w.attach pid slice) := by
  simp [handleStage, listed, readable, outside, away]

theorem handleStage_of_not_listed {programs cgroups : List Str} {slice : Str} (unlisted : path ∉ programs) :
    handleStage programs cgroups slice w pid path = none := if_neg unlisted

/-- For a noproxy program, whether `handle_pid` moves the process to the proxy slice does not depend
on what `attach` answers. -/
theorem mem_calls_handlePid (w : World) (exe : w.exe pid = some path) (listed : path ∈ c.programNoproxy)
    (silent : w.calls = []) :
    ⟨pid, cgroupProxyPreserved⟩ ∈ (handlePid c w pid).2.calls ↔
      path ∈ c.programProxy ∧ w.getCgroup pid ≠ [] ∧ preserved (w.getCgroup pid) = false ∧
        belongToCgroups (w.getCgroup pid) c.cgroupNoproxy = true ∧
        belongToCgroups (w.getCgroup pid) c.cgroupProxy = false := by
  have differ : cgroupProxyPreserved ≠ cgroupNoproxyPreserved := by decide
  rw [handlePid, exe]
  dsimp only
  by_cases left : w.getCgroup pid = [] ∨ preserved (w.getCgroup pid) = true
  · rw [handleStage_of_left listed left]
    rcases left with gone | reserved
    · simp [silent, gone]
    · simp [silent, reserved]
  · rw [not_or, Bool.not_eq_true] at left
    obtain ⟨readable, outside⟩ := left
    rcases Bool.eq_false_or_eq_true (belongToCgroups (w.getCgroup pid) c.cgroupNoproxy) with belongs | away
    · -- the fall-through: the noproxy stage leaves the process to the proxy stage
      rw [handleStage_of_belongs readable outside belongs]
      dsimp only
      by_cases both : path ∈ c.programProxy
      · rcases Bool.eq_false_or_eq_true (belongToCgroups (w.getCgroup pid) c.cgroupProxy) with inside | away
        · rw [handleStage_of_belongs readable outside inside]
          simp [silent, inside]
        · rw [handleStage_of_away both readable outside away]
          simp [silent, both, readable, outside, belongs, away]
      · rw [handleStage_of_not_listed both]
        simp [silent, both]
    · rw [handleStage_of_away listed readable outside away]
      simp [silent, away, differ]

end HandlePid

/-! ## The pass over running programs -/

section Pass

variable {c : Config} {w w' : World} {pid q : ℤ} {cgroups : List Str} {slice : Str}

/-- One visit either does nothing or attaches. -/
theorem handleRunning_cases (cgroups : List Str) (slice : Str) (w : World) (q : ℤ) :
    (handleRunning cgroups slice w q = w ∧
        (w.getCgroup q = [] ∨ preserved (w.getCgroup q) = true ∨
          belongToCgroups (w.getCgroup q) cgroups = true)) ∨
      (handleRunning cgroups slice w q = (w.attach q slice).2 ∧
        w.getCgroup q ≠ [] ∧ preserved (w.getCgroup q) = false ∧
        belongToCgroups (w.getCgroup q) cgroups = false) := by
  by_cases gone : w.getCgroup q = []
  · exact .inl ⟨by simp [handleRunning, gone], .inl gone⟩
  rcases Bool.eq_false_or_eq_true (preserved (w.getCgroup q)) with reserved | outside
  · exact .inl ⟨by simp [handleRunning, reserved], .inr (.inl reserved)⟩
  rcases Bool.eq_false_or_eq_true (belongToCgroups (w.getCgroup q) cgroups) with belongs | away
  · exact .inl ⟨by simp [handleRunning, belongs], .inr (.inr belongs)⟩
  · exact .inr ⟨by simp [handleRunning, gone, outside, away], gone, outside, away⟩

theorem handleRunning_pidof (w : World) (q : ℤ) : (handleRunning cgroups slice w q).pidof = w.pidof := by
  rcases handleRunning_cases cgroups slice w q with ⟨same, -⟩ | ⟨attached, -⟩
  · rw [same]
  · rw [attached, World.attach_pidof]

private theorem foldl_handleRunning_pidof (pids : List ℤ) (w : World) :
    (pids.foldl (handleRunning cgroups slice) w).pidof = w.pidof := by
  induction pids generalizing w with
  | nil => rfl
  | cons q rest ih => rw [List.foldl_cons, ih, handleRunning_pidof]

/-- The two nested loops visit one list of processes. -/
theorem runningStage_eq (programs : List Str) (w : World) :
    runningStage programs cgroups slice w =
      (programs.flatMap w.pidof).foldl (handleRunning cgroups slice) w := by
  induction programs generalizing w with
  | nil => rfl
  | cons path rest ih =>
    have first : runningStage (path :: rest) cgroups slice w =
        runningStage rest cgroups slice ((w.pidof path).foldl (handleRunning cgroups slice) w) := rfl
    rw [first, ih, foldl_handleRunning_pidof, List.flatMap_cons, List.foldl_append]

/-- The process is where it was, in the noproxy slice or gone, and nobody asked for the proxy slice. -/
private structure Unproxied (w₀ : World) (pid : ℤ) (w : World) : Prop where
  pidof : w.pidof = w₀.pidof
  place : w.cgroup pid = w₀.cgroup pid ∨ w.cgroup pid = some (.ofStr cgroupNoproxyPreserved) ∨
    w.cgroup pid = none
  uncalled : ⟨pid, cgroupProxyPreserved⟩ ∉ w.calls

private theorem Unproxied.other {w₀ : World} (kept : Unproxied w₀ pid w) (other : pid ≠ q) :
    Unproxied w₀ pid (handleRunning cgroups slice w q) := by
  rcases handleRunning_cases cgroups slice w q with ⟨same, -⟩ | ⟨attached, -⟩
  · rwa [same]
  · rw [attached]
    exact ⟨kept.pidof, by rw [World.attach_cgroup_of_ne other]; exact kept.place,
      by simp [kept.uncalled, other]⟩

private theorem Unproxied.noproxy {w₀ : World} (kept : Unproxied w₀ pid w) (cgroups : List Str) (q : ℤ) :
    Unproxied w₀ pid (handleRunning cgroups cgroupNoproxyPreserved w q) := by
  rcases eq_or_ne pid q with rfl | other
  · rcases handleRunning_cases cgroups cgroupNoproxyPreserved w pid with ⟨same, -⟩ | ⟨attached, -⟩
    · rwa [same]
    · have differ : cgroupProxyPreserved ≠ cgroupNoproxyPreserved := by decide
      rw [attached]
      refine ⟨kept.pidof, ?_, by simp [kept.uncalled, differ]⟩
      rcases w.attach_cgroup pid cgroupNoproxyPreserved with stayed | moved | gone
      · rw [stayed]
        exact kept.place
      · exact .inr (.inl moved)
      · exact .inr (.inr gone)
  · exact kept.other other

/-- A process that the proxy stage would have left alone at the outset is left alone. -/
private theorem Unproxied.proxy {w₀ : World} (kept : Unproxied w₀ pid w) (q : ℤ)
    (spared : q = pid → w₀.getCgroup pid = [] ∨ preserved (w₀.getCgroup pid) = true ∨
      belongToCgroups (w₀.getCgroup pid) cgroups = true) :
    Unproxied w₀ pid (handleRunning cgroups cgroupProxyPreserved w q) := by
  rcases eq_or_ne pid q with rfl | other
  · rcases handleRunning_cases cgroups cgroupProxyPreserved w pid with
      ⟨same, -⟩ | ⟨-, readable, outside, away⟩
    · rwa [same]
    · rcases kept.place with stayed | moved | gone
      · rw [World.getCgroup_of_eq stayed] at readable outside away
        rcases spared rfl with gone | reserved | belongs
        · exact absurd gone readable
        · rw [reserved] at outside
          contradiction
        · rw [belongs] at away
          contradiction
      · have reserved : preserved (w.getCgroup pid) = true := by
          rw [World.getCgroup, moved]
          decide
        rw [reserved] at outside
        contradiction
      · exact absurd (World.getCgroup_eq_nil.mpr gone) readable
  · exact kept.other other

private theorem unproxied_foldl {w₀ : World} (pids : List ℤ)
    (step : ∀ q ∈ pids, ∀ w, Unproxied w₀ pid w → Unproxied w₀ pid (handleRunning cgroups slice w q))
    (kept : Unproxied w₀ pid w) : Unproxied w₀ pid (pids.foldl (handleRunning cgroups slice) w) := by
  induction pids generalizing w with
  | nil => exact kept
  | cons q rest ih =>
    exact ih (fun r member => step r (List.mem_cons_of_mem _ member)) (step q List.mem_cons_self w kept)

/-- Every attach fails and changes nothing. -/
def allFail : ℕ → AttachAnswer := fun _ => ⟨false, .stayed⟩

/-- Under failing attaches the processes stay as they are. -/
private structure Frozen (w₀ w : World) : Prop where
  answers : w.answers = allFail
  cgroup : w.cgroup = w₀.cgroup
  pidof : w.pidof = w₀.pidof

private theorem Frozen.step {w₀ : World} (frozen : Frozen w₀ w) (cgroups : List Str) (slice : Str) (q : ℤ) :
    Frozen w₀ (handleRunning cgroups slice w q) ∧
      ∀ call ∈ w.calls, call ∈ (handleRunning cgroups slice w q).calls := by
  rcases handleRunning_cases cgroups slice w q with ⟨same, -⟩ | ⟨attached, -⟩
  · rw [same]
    exact ⟨frozen, fun _ member => member⟩
  · rw [attached]
    have unmoved : (w.attach q slice).2.cgroup = w.cgroup := by
      simp [World.attach, frozen.answers, allFail]
    exact ⟨⟨frozen.answers, unmoved.trans frozen.cgroup, frozen.pidof⟩,
      fun call member => List.mem_append_left _ member⟩

private theorem Frozen.foldl {w₀ : World} (frozen : Frozen w₀ w) (cgroups : List Str) (slice : Str)
    (pids : List ℤ) :
    Frozen w₀ (pids.foldl (handleRunning cgroups slice) w) ∧
      ∀ call ∈ w.calls, call ∈ (pids.foldl (handleRunning cgroups slice) w).calls := by
  induction pids generalizing w with
  | nil => exact ⟨frozen, fun _ member => member⟩
  | cons q rest ih =>
    obtain ⟨next, grows⟩ := frozen.step cgroups slice q
    obtain ⟨last, grows'⟩ := ih next
    exact ⟨last, fun call member => grows' call (grows call member)⟩

/-- A visited process that is away from its slice and its cgroups is asked for. -/
private theorem Frozen.called {w₀ : World} {pids : List ℤ} (frozen : Frozen w₀ w) (visited : pid ∈ pids)
    (readable : w₀.getCgroup pid ≠ []) (outside : preserved (w₀.getCgroup pid) = false)
    (away : belongToCgroups (w₀.getCgroup pid) cgroups = false) :
    ⟨pid, slice⟩ ∈ (pids.foldl (handleRunning cgroups slice) w).calls := by
  induction pids generalizing w with
  | nil => contradiction
  | cons q rest ih =>
    obtain ⟨next, -⟩ := frozen.step cgroups slice q
    rcases List.mem_cons.mp visited with rfl | later
    · have same : w.getCgroup pid = w₀.getCgroup pid := World.getCgroup_of_eq (congrFun frozen.cgroup pid)
      rw [← same] at readable outside away
      have asked : ⟨pid, slice⟩ ∈ (handleRunning cgroups slice w pid).calls := by
        simp [handleRunning, readable, outside, away]
      exact (next.foldl cgroups slice rest).2 _ asked
    · exact ih next later

/-- The pass leaves a process out of the proxy slice, whatever `attach` answers, exactly when no entry
of program_proxy finds it or its cgroup would have spared it from the proxy stage at the outset. -/
theorem calls_processRunningProgram_iff :
    (∀ answers, ⟨pid, cgroupProxyPreserved⟩ ∉
        (processRunningProgram c { w with answers, calls := [] }).calls) ↔
      ¬ ((∃ program ∈ c.programProxy, pid ∈ w.pidof program) ∧ w.getCgroup pid ≠ [] ∧
        preserved (w.getCgroup pid) = false ∧ belongToCgroups (w.getCgroup pid) c.cgroupProxy = false) := by
  have found : pid ∈ c.programProxy.flatMap w.pidof ↔ ∃ program ∈ c.programProxy, pid ∈ w.pidof program :=
    List.mem_flatMap
  rw [← found]
  constructor
  · rintro never ⟨visited, readable, outside, away⟩
    refine never allFail ?_
    have initial : Frozen w { w with answers := allFail, calls := [] } := ⟨rfl, rfl, rfl⟩
    obtain ⟨middle, -⟩ := initial.foldl c.cgroupNoproxy cgroupNoproxyPreserved
      (c.programNoproxy.flatMap w.pidof)
    rw [processRunningProgram, runningStage_eq, runningStage_eq, middle.pidof]
    exact middle.called visited readable outside away
  · intro spared answers
    have initial : Unproxied w pid { w with answers, calls := [] } := ⟨rfl, .inl rfl, by simp⟩
    have middle := unproxied_foldl (c.programNoproxy.flatMap w.pidof)
      (fun q _ v kept => kept.noproxy c.cgroupNoproxy q) initial
    rw [processRunningProgram, runningStage_eq, runningStage_eq, middle.pidof]
    refine (unproxied_foldl _ ?_ middle).uncalled
    intro q visited v kept
    apply kept.proxy q
    rintro rfl
    by_contra asked
    simp only [not_or, Bool.not_eq_true] at asked
    exact spared ⟨visited, asked.1, asked.2.1, asked.2.2⟩

end Pass

/-- A program of program_noproxy is never moved to the proxy slice, whatever `attach` answers, exactly
outside two fall-throughs: `handle_pid` goes on to its proxy stage when the process is under a noproxy
cgroup, and the pass goes on in any case. -/
theorem program_noproxy_first_iff (c : Config) (w : World) (pid : ℤ) (path : Str)
    (exe : w.exe pid = some path) (listed : path ∈ c.programNoproxy) :
    ((∀ answers, ⟨pid, cgroupProxyPreserved⟩ ∉ (handlePid c { w with answers, calls := [] } pid).2.calls) ↔
      ¬ (path ∈ c.programProxy ∧ w.getCgroup pid ≠ [] ∧ preserved (w.getCgroup pid) = false ∧
        belongToCgroups (w.getCgroup pid) c.cgroupNoproxy = true ∧
        belongToCgroups (w.getCgroup pid) c.cgroupProxy = false)) ∧
    ((∀ answers, ⟨pid, cgroupProxyPreserved⟩ ∉
        (processRunningProgram c { w with answers, calls := [] }).calls) ↔
      ¬ ((∃ program ∈ c.programProxy, pid ∈ w.pidof program) ∧ w.getCgroup pid ≠ [] ∧
        preserved (w.getCgroup pid) = false ∧ belongToCgroups (w.getCgroup pid) c.cgroupProxy = false)) := by
  refine ⟨?_, calls_processRunningProgram_iff⟩
  have single (answers : ℕ → AttachAnswer) :=
    mem_calls_handlePid { w with answers, calls := [] } exe listed rfl
  constructor
  · exact fun never falls => never w.answers ((single w.answers).mpr falls)
  · exact fun spared answers asked => spared ((single answers).mp asked)

/-! ## A program in both lists -/

/-- The program /usr/bin/a in both lists, and /user.slice among the noproxy cgroups. -/
def bothListsConfig : Config :=
  Config.ofLists ["/usr/bin/a".toList] ["/usr/bin/a".toList] ["/user.slice".toList] []

theorem accepted_bothLists : bothListsConfig.Accepted :=
  Config.accepted_single "\x7b\"cgroup_noproxy\":[\"/user.slice\"],\"cgroup_proxy\":[],\"program_noproxy\":[\"/usr/bin/a\"],\"program_proxy\":[\"/usr/bin/a\"]\x7d".toList
    (by decide) (by decide) (by decide)

/-- Process 100 runs the program in the given cgroup. -/
def runningIn (cgroup : Str) : World where
  exe pid := if pid = 100 then some "/usr/bin/a".toList else none
  cgroup pid := if pid = 100 then some (.ofStr cgroup) else none
  pidof program := if program = "/usr/bin/a".toList then [100] else []
  answers := allFail

/-- A process that is nowhere listed is left to the noproxy stage. -/
theorem program_noproxy_first_iff_system :
    ⟨100, cgroupProxyPreserved⟩ ∉
      (handlePid bothListsConfig { runningIn "/system.slice".toList with answers := allFail, calls := [] } 100).2.calls :=
  (program_noproxy_first_iff bothListsConfig (runningIn "/system.slice".toList) 100 "/usr/bin/a".toList
    rfl (by decide)).1.mpr (by decide) allFail

/-- Below /user.slice both functions ask for the proxy slice. -/
theorem program_noproxy_bothLists :
    bothListsConfig.Accepted ∧
      (runningIn "/user.slice".toList).exe 100 = some "/usr/bin/a".toList ∧
      "/usr/bin/a".toList ∈ bothListsConfig.programNoproxy ∧
      ⟨100, cgroupProxyPreserved⟩ ∈ (handlePid bothListsConfig (runningIn "/user.slice".toList) 100).2.calls ∧
      ⟨100, cgroupProxyPreserved⟩ ∈
        (processRunningProgram bothListsConfig (runningIn "/user.slice".toList)).calls := by
  refine ⟨accepted_bothLists, rfl, ?_, ?_, ?_⟩
  · decide
  · decide
  · decide

end CgProxy

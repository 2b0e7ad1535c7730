import CgProxy.ToMathlib.LocalFold
import CgProxy.Soundness.ProgramPriority

/-! # The catch-up pass and the live events

Where a process ends up depends on its own program and cgroup only: a stage settles it in its slice
unless it is gone, in a reserved slice already, or under one of the stage's cgroups. When every
attach moves its process, both the pass over the running programs and the calls of `handle_pid` are
folds of steps that settle one process each, and settling twice is settling once.
-/

namespace CgProxy

open LocalFold

/-- Where a stage leaves a process of its programs. -/
def settle (cgroups : List Str) (slice : Str) : Option CgPath → Option CgPath
  | none => none
  | some cg =>
      if preserved cg.toStr || belongToCgroups cg.toStr cgroups then some cg else some (.ofStr slice)

/-- Where both stages leave a process with this program. -/
def settled (c : Config) (path : Str) (cg : Option CgPath) : Option CgPath :=
  let cg := if path ∈ c.programNoproxy then settle c.cgroupNoproxy cgroupNoproxyPreserved cg else cg
  if path ∈ c.programProxy then settle c.cgroupProxy cgroupProxyPreserved cg else cg

theorem preserved_proxySlice : preserved (CgPath.ofStr cgroupProxyPreserved).toStr = true := by decide

theorem preserved_noproxySlice : preserved (CgPath.ofStr cgroupNoproxyPreserved).toStr = true := by decide

section Settle

variable {cgroups : List Str} {slice : Str} {cg : CgPath}

theorem settle_of_stays (stays : preserved cg.toStr = true ∨ belongToCgroups cg.toStr cgroups = true) :
    settle cgroups slice (some cg) = some cg := by
  rcases stays with reserved | belongs
  · simp [settle, reserved]
  · simp [settle, belongs]

theorem settle_of_away (outside : preserved cg.toStr = false) (away : belongToCgroups cg.toStr cgroups = false) :
    settle cgroups slice (some cg) = some (.ofStr slice) := by
  simp [settle, outside, away]

theorem settle_settle (reserved : preserved (CgPath.ofStr slice).toStr = true) (cg : Option CgPath) :
    settle cgroups slice (settle cgroups slice cg) = settle cgroups slice cg := by
  cases cg with
  | none => rfl
  | some cg =>
    by_cases stays : preserved cg.toStr = true ∨ belongToCgroups cg.toStr cgroups = true
    · rw [settle_of_stays stays, settle_of_stays stays]
    · rw [not_or, Bool.not_eq_true, Bool.not_eq_true] at stays
      rw [settle_of_away stays.1 stays.2, settle_of_stays (.inl reserved)]

theorem settle_cases (cgroups : List Str) (slice : Str) (cg : Option CgPath) :
    settle cgroups slice cg = cg ∨ settle cgroups slice cg = some (.ofStr slice) := by
  cases cg with
  | none => exact .inl rfl
  | some cg =>
    rw [settle]
    split
    · exact .inl rfl
    · exact .inr rfl

/-- A process in a reserved slice stays there. -/
theorem settled_of_preserved (c : Config) (path : Str) (inside : preserved cg.toStr = true) :
    settled c path (some cg) = some cg := by
  rw [settled, settle_of_stays (.inl inside), ite_self, settle_of_stays (.inl inside), ite_self]

theorem settled_settled (c : Config) (path : Str) (cg : Option CgPath) :
    settled c path (settled c path cg) = settled c path cg := by
  have first : (if path ∈ c.programNoproxy then settle c.cgroupNoproxy cgroupNoproxyPreserved cg else cg) = cg ∨
      (if path ∈ c.programNoproxy then settle c.cgroupNoproxy cgroupNoproxyPreserved cg else cg) =
        some (.ofStr cgroupNoproxyPreserved) := by
    split
    · exact settle_cases _ _ cg
    · exact .inl rfl
  rcases first with stays | moves
  · have second : settled c path cg = cg ∨ settled c path cg = some (.ofStr cgroupProxyPreserved) := by
      rw [settled, stays]
      split
      · exact settle_cases _ _ cg
      · exact .inl rfl
    rcases second with stays | moves
    · rw [stays, stays]
    · rw [moves, settled_of_preserved c path preserved_proxySlice]
  · have moved : settled c path cg = some (.ofStr cgroupNoproxyPreserved) := by
      rw [settled, moves, settle_of_stays (.inl preserved_noproxySlice), ite_self]
    rw [moved, settled_of_preserved c path preserved_noproxySlice]

end Settle

/-! ## Single steps -/

/-- The programs of the processes, and attaches that move them. -/
structure Moving (w₀ w : World) : Prop where
  exe : w.exe = w₀.exe
  pidof : w.pidof = w₀.pidof
  moves : ∀ n, (w.answers n).effect = .moved

theorem Moving.attach {w₀ w : World} (moving : Moving w₀ w) (pid : ℤ) (slice : Str) :
    Moving w₀ (w.attach pid slice).2 := ⟨moving.exe, moving.pidof, moving.moves⟩

section Steps

variable {c : Config} {w₀ w : World} {cgroups : List Str} {slice path : Str} {pid : ℤ}

/-- One visit of the pass settles its process. -/
theorem cgroup_handleRunning (moving : Moving w₀ w) :
    (handleRunning cgroups slice w pid).cgroup pid = settle cgroups slice (w.cgroup pid) := by
  rcases handleRunning_cases cgroups slice w pid with ⟨same, stays⟩ | ⟨attached, readable, outside, away⟩
  · rw [same]
    cases place : w.cgroup pid with
    | none => rfl
    | some cg =>
      have text : w.getCgroup pid = cg.toStr := by rw [World.getCgroup, place]
      rw [text] at stays
      exact (settle_of_stays (stays.resolve_left cg.toStr_ne_nil)).symm
  · rw [attached, World.attach_moved (moving.moves _)]
    cases place : w.cgroup pid with
    | none => exact absurd (World.getCgroup_eq_nil.mpr place) readable
    | some cg =>
      have text : w.getCgroup pid = cg.toStr := by rw [World.getCgroup, place]
      rw [text] at outside away
      rw [settle_of_away outside away]

/-- The visits of one stage. -/
theorem local_handleRunning (cgroups : List Str) (slice : Str) (w₀ : World) :
    Local (Moving w₀) World.cgroup (handleRunning cgroups slice) fun _ => settle cgroups slice where
  good_step pid moving := by
    rcases handleRunning_cases cgroups slice _ pid with ⟨same, -⟩ | ⟨attached, -⟩
    · rwa [same]
    · rw [attached]
      exact moving.attach pid slice
  get_self pid moving := cgroup_handleRunning moving
  get_of_ne moving other := by
    rcases handleRunning_cases cgroups slice _ _ with ⟨same, -⟩ | ⟨attached, -⟩
    · rw [same]
    · rw [attached, World.attach_cgroup_of_ne other]

/-- A stage of `handle_pid` that falls through would have left its process where it is. -/
theorem settle_of_handleStage_none {programs : List Str} (falls : handleStage programs cgroups slice w pid path = none) :
    (if path ∈ programs then settle cgroups slice (w.cgroup pid) else w.cgroup pid) = w.cgroup pid := by
  split
  · next listed =>
    cases place : w.cgroup pid with
    | none => rfl
    | some cg =>
      have text : w.getCgroup pid = cg.toStr := by rw [World.getCgroup, place]
      rw [handleStage, if_pos listed, text] at falls
      simp only [if_neg cg.toStr_ne_nil] at falls
      by_cases reserved : preserved cg.toStr = true
      · rw [settle_of_stays (.inl reserved)]
      by_cases belongs : belongToCgroups cg.toStr cgroups = true
      · rw [settle_of_stays (.inr belongs)]
      · simp [reserved, belongs] at falls
  · rfl

/-- One that does not settles its process, in a place that every stage leaves alone. -/
theorem settle_of_handleStage_some {programs : List Str} {result : ℤ × World} (moving : Moving w₀ w)
    (reserved : preserved (CgPath.ofStr slice).toStr = true)
    (ends : handleStage programs cgroups slice w pid path = some result) (others : List Str) (other : Str) :
    path ∈ programs ∧ result.2.cgroup pid = settle cgroups slice (w.cgroup pid) ∧
      settle others other (result.2.cgroup pid) = result.2.cgroup pid := by
  rw [handleStage] at ends
  split at ends
  · next listed =>
    refine ⟨listed, ?_⟩
    cases place : w.cgroup pid with
    | none =>
      have gone : w.getCgroup pid = [] := World.getCgroup_eq_nil.mpr place
      simp only [gone, if_true, Option.some.injEq] at ends
      rw [← ends]
      exact ⟨place, by rw [place]; rfl⟩
    | some cg =>
      have text : w.getCgroup pid = cg.toStr := by rw [World.getCgroup, place]
      simp only [text, if_neg cg.toStr_ne_nil] at ends
      split at ends
      · next inside =>
        rw [← Option.some.inj ends, settle_of_stays (.inl inside)]
        exact ⟨place, by rw [place, settle_of_stays (.inl inside)]⟩
      split at ends
      · contradiction
      · next outside away =>
        rw [Bool.not_eq_true] at outside away
        rw [← Option.some.inj ends, World.attach_moved (moving.moves _), settle_of_away outside away]
        exact ⟨rfl, settle_of_stays (.inl reserved)⟩
  · contradiction

/-- A call of `handle_pid` settles its process. -/
theorem cgroup_handlePid_settled (moving : Moving w₀ w) :
    (handlePid c w pid).2.cgroup pid =
      match w.exe pid with
      | none => w.cgroup pid
      | some path => settled c path (w.cgroup pid) := by
  rw [handlePid]
  cases w.exe pid with
  | none => rfl
  | some path =>
    dsimp only
    rw [settled]
    cases first : handleStage c.programNoproxy c.cgroupNoproxy cgroupNoproxyPreserved w pid path with
    | some result =>
      obtain ⟨listed, place, left⟩ := settle_of_handleStage_some moving preserved_noproxySlice first
        c.cgroupProxy cgroupProxyPreserved
      rw [if_pos listed, ← place, left, ite_self]
    | none =>
      rw [settle_of_handleStage_none first]
      cases second : handleStage c.programProxy c.cgroupProxy cgroupProxyPreserved w pid path with
      | some result =>
        obtain ⟨listed, place, -⟩ := settle_of_handleStage_some moving preserved_proxySlice second [] []
        rw [if_pos listed, ← place, Option.getD_some]
      | none => rw [settle_of_handleStage_none second, Option.getD_none]

theorem world_of_handleStage {programs : List Str} {result : ℤ × World}
    (ends : handleStage programs cgroups slice w pid path = some result) :
    result.2 = w ∨ result.2 = (w.attach pid slice).2 := by
  rw [handleStage] at ends
  split at ends
  · dsimp only at ends
    split at ends
    · exact .inl (by rw [← Option.some.inj ends])
    split at ends
    · exact .inl (by rw [← Option.some.inj ends])
    split at ends
    · contradiction
    · exact .inr (by rw [← Option.some.inj ends])
  · contradiction

/-- A call of `handle_pid` attaches its process or does nothing. -/
theorem world_handlePid (c : Config) (w : World) (pid : ℤ) :
    (handlePid c w pid).2 = w ∨ ∃ slice, (handlePid c w pid).2 = (w.attach pid slice).2 := by
  rw [handlePid]
  cases w.exe pid with
  | none => exact .inl rfl
  | some path =>
    dsimp only
    cases first : handleStage c.programNoproxy c.cgroupNoproxy cgroupNoproxyPreserved w pid path with
    | some result => exact (world_of_handleStage first).imp_right fun attached => ⟨_, attached⟩
    | none =>
      cases second : handleStage c.programProxy c.cgroupProxy cgroupProxyPreserved w pid path with
      | some result => exact (world_of_handleStage second).imp_right fun attached => ⟨_, attached⟩
      | none => exact .inl rfl

/-- The calls of `handle_pid`. -/
theorem local_handlePid (c : Config) (w₀ : World) :
    Local (Moving w₀) World.cgroup (fun w pid => (handlePid c w pid).2) fun pid cg =>
      match w₀.exe pid with
      | none => cg
      | some path => settled c path cg where
  good_step {w} pid moving := by
    rcases world_handlePid c w pid with same | ⟨slice, attached⟩
    · rwa [same]
    · rw [attached]
      exact moving.attach pid slice
  get_self {w} pid moving := by rw [cgroup_handlePid_settled moving, moving.exe]
  get_of_ne {w pid q} moving other := by
    rcases world_handlePid c w pid with same | ⟨slice, attached⟩
    · rw [same]
    · rw [attached, World.attach_cgroup_of_ne other]

end Steps

/-! ## Whole passes -/

/-- The pass over the running programs leaves every process in the cgroup where the live events of all
of them would, in whatever order these come. -/
theorem catch_up_agrees (c : Config) (w : World) (pids : List ℤ) (moves : ∀ n, (w.answers n).effect = .moved)
    (pidof : ∀ path pid, pid ∈ w.pidof path ↔ w.exe pid = some path)
    (running : ∀ pid, w.exe pid ≠ none → pid ∈ pids) (pid : ℤ) :
    (processRunningProgram c w).cgroup pid =
      (pids.foldl (fun w pid => (handlePid c w pid).2) w).cgroup pid := by
  have moving : Moving w w := ⟨rfl, rfl, moves⟩
  have visited (programs : List Str) :
      pid ∈ programs.flatMap w.pidof ↔ ∃ path, w.exe pid = some path ∧ path ∈ programs := by
    simp only [List.mem_flatMap, pidof, and_comm]
  have noproxy := local_handleRunning c.cgroupNoproxy cgroupNoproxyPreserved w
  have proxy := local_handleRunning c.cgroupProxy cgroupProxyPreserved w
  have halfway := noproxy.good_foldl (c.programNoproxy.flatMap w.pidof) moving
  have live := (local_handlePid c w).get_foldl
    (fun pid cg => by split; exacts [rfl, settled_settled c _ cg]) pids moving pid
  rw [live, processRunningProgram, runningStage_eq, runningStage_eq, halfway.pidof,
    proxy.get_foldl (fun _ => settle_settle preserved_proxySlice) _ halfway,
    noproxy.get_foldl (fun _ => settle_settle preserved_noproxySlice) _ moving]
  cases exe : w.exe pid with
  | none =>
    have unvisited (programs : List Str) : pid ∉ programs.flatMap w.pidof := by
      rw [visited, exe]
      simp
    rw [if_neg (unvisited _), if_neg (unvisited _), ite_self]
  | some path =>
    have member : pid ∈ pids := running pid (by simp [exe])
    have named (programs : List Str) : pid ∈ programs.flatMap w.pidof ↔ path ∈ programs := by
      rw [visited, exe]
      simp
    simp only [named, if_pos member, settled]

/-- Two processes of a program of both lists, and one of a program to be proxied, in different cgroups. -/
def threeWorld : World where
  exe pid :=
    if pid = 100 ∨ pid = 102 then some "/usr/bin/a".toList
    else if pid = 101 then some "/usr/bin/b".toList else none
  cgroup pid := if pid = 102 then some (.ofStr "/system.slice".toList) else some (.ofStr "/user.slice".toList)
  pidof program :=
    if program = "/usr/bin/a".toList then [100, 102] else if program = "/usr/bin/b".toList then [101] else []
  answers _ := ⟨true, .moved⟩

def threeConfig : Config :=
  Config.ofLists ["/usr/bin/a".toList] ["/usr/bin/b".toList, "/usr/bin/a".toList] ["/user.slice".toList] []

/-- The events come in another order than the scan. -/
theorem catch_up_agrees_both :
    [100, 101, 102].map (processRunningProgram threeConfig threeWorld).cgroup =
      [100, 101, 102].map ([102, 101, 100].foldl (fun w pid => (handlePid threeConfig w pid).2) threeWorld).cgroup := by
  have differ : "/usr/bin/a".toList ≠ "/usr/bin/b".toList := by decide
  refine List.map_congr_left fun pid _ => catch_up_agrees threeConfig threeWorld _ (fun _ => rfl) ?_ ?_ pid
  · intro path q
    dsimp only [threeWorld]
    split_ifs with first other second other other <;> grind
  · intro q running
    dsimp only [threeWorld] at running
    split_ifs at running <;> grind

end CgProxy

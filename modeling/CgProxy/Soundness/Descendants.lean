import CgProxy.Model.Threads
import CgProxy.Soundness.Datapath
import CgProxy.Soundness.Override
import Mathlib.Data.Set.Insert

/-! # Process trees

A process in a reserved slice passes the slice on to its children, and `handle_pid` and
`processRunningProgram` leave all of them alone, whatever they execute. What can take one of them out is an
`attach` that has begun before, also one that was meant for an earlier process of the same number. A
process that nobody names and whose programs are not listed is never touched, nor are its children.
-/

namespace CgProxy

open LabeledRun

/-! ## Directories that are made -/

/-- What is there is not made again. -/
def FileSystem.Exclusive (fs : FileSystem) : Prop := ∀ path, fs.dir path = none ∨ fs.mkdir path = none

section Directories

variable {fs : FileSystem} {path : Str} {d : Directory}

theorem FileSystem.dir_made (fs : FileSystem) (path other : Str) (d : Directory) :
    (fs.made path d).dir other = if other = path then some d else fs.dir other := by
  rw [made]
  exact Function.update_apply ..

theorem FileSystem.mkdir_made (fs : FileSystem) (path other : Str) (d : Directory) :
    (fs.made path d).mkdir other = if other = path then none else fs.mkdir other := by
  rw [made]
  exact Function.update_apply ..

theorem FileSystem.Exclusive.made (exclusive : fs.Exclusive) (path : Str) (d : Directory) :
    (fs.made path d).Exclusive := by
  intro other
  rw [dir_made, mkdir_made]
  split
  · exact .inr rfl
  · exact exclusive other

namespace HandlePid

/-- A directory that another thread makes changes nothing for an `attach` that is on its way. -/
theorem Phase.Threatens.of_made (exclusive : fs.Exclusive) (makes : fs.mkdir path = some d) {slice : Str}
    {phase : Phase} (threat : phase.Threatens (fs.made path d) slice) : phase.Threatens fs slice := by
  have absent : fs.dir path = none := by
    rcases exclusive path with absent | present
    · exact absent
    · rw [makes] at present
      contradiction
  cases phase with
  | attaching target phase =>
    cases phase with
    | stat =>
      obtain ⟨other, e, leads, away⟩ := threat
      refine ⟨other, e, ?_, away⟩
      rw [Attach.destination, fs.dir_made, fs.mkdir_made] at leads
      rw [Attach.destination]
      split at leads
      · next same =>
        rw [same, absent, makes]
        exact leads
      · exact leads
    | mkdir =>
      obtain ⟨other, e, leads, away⟩ := threat
      rw [fs.mkdir_made] at leads
      split at leads
      · contradiction
      · exact ⟨other, e, leads, away⟩
    | _ => exact threat
  | _ => exact threat

/-- All that a step does to the file system. -/
theorem fs_of_step {c : Config} {uid : ℕ} {pid slice : Str} {s t : State} {l : Label}
    (taken : s.step c uid pid slice l = some t) :
    t.fs = s.fs ∨ ∃ path d, s.fs.mkdir path = some d ∧ t.fs = s.fs.made path d := by
  have of_called {s t : State} {target : Str} {phase phase' : Attach.Phase} (called : Called s target phase t phase') :
      t.fs = s.fs ∨ ∃ path d, s.fs.mkdir path = some d ∧ t.fs = s.fs.made path d := by
    cases called with
    | made d made => exact .inr ⟨_, d, made, rfl⟩
    | _ => exact .inl rfl
  cases l with
  | exit =>
    cases taken
    exact .inl rfl
  | event =>
    cases stands : s.execsnoop <;> rw [State.step, stands] at taken <;> cases taken
    exact .inl rfl
  | realpath path =>
    cases stands : s.execsnoop <;> cases path <;>
      simp only [State.step, stands, reduceCtorEq, Option.some.injEq] at taken
    · exact .inl (taken ▸ rfl)
    · exact .inl (taken ▸ rfl)
  | getCgroup =>
    cases stands : s.execsnoop <;> rw [State.step, stands] at taken <;> cases taken <;> exact .inl rfl
  | attach l =>
    cases stands : s.execsnoop with
    | attaching target phase =>
      rw [State.step, stands] at taken
      obtain ⟨⟨after, phase'⟩, call, rfl⟩ := Option.map_eq_some_iff.mp taken
      have made := of_called (called_of_call call)
      exact made
    | _ =>
      rw [State.step, stands] at taken
      contradiction
  | socket l =>
    obtain ⟨⟨after, phase'⟩, call, rfl⟩ := Option.map_eq_some_iff.mp taken
    have made := of_called (called_of_call call)
    exact made

end HandlePid

end Directories

namespace Threads

open HandlePid (Phase tested)

variable {s t : State} {l : Label} {thread : Thread} {slice : Slice} {family : Set ℤ}

/-! ## Families -/

/-- A family with the children that are born into it, without the members that end. -/
def descend (family : Set ℤ) : Label → Set ℤ
  | .fork parent child => {pid | pid ∈ family ∨ pid = child ∧ parent ∈ family}
  | .exit pid => {other | other ∈ family ∧ other ≠ pid}
  | _ => family

/-- The state and the family along a run. -/
def follow (now : State × Set ℤ) (l : Label) : Option (State × Set ℤ) :=
  (now.1.step l).map fun t => (t, descend now.2 l)

theorem run_follow (s : State) (family : Set ℤ) (labels : List Label) :
    run follow (s, family) labels = (run State.step s labels).map fun t => (t, labels.foldl descend family) := by
  induction labels generalizing s family with
  | nil => rfl
  | cons l rest ih =>
    rw [run, run, follow]
    cases s.step l with
    | none => rfl
    | some mid => exact ih mid (descend family l)

/-! ## The calls of a thread -/

/-- A call changes the process the thread is busy with, and perhaps makes a directory. -/
theorem act_cases {l : HandlePid.Label} (taken : s.act thread l = some t) :
    ∃ h, (s.view thread).step s.config 0 (toStr (s.job thread).pid) [] l = some h ∧
      t.process = Function.update s.process (s.job thread).pid h.process ∧
      t.job = Function.update s.job thread ⟨(s.job thread).pid, h.execsnoop⟩ ∧ t.fs = h.fs := by
  obtain ⟨h, called, rfl⟩ := Option.map_eq_some_iff.mp taken
  exact ⟨h, called, rfl, rfl, rfl⟩

/-! ## In a reserved slice -/

theorem Slice.path_reserved (slice : Slice) :
    slice.path = cgroupProxyPreserved ∨ slice.path = cgroupNoproxyPreserved := by
  cases slice
  · exact .inr rfl
  · exact .inl rfl

/-- The whole family is in the slice, and no thread is in an `attach` that takes a member out of it. -/
structure Guarded (slice : Slice) (family : Set ℤ) (s : State) : Prop where
  exclusive : s.fs.Exclusive
  inside : ∀ pid ∈ family, s.process pid = some (.ofStr slice.path)
  unthreatened : ∀ thread, (s.job thread).pid ∈ family → ¬ (s.job thread).phase.Threatens s.fs slice.path

/-- Nobody else moves a member, no message wants it in the other slice, and no child of a member gets a number
that a thread is about to attach. -/
def Undisputed (slice : Slice) (now : State × Set ℤ) : Label → Prop
  | .fork parent child => parent ∈ now.2 →
      ∀ thread, (now.1.job thread).pid = child → ¬ (now.1.job thread).phase.Threatens now.1.fs slice.path
  | .moved pid _ => pid ∉ now.2
  | .message pid other => pid ∈ now.2 → other = slice
  | _ => True

/-- A thread begins with something that is no threat. -/
theorem Guarded.begin (guarded : Guarded slice family s) {job : Job}
    (harmless : job.pid ∈ family → ¬ job.phase.Threatens s.fs slice.path) :
    Guarded slice family (s.begin thread job) where
  exclusive := guarded.exclusive
  inside := guarded.inside
  unthreatened other := by
    rw [State.begin]
    rcases eq_or_ne other thread with rfl | different
    · simp only [Function.update_self]
      exact harmless
    · simp only [Function.update_of_ne different]
      exact guarded.unthreatened other

/-- A test of a member ends at once. -/
theorem Guarded.tested_eq (guarded : Guarded slice family s) {pid : ℤ} (member : pid ∈ family) (text : Str)
    (cgroups : List Str) (own : Str) (next : Phase) : tested 0 text cgroups own next (s.process pid) = .returned 0 := by
  rw [guarded.inside pid member]
  exact HandlePid.tested_slice (Slice.path_reserved slice) 0 text cgroups own next

/-- A call of a thread neither takes a member out nor becomes a threat. -/
theorem Guarded.act (guarded : Guarded slice family s) {l : HandlePid.Label} (own : l.execsnoop = true)
    (taken : s.act thread l = some t) : Guarded slice family t := by
  obtain ⟨h, called, process, job, fs⟩ := act_cases taken
  have safe : (s.job thread).pid ∈ family → HandlePid.Safe slice.path (s.view thread) :=
    fun member _ => guarded.unthreatened thread member
  have kept := fun member => (safe member).step (Slice.path_reserved slice) rfl called
  have inside : ∀ pid ∈ family, t.process pid = some (.ofStr slice.path) := by
    intro pid member
    rw [process]
    rcases eq_or_ne pid (s.job thread).pid with rfl | other
    · rw [Function.update_self]
      exact (kept member).2 own (guarded.inside _ member)
    · rw [Function.update_of_ne other]
      exact guarded.inside pid member
  refine ⟨?_, inside, ?_⟩
  · rw [fs]
    rcases HandlePid.fs_of_step called with same | ⟨path, d, -, made⟩
    · exact same ▸ guarded.exclusive
    · exact made ▸ guarded.exclusive.made path d
  · intro other member
    rw [job, fs] at *
    rcases eq_or_ne other thread with rfl | different
    · rw [Function.update_self] at member ⊢
      have here := inside _ member
      rw [process, Function.update_self] at here
      exact (kept member).1 here
    · rw [Function.update_of_ne different] at member ⊢
      intro threat
      apply guarded.unthreatened other member
      rcases HandlePid.fs_of_step called with same | ⟨path, d, makes, made⟩
      · rw [same] at threat
        exact threat
      · rw [made] at threat
        exact threat.of_made guarded.exclusive makes

/-- A fork keeps the family together, unless a thread is about to attach the child. -/
theorem Guarded.fork (guarded : Guarded slice family s) {parent child : ℤ}
    (undisputed : Undisputed slice (s, family) (.fork parent child)) (taken : s.step (.fork parent child) = some t) :
    Guarded slice (descend family (.fork parent child)) t := by
  rw [State.step, Option.ite_none_right_eq_some, Option.some.injEq] at taken
  obtain ⟨⟨-, unused⟩, rfl⟩ := taken
  have outside : child ∉ family := by
    intro member
    rw [guarded.inside child member] at unused
    contradiction
  refine ⟨guarded.exclusive, ?_, ?_⟩
  · rintro pid (member | ⟨rfl, member⟩)
    · have other : pid ≠ child := ne_of_mem_of_not_mem member outside
      dsimp only
      rw [Function.update_of_ne other]
      exact guarded.inside pid member
    · dsimp only
      rw [Function.update_self]
      exact guarded.inside parent member
  · rintro thread (member | ⟨same, member⟩)
    · exact guarded.unthreatened thread member
    · exact undisputed member thread same

/-- No step takes a member out of the slice. -/
theorem Guarded.step (guarded : Guarded slice family s) (undisputed : Undisputed slice (s, family) l)
    (taken : s.step l = some t) : Guarded slice (descend family l) t := by
  cases l with
  | fork parent child => exact guarded.fork undisputed taken
  | exit pid =>
    cases taken
    refine ⟨guarded.exclusive, fun other member => ?_, fun thread member => guarded.unthreatened thread member.1⟩
    dsimp only
    rw [Function.update_of_ne member.2]
    exact guarded.inside other member.1
  | moved pid p =>
    rw [State.step, Option.ite_none_right_eq_some, Option.some.injEq] at taken
    obtain ⟨-, rfl⟩ := taken
    refine ⟨guarded.exclusive, fun other member => ?_, guarded.unthreatened⟩
    dsimp only
    rw [Function.update_of_ne (ne_of_mem_of_not_mem member undisputed)]
    exact guarded.inside other member
  | message pid other =>
    rw [State.step, Option.ite_none_right_eq_some, Option.some.injEq] at taken
    obtain ⟨-, rfl⟩ := taken
    refine guarded.begin fun member => ?_
    obtain rfl := undisputed member
    rw [Attach.call_zero]
    exact fun threat => threat.1 rfl
  | configured c =>
    rw [State.step, Option.ite_none_right_eq_some, Option.some.injEq] at taken
    obtain ⟨-, rfl⟩ := taken
    exact ⟨guarded.exclusive, guarded.inside, guarded.unthreatened⟩
  | event pid =>
    rw [State.step, Option.ite_none_right_eq_some, Option.some.injEq] at taken
    obtain ⟨-, rfl⟩ := taken
    exact guarded.begin fun _ => id
  | realpath path => exact guarded.act rfl taken
  | getCgroup => exact guarded.act rfl taken
  | attach thread l => exact guarded.act rfl taken
  | loop =>
    rw [State.step] at taken
    split_ifs at taken
    split at taken <;> cases taken <;> exact ⟨guarded.exclusive, guarded.inside, guarded.unthreatened⟩
  | pidof pids =>
    rw [State.step] at taken
    split at taken
    · rw [Option.ite_none_right_eq_some, Option.some.injEq] at taken
      obtain ⟨-, rfl⟩ := taken
      exact ⟨guarded.exclusive, guarded.inside, guarded.unthreatened⟩
    · contradiction
  | running =>
    rw [State.step, State.running] at taken
    split at taken
    · next side programs pid pids stands =>
      rw [Option.ite_none_right_eq_some, Option.some.injEq] at taken
      obtain ⟨-, rfl⟩ := taken
      have begun : Guarded slice family (s.begin .main ⟨pid, tested 0 (toStr pid) (side.cgroups s.config) side.path
          (.returned 0) (s.process pid)⟩) := by
        refine guarded.begin fun member => ?_
        dsimp only at member ⊢
        rw [guarded.tested_eq member]
        exact id
      exact ⟨begun.exclusive, begun.inside, begun.unthreatened⟩
    · contradiction

theorem Guarded.run {labels : List Label} (guarded : Guarded slice family s)
    (undisputed : Along follow (Undisputed slice) (s, family) labels) (success : run State.step s labels = some t) :
    Guarded slice (labels.foldl descend family) t := by
  have followed : LabeledRun.run follow (s, family) labels = some (t, labels.foldl descend family) := by
    rw [run_follow, success]
    rfl
  have preserved (now : State × Set ℤ) (l : Label) (after : State × Set ℤ) (guarded : Guarded slice now.2 now.1)
      (allowed : Undisputed slice now l) (taken : follow now l = some after) : Guarded slice after.2 after.1 := by
    obtain ⟨u, step, rfl⟩ := Option.map_eq_some_iff.mp taken
    exact guarded.step allowed step
  exact @run_preserves _ _ _ _ _ _ _ (fun now => Guarded slice now.2 now.1) preserved undisputed guarded followed

/-- In every run a process in one of the reserved slices, and everything that descends from it, stays there
whatever it executes, as long as no one else moves it, no message wants it elsewhere, and none of its
descendants gets the number of a process that a thread is about to attach. -/
theorem tree_stays (slice : Slice) (family : Set ℤ) (s t : State) (labels : List Label)
    (guarded : Guarded slice family s) (undisputed : Along follow (Undisputed slice) (s, family) labels)
    (success : run State.step s labels = some t) :
    ∀ pid ∈ labels.foldl descend family, t.process pid = some (.ofStr slice.path) :=
  (guarded.run undisputed success).inside

/-- Nothing goes on. -/
def idleState (c : Config) (cgroup : Str) : State where
  fs := HandlePid.mounted
  config := c
  process pid := if pid = 100 then some (.ofStr cgroup) else none
  job _ := ⟨0, .returned 0⟩
  loop := .waiting

theorem exclusive_mounted : HandlePid.mounted.Exclusive := fun _ => .inr rfl

/-- Process 100 has a child that executes a program of both lists, has a child of its own, and outlives its
parent. -/
def childLabels : List Label :=
  [.fork 100 101, .event 101, .realpath (some "/usr/bin/a".toList), .getCgroup, .fork 101 102, .exit 100]

theorem guarded_idleState : Guarded .proxy {100} (idleState bothListsConfig cgroupProxyPreserved) := by
  refine ⟨exclusive_mounted, ?_, fun _ _ => id⟩
  rintro pid rfl
  rfl

theorem undisputed_childLabels :
    Along follow (Undisputed .proxy) (idleState bothListsConfig cgroupProxyPreserved, {100}) childLabels := by
  refine (along_cons_of_step rfl).mpr ⟨fun _ _ _ => id, ?_⟩
  refine (along_cons_of_step rfl).mpr ⟨trivial, (along_cons_of_step rfl).mpr ⟨trivial, ?_⟩⟩
  refine (along_cons_of_step rfl).mpr ⟨trivial, (along_cons_of_step rfl).mpr ⟨?_, ?_⟩⟩
  · intro _ thread
    cases thread <;> exact fun _ => id
  · exact (along_cons_of_step rfl).mpr ⟨trivial, trivial⟩

theorem run_childLabels :
    ∃ t, run State.step (idleState bothListsConfig cgroupProxyPreserved) childLabels = some t := ⟨_, rfl⟩

theorem grandchild_mem : 102 ∈ childLabels.foldl descend {100} := ⟨.inr ⟨rfl, .inr ⟨rfl, rfl⟩⟩, by decide⟩

theorem tree_stays_grandchild :
    (run State.step (idleState bothListsConfig cgroupProxyPreserved) childLabels).map (fun t => t.process 102) =
      some (some (.ofStr cgroupProxyPreserved)) := by
  obtain ⟨t, success⟩ := run_childLabels
  have stays := tree_stays .proxy {100} _ t childLabels guarded_idleState undisputed_childLabels success 102
    grandchild_mem
  rw [success, Option.map_some, stays]
  rfl

/-! ## Bystanders -/

/-- Nothing that leads to an `attach` has begun. -/
def Quiet : Phase → Prop
  | .realpath => True
  | .returned _ => True
  | _ => False

/-- The processes that the main thread has still to look at. -/
def Loop.pids : Loop → List ℤ
  | .running _ _ pids => pids
  | _ => []

/-- The members live, and no thread is about to read or write their cgroups. -/
structure Spared (family : Set ℤ) (s : State) : Prop where
  alive : ∀ pid ∈ family, s.process pid ≠ none
  quiet : ∀ thread, (s.job thread).pid ∈ family → Quiet (s.job thread).phase
  unlisted : ∀ pid ∈ s.loop.pids, pid ∉ family

/-- No message names a member and no member executes a listed program; the number of a child is not one that
a thread is busy with or is about to look at. -/
def Unnamed (now : State × Set ℤ) : Label → Prop
  | .fork parent child => parent ∈ now.2 →
      (∀ thread, (now.1.job thread).pid = child → Quiet (now.1.job thread).phase) ∧ child ∉ now.1.loop.pids
  | .message pid _ => pid ∉ now.2
  | .realpath (some path) => (now.1.job .execsnoop).pid ∈ now.2 →
      path ∉ now.1.config.programNoproxy ∧ path ∉ now.1.config.programProxy
  | .pidof pids => ∀ pid ∈ pids, pid ∉ now.2
  | _ => True

/-- What happens to the cgroups without the daemon. -/
def undaemoned (process : ℤ → Option CgPath) : Label → ℤ → Option CgPath
  | .fork parent child => Function.update process child (process parent)
  | .exit pid => Function.update process pid none
  | .moved pid p => Function.update process pid (some p)
  | _ => process

/-- The cgroups of the family are those of a machine without the daemon. -/
def Agree (family : Set ℤ) (s : State) (process : ℤ → Option CgPath) : Prop :=
  ∀ pid ∈ family, s.process pid = process pid

theorem Spared.begin (spared : Spared family s) {job : Job} (harmless : job.pid ∈ family → Quiet job.phase) :
    Spared family (s.begin thread job) where
  alive := spared.alive
  quiet other := by
    rw [State.begin]
    rcases eq_or_ne other thread with rfl | different
    · simp only [Function.update_self]
      exact harmless
    · simp only [Function.update_of_ne different]
      exact spared.quiet other
  unlisted := spared.unlisted

/-- A call for a member only finds out that its program is not listed. -/
theorem act_member {c : Config} {pid : Str} {h after : HandlePid.State} {l : HandlePid.Label} (own : l.execsnoop = true)
    (quiet : Quiet h.execsnoop)
    (unlisted : ∀ path, l = .realpath (some path) → path ∉ c.programNoproxy ∧ path ∉ c.programProxy)
    (taken : h.step c 0 pid [] l = some after) : after.process = h.process ∧ Quiet after.execsnoop := by
  obtain ⟨fs, process, socket, phase⟩ := h
  cases phase with
  | realpath =>
    cases l with
    | realpath path =>
      cases path with
      | none =>
        cases taken
        exact ⟨rfl, trivial⟩
      | some path =>
        obtain ⟨first, second⟩ := unlisted path rfl
        cases taken
        refine ⟨rfl, ?_⟩
        dsimp only
        rw [HandlePid.noproxyStage, if_neg first, HandlePid.proxyStage, if_neg second]
        trivial
    | exit | event | socket => contradiction
    | getCgroup | attach => contradiction
  | returned status =>
    cases l with
    | realpath path => cases path <;> contradiction
    | exit | event | socket => contradiction
    | getCgroup | attach => contradiction
  | noproxy | proxy | attaching => contradiction

theorem Spared.act (spared : Spared family s) {l : HandlePid.Label} (own : l.execsnoop = true)
    (unlisted : (s.job thread).pid ∈ family → ∀ path, l = .realpath (some path) →
      path ∉ s.config.programNoproxy ∧ path ∉ s.config.programProxy)
    (taken : s.act thread l = some t) : Spared family t ∧ ∀ pid ∈ family, t.process pid = s.process pid := by
  have loop : t.loop = s.loop := by
    obtain ⟨h, -, rfl⟩ := Option.map_eq_some_iff.mp taken
    rfl
  obtain ⟨h, called, process, job, -⟩ := act_cases taken
  have member (here : (s.job thread).pid ∈ family) : h.process = s.process (s.job thread).pid ∧ Quiet h.execsnoop :=
    act_member own (spared.quiet thread here) (unlisted here) called
  have same : ∀ pid ∈ family, t.process pid = s.process pid := by
    intro pid inside
    rw [process]
    rcases eq_or_ne pid (s.job thread).pid with rfl | other
    · rw [Function.update_self]
      exact (member inside).1
    · exact Function.update_of_ne other ..
  refine ⟨⟨fun pid inside => ?_, fun other inside => ?_, ?_⟩, same⟩
  · rw [same pid inside]
    exact spared.alive pid inside
  · rw [job] at inside ⊢
    rcases eq_or_ne other thread with rfl | different
    · rw [Function.update_self] at inside ⊢
      exact (member inside).2
    · rw [Function.update_of_ne different] at inside ⊢
      exact spared.quiet other inside
  · rw [loop]
    exact spared.unlisted

theorem Agree.of_same {process : ℤ → Option CgPath} (agree : Agree family s process)
    (same : ∀ pid ∈ family, t.process pid = s.process pid) : Agree family t process := fun pid inside =>
  (same pid inside).trans (agree pid inside)

theorem Agree.update {process : ℤ → Option CgPath} (agree : Agree family s process) (pid : ℤ) (p : Option CgPath)
    {other : ℤ} (member : other ∈ family) :
    Function.update s.process pid p other = Function.update process pid p other := by
  rcases eq_or_ne other pid with rfl | different
  · rw [Function.update_self, Function.update_self]
  · rw [Function.update_of_ne different, Function.update_of_ne different]
    exact agree other member

theorem Spared.fork (spared : Spared family s) {parent child : ℤ} (unnamed : Unnamed (s, family) (.fork parent child))
    {process : ℤ → Option CgPath} (agree : Agree family s process) (taken : s.step (.fork parent child) = some t) :
    Spared (descend family (.fork parent child)) t ∧
      Agree (descend family (.fork parent child)) t (undaemoned process (.fork parent child)) := by
  rw [State.step, Option.ite_none_right_eq_some, Option.some.injEq] at taken
  obtain ⟨⟨lives, unused⟩, rfl⟩ := taken
  have outside : child ∉ family := fun member => spared.alive child member unused
  refine ⟨⟨?_, ?_, ?_⟩, ?_⟩
  · rintro pid (member | ⟨rfl, -⟩)
    · dsimp only
      rw [Function.update_of_ne (ne_of_mem_of_not_mem member outside)]
      exact spared.alive pid member
    · dsimp only
      rw [Function.update_self]
      exact Option.isSome_iff_ne_none.mp lives
  · rintro thread (member | ⟨same, member⟩)
    · exact spared.quiet thread member
    · exact (unnamed member).1 thread same
  · rintro pid listed (member | ⟨rfl, member⟩)
    · exact spared.unlisted pid listed member
    · exact (unnamed member).2 listed
  · rintro pid (member | ⟨rfl, member⟩)
    · dsimp only [undaemoned]
      rw [Function.update_of_ne (ne_of_mem_of_not_mem member outside),
        Function.update_of_ne (ne_of_mem_of_not_mem member outside)]
      exact agree pid member
    · dsimp only [undaemoned]
      rw [Function.update_self, Function.update_self]
      exact agree parent member

/-- No step of a thread changes the cgroup of a member. -/
theorem Spared.step (spared : Spared family s) (unnamed : Unnamed (s, family) l) {process : ℤ → Option CgPath}
    (agree : Agree family s process) (taken : s.step l = some t) :
    Spared (descend family l) t ∧ Agree (descend family l) t (undaemoned process l) := by
  cases l with
  | fork parent child => exact spared.fork unnamed agree taken
  | exit pid =>
    cases taken
    refine ⟨⟨fun other member => ?_, fun thread member => spared.quiet thread member.1,
      fun other listed member => spared.unlisted other listed member.1⟩,
      fun other member => agree.update pid none member.1⟩
    dsimp only
    rw [Function.update_of_ne member.2]
    exact spared.alive other member.1
  | moved pid p =>
    rw [State.step, Option.ite_none_right_eq_some, Option.some.injEq] at taken
    obtain ⟨-, rfl⟩ := taken
    refine ⟨⟨fun other member => ?_, spared.quiet, spared.unlisted⟩,
      fun other member => agree.update pid (some p) member⟩
    rcases eq_or_ne other pid with rfl | different
    · dsimp only
      rw [Function.update_self]
      exact Option.some_ne_none p
    · dsimp only
      rw [Function.update_of_ne different]
      exact spared.alive other member
  | message pid slice =>
    rw [State.step, Option.ite_none_right_eq_some, Option.some.injEq] at taken
    obtain ⟨-, rfl⟩ := taken
    exact ⟨spared.begin fun member => absurd member unnamed, agree⟩
  | configured c =>
    rw [State.step, Option.ite_none_right_eq_some, Option.some.injEq] at taken
    obtain ⟨-, rfl⟩ := taken
    exact ⟨⟨spared.alive, spared.quiet, spared.unlisted⟩, agree⟩
  | event pid =>
    rw [State.step, Option.ite_none_right_eq_some, Option.some.injEq] at taken
    obtain ⟨-, rfl⟩ := taken
    exact ⟨spared.begin fun _ => trivial, agree⟩
  | realpath path =>
    have unlisted : (s.job .execsnoop).pid ∈ family →
        ∀ listed, HandlePid.Label.realpath path = .realpath (some listed) →
          listed ∉ s.config.programNoproxy ∧ listed ∉ s.config.programProxy := by
      rintro member listed ⟨⟩
      exact unnamed member
    obtain ⟨after, same⟩ := spared.act rfl unlisted taken
    exact ⟨after, agree.of_same same⟩
  | getCgroup =>
    obtain ⟨after, same⟩ := spared.act (l := .getCgroup) rfl (fun _ _ => nofun) taken
    exact ⟨after, agree.of_same same⟩
  | attach thread l =>
    obtain ⟨after, same⟩ := spared.act (l := .attach l) rfl (fun _ _ => nofun) taken
    exact ⟨after, agree.of_same same⟩
  | loop =>
    rw [State.step] at taken
    split_ifs at taken
    split at taken <;> cases taken <;> exact ⟨⟨spared.alive, spared.quiet, fun _ => nofun⟩, agree⟩
  | pidof pids =>
    rw [State.step] at taken
    split at taken
    · rw [Option.ite_none_right_eq_some, Option.some.injEq] at taken
      obtain ⟨-, rfl⟩ := taken
      exact ⟨⟨spared.alive, spared.quiet, unnamed⟩, agree⟩
    · contradiction
  | running =>
    rw [State.step, State.running] at taken
    split at taken
    · next side programs pid pids stands =>
      rw [Option.ite_none_right_eq_some, Option.some.injEq] at taken
      obtain ⟨-, rfl⟩ := taken
      have left : ∀ other ∈ pid :: pids, other ∉ family := by
        have unlisted := spared.unlisted
        rw [stands] at unlisted
        exact unlisted
      have begun : Spared family (s.begin .main ⟨pid, tested 0 (toStr pid) (side.cgroups s.config) side.path
          (.returned 0) (s.process pid)⟩) := spared.begin fun member => absurd member (left pid List.mem_cons_self)
      exact ⟨⟨begun.alive, begun.quiet, fun other listed => left other (List.mem_cons_of_mem pid listed)⟩, agree⟩
    · contradiction

/-- In every run a process that no message names and that executes no listed program, and everything that
descends from it, is in the cgroup that it would be in without the daemon, whatever the threads do meanwhile. -/
theorem bystanders_untouched (family : Set ℤ) (s t : State) (labels : List Label) (spared : Spared family s)
    (unnamed : Along follow Unnamed (s, family) labels) (success : run State.step s labels = some t) :
    ∀ pid ∈ labels.foldl descend family, t.process pid = labels.foldl undaemoned s.process pid := by
  suffices general : ∀ process, Agree family s process →
      Agree (labels.foldl descend family) t (labels.foldl undaemoned process) from general s.process fun _ _ => rfl
  induction labels generalizing s family with
  | nil =>
    cases success
    exact fun _ => id
  | cons l rest ih =>
    intro process agree
    obtain ⟨mid, taken, tail⟩ := run_cons_iff.mp success
    have followed : follow (s, family) l = some (mid, descend family l) := by
      rw [follow, taken]
      rfl
    obtain ⟨after, still⟩ := spared.step unnamed.1 agree taken
    exact ih _ _ after ((along_cons_of_step followed).mp unnamed).2 tail _ still

/-- Process 200 is named and process 101 executes a program of no list. -/
def bystanderLabels : List Label :=
  [.fork 100 101, .message 200 .proxy, .event 101, .realpath (some "/usr/bin/b".toList)]

theorem bystanders_untouched_child :
    (run State.step (idleState bothListsConfig "/user.slice".toList) bystanderLabels).map (fun t => t.process 101) =
      some (some (.ofStr "/user.slice".toList)) := by
  have spared : Spared {100} (idleState bothListsConfig "/user.slice".toList) := by
    refine ⟨?_, fun _ _ => trivial, fun _ => nofun⟩
    rintro pid rfl
    exact Option.some_ne_none _
  have unnamed : Along follow Unnamed (idleState bothListsConfig "/user.slice".toList, {100}) bystanderLabels := by
    refine (along_cons_of_step rfl).mpr ⟨fun _ => ⟨fun _ _ => trivial, List.not_mem_nil⟩, ?_⟩
    refine (along_cons_of_step rfl).mpr ⟨?_, (along_cons_of_step rfl).mpr ⟨trivial, ?_⟩⟩
    · rintro (other | ⟨other, -⟩) <;> exact absurd other (by decide)
    · exact (along_cons_of_step rfl).mpr ⟨fun _ => by decide, trivial⟩
  obtain ⟨t, success⟩ :
      ∃ t, run State.step (idleState bothListsConfig "/user.slice".toList) bystanderLabels = some t := ⟨_, rfl⟩
  have untouched := bystanders_untouched {100} _ t bystanderLabels spared unnamed success 101 (.inr ⟨rfl, rfl⟩)
  rw [success, Option.map_some, untouched]
  rfl

/-! ## Their traffic -/

open Netfilter Script

theorem eligible_iff {prm : Params} {p : Packet} : Eligible prm p ↔
    p.reply = false ∧ p.dstType = .unicast ∧ prm.enableFamily p.family = true ∧ selects prm p = true :=
  ⟨fun e => ⟨e.original, e.unicast, e.enabled, e.selected⟩, fun ⟨a, b, c, d⟩ => ⟨a, b, c, d⟩⟩

instance (prm : Params) (p : Packet) : Decidable (Eligible prm p) := decidable_of_iff _ eligible_iff.symm

/-- Of the reserved slices only the proxy slice is picked. -/
theorem picks_slice_iff {g : Generation} {env : Env} {p : Packet} (sent : p.cgroup = some (.ofStr slice.path)) :
    g.Picks env p ↔ slice = .proxy ∧ Eligible (g.params env) p ∧
      ∀ e ∈ scriptCgroups g.hierarchy g.config.cgroupNoproxy, proxySlice.under e = false := by
  have here : (∃ cg ∈ p.cgroup, Diverted (g.params env) (scriptCgroups g.hierarchy g.config.cgroupNoproxy)
      (scriptCgroups g.hierarchy g.config.cgroupProxy) cg p) ↔ Diverted (g.params env)
        (scriptCgroups g.hierarchy g.config.cgroupNoproxy) (scriptCgroups g.hierarchy g.config.cgroupProxy)
        (.ofStr slice.path) p := by
    rw [sent]
    simp
  have family : (g.params env).enableFamily p.family = g.config.enableFamily p.family :=
    enableFamily_params g.config env p.family
  rw [Generation.Picks, Picked, here, diverted_iff, eligible_iff, family]
  cases slice with
  | noproxy =>
    constructor
    · exact fun picked => absurd picked.2.2.1 (not_chosen_noproxySlice g.accepted)
    · exact fun other => absurd other.1 (by decide)
  | proxy =>
    have chosen := chosen_proxySlice_iff (h := g.hierarchy) g.accepted
    constructor
    · rintro ⟨enabled, original, installed, unicast, selected⟩
      exact ⟨rfl, ⟨original, unicast, enabled, selected⟩, chosen.mp installed⟩
    · rintro ⟨-, ⟨original, unicast, enabled, selected⟩, free⟩
      exact ⟨enabled, original, chosen.mpr free, unicast, selected⟩

/-- Whatever configuration has been installed, traffic of a process in the proxy slice and of all its descendants
comes to the proxy, unless a noproxy cgroup holds the slice; that of a process in the noproxy slice and of its
descendants goes where it went without the rules. -/
theorem tree_traffic {δ : Type*} (slice : Slice) (family : Set ℤ) (s t : State) (labels : List Label)
    (guarded : Guarded slice family s) (undisputed : Along follow (Undisputed slice) (s, family) labels)
    (success : run State.step s labels = some t) (pid : ℤ) (descends : pid ∈ labels.foldl descend family)
    (c : Config) (accepted : c.Accepted) (env : Env) (k : Kernel) (net : Surroundings δ) (p : Packet)
    (ready : Ready net (params (c.toEnv env)) (k.tables p.family)) (foreign : Foreign (params (c.toEnv env)) p)
    (sent : p.cgroup = t.process pid) :
    (start (c.toEnv env) k).emit net p =
      if slice = .proxy ∧ Eligible (params (c.toEnv env)) p ∧
          ∀ e ∈ scriptCgroups k.hierarchy c.cgroupNoproxy, proxySlice.under e = false then
        if Script.Taken (params (c.toEnv env)) p then handed p.family (params (c.toEnv env)) p else .delivered
      else if (k.tables p.family).route net p = .here ∧ Script.Taken (params (c.toEnv env)) p then
        handed p.family (params (c.toEnv env)) p
      else k.emit net p := by
  have inside := (guarded.run undisputed success).inside pid descends
  have picks : Generation.Picks ⟨c, accepted, k.hierarchy⟩ env p ↔ _ := picks_slice_iff (sent.trans inside)
  rw [Kernel.emit, (Acting.start accepted ready).emit_eq ready.alone ready.unrouted ready.unconsulted foreign]
  refine Eq.trans ?_ (if_congr picks rfl rfl)
  simp only [true_and]
  rfl

/-- HTTPS of the grandchild comes to the proxy. -/
theorem tree_traffic_grandchild :
    (run State.step (idleState bothListsConfig cgroupProxyPreserved) childLabels).map (fun t =>
        (start ((Config.ofLists [] [] [] []).toEnv {}) .blank).emit outside
          { httpsPacket .ipv4 proxySlice with cgroup := t.process 102 }) =
      some (.proxied "127.0.0.1".toList 12345) := by
  obtain ⟨t, success⟩ := run_childLabels
  have eligible : Eligible (params ((Config.ofLists [] [] [] []).toEnv {}))
      { httpsPacket .ipv4 proxySlice with cgroup := t.process 102 } := ⟨rfl, rfl, rfl, rfl⟩
  have taken : Script.Taken (params ((Config.ofLists [] [] [] []).toEnv {}))
      { httpsPacket .ipv4 proxySlice with cgroup := t.process 102 } := ⟨⟨rfl, .inr rfl⟩, rfl⟩
  have foreign : Foreign (params ((Config.ofLists [] [] [] []).toEnv {})) (httpsPacket .ipv4 proxySlice) := by decide
  have traffic := tree_traffic .proxy {100} _ t childLabels guarded_idleState undisputed_childLabels success 102
    grandchild_mem _ accepted_default {} .blank outside { httpsPacket .ipv4 proxySlice with cgroup := t.process 102 }
    (.blank _ _) foreign rfl
  rw [if_pos ⟨rfl, eligible, by decide⟩, if_pos taken] at traffic
  rw [success, Option.map_some, traffic]
  rfl

end Threads

end CgProxy

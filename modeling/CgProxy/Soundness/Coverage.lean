import CgProxy.Model.Notifier
import CgProxy.Soundness.CatchUp
import Mathlib.Algebra.BigOperators.Group.Finset.Basic

/-! # No program is missed

The scan begins after the perf buffer is open, so a program that starts while it is under way is either
looked at or has an event in a ring. Afterwards every process is where `handle_pid` would leave it, or its
event is still to be handed over. The exceptions are events that are lost, and the children of a process that
has not been looked at yet: a fork is no exec.
-/

namespace CgProxy

open LabeledRun

namespace Notifier

variable {c : Config} {w : World} {s t : State} {l : Label} {pid : ℤ} {side : Slice}

/-! ## What is left to do for a process -/

/-- `handle_pid` would leave it where it is. -/
def Settled (c : Config) (w : World) (pid : ℤ) : Prop := (handlePid c w pid).2.cgroup pid = w.cgroup pid

/-- Its event is in a ring. -/
def Waiting (pb : Option Rings) (pid : ℤ) : Prop := ∃ rings, pb = some rings ∧ ∃ cpu, pid ∈ rings cpu

/-- One side of the configuration leaves it where it is. -/
def Passed (c : Config) (side : Slice) (w : World) (pid : ℤ) : Prop :=
  ∀ path, w.exe pid = some path → path ∈ side.programs c →
    settle (side.cgroups c) side.path (w.cgroup pid) = w.cgroup pid

/-- The scan has still to look at it for that side. -/
def Due (main : Main) (side : Slice) (w : World) (pid : ℤ) : Prop :=
  match main with
  | .waiting | .timeout => True
  | .running now programs pids =>
      side = now ∧ (pid ∈ pids ∨ ∃ path ∈ programs, w.exe pid = some path) ∨ now = .noproxy ∧ side = .proxy
  | .joining => False

/-- The scan has begun. -/
def Main.begun : Main → Prop
  | .waiting | .timeout => False
  | _ => True

theorem Slice.preserved_path (side : Slice) : preserved (CgPath.ofStr side.path).toStr = true := by
  cases side
  · exact preserved_noproxySlice
  · exact preserved_proxySlice

theorem passed_of_preserved {cg : CgPath} (here : w.cgroup pid = some cg) (inside : preserved cg.toStr = true) :
    Passed c side w pid := by
  intro path _ _
  rw [here, settle_of_stays (.inl inside)]

theorem passed_of_same {u : World} (exe : u.exe pid = w.exe pid) (cgroup : u.cgroup pid = w.cgroup pid)
    (passed : Passed c side w pid) : Passed c side u pid := by
  intro path running listed
  rw [cgroup]
  exact passed path (exe ▸ running) listed

theorem due_of_same {main : Main} {u : World} (exe : u.exe pid = w.exe pid) (due : Due main side w pid) :
    Due main side u pid := by
  cases main with
  | running now programs pids =>
    rw [Due] at due ⊢
    rwa [exe]
  | _ => exact due

/-- Both sides together are the fixed points of `handle_pid`. -/
theorem settled_eq_iff {path : Str} {cg : Option CgPath} : settled c path cg = cg ↔
    ∀ side : Slice, path ∈ side.programs c → settle (side.cgroups c) side.path cg = cg := by
  constructor
  · intro fixed
    rcases settle_cases c.cgroupNoproxy cgroupNoproxyPreserved cg with stays | moves
    · have second : (if path ∈ c.programProxy then settle c.cgroupProxy cgroupProxyPreserved cg else cg) = cg := by
        rw [settled, stays, ite_self] at fixed
        exact fixed
      rintro (_ | _) listed
      · exact stays
      · rwa [if_pos (show path ∈ c.programProxy from listed)] at second
    · by_cases listed : path ∈ c.programNoproxy
      · -- the first stage moves it to a slice that the second leaves it in
        have moved : cg = some (.ofStr cgroupNoproxyPreserved) := by
          rw [← fixed, settled, if_pos listed, moves, settle_of_stays (.inl preserved_noproxySlice), ite_self]
        rintro side -
        rw [moved, settle_of_stays (.inl preserved_noproxySlice)]
      · rintro (_ | _) programs
        · exact absurd programs listed
        · rw [settled, if_neg listed] at fixed
          rwa [if_pos (show path ∈ c.programProxy from programs)] at fixed
  · intro fixed
    have first : (if path ∈ c.programNoproxy then settle c.cgroupNoproxy cgroupNoproxyPreserved cg else cg) = cg := by
      split
      · next listed => exact fixed .noproxy listed
      · rfl
    rw [settled, first]
    split
    · next listed => exact fixed .proxy listed
    · rfl

theorem settled_iff (moves : ∀ n, (w.answers n).effect = .moved) : Settled c w pid ↔ ∀ side, Passed c side w pid := by
  have moving : Moving w w := ⟨rfl, rfl, moves⟩
  rw [Settled, cgroup_handlePid_settled moving]
  cases exe : w.exe pid with
  | none =>
    refine ⟨fun _ side path running => ?_, fun _ => rfl⟩
    rw [exe] at running
    contradiction
  | some path =>
    refine settled_eq_iff.trans ⟨fun fixed side other running listed => ?_, fun passed side => passed side path exe⟩
    rw [exe] at running
    cases running
    exact fixed side listed

/-- A call of `handle_pid` settles its process. -/
theorem passed_handlePid (moves : ∀ n, (w.answers n).effect = .moved) (side : Slice) (pid : ℤ) :
    Passed c side (handlePid c w pid).2 pid := by
  have moving : Moving w w := ⟨rfl, rfl, moves⟩
  intro path running listed
  rw [((local_handlePid c w).good_step pid moving).exe] at running
  have result : (handlePid c w pid).2.cgroup pid = settled c path (w.cgroup pid) := by
    rw [cgroup_handlePid_settled moving, running]
  rw [result]
  exact settled_eq_iff.mp (settled_settled c path _) side listed

/-- A visit of the scan settles its process for the side of the loop, and for a side that it had passed. -/
theorem passed_handleRunning (moves : ∀ n, (w.answers n).effect = .moved) (pid : ℤ) (now side : Slice)
    (other : side ≠ now → Passed c side w pid) :
    Passed c side (handleRunning (now.cgroups c) now.path w pid) pid := by
  have moving : Moving w w := ⟨rfl, rfl, moves⟩
  have result : (handleRunning (now.cgroups c) now.path w pid).cgroup pid =
      settle (now.cgroups c) now.path (w.cgroup pid) := cgroup_handleRunning moving
  have exe := ((local_handleRunning (now.cgroups c) now.path w).good_step pid moving).exe
  rcases eq_or_ne side now with rfl | different
  · intro path _ _
    rw [result, settle_settle (Slice.preserved_path side)]
  · rcases settle_cases (now.cgroups c) now.path (w.cgroup pid) with stays | moved
    · exact passed_of_same (congrFun exe pid) (result.trans stays) (other different)
    · exact passed_of_preserved (result.trans moved) (Slice.preserved_path now)

/-! ## Steps -/

/-- Every process has an event that waits, or the scan has passed it or will still look at it. -/
structure Covered (c : Config) (s : State) : Prop where
  moves : ∀ n, (s.world.answers n).effect = .moved
  isOpen : s.snoop = .poll → s.pb ≠ none
  isClosed : s.snoop ≠ .poll → s.pb = none
  covered : ∀ pid, Waiting s.pb pid ∨ ∀ side, Passed c side s.world pid ∨ Due s.main side s.world pid

/-- Once the scan has begun no event is lost, and only processes fork that are where the configuration wants
them. `bash_pidof` finds all processes of a program. -/
def Delivered (c : Config) (s : State) : Label → Prop
  | .exec _ _ _ lost => s.main.begun → lost = false ∧ s.snoop = .poll
  | .fork parent _ => s.main.begun → Settled c s.world parent
  | .pollFailed _ => s.main.begun → ∀ pid, ¬ Waiting s.pb pid
  | .pidof pids => ∀ side path programs, s.main = .running side (path :: programs) [] →
      ∀ pid, s.world.exe pid = some path → pid ∈ pids
  | _ => True

theorem due_of_not_begun {main : Main} (early : ¬ main.begun) : Due main side w pid := by
  cases main with
  | waiting | timeout => trivial
  | running | joining => exact absurd trivial early

/-- A process that a step does not concern. -/
theorem Covered.other (covered : Covered c s) (waiting : Waiting s.pb pid → Waiting t.pb pid) (main : t.main = s.main)
    (exe : t.world.exe pid = s.world.exe pid) (cgroup : t.world.cgroup pid = s.world.cgroup pid) :
    Waiting t.pb pid ∨ ∀ side, Passed c side t.world pid ∨ Due t.main side t.world pid := by
  rw [main]
  refine (covered.covered pid).imp waiting fun left side => ?_
  exact (left side).imp (passed_of_same exe cgroup) (due_of_same exe)

theorem waiting_output {pb : Option Rings} {cpu : ℕ} {q : ℤ} {lost : Bool} (waits : Waiting pb pid) :
    Waiting (output pb cpu q lost) pid := by
  cases lost with
  | true => exact waits
  | false =>
    obtain ⟨rings, rfl, own, member⟩ := waits
    refine ⟨Function.update rings cpu (rings cpu ++ [q]), rfl, own, ?_⟩
    rcases eq_or_ne own cpu with rfl | other
    · rw [Function.update_self]
      exact List.mem_append_left _ member
    · rwa [Function.update_of_ne other]

theorem waiting_output_self {pb : Option Rings} {cpu : ℕ} (isOpen : pb ≠ none) :
    Waiting (output pb cpu pid false) pid := by
  cases pb with
  | none => contradiction
  | some rings => exact ⟨_, rfl, cpu, by simp⟩

theorem waiting_update {rings : Rings} {cpu : ℕ} {q : ℤ} {rest : List ℤ} (front : rings cpu = q :: rest)
    (other : pid ≠ q) (waits : Waiting (some rings) pid) : Waiting (some (Function.update rings cpu rest)) pid := by
  obtain ⟨same, found, own, member⟩ := waits
  obtain rfl := Option.some.inj found
  refine ⟨Function.update rings cpu rest, rfl, own, ?_⟩
  rcases eq_or_ne own cpu with rfl | different
  · rw [front] at member
    rw [Function.update_self]
    exact (List.mem_cons.mp member).resolve_left other
  · rwa [Function.update_of_ne different]

theorem output_eq_none_iff {pb : Option Rings} {cpu : ℕ} {q : ℤ} {lost : Bool} :
    output pb cpu q lost = none ↔ pb = none := by
  cases lost with
  | true => exact Iff.rfl
  | false => exact Option.map_eq_none_iff

section Ran

variable {q : ℤ} {exe : Option Str} {cgroup : Option CgPath}

theorem ran_exe_of_ne (other : pid ≠ q) : (ran w q exe cgroup).exe pid = w.exe pid := Function.update_of_ne other ..

theorem ran_cgroup_of_ne (other : pid ≠ q) : (ran w q exe cgroup).cgroup pid = w.cgroup pid :=
  Function.update_of_ne other ..

end Ran

theorem Covered.exec (covered : Covered c s) {cpu : ℕ} {path : Str} {lost : Bool}
    (delivered : Delivered c s (.exec cpu pid path lost)) (taken : s.step c (.exec cpu pid path lost) = some t) :
    Covered c t := by
  rw [State.step, Option.ite_none_right_eq_some, Option.some.injEq] at taken
  obtain ⟨-, rfl⟩ := taken
  refine ⟨covered.moves, fun polls none => covered.isOpen polls (output_eq_none_iff.mp none),
    fun polls => output_eq_none_iff.mpr (covered.isClosed polls), fun other => ?_⟩
  rcases eq_or_ne other pid with rfl | different
  · by_cases begun : s.main.begun
    · obtain ⟨rfl, polls⟩ := delivered begun
      exact .inl (waiting_output_self (covered.isOpen polls))
    · exact .inr fun _ => .inr (due_of_not_begun begun)
  · exact covered.other waiting_output rfl (ran_exe_of_ne different) (ran_cgroup_of_ne different)

theorem Covered.fork (covered : Covered c s) {parent child : ℤ} (delivered : Delivered c s (.fork parent child))
    (taken : s.step c (.fork parent child) = some t) : Covered c t := by
  rw [State.step, Option.ite_none_right_eq_some, Option.some.injEq] at taken
  obtain ⟨-, rfl⟩ := taken
  refine ⟨covered.moves, covered.isOpen, covered.isClosed, fun other => ?_⟩
  rcases eq_or_ne other child with rfl | different
  · refine .inr fun side => ?_
    by_cases begun : s.main.begun
    · have parents := (settled_iff covered.moves).mp (delivered begun) side
      refine .inl fun path running listed => ?_
      simp only [ran, Function.update_self] at running ⊢
      exact parents path running listed
    · exact .inr (due_of_not_begun begun)
  · exact covered.other id rfl (ran_exe_of_ne different) (ran_cgroup_of_ne different)

theorem Covered.exit (covered : Covered c s) (taken : s.step c (.exit pid) = some t) : Covered c t := by
  cases taken
  refine ⟨covered.moves, covered.isOpen, covered.isClosed, fun other => ?_⟩
  rcases eq_or_ne other pid with rfl | different
  · refine .inr fun side => .inl fun path running => ?_
    simp only [ran, Function.update_self] at running
    contradiction
  · exact covered.other id rfl (ran_exe_of_ne different) (ran_cgroup_of_ne different)

/-- The steps of the execsnoop thread that touch no process. -/
theorem Covered.of_world (covered : Covered c s) (world : t.world = s.world) (main : t.main = s.main)
    (waiting : ∀ pid, Waiting s.pb pid → Waiting t.pb pid ∨ ¬ s.main.begun) (isOpen : t.snoop = .poll → t.pb ≠ none)
    (isClosed : t.snoop ≠ .poll → t.pb = none) : Covered c t where
  moves := world ▸ covered.moves
  isOpen := isOpen
  isClosed := isClosed
  covered pid := by
    rw [world, main]
    rcases covered.covered pid with waits | left
    · exact (waiting pid waits).imp_right fun early _ => .inr (due_of_not_begun early)
    · exact .inr left

theorem Covered.setup (covered : Covered c s) {err : ℤ} (taken : s.setup err = some t) : Covered c t := by
  have preparing {next : Snoop} (early : s.snoop ≠ .poll) (later : next ≠ .poll) : Covered c { s with snoop := next } :=
    covered.of_world rfl rfl (fun _ => .inl) (fun polls => absurd polls later) fun _ => covered.isClosed early
  rw [State.setup] at taken
  split at taken <;> cases taken <;> next stands => exact preparing (by rw [stands]; decide) (by split <;> nofun)

theorem Covered.perfBufferNew (covered : Covered c s) {err : ℤ} (taken : s.perfBufferNew err = some t) :
    Covered c t := by
  rw [State.perfBufferNew] at taken
  split at taken
  · next stands =>
    have closed : s.pb = none := covered.isClosed (by rw [stands]; decide)
    have idle (pid : ℤ) : ¬ Waiting s.pb pid := by
      rw [closed]
      exact nofun
    split at taken <;> cases taken
    · exact covered.of_world rfl rfl (fun pid waits => absurd waits (idle pid)) nofun fun _ => closed
    · exact covered.of_world rfl rfl (fun pid waits => absurd waits (idle pid)) (fun _ => Option.some_ne_none _)
        fun other => absurd rfl other
  · contradiction

/-- The process of the event is settled, the others wait as before. -/
theorem Covered.event (covered : Covered c s) {cpu : ℕ} (taken : s.event c cpu = some t) : Covered c t := by
  rw [State.event] at taken
  split at taken
  · next polls isOpen =>
    split at taken
    · next pid rest front =>
      cases taken
      have moving : Moving s.world s.world := ⟨rfl, rfl, covered.moves⟩
      have kept := (local_handlePid c s.world).good_step pid moving
      refine ⟨kept.moves, fun _ => Option.some_ne_none _, fun other => absurd polls other, fun other => ?_⟩
      rcases eq_or_ne other pid with rfl | different
      · exact .inr fun side => .inl (passed_handlePid covered.moves side other)
      · refine covered.other (fun waits => ?_) rfl (congrFun kept.exe other)
          ((local_handlePid c s.world).get_of_ne moving different)
        rw [isOpen] at waits
        exact waiting_update front different waits
    · contradiction
  · contradiction

theorem Covered.pollFailed (covered : Covered c s) {err : ℤ} (delivered : Delivered c s (.pollFailed err))
    (taken : s.pollFailed err = some t) : Covered c t := by
  have idle (pid : ℤ) (waits : Waiting s.pb pid) : ¬ s.main.begun := fun begun => delivered begun pid waits
  rw [State.pollFailed] at taken
  split at taken
  · split_ifs at taken <;> cases taken
    · exact covered.of_world rfl rfl (fun pid waits => .inr (idle pid waits)) nofun fun _ => rfl
    · exact covered.of_world rfl rfl (fun pid waits => .inr (idle pid waits)) nofun fun _ => rfl
  · contradiction

/-! ## The scan -/

/-- A step of the main thread that looks at no process. -/
theorem Covered.of_main (covered : Covered c s) {main : Main}
    (due : ∀ pid side, Due s.main side s.world pid → Passed c side s.world pid ∨ Due main side s.world pid) :
    Covered c { s with main } where
  moves := covered.moves
  isOpen := covered.isOpen
  isClosed := covered.isClosed
  covered pid := (covered.covered pid).imp_right fun left side => (left side).elim .inl (due pid side)

/-- At the beginning of a loop all processes of its programs are due. -/
theorem passed_or_due (c : Config) (side : Slice) (w : World) (pid : ℤ) :
    Passed c side w pid ∨ Due (.running side (side.programs c) []) side w pid := by
  by_cases listed : ∃ path ∈ side.programs c, w.exe pid = some path
  · exact .inr (.inl ⟨rfl, .inr listed⟩)
  · exact .inl fun path running programs => absurd ⟨path, programs, running⟩ listed

theorem Covered.ready (covered : Covered c s) :
    Covered c { s with main := .running .noproxy (Slice.noproxy.programs c) [] } := by
  refine covered.of_main fun pid side _ => ?_
  cases side with
  | noproxy => exact passed_or_due c .noproxy s.world pid
  | proxy => exact .inr (.inr ⟨rfl, rfl⟩)

theorem Covered.loop (covered : Covered c s) (taken : s.loop c = some t) : Covered c t := by
  rw [State.loop] at taken
  split at taken
  · next stands =>
    cases taken
    refine covered.of_main fun pid side due => ?_
    rw [stands] at due
    rcases due with ⟨rfl, nobody | ⟨_, none, -⟩⟩ | ⟨-, rfl⟩
    · contradiction
    · contradiction
    · exact passed_or_due c .proxy s.world pid
  · next stands =>
    cases taken
    refine covered.of_main fun pid side due => ?_
    rw [stands] at due
    rcases due with ⟨rfl, nobody | ⟨_, none, -⟩⟩ | ⟨other, -⟩
    · contradiction
    · contradiction
    · contradiction
  · contradiction

theorem Covered.pidof (covered : Covered c s) {pids : List ℤ} (delivered : Delivered c s (.pidof pids))
    (taken : s.step c (.pidof pids) = some t) : Covered c t := by
  rw [State.step] at taken
  split at taken
  · next side path programs stands =>
    cases taken
    refine covered.of_main fun pid other due => .inr ?_
    rw [stands] at due
    rcases due with ⟨rfl, nobody | ⟨program, member, running⟩⟩ | early
    · contradiction
    · rcases List.mem_cons.mp member with rfl | later
      · exact .inl ⟨rfl, .inl (delivered other program programs stands pid running)⟩
      · exact .inl ⟨rfl, .inr ⟨program, later, running⟩⟩
    · exact .inr early
  · contradiction

theorem Covered.running (covered : Covered c s) (taken : s.step c .running = some t) : Covered c t := by
  rw [State.step] at taken
  split at taken
  · next now programs pid pids stands =>
    cases taken
    have moving : Moving s.world s.world := ⟨rfl, rfl, covered.moves⟩
    have visit := local_handleRunning (now.cgroups c) now.path s.world
    have kept := visit.good_step pid moving
    refine ⟨kept.moves, covered.isOpen, covered.isClosed, fun other => ?_⟩
    have before := covered.covered other
    rw [stands] at before
    refine before.imp_right fun left side => ?_
    rcases eq_or_ne other pid with rfl | different
    · rcases eq_or_ne side now with rfl | elsewhere
      · exact .inl (passed_handleRunning covered.moves other side side fun self => absurd rfl self)
      · rcases left side with passed | ⟨rfl, -⟩ | early
        · exact .inl (passed_handleRunning covered.moves other now side fun _ => passed)
        · contradiction
        · exact .inr (.inr early)
    · have same := visit.get_of_ne moving different
      refine (left side).imp (passed_of_same (congrFun kept.exe other) same) fun due => ?_
      have moved := due_of_same (congrFun kept.exe other) due
      rcases moved with ⟨rfl, listed | running⟩ | early
      · exact .inl ⟨rfl, .inl ((List.mem_cons.mp listed).resolve_left different)⟩
      · exact .inl ⟨rfl, .inr running⟩
      · exact .inr early
  · contradiction

/-! ## Runs -/

theorem Covered.step (covered : Covered c s) (delivered : Delivered c s l) (taken : s.step c l = some t) :
    Covered c t := by
  cases l with
  | exec cpu pid path lost => exact covered.exec delivered taken
  | fork parent child => exact covered.fork delivered taken
  | exit pid => exact covered.exit taken
  | setup err => exact covered.setup taken
  | perfBufferNew err => exact covered.perfBufferNew taken
  | event cpu => exact covered.event taken
  | pollFailed err => exact covered.pollFailed delivered taken
  | ready =>
    rw [State.step, Option.ite_none_right_eq_some, Option.some.injEq] at taken
    obtain ⟨-, rfl⟩ := taken
    exact covered.ready
  | timeout =>
    rw [State.step, Option.ite_none_right_eq_some, Option.some.injEq] at taken
    obtain ⟨-, rfl⟩ := taken
    exact covered.of_main fun _ _ _ => .inr trivial
  | loop => exact covered.loop taken
  | pidof pids => exact covered.pidof delivered taken
  | running => exact covered.running taken

/-- After the scan only events are left. -/
theorem Covered.settled_or_waiting (covered : Covered c s) (scanned : s.main = .joining) (pid : ℤ) :
    Settled c s.world pid ∨ Waiting s.pb pid := by
  rcases covered.covered pid with waits | left
  · exact .inr waits
  · refine .inl ((settled_iff covered.moves).mpr fun side => ?_)
    rcases left side with passed | due
    · exact passed
    · rw [scanned] at due
      contradiction

/-- Every state of a run from the beginning is covered. -/
theorem covered_run (moves : ∀ n, (w.answers n).effect = .moved) {labels : List Label}
    (delivered : Along (State.step c) (Delivered c) { world := w } labels)
    (success : run (State.step c) { world := w } labels = some t) : Covered c t := by
  have start : Covered c { world := w } := ⟨moves, nofun, fun _ => rfl, fun _ => .inr fun _ => .inr trivial⟩
  exact run_preserves (fun _ _ _ covered ok taken => Covered.step covered ok taken) delivered start success

/-- Once the scan is through, every process is where `handle_pid` would leave it, or its event is in a ring, in
every run in which attaches move their processes, from the beginning of the scan on no event is lost and only
settled processes fork. -/
theorem no_program_missed (c : Config) (w : World) (moves : ∀ n, (w.answers n).effect = .moved) (labels : List Label)
    (t : State) (delivered : Along (State.step c) (Delivered c) { world := w } labels)
    (success : run (State.step c) { world := w } labels = some t) (scanned : t.main = .joining) (pid : ℤ) :
    Settled c t.world pid ∨ Waiting t.pb pid :=
  (covered_run moves delivered success).settled_or_waiting scanned pid

/-- Process 100 runs a program of both lists, and every attach moves it. -/
def movingWorld : World := { runningIn "/user.slice".toList with answers := fun _ => ⟨true, .moved⟩ }

/-- The scan finds process 100 for both sides. -/
def scanLabels : List Label :=
  [.setup 0, .setup 0, .setup 0, .perfBufferNew 0, .ready, .pidof [100], .running, .loop, .pidof [100], .running, .loop]

theorem delivered_scanLabels :
    Along (State.step bothListsConfig) (Delivered bothListsConfig) { world := movingWorld } scanLabels := by
  have found (s : State) (exe : s.world.exe = movingWorld.exe) : Delivered bothListsConfig s (.pidof [100]) := by
    intro side path programs _ pid running
    rw [exe] at running
    by_contra other
    rw [show movingWorld.exe pid = none from if_neg fun same => other (List.mem_singleton.mpr same)] at running
    contradiction
  refine (along_cons_of_step rfl).mpr ⟨trivial, (along_cons_of_step rfl).mpr ⟨trivial, ?_⟩⟩
  refine (along_cons_of_step rfl).mpr ⟨trivial, (along_cons_of_step rfl).mpr ⟨trivial, ?_⟩⟩
  refine (along_cons_of_step rfl).mpr ⟨trivial, (along_cons_of_step rfl).mpr ⟨found _ rfl, ?_⟩⟩
  refine (along_cons_of_step rfl).mpr ⟨trivial, (along_cons_of_step rfl).mpr ⟨trivial, ?_⟩⟩
  refine (along_cons_of_step rfl).mpr ⟨found _ ?_, (along_cons_of_step rfl).mpr ⟨trivial, ?_⟩⟩
  · rfl
  · exact (along_cons_of_step rfl).mpr ⟨trivial, trivial⟩

theorem no_program_missed_both :
    ∃ t, run (State.step bothListsConfig) { world := movingWorld } scanLabels = some t ∧
      (Settled bothListsConfig t.world 100 ∨ Waiting t.pb 100) := by
  obtain ⟨t, success, scanned⟩ : ∃ t, run (State.step bothListsConfig) { world := movingWorld } scanLabels = some t ∧
      t.main = .joining := ⟨_, rfl, rfl⟩
  exact ⟨t, success, no_program_missed bothListsConfig movingWorld (fun _ => rfl) scanLabels t delivered_scanLabels
    success scanned 100⟩

/-! ## The events that wait -/

/-- At most that many events wait, in the rings of finitely many processors. -/
def AtMost (n : ℕ) (pb : Option Rings) : Prop :=
  ∀ rings, pb = some rings → ∃ cpus : Finset ℕ, (∀ cpu ∉ cpus, rings cpu = []) ∧ ∑ cpu ∈ cpus, (rings cpu).length ≤ n

theorem AtMost.mono {n m : ℕ} {pb : Option Rings} (few : AtMost n pb) (more : n ≤ m) : AtMost m pb := by
  intro rings found
  obtain ⟨cpus, support, total⟩ := few rings found
  exact ⟨cpus, support, total.trans more⟩

theorem sum_update {rings : Rings} {cpus : Finset ℕ} {cpu : ℕ} (member : cpu ∈ cpus) (ring : List ℤ) :
    ∑ other ∈ cpus, (Function.update rings cpu ring other).length + (rings cpu).length =
      ∑ other ∈ cpus, (rings other).length + ring.length := by
  have apart (other : ℕ) (rest : other ∈ cpus.erase cpu) :
      (Function.update rings cpu ring other).length = (rings other).length := by
    rw [Function.update_of_ne (Finset.ne_of_mem_erase rest)]
  rw [← Finset.add_sum_erase cpus _ member, ← Finset.add_sum_erase cpus (fun other => (rings other).length) member,
    Function.update_self, Finset.sum_congr rfl apart]
  omega

theorem AtMost.output {n : ℕ} {pb : Option Rings} (few : AtMost n pb) (cpu : ℕ) (lost : Bool) :
    AtMost (n + 1) (output pb cpu pid lost) := by
  cases lost with
  | true => exact few.mono n.le_succ
  | false =>
    intro rings found
    obtain ⟨before, rfl, rfl⟩ := Option.map_eq_some_iff.mp found
    obtain ⟨cpus, support, total⟩ := few before rfl
    refine ⟨insert cpu cpus, fun other absent => ?_, ?_⟩
    · rw [Finset.mem_insert, not_or] at absent
      rw [Function.update_of_ne absent.1, support other absent.2]
    · have wider : ∑ other ∈ insert cpu cpus, (before other).length = ∑ other ∈ cpus, (before other).length := by
        refine (Finset.sum_subset (Finset.subset_insert cpu cpus) fun other _ absent => ?_).symm
        rw [support other absent, List.length_nil]
      have added := @sum_update before _ cpu (Finset.mem_insert_self cpu cpus) (before cpu ++ [pid])
      rw [List.length_append, List.length_singleton] at added
      omega

/-- An event that is handed over waits no longer. -/
theorem AtMost.event {n : ℕ} (few : AtMost (n + 1) s.pb) {cpu : ℕ} (taken : s.event c cpu = some t) :
    AtMost n t.pb := by
  rw [State.event] at taken
  split at taken
  · next before polls isOpen =>
    split at taken
    · next pid rest front =>
      cases taken
      intro rings found
      obtain rfl := Option.some.inj found
      obtain ⟨cpus, support, total⟩ := few before isOpen
      have member : cpu ∈ cpus := by
        by_contra absent
        rw [support cpu absent] at front
        contradiction
      refine ⟨cpus, fun other absent => ?_, ?_⟩
      · have apart : other ≠ cpu := fun same => absent (same ▸ member)
        rw [Function.update_of_ne apart, support other absent]
      · have removed := @sum_update before cpus cpu member rest
        rw [front, List.length_cons] at removed
        omega
    · contradiction
  · contradiction

theorem AtMost.step {n : ℕ} (few : AtMost n s.pb) (taken : s.step c l = some t) : AtMost (n + 1) t.pb := by
  have kept : AtMost (n + 1) s.pb := few.mono n.le_succ
  cases l with
  | exec cpu pid path lost =>
    rw [State.step, Option.ite_none_right_eq_some, Option.some.injEq] at taken
    obtain ⟨-, rfl⟩ := taken
    exact few.output cpu lost
  | event cpu => exact AtMost.event (kept.mono (n + 1).le_succ) taken
  | perfBufferNew err =>
    simp only [State.step, State.perfBufferNew] at taken
    split at taken
    · split at taken <;> cases taken
      · exact kept
      · intro rings found
        obtain rfl := Option.some.inj found
        exact ⟨∅, fun _ _ => rfl, by simp⟩
    · contradiction
  | pollFailed err =>
    simp only [State.step, State.pollFailed] at taken
    split at taken
    · split_ifs at taken <;> cases taken <;> exact nofun
    · contradiction
  | setup err =>
    simp only [State.step, State.setup] at taken
    split at taken <;> cases taken <;> exact kept
  | loop =>
    simp only [State.step, State.loop] at taken
    split at taken <;> cases taken <;> exact kept
  | fork | ready | timeout =>
    rw [State.step, Option.ite_none_right_eq_some, Option.some.injEq] at taken
    obtain ⟨-, rfl⟩ := taken
    exact kept
  | exit =>
    cases taken
    exact kept
  | pidof | running =>
    simp only [State.step] at taken
    split at taken
    · cases taken
      exact kept
    · contradiction

/-- As many polls as events wait hand all of them over. -/
theorem exists_drained {n : ℕ} (few : AtMost n s.pb) (isClosed : s.snoop ≠ .poll → s.pb = none) :
    ∃ cpus : List ℕ, ∃ u, cpus.length ≤ n ∧ run (State.step c) s (cpus.map .event) = some u ∧ u.main = s.main ∧
      ∀ pid, ¬ Waiting u.pb pid := by
  induction n generalizing s with
  | zero =>
    refine ⟨[], s, le_rfl, rfl, rfl, ?_⟩
    rintro pid ⟨rings, isOpen, cpu, member⟩
    obtain ⟨cpus, support, total⟩ := few rings isOpen
    have empty : rings cpu = [] := by
      by_cases within : cpu ∈ cpus
      · have part := @sum_update rings cpus cpu within []
        rw [List.length_nil] at part
        exact List.eq_nil_of_length_eq_zero (by omega)
      · exact support cpu within
    rw [empty] at member
    contradiction
  | succ n ih =>
    by_cases waits : ∃ pid, Waiting s.pb pid
    · obtain ⟨pid, rings, isOpen, cpu, member⟩ := waits
      obtain ⟨first, rest, front⟩ := List.exists_cons_of_ne_nil (List.ne_nil_of_mem member)
      have polls : s.snoop = .poll := by
        by_contra other
        rw [isClosed other] at isOpen
        contradiction
      have taken : s.event c cpu = some { s with
          world := (handlePid c s.world first).2, pb := some (Function.update rings cpu rest) } := by
        rw [State.event, polls, isOpen]
        simp only [front]
      obtain ⟨cpus, u, short, reached, main, drained⟩ := ih (few.event taken) (absurd polls)
      exact ⟨cpu :: cpus, u, Nat.succ_le_succ short, run_cons_iff.mpr ⟨_, taken, reached⟩, main, drained⟩
    · exact ⟨[], s, Nat.zero_le _, rfl, rfl, not_exists.mp waits⟩

/-- After every run like those of the scan, once the scan is through, at most as many polls as the run had steps leave
every process where `handle_pid` would leave it. -/
theorem all_settled (c : Config) (w : World) (moves : ∀ n, (w.answers n).effect = .moved) (labels : List Label)
    (t : State) (delivered : Along (State.step c) (Delivered c) { world := w } labels)
    (success : run (State.step c) { world := w } labels = some t) (scanned : t.main = .joining) :
    ∃ cpus : List ℕ, ∃ u, cpus.length ≤ labels.length ∧ run (State.step c) t (cpus.map .event) = some u ∧
      ∀ pid, Settled c u.world pid := by
  have covered := covered_run moves delivered success
  have few : AtMost labels.length t.pb := by
    have counted := @run_counted _ _ (State.step c) _ _ _ (fun n s => AtMost n s.pb)
      (fun _ _ _ _ few taken => AtMost.step few taken) 0
      (fun _ found => absurd found (Option.some_ne_none _).symm) success
    rwa [Nat.zero_add] at counted
  obtain ⟨cpus, u, short, reached, main, drained⟩ := exists_drained few covered.isClosed
  refine ⟨cpus, u, short, reached, fun pid => ?_⟩
  have still : Covered c u := by
    have events (l : Label) (member : l ∈ cpus.map Label.event) : ∃ cpu, l = .event cpu := by
      obtain ⟨cpu, -, rfl⟩ := List.mem_map.mp member
      exact ⟨cpu, rfl⟩
    have harmless : Along (State.step c) (Delivered c) t (cpus.map .event) := by
      refine (along_of_forall_mem events).imp ?_
      rintro _ _ ⟨cpu, rfl⟩
      trivial
    exact run_preserves (fun _ _ _ covered ok taken => Covered.step covered ok taken) harmless covered reached
  exact (still.settled_or_waiting (main.trans scanned) pid).resolve_right (drained pid)

/-- After the scan process 100 executes another program, and its event waits. -/
theorem all_settled_exec :
    let labels := scanLabels ++ [.exec 0 100 "/opt/other".toList false]
    ∃ t u, ∃ cpus : List ℕ, cpus.length ≤ 12 ∧
      run (State.step bothListsConfig) { world := movingWorld } labels = some t ∧
      run (State.step bothListsConfig) t (cpus.map .event) = some u ∧ ∀ pid, Settled bothListsConfig u.world pid := by
  intro labels
  obtain ⟨mid, scan, polls⟩ : ∃ mid, run (State.step bothListsConfig) { world := movingWorld } scanLabels = some mid ∧
      mid.snoop = .poll := ⟨_, rfl, rfl⟩
  obtain ⟨t, success, scanned⟩ : ∃ t, run (State.step bothListsConfig) { world := movingWorld } labels = some t ∧
      t.main = .joining := ⟨_, rfl, rfl⟩
  have delivered : Along (State.step bothListsConfig) (Delivered bothListsConfig) { world := movingWorld } labels :=
    (along_append_of_run scan).mpr ⟨delivered_scanLabels, fun _ => ⟨rfl, polls⟩, fun _ _ => trivial⟩
  obtain ⟨cpus, u, short, reached, settled⟩ :=
    all_settled bothListsConfig movingWorld (fun _ => rfl) labels t delivered success scanned
  exact ⟨t, u, cpus, short, success, reached, settled⟩

/-! ## How the thread ends -/

/-- The perf buffer cannot be opened again after a poll has failed. -/
def CannotReopen (labels : List Label) : Prop :=
  ∃ before err, before ++ [.perfBufferNew err] <+: labels ∧ err ≠ 0 ∧ ∃ failure, .pollFailed failure ∈ before

theorem cannotReopen_append {labels : List Label} : CannotReopen (labels ++ [l]) ↔
    CannotReopen labels ∨ (∃ err, l = .perfBufferNew err ∧ err ≠ 0) ∧ ∃ failure, .pollFailed failure ∈ labels := by
  constructor
  · rintro ⟨before, err, started, failed, polled⟩
    rcases List.prefix_concat_iff.mp started with same | earlier
    · obtain ⟨rfl, last⟩ := List.append_inj' same rfl
      obtain rfl := List.singleton_injective last
      exact .inr ⟨⟨err, rfl, failed⟩, polled⟩
    · exact .inl ⟨before, err, earlier, failed, polled⟩
  · rintro (⟨before, err, started, failed, polled⟩ | ⟨⟨err, rfl, failed⟩, polled⟩)
    · exact ⟨before, err, started.trans (List.prefix_append ..), failed, polled⟩
    · exact ⟨labels, err, List.prefix_rfl, failed, polled⟩

/-- What the fields of the execsnoop thread say about its steps so far. -/
structure Recorded (done : List Label) (s : State) : Prop where
  status : s.status = if s.notified then 1 else 0
  begun : s.main.begun → s.notified = true
  polled : (∃ failure, .pollFailed failure ∈ done) → s.notified = true
  opened : s.snoop = .poll → s.notified = true
  again : s.snoop = .mainLoop → s.notified = true → ∃ failure, .pollFailed failure ∈ done
  first : s.snoop = .rlimit ∨ s.snoop = .load ∨ s.snoop = .attach → s.notified = false
  works : (∀ err, s.snoop ≠ .returned err) → s.sigint = 0 ∧ ¬ CannotReopen done
  ended : (∃ err, s.snoop = .returned err) → (CannotReopen done ↔ s.notified = true ∧ s.sigint = 0)

/-- A perf buffer is opened, or given up. -/
def Label.ofBuffer : Label → Bool
  | .perfBufferNew _ | .pollFailed _ => true
  | _ => false

theorem cannotReopen_append_of_other {labels : List Label} (other : l.ofBuffer = false) :
    CannotReopen (labels ++ [l]) ↔ CannotReopen labels := by
  rw [cannotReopen_append]
  refine or_iff_left ?_
  rintro ⟨⟨err, rfl, -⟩, -⟩
  contradiction

theorem polled_append_of_other {labels : List Label} (other : l.ofBuffer = false) :
    (∃ failure, .pollFailed failure ∈ labels ++ [l]) ↔ ∃ failure, .pollFailed failure ∈ labels := by
  refine exists_congr fun failure => ?_
  rw [List.mem_append, List.mem_singleton]
  refine or_iff_left ?_
  rintro rfl
  contradiction

section Steps

variable {done : List Label}

/-- A step that is not about the perf buffer. -/
theorem Recorded.other (recorded : Recorded done s) (other : l.ofBuffer = false) (snoop : t.snoop = s.snoop)
    (notified : t.notified = s.notified) (status : t.status = s.status) (sigint : t.sigint = s.sigint)
    (begun : t.main.begun → s.notified = true) : Recorded (done ++ [l]) t where
  status := by rw [status, notified, recorded.status]
  begun began := notified.trans (begun began)
  polled polled := notified.trans (recorded.polled ((polled_append_of_other other).mp polled))
  opened polls := notified.trans (recorded.opened (snoop ▸ polls))
  again loops told := (polled_append_of_other other).mpr (recorded.again (snoop ▸ loops) (notified ▸ told))
  first early := by
    rw [snoop] at early
    exact notified.trans (recorded.first early)
  works working := by
    rw [snoop] at working
    rw [sigint, cannotReopen_append_of_other other]
    exact recorded.works working
  ended finished := by
    rw [snoop] at finished
    rw [cannotReopen_append_of_other other, notified, sigint]
    exact recorded.ended finished

/-- The preparations: no buffer has been opened. -/
theorem Recorded.setup (recorded : Recorded done s) {err : ℤ} (taken : s.setup err = some t) :
    Recorded (done ++ [.setup err]) t := by
  have preparing {next : Snoop} (early : s.snoop = .rlimit ∨ s.snoop = .load ∨ s.snoop = .attach)
      (later : next ≠ .poll) : Recorded (done ++ [.setup err]) { s with snoop := next } := by
    have untold := recorded.first early
    have working : ∀ failed, s.snoop ≠ .returned failed := by
      rintro failed finished
      rw [finished] at early
      rcases early with early | early | early <;> contradiction
    refine ⟨recorded.status, recorded.begun, fun polled => recorded.polled ((polled_append_of_other rfl).mp polled),
      fun polls => absurd polls later, fun _ told => ?_, fun _ => untold, fun _ => ?_, fun _ => ?_⟩
    · rw [untold] at told
      contradiction
    · rw [cannotReopen_append_of_other rfl]
      exact recorded.works working
    · rw [cannotReopen_append_of_other rfl]
      refine iff_of_false (recorded.works working).2 ?_
      rintro ⟨told, -⟩
      rw [untold] at told
      contradiction
  rw [State.setup] at taken
  split at taken <;> cases taken <;> next stands => exact preparing (by rw [stands]; decide) (by split <;> nofun)

theorem Recorded.perfBufferNew (recorded : Recorded done s) {err : ℤ} (taken : s.perfBufferNew err = some t) :
    Recorded (done ++ [.perfBufferNew err]) t := by
  rw [State.perfBufferNew] at taken
  split at taken
  · next stands =>
    obtain ⟨quiet, before⟩ := recorded.works fun err => by rw [stands]; nofun
    have polled : (∃ failure, .pollFailed failure ∈ done ++ [.perfBufferNew err]) ↔
        ∃ failure, .pollFailed failure ∈ done := by simp
    split at taken <;> cases taken
    · next failed =>
      have reopens : CannotReopen (done ++ [.perfBufferNew err]) ↔ ∃ failure, .pollFailed failure ∈ done := by
        rw [cannotReopen_append, or_iff_right before, and_iff_right ⟨err, rfl, failed⟩]
      refine ⟨recorded.status, recorded.begun, fun again => recorded.polled (polled.mp again), nofun, nofun, nofun,
        fun working => absurd rfl (working 1), fun _ => ?_⟩
      rw [reopens, and_iff_left quiet]
      exact ⟨recorded.polled, recorded.again stands⟩
    · next works =>
      have status := recorded.status
      refine ⟨?_, fun _ => rfl, fun _ => rfl, fun _ => rfl, nofun, nofun, fun _ => ⟨quiet, ?_⟩, nofun⟩
      · dsimp only
        rw [status]
        cases s.notified <;> rfl
      · rw [cannotReopen_append, not_or]
        refine ⟨before, ?_⟩
        rintro ⟨⟨other, same, failed⟩, -⟩
        cases same
        exact works failed
  · contradiction

theorem Recorded.pollFailed (recorded : Recorded done s) {err : ℤ} (taken : s.pollFailed err = some t) :
    Recorded (done ++ [.pollFailed err]) t := by
  rw [State.pollFailed] at taken
  split at taken
  · next stands =>
    obtain ⟨quiet, before⟩ := recorded.works fun err => by rw [stands]; nofun
    have told := recorded.opened stands
    have still : ¬ CannotReopen (done ++ [.pollFailed err]) := by
      rw [cannotReopen_append, not_or]
      refine ⟨before, ?_⟩
      rintro ⟨⟨other, same, -⟩, -⟩
      contradiction
    have polled : ∃ failure, .pollFailed failure ∈ done ++ [.pollFailed err] := ⟨err, by simp⟩
    split_ifs at taken <;> cases taken
    · exact ⟨recorded.status, recorded.begun, fun _ => told, nofun, fun _ _ => polled, nofun,
        fun _ => ⟨quiet, still⟩, nofun⟩
    · refine ⟨recorded.status, recorded.begun, fun _ => told, nofun, nofun, nofun,
        fun working => absurd rfl (working err), fun _ => iff_of_false still ?_⟩
      rintro ⟨-, none⟩
      exact absurd none (Nat.succ_ne_zero _)
  · contradiction

theorem Recorded.step (recorded : Recorded done s) (taken : s.step c l = some t) : Recorded (done ++ [l]) t := by
  cases l with
  | setup err => exact recorded.setup taken
  | perfBufferNew err => exact recorded.perfBufferNew taken
  | pollFailed err => exact recorded.pollFailed taken
  | exec cpu pid path lost =>
    rw [State.step, Option.ite_none_right_eq_some, Option.some.injEq] at taken
    obtain ⟨-, rfl⟩ := taken
    exact recorded.other rfl rfl rfl rfl rfl recorded.begun
  | fork parent child =>
    rw [State.step, Option.ite_none_right_eq_some, Option.some.injEq] at taken
    obtain ⟨-, rfl⟩ := taken
    exact recorded.other rfl rfl rfl rfl rfl recorded.begun
  | exit pid =>
    cases taken
    exact recorded.other rfl rfl rfl rfl rfl recorded.begun
  | event cpu =>
    rw [State.step, State.event] at taken
    split at taken
    · split at taken <;> cases taken
      exact recorded.other rfl rfl rfl rfl rfl recorded.begun
    · contradiction
  | ready =>
    rw [State.step, Option.ite_none_right_eq_some, Option.some.injEq] at taken
    obtain ⟨⟨-, told⟩, rfl⟩ := taken
    refine recorded.other rfl rfl rfl rfl rfl fun _ => ?_
    rw [recorded.status] at told
    by_contra untold
    exact told (if_neg untold)
  | timeout =>
    rw [State.step, Option.ite_none_right_eq_some, Option.some.injEq] at taken
    obtain ⟨-, rfl⟩ := taken
    exact recorded.other rfl rfl rfl rfl rfl nofun
  | loop =>
    rw [State.step, State.loop] at taken
    split at taken <;> cases taken <;> next stands =>
      exact recorded.other rfl rfl rfl rfl rfl fun _ => recorded.begun (by rw [stands]; trivial)
  | pidof pids =>
    rw [State.step] at taken
    split at taken <;> cases taken
    next stands => exact recorded.other rfl rfl rfl rfl rfl fun _ => recorded.begun (by rw [stands]; trivial)
  | running =>
    rw [State.step] at taken
    split at taken <;> cases taken
    next stands => exact recorded.other rfl rfl rfl rfl rfl fun _ => recorded.begun (by rw [stands]; trivial)

/-- A thread that has ended does not come back, and hands nothing over. -/
theorem returned_step (finished : ∃ err, s.snoop = .returned err) (taken : s.step c l = some t) :
    (∃ err, t.snoop = .returned err) ∧ ∀ cpu, l ≠ .event cpu := by
  obtain ⟨err, stands⟩ := finished
  cases l with
  | setup | perfBufferNew | pollFailed | event =>
    simp [State.step, State.setup, State.perfBufferNew, State.pollFailed, State.event, stands] at taken
  | exec | fork | ready | timeout =>
    rw [State.step, Option.ite_none_right_eq_some, Option.some.injEq] at taken
    obtain ⟨-, rfl⟩ := taken
    exact ⟨⟨err, stands⟩, nofun⟩
  | exit =>
    cases taken
    exact ⟨⟨err, stands⟩, nofun⟩
  | loop =>
    simp only [State.step, State.loop] at taken
    split at taken <;> cases taken <;> exact ⟨⟨err, stands⟩, nofun⟩
  | pidof | running =>
    simp only [State.step] at taken
    split at taken <;> cases taken
    exact ⟨⟨err, stands⟩, nofun⟩

theorem deaf_of_returned {later : List Label} (finished : ∃ err, s.snoop = .returned err)
    (success : run (State.step c) s later = some t) : ∀ cpu, .event cpu ∉ later := by
  induction later generalizing s with
  | nil => exact fun _ => List.not_mem_nil
  | cons l rest ih =>
    obtain ⟨mid, taken, tail⟩ := run_cons_iff.mp success
    obtain ⟨still, other⟩ := returned_step finished taken
    exact fun cpu => List.not_mem_cons_of_ne_of_not_mem (Ne.symm (other cpu)) (ih still tail cpu)

end Steps

/-- In every run the promise is given its value at most once, and before the scan begins. The execsnoop thread
ends without a signal to the process group after that exactly if it cannot open the perf buffer again after a
poll has failed, and then no event is handed over any more. -/
theorem execsnoop_outcomes (c : Config) (w : World) (labels : List Label) (t : State)
    (success : run (State.step c) { world := w } labels = some t) :
    t.status ≤ 1 ∧ (t.main.begun → t.status = 1) ∧
      ((∃ err, t.snoop = .returned err) ∧ t.status = 1 ∧ t.sigint = 0 ↔ CannotReopen labels) ∧
      (CannotReopen labels → ∀ later u, run (State.step c) t later = some u → ∀ cpu, .event cpu ∉ later) := by
  have start : Recorded [] { world := w } := by
    refine ⟨rfl, nofun, nofun, nofun, nofun, fun _ => rfl, fun _ => ⟨rfl, ?_⟩, nofun⟩
    rintro ⟨before, err, started, -⟩
    have none := List.eq_nil_of_prefix_nil started
    simp at none
  have recorded : Recorded labels t :=
    run_recorded (fun _ _ _ _ recorded taken => Recorded.step recorded taken) start success
  have told : t.status = 1 ↔ t.notified = true := by
    rw [recorded.status]
    cases t.notified <;> decide
  have finishes (cannot : CannotReopen labels) : ∃ err, t.snoop = .returned err := by
    by_contra working
    exact (recorded.works (not_exists.mp working)).2 cannot
  refine ⟨?_, fun begun => told.mpr (recorded.begun begun), ?_, fun cannot later u continued => ?_⟩
  · rw [recorded.status]
    split <;> decide
  · rw [told]
    constructor
    · rintro ⟨finished, rest⟩
      exact (recorded.ended finished).mpr rest
    · exact fun cannot => ⟨finishes cannot, (recorded.ended (finishes cannot)).mp cannot⟩
  · exact deaf_of_returned (finishes cannot) continued

/-- A poll is interrupted, and there is no memory for another buffer. -/
def deafLabels : List Label :=
  [.setup 0, .setup 0, .setup 0, .perfBufferNew 0, .pollFailed (-eintr), .perfBufferNew (-12)]

theorem execsnoop_outcomes_deaf :
    ∃ t, run (State.step bothListsConfig) { world := movingWorld } deafLabels = some t ∧
      ((∃ err, t.snoop = .returned err) ∧ t.status = 1 ∧ t.sigint = 0) ∧
      ∀ cpu, run (State.step bothListsConfig) t [.exec 0 100 "/usr/bin/app".toList false, .event cpu] = none := by
  obtain ⟨t, success⟩ : ∃ t, run (State.step bothListsConfig) { world := movingWorld } deafLabels = some t := ⟨_, rfl⟩
  have cannot : CannotReopen deafLabels :=
    ⟨deafLabels.dropLast, -12, List.prefix_rfl, by decide, -eintr, by simp [deafLabels]⟩
  obtain ⟨-, -, ends, deaf⟩ := execsnoop_outcomes bothListsConfig movingWorld deafLabels t success
  refine ⟨t, success, ends.mpr cannot, fun cpu => Option.eq_none_iff_forall_ne_some.mpr fun u continued => ?_⟩
  exact deaf cannot _ u continued cpu (by simp)

end Notifier

end CgProxy

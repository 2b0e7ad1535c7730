import CgProxy.Model.Execsnoop
import Mathlib.Data.List.Forall2

/-! # Which execs are reported

As long as every successful call was entered by the leader of its thread group, the map has one
entry for each call in flight, in the same order, and the exit probe finds the entry that the enter
probe left. A success of any other thread leaves the map with the id it entered under, for good.
-/

namespace CgProxy.Execsnoop

open LabeledRun

/-! ## What a step should report -/

/-- The map has exactly the entries of the calls in flight. -/
def Exact (s : State) : Prop :=
  ∀ tid, (s.records.lookup tid).map (fun event => (event.pid, event.tgid)) =
    (s.inFlight.lookup tid).map fun tgid => (tid, tgid)

/-- A success outputs one event with the id of the process, a failure none, and after an exit the map
is exact. -/
def Reported (s t : State) : Label → Prop
  | .enter _ => t.events = s.events
  | .exit _ task ret =>
      (if ret < 0 then t.events = s.events
        else ∃ event, t.events = s.events ++ [event] ∧ event.pid = task.tgid ∧ event.tgid = task.tgid) ∧
      Exact t

/-- A call that succeeds was entered by the leader of its thread group. -/
def LeaderSucceeds : Label → Prop
  | .enter _ => True
  | .exit tid task ret => 0 ≤ ret → tid = task.tgid

instance : DecidablePred LeaderSucceeds
  | .enter _ => .isTrue trivial
  | .exit tid task ret => inferInstanceAs (Decidable (0 ≤ ret → tid = task.tgid))

/-! ## The map along the calls in flight -/

/-- The entry of a call. -/
structure Tracks (entry : ℤ × Event) (call : ℤ × ℤ) : Prop where
  key : entry.1 = call.1
  pid : entry.2.pid = call.1
  tgid : entry.2.tgid = call.2

def Aligned (s : State) : Prop := List.Forall₂ Tracks s.records s.inFlight

section Map

variable {records : Records} {inFlight : List (ℤ × ℤ)} {tid : ℤ}

theorem lookup_of_forall₂ (aligned : List.Forall₂ Tracks records inFlight) (tid : ℤ) :
    (records.lookup tid = none ∧ inFlight.lookup tid = none) ∨
      ∃ event tgid, records.lookup tid = some event ∧ inFlight.lookup tid = some tgid ∧
        event.pid = tid ∧ event.tgid = tgid := by
  induction aligned with
  | nil => exact .inl ⟨rfl, rfl⟩
  | @cons entry call records inFlight tracks _ ih =>
    obtain ⟨key, event⟩ := entry
    obtain ⟨tid', tgid⟩ := call
    obtain rfl : key = tid' := tracks.key
    rcases eq_or_ne tid key with rfl | other
    · exact .inr ⟨event, tgid, by simp, by simp, tracks.pid, tracks.tgid⟩
    · simpa only [List.lookup_cons, beq_eq_false_iff_ne.mpr other] using ih

theorem delete_cons (entry : ℤ × Event) (records : Records) (tid : ℤ) :
    Records.delete (entry :: records) tid =
      if entry.1 = tid then records.delete tid else entry :: records.delete tid := by
  by_cases same : entry.1 = tid <;> simp [Records.delete, same]

theorem write_cons (entry : ℤ × Event) (records : Records) (tid : ℤ) (event : Event) :
    Records.write (entry :: records) tid event =
      (if entry.1 = tid then (tid, event) else entry) :: records.write tid event := rfl

theorem forall₂_delete (aligned : List.Forall₂ Tracks records inFlight) (tid : ℤ) :
    List.Forall₂ Tracks (records.delete tid) (inFlight.filter (·.1 ≠ tid)) := by
  induction aligned with
  | nil => exact .nil
  | @cons entry call records inFlight tracks _ ih =>
    by_cases same : call.1 = tid
    · rw [delete_cons, if_pos (tracks.key.trans same), List.filter_cons_of_neg (by simp [same])]
      exact ih
    · rw [delete_cons, if_neg (by rw [tracks.key]; exact same), List.filter_cons_of_pos (by simp [same])]
      exact .cons tracks ih

theorem lookup_filter_self (calls : List (ℤ × ℤ)) (tid : ℤ) : (calls.filter (·.1 ≠ tid)).lookup tid = none := by
  apply List.lookup_eq_none_iff.mpr
  intro call member
  have other : call.1 ≠ tid := by simpa using (List.mem_filter.mp member).2
  exact bne_iff_ne.mpr other.symm

theorem lookup_filter_of_ne {α : Type} {entries : List (ℤ × α)} {key : ℤ} (other : tid ≠ key) :
    (entries.filter (·.1 ≠ key)).lookup tid = entries.lookup tid := by
  induction entries with
  | nil => rfl
  | cons entry rest ih =>
    rw [List.filter_cons]
    split
    · rw [List.lookup_cons, List.lookup_cons, ih]
    · next same =>
      have own : entry.1 = key := by simpa using same
      rw [ih, List.lookup_cons, own, beq_eq_false_iff_ne.mpr other]

/-- A deletion only removes entries of its own key. -/
theorem lookup_delete_of_ne {key : ℤ} (other : tid ≠ key) : (records.delete key).lookup tid = records.lookup tid :=
  lookup_filter_of_ne other

theorem write_of_lookup_none (absent : records.lookup tid = none) (event : Event) :
    records.write tid event = records := by
  induction records with
  | nil => rfl
  | cons entry rest ih =>
    obtain ⟨key, old⟩ := entry
    have other : tid ≠ key := by
      rintro rfl
      simp at absent
    rw [List.lookup_cons, beq_eq_false_iff_ne.mpr other] at absent
    rw [write_cons, ih absent, if_neg other.symm]

theorem delete_of_lookup_none (absent : records.lookup tid = none) : records.delete tid = records := by
  apply List.filter_eq_self.mpr
  intro entry member
  have other : tid ≠ entry.1 := bne_iff_ne.mp (List.lookup_eq_none_iff.mp absent entry member)
  simpa using other.symm

theorem delete_write (records : Records) (tid : ℤ) (event : Event) :
    (records.write tid event).delete tid = records.delete tid := by
  induction records with
  | nil => rfl
  | cons entry rest ih =>
    rw [write_cons, delete_cons, delete_cons, ih]
    by_cases same : entry.1 = tid
    · rw [if_pos same, if_pos rfl, if_pos same]
    · rw [if_neg same, if_neg same]

end Map

/-! ## The probes on an aligned map -/

section Steps

variable {s t : State} {l : Label} {task : Task}

theorem enter_of_step (taken : step s (.enter task) = some t) :
    s.inFlight.lookup task.pid = none ∧ s.inFlight.length < maxEntries ∧
      t = { s with
        records := syscallEnterExecve task s.records
        inFlight := (task.pid, task.tgid) :: s.inFlight } := by
  rw [step] at taken
  split at taken
  · next guard => exact ⟨guard.1, guard.2, (Option.some.inj taken).symm⟩
  · contradiction

theorem exit_of_step {tid ret : ℤ} (taken : step s (.exit tid task ret) = some t) :
    s.inFlight.lookup tid = some task.tgid ∧ task.pid = (if ret < 0 then tid else task.tgid) ∧
      t = {
        records := (syscallExitExecve task ret s.records).1
        inFlight := s.inFlight.filter (·.1 ≠ tid)
        events := s.events ++ (syscallExitExecve task ret s.records).2.toList } := by
  cases found : s.inFlight.lookup tid with
  | none => simp only [step, found, reduceCtorEq] at taken
  | some tgid =>
    simp only [step, found, Option.ite_none_right_eq_some, Option.some.injEq] at taken
    obtain ⟨⟨rfl, caller⟩, rfl⟩ := taken
    exact ⟨rfl, caller, rfl⟩

/-- An id that is not in flight gets a new entry. -/
theorem syscallEnterExecve_of_aligned (aligned : Aligned s) (fresh : s.inFlight.lookup task.pid = none)
    (room : s.inFlight.length < maxEntries) :
    syscallEnterExecve task s.records =
      (task.pid, { pid := task.pid, tgid := task.tgid, uid := task.uid, ppid := task.ppid }) :: s.records := by
  have absent : s.records.lookup task.pid = none := by
    rcases lookup_of_forall₂ aligned task.pid with ⟨none, -⟩ | ⟨event, tgid, -, found, -⟩
    · exact none
    · rw [fresh] at found
      contradiction
  have space : ¬ maxEntries ≤ s.records.length := by
    rw [aligned.length_eq]
    omega
  have inserted : s.records.updateNoExist task.pid {} = some ((task.pid, {}) :: s.records) :=
    if_neg (by simp [absent, space])
  rw [syscallEnterExecve, inserted]
  simp only [List.lookup_cons_self, write_cons, if_true, write_of_lookup_none absent]

/-- The exit probe takes the entry of its id away. -/
theorem syscallExitExecve_records (task : Task) (ret : ℤ) (records : Records) :
    (syscallExitExecve task ret records).1 = records.delete task.pid := by
  rw [syscallExitExecve]
  cases found : records.lookup task.pid with
  | none => exact (delete_of_lookup_none found).symm
  | some event =>
    dsimp only
    split
    · rfl
    · exact delete_write records task.pid _

/-- If no other thread succeeds, the call leaves under the id it entered with. -/
theorem pid_eq_of_leader {tid ret : ℤ} (caller : task.pid = if ret < 0 then tid else task.tgid)
    (leader : LeaderSucceeds (.exit tid task ret)) : task.pid = tid := by
  rw [caller]
  split
  · rfl
  · next success => exact (leader (Int.not_lt.mp success)).symm

theorem aligned_step (aligned : Aligned s) (leader : LeaderSucceeds l) (taken : step s l = some t) : Aligned t := by
  cases l with
  | enter task =>
    obtain ⟨fresh, room, rfl⟩ := enter_of_step taken
    rw [Aligned, syscallEnterExecve_of_aligned aligned fresh room]
    exact .cons ⟨rfl, rfl, rfl⟩ aligned
  | exit tid task ret =>
    obtain ⟨-, caller, rfl⟩ := exit_of_step taken
    rw [Aligned]
    dsimp only
    rw [syscallExitExecve_records, pid_eq_of_leader caller leader]
    exact forall₂_delete aligned tid

theorem exact_of_aligned (aligned : Aligned s) : Exact s := by
  intro tid
  rcases lookup_of_forall₂ aligned tid with ⟨absent, gone⟩ | ⟨event, tgid, present, found, pid, group⟩
  · rw [absent, gone]
    rfl
  · rw [present, found, Option.map_some, Option.map_some, pid, group]

/-- A step from an aligned map is reported as it should be exactly if no other thread succeeds. -/
theorem reported_step_iff (aligned : Aligned s) (taken : step s l = some t) : Reported s t l ↔ LeaderSucceeds l := by
  cases l with
  | enter task =>
    obtain ⟨-, -, rfl⟩ := enter_of_step taken
    exact ⟨fun _ => trivial, fun _ => rfl⟩
  | exit tid task ret =>
    obtain ⟨found, caller, same⟩ := exit_of_step taken
    obtain ⟨event, present, pid, group⟩ : ∃ event, s.records.lookup tid = some event ∧ event.pid = tid ∧
        event.tgid = task.tgid := by
      rcases lookup_of_forall₂ aligned tid with ⟨-, gone⟩ | ⟨event, tgid, present, known, pid, group⟩
      · rw [found] at gone
        contradiction
      · rw [found] at known
        exact ⟨event, present, pid, group.trans (Option.some.inj known).symm⟩
    constructor
    · -- the entry under the old id would survive its call
      intro reported success
      by_contra other
      have exact := reported.2 tid
      rw [if_neg (Int.not_lt.mpr success)] at caller
      rw [same] at exact
      dsimp only at exact
      rw [syscallExitExecve_records, caller, lookup_delete_of_ne other, present, lookup_filter_self] at exact
      contradiction
    · intro leader
      refine ⟨?_, exact_of_aligned (aligned_step aligned leader taken)⟩
      have own := pid_eq_of_leader caller leader
      rw [same]
      dsimp only
      rw [syscallExitExecve, own, present]
      dsimp only
      split
      · simp
      · next success =>
        have group' : tid = task.tgid := leader (Int.not_lt.mp success)
        exact ⟨_, rfl, pid.trans group', group⟩

end Steps

/-- In every run of the two probes over any threads, every call is reported as it should be, and the
map is exact after it, if and only if every call that succeeds was entered by the leader of its group. -/
theorem exec_reported_iff (labels : List Label) (t : State) (success : run step {} labels = some t) :
    Along step (fun s l => ∀ u, step s l = some u → Reported s u l) {} labels ↔
      ∀ l ∈ labels, LeaderSucceeds l := by
  suffices general : ∀ s, Aligned s → run step s labels = some t →
      (Along step (fun s l => ∀ u, step s l = some u → Reported s u l) s labels ↔ ∀ l ∈ labels, LeaderSucceeds l) from
    general {} .nil success
  clear success
  induction labels with
  | nil => simp [Along]
  | cons l rest ih =>
    intro s aligned success
    obtain ⟨mid, taken, tail⟩ := run_cons_iff.mp success
    rw [along_cons_of_step taken, List.forall_mem_cons]
    have first : (∀ u, step s l = some u → Reported s u l) ↔ LeaderSucceeds l := by
      rw [← reported_step_iff aligned taken, taken]
      simp
    rw [first]
    exact and_congr_right fun leader => ih mid (aligned_step aligned leader taken) tail

/-! ## Two runs -/

/-- A thread of process 100. -/
def thread (tid : ℤ) : Task := { comm := "a".toList, pid := tid, tgid := 100, ppid := 1, uid := 0 }

/-- The leader and another thread call, the other one fails, then the leader succeeds. -/
def leaderLabels : List Label :=
  [.enter (thread 100), .enter (thread 101), .exit 101 (thread 101) (-2), .exit 100 (thread 100) 0]

theorem exec_reported_leader :
    Along step (fun s l => ∀ u, step s l = some u → Reported s u l) {} leaderLabels :=
  (exec_reported_iff leaderLabels _ rfl).mpr (by decide)

/-- Thread 101 succeeds and becomes thread 100. -/
def threadLabels : List Label := [.enter (thread 101), .exit 101 (thread 100) 0]

/-- Nothing is output, and the entry of thread 101 stays. -/
theorem exec_missed_thread :
    (run step {} threadLabels).map (fun t => (t.events, t.inFlight, (t.records.lookup 101).isSome)) =
        some ([], [], true) ∧
      ¬ Along step (fun s l => ∀ u, step s l = some u → Reported s u l) {} threadLabels := by
  refine ⟨rfl, fun all => ?_⟩
  obtain ⟨⟨event, output, -⟩, -⟩ := (all.2 _ rfl).1 _ rfl
  contradiction

end CgProxy.Execsnoop

import CgProxy.Model.Execsnoop
import CgProxy.Soundness.ExecEvents
import Mathlib.Data.List.Nodup
import Mathlib.Data.List.Perm.Subperm

/-! # Calls of any threads

Without the assumption that leaders call, the map decides. What the success of a leader outputs is settled when
it enters: a left entry of the same id with old data, a new entry if there is room, or nothing. Any other thread
comes back as the leader and finds the leader's entry or none. So the probes report part of what the return probe
of the bcc variant submits, and all of it as long as leaders call. Each success of another thread leaves an entry
until a call comes back under its id, and a map full of them reports nothing any more.
-/

namespace CgProxy.Execsnoop

open LabeledRun

variable {s t : State} {l : Label} {task : Task} {records : Records} {key : ℤ}

/-! ## Entries of other threads -/

/-- The entry of that thread id may change. -/
def Label.concerns (key : ℤ) : Label → Prop
  | .enter task => task.pid = key
  | .exit tid task _ => tid = key ∨ task.pid = key

/-- The event that the enter probe leaves. -/
def recorded (task : Task) : Event := { pid := task.pid, tgid := task.tgid, uid := task.uid, ppid := task.ppid }

theorem syscallEnterExecve_eq (task : Task) (records : Records) : syscallEnterExecve task records =
    if records.lookup task.pid = none ∧ records.length < maxEntries then (task.pid, recorded task) :: records
    else records := by
  by_cases fresh : records.lookup task.pid = none ∧ records.length < maxEntries
  · have inserted : records.updateNoExist task.pid {} = some ((task.pid, {}) :: records) :=
      if_neg (by rw [not_or]; exact ⟨not_not.mpr fresh.1, Nat.not_le.mpr fresh.2⟩)
    rw [if_pos fresh, syscallEnterExecve, inserted]
    simp only [List.lookup_cons_self, write_cons, if_true, write_of_lookup_none fresh.1]
    rfl
  · have refused : records.updateNoExist task.pid {} = none := by
      refine if_pos ?_
      by_cases present : records.lookup task.pid = none
      · exact .inr (Nat.not_lt.mp fun room => fresh ⟨present, room⟩)
      · exact .inl present
    rw [if_neg fresh, syscallEnterExecve, refused]

theorem lookup_enter_of_ne (other : key ≠ task.pid) :
    (syscallEnterExecve task records).lookup key = records.lookup key := by
  rw [syscallEnterExecve_eq]
  split
  · rw [List.lookup_cons, beq_eq_false_iff_ne.mpr other]
  · rfl

theorem lookup_enter_self : (syscallEnterExecve task records).lookup task.pid =
    (records.lookup task.pid).or (if records.length < maxEntries then some (recorded task) else none) := by
  rw [syscallEnterExecve_eq]
  cases found : records.lookup task.pid with
  | some stale => rw [if_neg (fun fresh => Option.some_ne_none stale fresh.1), found, Option.some_or]
  | none =>
    by_cases room : records.length < maxEntries
    · rw [if_pos ⟨rfl, room⟩, List.lookup_cons_self, if_pos room, Option.none_or]
    · rw [if_neg (fun fresh => room fresh.2), found, if_neg room, Option.none_or]

/-- The entry of that thread id and its call stay as they are. -/
structure Unconcerned (key : ℤ) (before s : State) : Prop where
  entry : s.records.lookup key = before.records.lookup key
  call : s.inFlight.lookup key = before.inFlight.lookup key

theorem Unconcerned.step {before : State} (same : Unconcerned key before s) (other : ¬ l.concerns key)
    (taken : Execsnoop.step s l = some t) : Unconcerned key before t := by
  cases l with
  | enter task =>
    obtain ⟨-, -, rfl⟩ := enter_of_step taken
    have differs : key ≠ task.pid := fun caller => other caller.symm
    refine ⟨(lookup_enter_of_ne differs).trans same.entry, ?_⟩
    dsimp only
    rw [List.lookup_cons, beq_eq_false_iff_ne.mpr differs]
    exact same.call
  | exit tid task ret =>
    obtain ⟨-, -, rfl⟩ := exit_of_step taken
    obtain ⟨caller, returner⟩ := not_or.mp other
    refine ⟨?_, (lookup_filter_of_ne (Ne.symm caller)).trans same.call⟩
    dsimp only
    rw [syscallExitExecve_records, lookup_delete_of_ne (Ne.symm returner)]
    exact same.entry

/-- What the exit probe outputs, given the entry it finds. -/
def output (left : Task) (found : Option Event) : List Event :=
  (found.map fun event => { event with comm := left.comm }).toList

@[simp] theorem output_none (left : Task) : output left none = [] := rfl

@[simp] theorem output_some (left : Task) (event : Event) :
    output left (some event) = [{ event with comm := left.comm }] := rfl

theorem events_exit {tid ret : ℤ} (taken : step s (.exit tid task ret) = some t) :
    t.events = s.events ++ if ret < 0 then [] else output task (s.records.lookup task.pid) := by
  obtain ⟨-, -, rfl⟩ := exit_of_step taken
  dsimp only
  rw [syscallExitExecve, output]
  cases s.records.lookup task.pid with
  | none => simp
  | some event => by_cases failed : ret < 0 <;> simp [failed]

/-- What a call outputs, whatever other threads do meanwhile. A failure outputs nothing. What the success of a leader
outputs is settled at its entry: the data of an earlier call if that had left its entry, its own if the map had room,
else nothing. Any other thread comes back as the leader and outputs the leader's entry, if there is one. -/
theorem output_of_call (s s₁ s₂ t : State) (task left : Task) (ret : ℤ) (between : List Label)
    (entered : step s (.enter task) = some s₁) (others : ∀ l ∈ between, ¬ l.concerns task.pid)
    (success : run step s₁ between = some s₂) (exited : step s₂ (.exit task.pid left ret) = some t) :
    t.events = s₂.events ++
      if ret < 0 then []
      else if task.pid = task.tgid then
        output left ((s.records.lookup task.pid).or
          (if s.records.length < maxEntries then some (recorded task) else none))
      else output left (s₂.records.lookup task.tgid) := by
  have same : Unconcerned task.pid s₁ s₂ :=
    run_preserves (fun _ _ _ same other taken => Unconcerned.step same other taken)
      (@along_of_forall_mem _ _ step _ _ _ others) ⟨rfl, rfl⟩ success
  obtain ⟨flying, returner, -⟩ := exit_of_step exited
  obtain ⟨-, -, rfl⟩ := enter_of_step entered
  have group : task.tgid = left.tgid := by
    have known := same.call
    rw [flying] at known
    exact Option.some.inj (known.trans List.lookup_cons_self).symm
  rw [events_exit exited]
  congr 1
  split
  · rfl
  · next succeeds =>
    rw [if_neg succeeds, ← group] at returner
    rw [returner]
    split
    · next leader => rw [← leader, same.entry, ← lookup_enter_self]
    · rfl

/-- Another thread calls in vain while the leader is in its call. A thread that succeeds on its own is not reported. -/
theorem output_of_call_leader :
    (run step {} leaderLabels).map (·.events) = some [{ recorded (thread 100) with comm := "a".toList }] ∧
      (run step {} threadLabels).map (·.events) = some [] := by
  have others : ∀ l ∈ [Label.enter (thread 101), .exit 101 (thread 101) (-2)], ¬ l.concerns (thread 100).pid := by
    simp [Label.concerns, thread]
  exact ⟨congrArg some (output_of_call {} _ _ _ (thread 100) (thread 100) 0 _ rfl others rfl rfl),
    congrArg some (output_of_call {} _ _ _ (thread 101) (thread 100) 0 _ rfl (List.forall_mem_nil _) rfl rfl)⟩

/-! ## The return probe alone -/

/-- A system call returns 0 or the negative of an error number. -/
def Errno : Label → Prop
  | .enter _ => True
  | .exit _ _ ret => ret ≤ 0 ∧ -4095 ≤ ret

instance : DecidablePred Errno
  | .enter _ => .isTrue trivial
  | .exit _ _ ret => inferInstanceAs (Decidable (ret ≤ 0 ∧ -4095 ≤ ret))

/-- A success finds an entry. -/
def Found (s : State) : Label → Prop
  | .enter _ => True
  | .exit _ task ret => ret = 0 → s.records.lookup task.pid ≠ none

/-- The event of an entry names the entry. -/
def Keyed (s : State) : Prop := ∀ entry ∈ s.records, entry.2.pid = entry.1

theorem submitted_exit {tid ret : ℤ} (errno : Errno (.exit tid task ret)) :
    Bcc.submitted (.exit tid task ret) = if ret = 0 then some task.pid else none := by
  have whole : Bcc.toInt ret = ret := by
    obtain ⟨upper, lower⟩ := errno
    exact Int.bmod_eq_of_le (by omega) (by omega)
  rw [Bcc.submitted, Bcc.retSyscallExecve, whole]

theorem Keyed.lookup (keyed : Keyed s) {event : Event} (found : s.records.lookup key = some event) :
    event.pid = key := by
  obtain ⟨before, after, split, -⟩ := List.lookup_eq_some_iff.mp found
  exact keyed (key, event) (by simp [split])

theorem Keyed.step (keyed : Keyed s) (taken : Execsnoop.step s l = some t) : Keyed t := by
  cases l with
  | enter task =>
    obtain ⟨-, -, rfl⟩ := enter_of_step taken
    rw [Keyed, syscallEnterExecve_eq]
    split
    · exact List.forall_mem_cons.mpr ⟨rfl, keyed⟩
    · exact keyed
  | exit tid task ret =>
    obtain ⟨-, -, rfl⟩ := exit_of_step taken
    rw [Keyed]
    dsimp only
    rw [syscallExitExecve_records]
    exact fun entry member => keyed entry (List.mem_filter.mp member).1

/-- A step reports what the return probe submits, or nothing, if a success finds no entry. -/
theorem pids_step (keyed : Keyed s) (errno : Errno l) (taken : step s l = some t) :
    t.events.map (·.pid) = s.events.map (·.pid) ++ (Bcc.submitted l).toList ∧ Found s l ∨
      t.events = s.events ∧ (Bcc.submitted l).isSome ∧ ¬ Found s l := by
  cases l with
  | enter task =>
    obtain ⟨-, -, rfl⟩ := enter_of_step taken
    exact .inl ⟨by simp [Bcc.submitted], trivial⟩
  | exit tid task ret =>
    rw [events_exit taken, submitted_exit errno]
    by_cases failed : ret < 0
    · have unsubmitted : ret ≠ 0 := by omega
      rw [if_pos failed, if_neg unsubmitted]
      exact .inl ⟨by simp, fun success => absurd success unsubmitted⟩
    · have success : ret = 0 := Int.le_antisymm errno.1 (Int.not_lt.mp failed)
      rw [if_neg failed, if_pos success]
      cases found : s.records.lookup task.pid with
      | none => exact .inr ⟨by simp, rfl, fun finds => finds success found⟩
      | some event =>
        refine .inl ⟨by simp [keyed.lookup found], fun _ => ?_⟩
        rw [found]
        exact Option.some_ne_none event

/-- A leader finds the entry that it left. -/
theorem found_of_leader (aligned : Aligned s) (leader : LeaderSucceeds l) (taken : step s l = some t) : Found s l := by
  cases l with
  | enter task => trivial
  | exit tid task ret =>
    obtain ⟨flying, caller, -⟩ := exit_of_step taken
    intro success absent
    rw [pid_eq_of_leader caller leader] at absent
    rcases lookup_of_forall₂ aligned tid with ⟨-, gone⟩ | ⟨event, tgid, present, -⟩
    · rw [flying] at gone
      contradiction
    · rw [absent] at present
      contradiction

theorem along_found_of_leaders {labels : List Label} (leaders : ∀ l ∈ labels, LeaderSucceeds l) (aligned : Aligned s)
    (success : run step s labels = some t) : Along step Found s labels := by
  induction labels generalizing s with
  | nil => trivial
  | cons l rest ih =>
    obtain ⟨mid, taken, tail⟩ := run_cons_iff.mp success
    have leader := leaders l List.mem_cons_self
    exact (along_cons_of_step taken).mpr ⟨found_of_leader aligned leader taken,
      ih (fun e member => leaders e (List.mem_cons_of_mem l member)) (aligned_step aligned leader taken) tail⟩

/-- What a run adds to the processes reported. -/
theorem pids_run {labels : List Label} (keyed : Keyed s) (errno : ∀ l ∈ labels, Errno l)
    (success : run step s labels = some t) :
    ∃ out, t.events.map (·.pid) = s.events.map (·.pid) ++ out ∧ out.Sublist (labels.filterMap Bcc.submitted) ∧
      (out = labels.filterMap Bcc.submitted ↔ Along step Found s labels) := by
  induction labels generalizing s with
  | nil =>
    cases success
    exact ⟨[], by simp, .slnil, iff_of_true rfl trivial⟩
  | cons l rest ih =>
    obtain ⟨mid, taken, tail⟩ := run_cons_iff.mp success
    obtain ⟨out, events, sublist, all⟩ :=
      ih (keyed.step taken) (fun e member => errno e (List.mem_cons_of_mem l member)) tail
    have first : (l :: rest).filterMap Bcc.submitted = (Bcc.submitted l).toList ++ rest.filterMap Bcc.submitted := by
      cases submits : Bcc.submitted l <;> simp [submits]
    rw [along_cons_of_step taken, first]
    rcases pids_step keyed (errno l List.mem_cons_self) taken with ⟨reported, found⟩ | ⟨same, submits, lost⟩
    · refine ⟨(Bcc.submitted l).toList ++ out, ?_, sublist.append_left _, ?_⟩
      · rw [events, reported, List.append_assoc]
      · rw [List.append_cancel_left_eq, all, and_iff_right found]
    · obtain ⟨pid, known⟩ := Option.isSome_iff_exists.mp submits
      refine ⟨out, by rw [events, same], sublist.trans (List.sublist_append_right ..), ?_⟩
      refine iff_of_false (fun equal => ?_) fun both => lost both.1
      -- one that is missing cannot be made up for
      have fewer := sublist.length_le
      rw [equal, known, List.length_append, Option.toList_some, List.length_singleton] at fewer
      omega

/-- In every run the processes that the two probes report are among those that the return probe of the bcc variant
submits, in the same order. They are all of them exactly if every success finds an entry, and so in particular
if every success is that of a leader. -/
theorem bcc_agrees_iff (labels : List Label) (t : State) (errno : ∀ l ∈ labels, Errno l)
    (success : run step {} labels = some t) :
    (t.events.map (·.pid)).Sublist (labels.filterMap Bcc.submitted) ∧
      (t.events.map (·.pid) = labels.filterMap Bcc.submitted ↔ Along step Found {} labels) ∧
      ((∀ l ∈ labels, LeaderSucceeds l) → t.events.map (·.pid) = labels.filterMap Bcc.submitted) := by
  have keyed : Keyed {} := List.forall_mem_nil _
  obtain ⟨out, events, sublist, all⟩ := pids_run keyed errno success
  have same : t.events.map (·.pid) = out := events
  rw [same]
  exact ⟨sublist, all, fun leaders => all.mpr (along_found_of_leaders leaders .nil success)⟩

/-- The leader of `leaderLabels` is reported by both. -/
theorem bcc_agrees_iff_leader :
    (run step {} leaderLabels).map (fun t => t.events.map (·.pid)) = some (leaderLabels.filterMap Bcc.submitted) := by
  obtain ⟨t, success⟩ : ∃ t, run step {} leaderLabels = some t := ⟨_, rfl⟩
  have agree := (bcc_agrees_iff leaderLabels t (by decide) success).2.2 (by decide)
  rw [success, Option.map_some, agree]

/-! ## A map full of entries that were left -/

/-- A call comes back as that thread. -/
def Label.returns (key : ℤ) : Label → Prop
  | .enter _ => False
  | .exit _ task _ => task.pid = key

/-- The map took in a call of the thread, which succeeded, and no call has come back as the thread since. So the thread
did not lead its group. -/
def LeftBehind (labels : List Label) (tid : ℤ) : Prop :=
  ∃ before task after s, labels = before ++ .enter task :: after ∧ task.pid = tid ∧ run step {} before = some s ∧
    (s.records.lookup tid ≠ none ∨ s.records.length < maxEntries) ∧
    (∃ left ret, .exit tid left ret ∈ after ∧ 0 ≤ ret) ∧ ∀ l ∈ after, ¬ l.returns tid

/-- The ids that have an entry. -/
def keys (s : State) : List ℤ := s.records.map Prod.fst

theorem lookup_eq_none_iff : s.records.lookup key = none ↔ key ∉ keys s := by
  rw [List.lookup_eq_none_iff, keys, List.mem_map]
  constructor
  · rintro absent ⟨entry, member, rfl⟩
    exact bne_iff_ne.mp (absent entry member) rfl
  · exact fun absent entry member => bne_iff_ne.mpr fun same => absent ⟨entry, member, same.symm⟩

theorem mem_keys_enter (taken : s.records.lookup task.pid ≠ none ∨ s.records.length < maxEntries)
    (entered : step s (.enter task) = some t) : task.pid ∈ keys t := by
  obtain ⟨-, -, rfl⟩ := enter_of_step entered
  by_contra absent
  have gone := lookup_eq_none_iff.mpr absent
  dsimp only at gone
  rw [lookup_enter_self, Option.or_eq_none_iff, ite_eq_right_iff] at gone
  rcases taken with present | room
  · exact present gone.1
  · exact Option.some_ne_none _ (gone.2 room)

/-- Only a call that comes back as the thread removes its entry. -/
theorem mem_keys_step (present : key ∈ keys s) (stays : ¬ l.returns key) (taken : step s l = some t) :
    key ∈ keys t := by
  cases l with
  | enter task =>
    obtain ⟨-, -, rfl⟩ := enter_of_step taken
    rw [keys, syscallEnterExecve_eq]
    split
    · exact List.mem_cons_of_mem _ present
    · exact present
  | exit tid task ret =>
    obtain ⟨-, -, rfl⟩ := exit_of_step taken
    rw [keys]
    dsimp only
    rw [syscallExitExecve_records]
    obtain ⟨entry, member, rfl⟩ := List.mem_map.mp present
    have other : entry.1 ≠ task.pid := Ne.symm stays
    exact List.mem_map_of_mem (List.mem_filter.mpr ⟨member, by simpa using other⟩)

theorem mem_keys_of_leftBehind {labels : List Label} (left : LeftBehind labels key)
    (reached : run step {} labels = some s) : key ∈ keys s := by
  obtain ⟨before, task, after, mid, rfl, rfl, first, recorded, -, stays⟩ := left
  rw [run_append, first, Option.bind_some] at reached
  obtain ⟨next, entered, rest⟩ := run_cons_iff.mp reached
  have kept (u : State) (l : Label) (v : State) (present : task.pid ∈ keys u) (stays : ¬ l.returns task.pid)
      (taken : step u l = some v) : task.pid ∈ keys v := mem_keys_step present stays taken
  exact @run_preserves _ _ _ _ _ _ _ (fun u => task.pid ∈ keys u) kept (along_of_forall_mem stays)
    (mem_keys_enter recorded entered) rest

theorem length_records_step (fits : s.records.length ≤ maxEntries) (taken : step s l = some t) :
    t.records.length ≤ maxEntries := by
  cases l with
  | enter task =>
    obtain ⟨-, -, rfl⟩ := enter_of_step taken
    dsimp only
    rw [syscallEnterExecve_eq]
    split
    · next fresh => exact fresh.2
    · exact fits
  | exit tid task ret =>
    obtain ⟨-, -, rfl⟩ := exit_of_step taken
    dsimp only
    rw [syscallExitExecve_records]
    exact (List.length_filter_le ..).trans fits

/-- As many entries as there is room for are all that the map has. -/
theorem keys_perm {labels : List Label} {tids : List ℤ} (distinct : tids.Nodup) (many : tids.length = maxEntries)
    (left : ∀ tid ∈ tids, LeftBehind labels tid) (reached : run step {} labels = some s) : tids.Perm (keys s) := by
  have kept (u : State) (l : Label) (v : State) (fits : u.records.length ≤ maxEntries) (taken : step u l = some v) :
      v.records.length ≤ maxEntries := length_records_step fits taken
  have fits : s.records.length ≤ maxEntries :=
    @run_invariant _ _ _ _ _ _ (fun u => u.records.length ≤ maxEntries) kept (Nat.zero_le maxEntries) reached
  have among : tids ⊆ keys s := fun tid member => mem_keys_of_leftBehind (left tid member) reached
  exact (distinct.subperm among).perm_of_length_le (by rw [keys, List.length_map, many]; exact fits)

/-- A full map stays as it is while no call comes back as a thread with an entry. -/
structure Deaf (before s : State) : Prop where
  records : s.records = before.records
  events : s.events = before.events

theorem Deaf.step {before : State} (deaf : Deaf before s) (full : maxEntries ≤ before.records.length)
    (stays : ∀ key ∈ keys before, ¬ l.returns key) (taken : Execsnoop.step s l = some t) : Deaf before t := by
  cases l with
  | enter task =>
    obtain ⟨-, -, rfl⟩ := enter_of_step taken
    refine ⟨?_, deaf.events⟩
    dsimp only
    rw [syscallEnterExecve_eq, deaf.records, if_neg fun fresh => Nat.not_lt.mpr full fresh.2]
  | exit tid task ret =>
    have absent : s.records.lookup task.pid = none := by
      rw [deaf.records]
      exact lookup_eq_none_iff.mpr fun member => stays _ member rfl
    refine ⟨?_, ?_⟩
    · obtain ⟨-, -, rfl⟩ := exit_of_step taken
      dsimp only
      rw [syscallExitExecve_records, delete_of_lookup_none absent, deaf.records]
    · rw [events_exit taken, absent]
      simp [deaf.events]

/-- Once the map has been filled by calls of threads that succeeded and did not lead their groups, in whatever run, no
exec is reported any more while no call comes back as one of these threads. -/
theorem leak_blinds (labels later : List Label) (s t : State) (tids : List ℤ) (reached : run step {} labels = some s)
    (distinct : tids.Nodup) (many : tids.length = maxEntries) (left : ∀ tid ∈ tids, LeftBehind labels tid)
    (stays : ∀ l ∈ later, ∀ tid ∈ tids, ¬ l.returns tid) (continued : run step s later = some t) :
    t.events = s.events := by
  have all := keys_perm distinct many left reached
  have full : maxEntries ≤ s.records.length := by
    rw [← many, all.length_eq, keys, List.length_map]
  have still : ∀ l ∈ later, ∀ key ∈ keys s, ¬ l.returns key :=
    fun l member key present => stays l member key (all.mem_iff.mpr present)
  have deaf : Deaf s t := run_preserves (fun _ _ _ deaf still taken => Deaf.step deaf full still taken)
    (@along_of_forall_mem _ _ step _ _ _ still) ⟨rfl, rfl⟩ continued
  exact deaf.events

/-! ### Such a run -/

/-- Each thread executes a program in turn, and becomes the leader of the same process. -/
def leakLabels (group : ℤ) (tids : List ℤ) : List Label :=
  tids.flatMap fun tid => [.enter { thread tid with tgid := group }, .exit tid { thread group with tgid := group } 0]

/-- With the entry of a thread that has become the leader of the group. -/
def leaked (group : ℤ) (s : State) (tid : ℤ) : State :=
  { s with records := (tid, recorded { thread tid with tgid := group }) :: s.records }

/-- A success of another thread than the leader leaves the entry of that thread and outputs nothing. -/
theorem run_leak {group tid : ℤ} (fresh : tid ∉ keys s) (other : tid ≠ group) (unknown : group ∉ keys s)
    (idle : s.inFlight = []) (room : s.records.length < maxEntries) :
    run step s (leakLabels group [tid]) = some (leaked group s tid) := by
  have enters : step s (.enter { thread tid with tgid := group }) =
      some { leaked group s tid with inFlight := [(tid, group)] } := by
    rw [step, if_pos (by simp [idle, maxEntries]), syscallEnterExecve_eq,
      if_pos ⟨lookup_eq_none_iff.mpr fresh, room⟩, idle]
    rfl
  have absent : (leaked group s tid).records.lookup group = none := by
    rw [leaked, List.lookup_cons, beq_eq_false_iff_ne.mpr other.symm]
    exact lookup_eq_none_iff.mpr unknown
  have leaves : syscallExitExecve { thread group with tgid := group } 0 (leaked group s tid).records =
      ((leaked group s tid).records, none) := by
    rw [syscallExitExecve, show ({ thread group with tgid := group } : Task).pid = group from rfl, absent]
  have exits : step { leaked group s tid with inFlight := [(tid, group)] }
      (.exit tid { thread group with tgid := group } 0) = some (leaked group s tid) := by
    simp only [step, List.lookup_cons_self, leaves]
    simp [thread, leaked, idle]
  rw [leakLabels, List.flatMap_singleton, run, enters, Option.bind_some, run, exits]
  rfl

theorem leakLabels_append (group : ℤ) (first second : List ℤ) :
    leakLabels group (first ++ second) = leakLabels group first ++ leakLabels group second :=
  List.flatMap_append

/-- They leave all their entries. -/
theorem run_leakLabels {group : ℤ} {tids : List ℤ} (distinct : tids.Nodup) (other : group ∉ tids)
    (room : tids.length ≤ maxEntries) :
    ∃ t, run step {} (leakLabels group tids) = some t ∧ t.events = [] ∧ t.inFlight = [] ∧ keys t = tids.reverse := by
  induction tids using List.reverseRecOn with
  | nil => exact ⟨{}, rfl, rfl, rfl, rfl⟩
  | append_singleton rest tid ih =>
    rw [List.nodup_append] at distinct
    rw [List.mem_append, List.mem_singleton, not_or] at other
    rw [List.length_append, List.length_singleton] at room
    obtain ⟨t, success, events, idle, left⟩ := ih distinct.1 other.1 (by omega)
    have fresh : tid ∉ keys t := by
      rw [left, List.mem_reverse]
      exact fun member => distinct.2.2 tid member tid List.mem_cons_self rfl
    have unknown : group ∉ keys t := by
      rw [left, List.mem_reverse]
      exact other.1
    have size : t.records.length < maxEntries := by
      have length := congrArg List.length left
      rw [keys, List.length_map, List.length_reverse] at length
      omega
    have next := run_leak fresh (Ne.symm other.2) unknown idle size
    refine ⟨leaked group t tid, ?_, events, idle, ?_⟩
    · rw [leakLabels_append, run_append, success, Option.bind_some, next]
    · rw [List.reverse_append, List.reverse_singleton, List.singleton_append, ← left]
      rfl

theorem returns_leakLabels {group : ℤ} {tids : List ℤ} (called : l ∈ leakLabels group tids) (returns : l.returns key) :
    key = group := by
  obtain ⟨tid, -, member⟩ := List.mem_flatMap.mp called
  rcases List.mem_cons.mp member with rfl | last
  · exact returns.elim
  · obtain rfl := List.mem_singleton.mp last
    exact returns.symm

theorem leftBehind_leakLabels {group : ℤ} {tids : List ℤ} (distinct : tids.Nodup) (other : group ∉ tids)
    (room : tids.length ≤ maxEntries) : ∀ tid ∈ tids, LeftBehind (leakLabels group tids) tid := by
  intro tid member
  obtain ⟨before, after, rfl⟩ := List.append_of_mem member
  rw [List.length_append, List.length_cons] at room
  obtain ⟨mid, success, -, -, left⟩ := run_leakLabels (distinct.sublist (List.sublist_append_left ..))
    (fun early => other (List.mem_append_left _ early)) (by omega)
  have length := congrArg List.length left
  rw [keys, List.length_map, List.length_reverse] at length
  refine ⟨leakLabels group before, { thread tid with tgid := group },
    .exit tid { thread group with tgid := group } 0 :: leakLabels group after, mid, ?_, rfl, success, .inr (by omega),
    ⟨_, 0, List.mem_cons_self, Int.le_refl 0⟩, fun l called returns => other ?_⟩
  · rw [leakLabels_append]
    rfl
  · have same : tid = group := by
      rcases List.mem_cons.mp called with rfl | later
      · exact returns.symm
      · exact returns_leakLabels later returns
    rwa [← same]

/-- As many threads as the map has entries. -/
def manyTids : List ℤ := (List.range maxEntries).map fun n : ℕ => (n : ℤ) + 101

/-- Then the leader is not reported either. -/
theorem leak_blinds_leader :
    ∃ s, run step {} (leakLabels 100 manyTids) = some s ∧
      ∀ t, run step s [.enter (thread 100), .exit 100 (thread 100) 0] = some t → t.events = s.events := by
  have distinct : manyTids.Nodup := by
    refine List.Nodup.map (fun m n same => ?_) List.nodup_range
    have same : (m : ℤ) + 101 = n + 101 := same
    omega
  have larger : ∀ tid ∈ manyTids, (100 : ℤ) < tid := by
    intro tid member
    obtain ⟨n, -, rfl⟩ := List.mem_map.mp member
    omega
  have other : (100 : ℤ) ∉ manyTids := fun member => Int.lt_irrefl 100 (larger 100 member)
  have many : manyTids.length = maxEntries := by simp [manyTids]
  obtain ⟨s, reached, -⟩ := run_leakLabels distinct other many.le
  refine ⟨s, reached, fun t => leak_blinds (leakLabels 100 manyTids) _ s t manyTids reached distinct many
    (leftBehind_leakLabels distinct other many.le) fun l called tid member returns => ?_⟩
  rcases List.mem_cons.mp called with rfl | last
  · exact returns
  · obtain rfl := List.mem_singleton.mp last
    have same : 100 = tid := returns
    exact Int.ne_of_lt (larger tid member) same

end CgProxy.Execsnoop

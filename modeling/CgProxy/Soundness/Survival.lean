import CgProxy.Soundness.Answers

/-! # What ends the daemon

The loop goes back to `accept` from every error that a call returns. What it does not survive are the
three places where no call returns an error: the signal of a write without a reader, the overflow of
`msg_len + 1`, and a store at the NULL of a failed `malloc`. Clients can cause the first at will. And it is
at the mercy of the callback, which may end the process or never return.
-/

namespace CgProxy.Socket

open Posix

variable {ι κ S : Type*} {callback : κ → S → List UInt8 → ℤ × S} {s t : State ι S}

/-- After the step the loop goes on: seen from the state before it. -/
def Harmless (s : State ι S) : Label ι κ → Prop
  | .server (.readLength (some n) stale _) => ∀ i, s.server = .readLength i →
      intValue (overwrite stale ((s.links i).up.buffer.take n)) ≠ intMax
  | .server (.readMsg (some n)) => n = 0 → ∀ i msgLen, s.server ≠ .readMsg i msgLen none
  | .server (.writeBack _) => ∀ i status, s.server = .writeBack i status → (s.links i).down.reading = true
  | .server .hang | .server .abort | .kill => False
  | _ => True

@[simp] theorem running_die (s : State ι S) : s.die.server.running = false := rfl

@[simp] theorem running_called (s : State ι S) (call : Call ι) (daemon : S) :
    (s.called call daemon).server.running = true := rfl

theorem listening_of_running (running : s.server.running = true) : s.listening = true := by
  cases server : s.server <;> simp_all [State.listening, Server.running]

variable [DecidableEq ι]

@[simp] theorem running_drop (s : State ι S) (i : ι) : (s.drop i).server.running = true := rfl

/-! ## Steps -/

/-- A step of the server keeps the loop going if it is harmless, and only then. -/
theorem running_iff_of_taken {e : ServerEvent κ} (taken : ServerTaken callback s e t) :
    t.server.running = true ↔ Harmless s (.server e : Label ι κ) := by
  cases taken with
  | again server => simp [Server.running, server, Harmless]
  | accepted => simp [Server.running, Harmless]
  | lengthFailed => simp [Harmless]
  | gotLength i n bytes up stale block server received size small =>
    obtain ⟨-, rfl, -⟩ := Stream.read_eq_some_iff.mp received
    refine iff_of_true rfl fun j at' => ?_
    rw [server] at at'
    cases at'
    exact small
  | overflowed i n bytes up stale block server received size large =>
    obtain ⟨-, rfl, -⟩ := Stream.read_eq_some_iff.mp received
    exact iff_of_false Bool.false_ne_true fun harmless => harmless i server large
  | msgFailed => simp [Harmless]
  | gotMsg i msgLen memory n bytes up server =>
    refine iff_of_true rfl fun _ j len at' => ?_
    rw [server] at at'
    cases at'
  | faulted i msgLen n up server received =>
    obtain ⟨⟨-, available, -⟩, nothing, -⟩ := Stream.read_eq_some_iff.mp received
    have zero : n = 0 := by
      have length := congrArg List.length nothing
      rw [List.length_nil, List.length_take] at length
      omega
    exact iff_of_false Bool.false_ne_true fun harmless => harmless zero i msgLen server
  | called => simp [Harmless]
  | hung | aborted => exact iff_of_false Bool.false_ne_true id
  | piped i status res server closed =>
    refine iff_of_false Bool.false_ne_true fun harmless => ?_
    rw [harmless i status server] at closed
    contradiction
  | backFailed i status server opened | wroteBack i status n down server opened =>
    refine iff_of_true rfl fun j other at' => ?_
    rw [server] at at'
    cases at'
    exact opened

/-- Clients do not stop the loop, and nothing starts it again. -/
theorem running_iff_of_step {l : Label ι κ} (running : s.server.running = true) (taken : s.step callback l = some t) :
    t.server.running = true ↔ Harmless s l := by
  cases l with
  | client i e =>
    obtain ⟨⟨c, l⟩, -, rfl⟩ := Option.map_eq_some_iff.mp taken
    exact iff_of_true running trivial
  | server e => exact running_iff_of_taken (taken_of_serverStep taken)
  | kill =>
    simp only [State.step, listening_of_running running, if_true] at taken
    cases taken
    exact iff_of_false Bool.false_ne_true id

theorem stopped_of_step {l : Label ι κ} (stopped : s.server.running = false) (taken : s.step callback l = some t) :
    t.server.running = false := by
  cases l with
  | client i e =>
    obtain ⟨⟨c, l⟩, -, rfl⟩ := Option.map_eq_some_iff.mp taken
    exact stopped
  | server e =>
    -- neither a dead server nor a stuck one makes a step
    cases taken_of_serverStep taken <;> simp_all [Server.running]
  | kill =>
    simp only [State.step] at taken
    split_ifs at taken
    cases taken
    rfl

/-- Inside the loop, every harmless step of the server brings it nearer to `accept`. -/
theorem remaining_lt_of_harmless {e : ServerEvent κ} (inside : s.server ≠ .accept)
    (taken : ServerTaken callback s e t) (harmless : Harmless s (.server e : Label ι κ)) :
    t.server.remaining < s.server.remaining := by
  have running := (running_iff_of_taken taken).mpr harmless
  cases taken with
  | again server | accepted i rest server => exact absurd server inside
  | overflowed | faulted | hung | aborted | piped => exact absurd running Bool.false_ne_true
  | lengthFailed _ _ _ server | gotLength _ _ _ _ _ _ server | msgFailed _ _ _ server
  | gotMsg _ _ _ _ _ _ server | called _ _ _ server | backFailed _ _ server | wroteBack _ _ _ _ server =>
    simp [server, Server.remaining, State.drop, State.called]

/-- What stops the loop leaves the data of the last call as they are: nothing takes the rules down. -/
theorem daemon_of_not_harmless {l : Label ι κ} (taken : s.step callback l = some t) (harm : ¬ Harmless s l) :
    t.daemon = s.daemon := by
  cases l with
  | client i e => exact absurd trivial harm
  | server e =>
    cases taken_of_serverStep taken with
    | called => exact absurd trivial harm
    | _ => rfl
  | kill =>
    simp only [State.step] at taken
    split_ifs at taken
    cases taken
    rfl

/-! ## The next call -/

/-- The next call has to wait for a client. -/
def State.Waits (s : State ι S) : Prop :=
  match s.server with
  | .accept => s.backlog = []
  | .readLength i => (s.links i).up.buffer = [] ∧ (s.links i).up.writing = true
  | .readMsg i msgLen _ => 0 < msgLen ∧ (s.links i).up.buffer = [] ∧ (s.links i).up.writing = true
  | _ => False

/-- The next call ends the process, whatever it returns: the length that is there is the largest, there is no memory
for a message that has come to its end, or the client has gone. -/
def State.Doomed (s : State ι S) : Prop :=
  match s.server with
  | .readLength i => 4 ≤ (s.links i).up.buffer.length ∧ intValue ((s.links i).up.buffer.take 4) = intMax
  | .readMsg i msgLen none => 0 ≤ msgLen ∧ (msgLen = 0 ∨ (s.links i).up.buffer = [])
  | .writeBack i _ => (s.links i).down.reading = false
  | _ => False

/-- The next call, if it gets all that is there and nothing fails. A message without memory for it, or with a
negative length, cannot be read. -/
def State.next (s : State ι S) (input : κ) : ServerEvent κ :=
  match s.server with
  | .accept => .accept true
  | .readLength i =>
      let bytes := (s.links i).up.buffer.take 4
      let size := intValue (overwrite (List.replicate 4 0) bytes) + 1
      .readLength (some bytes.length) (List.replicate 4 0) (if 0 ≤ size then some (List.replicate size.toNat 0) else none)
  | .readMsg i msgLen (some _) =>
      .readMsg (if msgLen < 0 then none else some (min msgLen.toNat (s.links i).up.buffer.length))
  | .readMsg _ _ none => .readMsg none
  | .writeBack _ status => .writeBack (some (intBytes status).length)
  | _ => .callback input

/-- All of a buffer, as far as it is asked for. -/
theorem read_min {up : Stream UInt8} {count : ℕ} (ready : ¬ (0 < count ∧ up.buffer = [] ∧ up.writing = true)) :
    ∃ up', up.read count (min count up.buffer.length) = some (up.buffer.take count, up') := by
  refine ⟨_, Stream.read_eq_some_iff.mpr ⟨⟨Nat.min_le_left .., Nat.min_le_right .., fun none => ?_⟩, ?_, rfl⟩⟩
  · rcases Nat.eq_zero_or_pos count with zero | some
    · exact .inl zero
    · have empty : up.buffer = [] := List.eq_nil_of_length_eq_zero (by omega)
      exact .inr ⟨empty, by simpa [some, empty] using ready⟩
  · rw [← List.take_eq_take_min]

/-- The largest `int` has four bytes. -/
theorem intValue_short {bytes : List UInt8} (short : bytes.length < 4) :
    intValue (overwrite (List.replicate 4 0) bytes) ≠ intMax := by
  have digits : ofLittleEndian (overwrite (List.replicate 4 0) bytes) = ofLittleEndian bytes := by
    rw [overwrite, ofLittleEndian, ofLittleEndian, List.drop_replicate, List.map_append, List.map_replicate]
    exact Nat.ofDigits_append_replicate_zero _
  have below : ofLittleEndian bytes < 256 ^ 3 := by
    have bound : ofLittleEndian bytes < 256 ^ bytes.length := by
      have fits := Nat.ofDigits_lt_base_pow_length (b := 256) (l := bytes.map UInt8.toNat) (by norm_num) (by
        simp only [List.mem_map, forall_exists_index, and_imp, forall_apply_eq_imp_iff₂]
        exact fun byte _ => byte.toNat_lt)
      rwa [List.length_map] at fits
    exact bound.trans_le (Nat.pow_le_pow_right (by norm_num) (by omega))
  have large : intMax = 2147483647 := by norm_num [intMax]
  rw [intValue_of_lt (by rw [digits]; omega), digits, large]
  omega

/-- Unless it has to wait for a client, the loop can go on. -/
theorem next_of_running (running : s.server.running = true) (ready : ¬ s.Waits) (safe : ¬ s.Doomed) (input : κ) :
    ∃ t, s.step callback (.server (s.next input)) = some t ∧ Harmless s (.server (s.next input) : Label ι κ) := by
  suffices possible : ∃ t, s.serverStep callback (s.next input) = some t ∧ t.server.running = true by
    obtain ⟨t, taken, goesOn⟩ := possible
    exact ⟨t, taken, (running_iff_of_taken (taken_of_serverStep taken)).mp goesOn⟩
  cases server : s.server with
  | accept =>
    simp only [State.Waits, server] at ready
    obtain ⟨i, rest, backlog⟩ := List.exists_cons_of_ne_nil ready
    exact ⟨_, by simp only [State.next, State.serverStep, server, backlog]; rfl, rfl⟩
  | readLength i =>
    simp only [State.Waits, State.Doomed, server] at ready safe
    obtain ⟨up, received⟩ := @read_min (s.links i).up 4 fun waits => ready waits.2
    rw [← List.length_take] at received
    have small : intValue (overwrite (List.replicate 4 0) ((s.links i).up.buffer.take 4)) ≠ intMax := by
      by_cases whole : 4 ≤ (s.links i).up.buffer.length
      · rw [overwrite_of_length_eq (by simpa using whole)]
        exact fun large => safe ⟨whole, large⟩
      · exact intValue_short (by rw [List.length_take]; omega)
    have granted (size : ℤ) : mallocOk size (if 0 ≤ size + 1 then some (List.replicate (size + 1).toNat 0) else none) = true := by
      split
      · simp only [mallocOk, List.length_replicate, decide_eq_true_eq]
        omega
      · rfl
    simp only [State.next, State.serverStep, server, received]
    rw [if_neg (by simp), if_neg small, if_pos (granted _)]
    exact ⟨_, rfl, rfl⟩
  | readMsg i msgLen msg =>
    simp only [State.Waits, State.Doomed, server] at ready safe
    by_cases negative : msgLen < 0
    · refine ⟨s.drop i, ?_, rfl⟩
      cases msg <;> simp [State.next, State.serverStep, server, negative]
    · cases msg with
      | none => exact ⟨s.drop i, by simp only [State.next, State.serverStep, server], rfl⟩
      | some memory =>
        obtain ⟨up, received⟩ := @read_min (s.links i).up msgLen.toNat fun waits => ready ⟨by omega, waits.2⟩
        simp only [State.next, State.serverStep, server, if_neg negative, received]
        exact ⟨_, rfl, rfl⟩
  | callback i msg => exact ⟨_, by simp only [State.next, State.serverStep, server]; rfl, rfl⟩
  | writeBack i status =>
    have opened : (s.links i).down.reading = true := by simpa [State.Doomed, server] using safe
    have written := Stream.write_full (s.links i).down (intBytes status) opened
    simp only [State.next, State.serverStep, server, opened, written]
    exact ⟨_, rfl, rfl⟩
  | stuck | dead => exact absurd running (by simp [server, Server.running])

/-- The loop goes on after exactly the runs whose steps are all harmless. While it does, each harmless step of the
server inside it brings it nearer to `accept`, and unless it has to wait for a client or the next call ends the process,
that call can be made and is harmless. -/
theorem survives_iff (callback : κ → S → List UInt8 → ℤ × S) (msgs : ι → List UInt8) (commands : ι → Bool)
    (daemon : S) (labels : List (Label ι κ)) (s : State ι S)
    (success : LabeledRun.run (State.step callback) (State.initial msgs commands daemon) labels = some s) :
    (s.server.running = true ↔
        LabeledRun.Along (State.step callback) Harmless (State.initial msgs commands daemon) labels) ∧
      (∀ e t, s.server ≠ .accept → s.step callback (.server e) = some t → Harmless s (.server e : Label ι κ) →
        t.server.running = true ∧ t.server.remaining < s.server.remaining) ∧
      (s.server.running = true → ¬ s.Waits → ¬ s.Doomed → ∀ input, ∃ t,
        s.step callback (.server (s.next input)) = some t ∧ Harmless s (.server (s.next input) : Label ι κ)) := by
  refine ⟨?_, fun e t inside taken harmless => ?_, fun running ready safe => next_of_running running ready safe⟩
  · have goesOn (s : State ι S) : ¬ s.server.running = false ↔ s.server.running = true := by simp
    rw [← goesOn]
    refine LabeledRun.along_iff_not_failed ?_ (fun _ _ _ => stopped_of_step) Bool.false_ne_true.symm success
    intro s l t before taken
    rw [goesOn] at before ⊢
    exact running_iff_of_step before taken
  · have taken : ServerTaken callback s e t := taken_of_serverStep taken
    exact ⟨(running_iff_of_taken taken).mpr harmless, remaining_lt_of_harmless inside taken harmless⟩

/-! ## A client that does not wait -/

/-- The wrapper of `commandState`, which is left running. -/
theorem survives_iff_command :
    LabeledRun.Along (State.step handleMsg) Harmless commandInitial commandLabels :=
  (survives_iff handleMsg _ _ _ _ (commandState.get isSome_commandState)
    (Option.some_get isSome_commandState).symm).1.mp (by decide +kernel)

/-- The same wrapper, interrupted while its message is being handled. -/
def interruptedLabels : List (Label (Fin 1) Surroundings) :=
  commandLabels.take 7 ++ [.client soleClient .quit, .server (.writeBack none)]

/-- The daemon is gone, and the rules are not. -/
theorem survives_interrupted :
    (∀ l ∈ interruptedLabels, l ≠ .kill) ∧
      (LabeledRun.run (State.step handleMsg) commandInitial interruptedLabels).map (fun s =>
        (s.listening, decide (.tproxyEnt ∈ (s.daemon.kernel.tables .ipv4).mangle.chains))) = some (false, true) := by
  constructor
  · simp [interruptedLabels, commandLabels, servedLabels]
  · decide +kernel

end CgProxy.Socket

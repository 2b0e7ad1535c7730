import CgProxy.Soundness.Survival

/-! # What the server does with a length

The length that a client sends is an `int` like any other to the server: it is incremented, allocated,
read and stored at. A negative one is stopped by the `read` that it is the count of. The others do no
harm as long as the increment does not overflow and the one `read` brings as many bytes as announced;
nothing in the loop looks at either.
-/

namespace CgProxy.Socket

open Posix

section Lengths

variable {ι κ S : Type*} [DecidableEq ι] {callback : κ → S → List UInt8 → ℤ × S} {s t : State ι S}

/-- The callback is going to get all of a message, and the store of its terminator was in bounds. -/
structure Passed (s : State ι S) (i : ι) (msgLen : ℤ) (block : Option (List UInt8)) (t : State ι S) : Prop where
  nonneg : 0 ≤ msgLen
  small : msgLen + 1 ≤ intMax
  stored : ∃ memory, block = some memory ∧ (memory.length : ℤ) = msgLen + 1 ∧ msgLen < memory.length
  received : ∃ bytes, (bytes.length : ℤ) = msgLen ∧
    bytes ++ (t.links i).up.buffer = (s.links i).up.buffer ∧ t.server = .callback i (cString (bytes ++ [0]))

/-- A step that reads a length or a message goes on with a connection for which all is well, or drops it. -/
def Guarded (callback : κ → S → List UInt8 → ℤ × S) (s : State ι S) (l : Label ι κ) : Prop :=
  ∀ e t, l = .server e → s.serverStep callback e = some t →
    (∀ i, s.server = .readLength i → t = s.drop i ∨ ∃ msgLen block, t.server = .readMsg i msgLen block) ∧
      ∀ i msgLen block, s.server = .readMsg i msgLen block → t = s.drop i ∨ Passed s i msgLen block t

/-- What the step reads is a length that can be incremented, or the whole message into memory. -/
def Whole (s : State ι S) : Label ι κ → Prop
  | .server (.readLength (some n) stale _) => ∀ i, s.server = .readLength i →
      intValue (overwrite stale ((s.links i).up.buffer.take n)) ≠ intMax
  | .server (.readMsg (some n)) => ∀ i msgLen block, s.server = .readMsg i msgLen block →
      (n : ℤ) = msgLen ∧ block ≠ none
  | _ => True

/-- The block is as large as it was asked for, and the length is not the largest. -/
def Allocated (s : State ι S) : Prop :=
  ∀ i msgLen block, s.server = .readMsg i msgLen block → msgLen + 1 ≤ intMax ∧ mallocOk msgLen block = true

theorem intValue_le (memory : List UInt8) : intValue memory ≤ intMax := by
  have bound : intValue memory < (2 ^ 32 + 1) / 2 := Int.bmod_lt (by norm_num)
  have half : ((2 ^ 32 + 1) / 2 : ℤ) = intMax + 1 := by norm_num [intMax]
  rw [half] at bound
  exact Int.lt_add_one_iff.mp bound

theorem Allocated.step {l : Label ι κ} (allocated : Allocated s) (taken : s.step callback l = some t) :
    Allocated t := by
  cases l with
  | client i e =>
    obtain ⟨⟨c, l⟩, -, rfl⟩ := Option.map_eq_some_iff.mp taken
    exact allocated
  | server e =>
    have taken : ServerTaken callback s e t := taken_of_serverStep taken
    cases taken with
    | again => exact allocated
    | gotLength i n bytes up stale block server received size small granted =>
      intro j msgLen other here
      cases here
      have below : intValue (overwrite stale bytes) < intMax := lt_of_le_of_ne (intValue_le _) small
      exact ⟨Int.add_one_le_iff.mpr below, granted⟩
    | _ =>
      intro j msgLen other here
      cases here
  | kill =>
    simp only [State.step] at taken
    split_ifs at taken
    cases taken
    intro j msgLen other here
    contradiction

/-- The message that `read` brought and the terminator after it. -/
theorem passed_iff {i : ι} {msgLen : ℤ} {memory bytes : List UInt8} {n : ℕ} {up : Stream UInt8}
    (allocated : msgLen + 1 ≤ intMax ∧ mallocOk msgLen (some memory) = true) (count : 0 ≤ msgLen)
    (received : (s.links i).up.read msgLen.toNat n = some (bytes, up)) :
    Passed s i msgLen (some memory)
        { s with
          links := Function.update s.links i { s.links i with up }
          server := .callback i (cString ((overwrite memory bytes).set msgLen.toNat 0)) } ↔
      (n : ℤ) = msgLen := by
  obtain ⟨⟨-, available, -⟩, taken, -⟩ := Stream.read_eq_some_iff.mp received
  have length : bytes.length = n := by
    rw [taken, List.length_take]
    omega
  constructor
  · intro passed
    obtain ⟨own, size, same, -⟩ := passed.received
    simp only [Function.update_self] at same
    have both := congrArg List.length (same.trans (Stream.append_of_read received).symm)
    rw [List.length_append, List.length_append] at both
    omega
  · intro whole
    obtain ⟨-, size⟩ : 0 ≤ msgLen + 1 ∧ (memory.length : ℤ) = msgLen + 1 := by simpa [mallocOk] using allocated.2
    refine ⟨count, allocated.1, ⟨memory, rfl, size, by omega⟩, bytes, by omega, ?_, ?_⟩
    · simp only [Function.update_self]
      exact Stream.append_of_read received
    · have index : msgLen.toNat = bytes.length := by omega
      rw [index, overwrite_concat (by omega)]

/-- A step is right about its length if what it reads is whole, and only then. -/
theorem guarded_iff_of_step {l : Label ι κ} (allocated : Allocated s) (taken : s.step callback l = some t) :
    Guarded callback s l ↔ Whole s l := by
  cases l with
  | client i e => exact iff_of_true (fun _ _ same => by contradiction) trivial
  | kill => exact iff_of_true (fun _ _ same => by contradiction) trivial
  | server e =>
    have only : Guarded callback s (.server e) ↔
        (∀ i, s.server = .readLength i → t = s.drop i ∨ ∃ msgLen block, t.server = .readMsg i msgLen block) ∧
          ∀ i msgLen block, s.server = .readMsg i msgLen block → t = s.drop i ∨ Passed s i msgLen block t := by
      constructor
      · exact fun guarded => guarded e t rfl taken
      · rintro right e' t' same taken'
        cases same
        obtain rfl : t = t' := Option.some.inj (taken.symm.trans taken')
        exact right
    rw [only]
    have taken : ServerTaken callback s e t := taken_of_serverStep taken
    cases taken with
    | again server => simp [server, Whole]
    | accepted i rest server => simp [server, Whole]
    | lengthFailed i stale block server => simp [server, Whole]
    | gotLength i n bytes up stale block server received size small =>
      obtain ⟨-, rfl, -⟩ := Stream.read_eq_some_iff.mp received
      simp [server, Whole, small]
    | overflowed i n bytes up stale block server received size large =>
      obtain ⟨-, rfl, -⟩ := Stream.read_eq_some_iff.mp received
      simp [server, Whole, large, State.drop, State.die]
    | msgFailed i msgLen msg server => simp [server, Whole]
    | gotMsg i msgLen memory n bytes up server count received =>
      have passed := passed_iff (allocated i msgLen (some memory) server) count received
      simp [server, Whole, passed, State.drop]
    | faulted i msgLen n up server received =>
      have unstored : ¬ Passed s i msgLen none s.die := by
        rintro ⟨-, -, ⟨memory, same, -⟩, -⟩
        cases same
      have undropped : s.die ≠ s.drop i := by simp [State.drop, State.die]
      simp [server, Whole, unstored, undropped]
    | called i msg input server => simp [server, Whole]
    | hung i msg server => simp [server, Whole]
    | aborted i msg server => simp [server, Whole]
    | piped i status res server closed => simp [server, Whole]
    | backFailed i status server => simp [server, Whole]
    | wroteBack i status n down server => simp [server, Whole]

/-- In every run, whatever the clients send: the server is right about all lengths exactly when each of
its reads that is not an error brings a length that can be incremented, or the whole message into
memory. -/
theorem guarded_iff (callback : κ → S → List UInt8 → ℤ × S) (msgs : ι → List UInt8) (commands : ι → Bool)
    (daemon : S) (labels : List (Label ι κ)) (s : State ι S)
    (success : LabeledRun.run (State.step callback) (State.initial msgs commands daemon) labels = some s) :
    LabeledRun.Along (State.step callback) (Guarded callback) (State.initial msgs commands daemon) labels ↔
      LabeledRun.Along (State.step callback) Whole (State.initial msgs commands daemon) labels := by
  have initial : Allocated (State.initial msgs commands daemon) := fun _ _ _ here => by cases here
  exact LabeledRun.along_congr (fun _ _ _ => Allocated.step) (fun _ _ _ => guarded_iff_of_step) initial success

end Lengths

theorem guarded_iff_command :
    LabeledRun.Along (State.step handleMsg) (Guarded handleMsg) commandInitial commandLabels ↔
      LabeledRun.Along (State.step handleMsg) Whole commandInitial commandLabels :=
  guarded_iff handleMsg _ _ _ _ (commandState.get isSome_commandState) (Option.some_get isSome_commandState).symm

/-- A client that announces five bytes and closes, served from a block with something else in it. -/
def announcedLabels : List (Label (Fin 1) Surroundings) :=
  let client := Fin.last 0
  [.client client .connectRaw, .server (.accept true), .client client (.sendRaw [5, 0, 0, 0]), .client client .quit,
    .server (.readLength (some 4) [0, 0, 0, 0] (some [115, 116, 97, 108, 101, 33]))]

theorem guarded_announced :
    (∃ s, LabeledRun.run (State.step handleMsg) commandInitial
        (announcedLabels ++ [.server (.readMsg (some 0))]) = some s ∧
          s.server = .callback 0 [115, 116, 97, 108, 101]) ∧
      ¬ LabeledRun.Along (State.step handleMsg) (Guarded handleMsg) commandInitial
        (announcedLabels ++ [.server (.readMsg (some 0))]) := by
  have before : (LabeledRun.run (State.step handleMsg) commandInitial announcedLabels).map (fun s =>
      (s.server, (s.links 0).up.buffer, ((s.serverStep handleMsg (.readMsg (some 0))).map fun t => t.server))) =
        some (.readMsg 0 5 (some [115, 116, 97, 108, 101, 33]), [], some (.callback 0 [115, 116, 97, 108, 101])) := by
    decide +kernel
  obtain ⟨mid, run, seen⟩ := Option.map_eq_some_iff.mp before
  simp only [Prod.mk.injEq] at seen
  obtain ⟨reading, empty, next⟩ := seen
  obtain ⟨t, taken, calling⟩ := Option.map_eq_some_iff.mp next
  constructor
  · refine ⟨t, ?_, calling⟩
    rw [LabeledRun.run_append, run, Option.bind_some, LabeledRun.run_cons_iff]
    exact ⟨t, taken, rfl⟩
  · intro along
    have last := ((LabeledRun.along_append_of_run run).mp along).2.1
    rcases (last _ t rfl taken).2 0 5 _ reading with dropped | passed
    · rw [dropped] at calling
      cases calling
    · obtain ⟨bytes, length, same, -⟩ := passed.received
      rw [empty, List.append_eq_nil_iff] at same
      simp [same.1] at length

end CgProxy.Socket

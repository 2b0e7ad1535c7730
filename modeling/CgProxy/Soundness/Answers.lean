import CgProxy.Soundness.Connections
import CgProxy.Soundness.Priority

/-! # Whose answer a client reads

A client leaves `SOCKET::send` with the status 0 only if its own call returned 0. The reply is a
prefix of the four bytes of that status, stored over the bytes of UNKNOWN_ERROR; none of the codes
that `handle_msg` returns can be cut so that 0 remains, except 0 itself.
-/

namespace CgProxy.Socket

open Posix

/-! ## The codes -/

/-- What `handle_msg` can return. -/
def handleMsgCodes : List ℤ :=
  [Status.success, Status.error, Status.msgError, Status.paramError, Status.fileError]

theorem mem_codes_of_loadFromJsonStr {host : Host} {c : Config} {js : Str} {status : ℤ}
    (loaded : (Config.loadFromJsonStr host c js).1 = .ok status) : status ∈ handleMsgCodes := by
  rw [Config.loadFromJsonStr] at loaded
  split at loaded
  · contradiction
  · cases loaded
    decide
  · split at loaded
    · contradiction
    · cases loaded
      decide

theorem mem_codes_of_loadFromFile {host : Host} {c : Config} {file : Str} {status : ℤ}
    (loaded : (Config.loadFromFile host c file).1 = .ok status) : status ∈ handleMsgCodes := by
  rw [Config.loadFromFile] at loaded
  split at loaded
  · exact mem_codes_of_loadFromJsonStr loaded
  · cases loaded
    decide

theorem mem_codes_of_attach (w : World) (pid : ℤ) (target : Str) : (w.attach pid target).1 ∈ handleMsgCodes := by
  rw [World.attach]
  dsimp only
  split <;> decide

theorem mem_codes_of_configLoaded {d : Daemon} {loaded : Except Exn ℤ × Config} {status : ℤ}
    (codes : ∀ status, loaded.1 = .ok status → status ∈ handleMsgCodes)
    (done : (d.configLoaded loaded).1 = .ok status) : status ∈ handleMsgCodes := by
  obtain ⟨result, c⟩ := loaded
  cases result with
  | error e => contradiction
  | ok first =>
    cases done
    exact codes _ rfl

theorem mem_codes_of_pidMessage {d : Daemon} {data : Except Exn ℤ} {slice : Str} {status : ℤ}
    (done : (d.pidMessage data slice).1 = .ok status) : status ∈ handleMsgCodes := by
  cases data with
  | error e => contradiction
  | ok pid =>
    cases done
    exact mem_codes_of_attach d.world pid slice

theorem mem_codes_of_dispatch {host : Host} {d : Daemon} {j : Json} {status : ℤ}
    (done : (d.dispatch host j).1 = .ok status) : status ∈ handleMsgCodes := by
  rw [Daemon.dispatch] at done
  split at done
  · contradiction
  · dsimp only at done
    split_ifs at done
    · split at done
      · contradiction
      · exact mem_codes_of_configLoaded (fun _ => mem_codes_of_loadFromJsonStr) done
    · split at done
      · contradiction
      · exact mem_codes_of_configLoaded (fun _ => mem_codes_of_loadFromFile) done
    · exact mem_codes_of_pidMessage done
    · exact mem_codes_of_pidMessage done
    · cases done
      decide

theorem handleMsg_mem_codes (around : Surroundings) (d : Daemon) (msg : List UInt8) :
    (handleMsg around d msg).1 ∈ handleMsgCodes := by
  have msgError : Status.msgError ∈ handleMsgCodes := by decide
  have error : Status.error ∈ handleMsgCodes := by decide
  rw [handleMsg, Daemon.handleMsg]
  split
  · exact msgError
  · split
    · next done => exact mem_codes_of_dispatch (congrArg Prod.fst done)
    · exact msgError
    · exact error

/-- A short reply over the bytes of UNKNOWN_ERROR is not 0, unless the whole reply is. -/
theorem status_eq_zero_of_reply {bytes : List UInt8} {status : ℤ} (code : status ∈ handleMsgCodes)
    (reply : bytes <+: intBytes status) (zero : intValue (overwrite (intBytes Status.unknownError) bytes) = 0) :
    status = 0 := by
  have cut : ∀ status ∈ handleMsgCodes, ∀ n < 5,
      intValue (overwrite (intBytes Status.unknownError) ((intBytes status).take n)) = 0 → status = 0 := by
    decide
  have short : bytes.length < 5 := by
    have bound := reply.length_le
    rw [length_intBytes] at bound
    omega
  refine cut status code bytes.length short ?_
  rwa [← List.prefix_iff_eq_take.mp reply]

/-! ## Replies on their way -/

/-- The client is inside `SOCKET::send`, after `connect`. -/
def Phase.sending (phase : Phase) : Prop := phase ∈ [.writeLength, .writeMsg, .readReply]

/-- Where the reply of one connection is: nowhere before its call and before it is written back, then
in the stream or with the client that read it. -/
structure Kept {ι : Type*} (calls : List (Call ι)) (writing : Prop) (c : Client) (l : Link) : Prop where
  quiet : calls = [] → l.down.buffer = []
  writing : writing → l.down.buffer = []
  reply : c.phase.sending → ∀ call ∈ calls, l.down.buffer <+: intBytes call.status
  unread : c.phase.sending → c.status = intBytes Status.unknownError
  told : c.phase ∈ [.returned, .finished] → intValue c.status = 0 → ∃ call ∈ calls, call.status = 0
  executed : c.executed = true → ∃ call ∈ calls, call.status = 0

section Connection

variable {ι : Type*} {calls : List (Call ι)} {writing : Prop} {listening : Bool} {c c' : Client}
  {l l' : Link} {e : ClientEvent}

/-- What was sent before the end of the connection can still be read, and nothing else has changed. -/
theorem Kept.link (kept : Kept calls writing c l) (same : l'.down.buffer = l.down.buffer) {writing' : Prop}
    (less : writing' → writing) : Kept calls writing' c l' where
  quiet none := by rw [same, kept.quiet none]
  writing now := by rw [same, kept.writing (less now)]
  reply sending := by rw [same]; exact kept.reply sending
  unread := kept.unread
  told := kept.told
  executed := kept.executed

/-- The client goes on with its calls, or stops for good without a status of 0. -/
theorem Kept.leave (kept : Kept calls writing c l) {phase : Phase} {status : List UInt8}
    (same : l'.down.buffer = l.down.buffer) (away : ¬ phase.sending)
    (told : phase ∈ [.returned, .finished] → intValue status = 0 → ∃ call ∈ calls, call.status = 0) :
    Kept calls writing { c with phase, status } l' where
  quiet none := by rw [same, kept.quiet none]
  writing now := by rw [same, kept.writing now]
  reply sending := absurd sending away
  unread sending := absurd sending away
  told := told
  executed := kept.executed

theorem Kept.advance (kept : Kept calls writing c l) {phase : Phase} (same : l'.down.buffer = l.down.buffer)
    (sending : c.phase.sending) (still : phase.sending) : Kept calls writing { c with phase } l' where
  quiet none := by rw [same, kept.quiet none]
  writing now := by rw [same, kept.writing now]
  reply _ := by rw [same]; exact kept.reply sending
  unread _ := kept.unread sending
  told done := by
    simp only [Phase.sending, List.mem_cons, List.not_mem_nil, or_false] at still done
    rcases done with rfl | rfl <;> simp at still
  executed := kept.executed

theorem Kept.client (kept : Kept calls writing c l) (codes : ∀ call ∈ calls, call.status ∈ handleMsgCodes)
    (fresh : c.phase = .idle → calls = []) (taken : Client.Taken listening c l e c' l') :
    Kept calls writing c' l' := by
  have connError : intValue (intBytes Status.connError) ≠ 0 := by decide
  cases taken with
  | refused phase => exact kept.leave rfl (by simp [Phase.sending]) fun _ zero => absurd zero connError
  | failed _ phase cause => exact kept.leave rfl (by simp [Phase.sending]) fun _ zero => absurd zero connError
  | connected phase =>
    have none := fresh phase
    refine ⟨kept.quiet, kept.writing, fun _ call member => ?_, fun _ => rfl, by simp, kept.executed⟩
    rw [none] at member
    exact absurd member List.not_mem_nil
  | connectedRaw | broken | quit => exact kept.leave rfl (by simp [Phase.sending]) (by simp)
  | wroteLength n up phase => exact kept.advance rfl (by simp [Phase.sending, phase]) (by simp [Phase.sending])
  | wroteMsg n up phase => exact kept.advance rfl (by simp [Phase.sending, phase]) (by simp [Phase.sending])
  | replied n bytes down phase received =>
    have sending : c.phase.sending := by simp [Phase.sending, phase]
    have whole := Stream.append_of_read received
    refine ⟨fun none => ?_, fun now => ?_, by simp [Phase.sending], by simp [Phase.sending], fun _ zero => ?_,
      kept.executed⟩
    · exact (List.append_eq_nil_iff.mp (whole.trans (kept.quiet none))).2
    · exact (List.append_eq_nil_iff.mp (whole.trans (kept.writing now))).2
    · dsimp only at zero
      rw [kept.unread sending] at zero
      rcases calls with _ | ⟨call, rest⟩
      · -- nothing was sent, so the status is still UNKNOWN_ERROR
        have nothing : bytes = [] := (List.append_eq_nil_iff.mp (whole.trans (kept.quiet rfl))).1
        rw [nothing, overwrite_nil] at zero
        exact absurd zero (by decide)
      · have reply := kept.reply sending call List.mem_cons_self
        rw [← whole] at reply
        exact ⟨call, List.mem_cons_self, status_eq_zero_of_reply (codes call List.mem_cons_self)
          ((List.prefix_append bytes down.buffer).trans reply) zero⟩
  | finished phase =>
    have returned : c.phase ∈ [.returned, .finished] := by simp [phase]
    refine ⟨kept.quiet, kept.writing, by simp [Phase.sending], by simp [Phase.sending],
      fun _ => kept.told returned, fun executed => ?_⟩
    simp only [Bool.and_eq_true, decide_eq_true_eq] at executed
    exact kept.told returned executed.1
  | sentRaw bytes up phase =>
    refine kept.link ?_ id
    rfl
  | receivedRaw n bytes down phase received =>
    have whole := Stream.append_of_read received
    have away : ¬ c.phase.sending := by simp [Phase.sending, phase]
    exact ⟨fun none => (List.append_eq_nil_iff.mp (whole.trans (kept.quiet none))).2,
      fun now => (List.append_eq_nil_iff.mp (whole.trans (kept.writing now))).2,
      fun sending => absurd sending away, fun sending => absurd sending away, kept.told, kept.executed⟩

end Connection

section Runs

variable {ι κ S : Type*} [DecidableEq ι] {callback : κ → S → List UInt8 → ℤ × S} {s t : State ι S}

/-- All replies, and codes as the callback returns them. -/
structure Answered (s : State ι S) : Prop where
  codes : ∀ i, ∀ call ∈ s.callsOf i, call.status ∈ handleMsgCodes
  kept : ∀ i, Kept (s.callsOf i) (∃ status, s.server = .writeBack i status) (s.clients i) (s.links i)

theorem answered_initial (msgs : ι → List UInt8) (commands : ι → Bool) (daemon : S) :
    Answered (State.initial msgs commands daemon) where
  codes _ _ member := absurd member List.not_mem_nil
  kept i := ⟨fun _ => rfl, fun _ => rfl, fun _ _ member => absurd member List.not_mem_nil,
    by simp [Phase.sending, State.initial], by simp [State.initial], by simp [State.initial]⟩

/-- Steps of the server that call nothing and send nothing. -/
theorem Answered.move (answered : Answered s) {links : ι → Link} {server : Server ι}
    (same : ∀ i, (links i).down.buffer = (s.links i).down.buffer)
    (less : ∀ i status, server = .writeBack i status → s.server = .writeBack i status) :
    Answered { s with links, server } where
  codes := answered.codes
  kept i := (answered.kept i).link (same i) fun ⟨status, now⟩ => ⟨status, less i status now⟩

theorem Answered.drop (answered : Answered s) (i : ι) : Answered (s.drop i) := by
  refine answered.move (fun j => ?_) (by simp)
  rcases eq_or_ne j i with rfl | apart
  · rw [Function.update_self]
    rfl
  · rw [Function.update_of_ne apart]

theorem Answered.die (answered : Answered s) : Answered s.die :=
  answered.move (fun _ => rfl) (by simp)

theorem Answered.called (answered : Answered s) {i : ι} {msg : List UInt8} (none : s.callsOf i = [])
    {status : ℤ} (code : status ∈ handleMsgCodes) (daemon : S) (server : s.server = .callback i msg) :
    Answered (s.called ⟨i, msg, status⟩ daemon) := by
  have kept := answered.kept
  refine ⟨fun j call member => ?_, fun j => ?_⟩
  · rw [callsOf_called] at member
    split at member
    · rcases List.mem_append.mp member with old | new
      · exact answered.codes j call old
      · rw [List.mem_singleton.mp new]
        exact code
    · exact answered.codes j call member
  · rcases eq_or_ne j i with rfl | apart
    · rw [callsOf_called, if_pos rfl, none, List.nil_append]
      have quiet := (kept j).quiet none
      have told := (kept j).told
      have executed := (kept j).executed
      rw [none] at told executed
      simp only [List.not_mem_nil, false_and, exists_false] at told executed
      refine ⟨fun empty => absurd empty (List.cons_ne_nil _ _), fun _ => quiet, fun _ call _ => ?_,
        (kept j).unread, fun returned zero => (told returned zero).elim, fun ran => (executed ran).elim⟩
      have nothing : (s.links j).down.buffer <+: intBytes call.status := by
        rw [quiet]
        exact List.nil_prefix
      exact nothing
    · rw [callsOf_called, if_neg (Ne.symm apart)]
      refine (kept j).link rfl fun ⟨other, now⟩ => ?_
      cases now
      contradiction

theorem Answered.wroteBack (answered : Answered s) (orderly : Orderly s) {i : ι} {status : ℤ} {n : ℕ}
    {down : Stream UInt8} (server : s.server = .writeBack i status)
    (written : (s.links i).down.write (intBytes status) n = some down) :
    Answered (({ s with links := Function.update s.links i { s.links i with down } } : State ι S).drop i) := by
  obtain ⟨msg, calls⟩ := orderly.answering i status server
  obtain ⟨-, rfl⟩ := Stream.write_eq_some_iff.mp written
  refine ⟨answered.codes, fun j => ?_⟩
  rcases eq_or_ne j i with rfl | apart
  · have kept := answered.kept j
    have empty := kept.writing ⟨status, server⟩
    refine ⟨fun none => ?_, fun ⟨other, now⟩ => ?_, fun sending call member => ?_, kept.unread, kept.told,
      kept.executed⟩
    · exact absurd (calls.symm.trans none) (List.cons_ne_nil _ _)
    · contradiction
    · have member : call ∈ s.callsOf j := member
      rw [calls] at member
      have own := List.mem_singleton.mp member
      simp only [State.drop, Function.update_self, Link.closeServer, empty, List.nil_append, own]
      exact List.take_prefix n _
  · refine (answered.kept j).link ?_ fun ⟨other, now⟩ => ?_
    · simp only [State.drop, Function.update_of_ne apart]
    · contradiction

/-- Every step keeps all replies in their place. -/
theorem Answered.step (codes : ∀ input daemon msg, (callback input daemon msg).1 ∈ handleMsgCodes)
    {l : Label ι κ} (answered : Answered s) (orderly : Orderly s) (taken : s.step callback l = some t) :
    Answered t := by
  cases l with
  | client i e =>
    obtain ⟨⟨c, l⟩, client, rfl⟩ := Option.map_eq_some_iff.mp taken
    refine ⟨answered.codes, fun j => ?_⟩
    rcases eq_or_ne j i with rfl | apart
    · dsimp only
      rw [Function.update_self, Function.update_self]
      exact (answered.kept j).client (answered.codes j) (fun idle => orderly.waiting j (.inl idle))
        (Client.taken_of_step client)
    · dsimp only
      rw [Function.update_of_ne apart, Function.update_of_ne apart]
      exact answered.kept j
  | server e =>
    have taken : ServerTaken callback s e t := taken_of_serverStep taken
    have upward (i : ι) (up : Stream UInt8) (j : ι) :
        (Function.update s.links i { s.links i with up } j).down.buffer = (s.links j).down.buffer := by
      rcases eq_or_ne j i with rfl | apart
      · rw [Function.update_self]
      · rw [Function.update_of_ne apart]
    cases taken with
    | again => exact answered
    | accepted =>
      refine ⟨answered.codes, fun j => (answered.kept j).link rfl fun ⟨status, now⟩ => ?_⟩
      contradiction
    | lengthFailed i | msgFailed i | backFailed i => exact answered.drop i
    | gotLength i n bytes up | gotMsg i _ _ n bytes up => exact answered.move (upward i up) (by simp)
    | overflowed i n bytes up => exact answered.move (upward i up) (by simp)
    | faulted | aborted | piped => exact answered.die
    | hung => exact answered.move (fun _ => rfl) (by simp)
    | called i msg input server =>
      have none : s.callsOf i = [] := orderly.waiting i (.inr (.inr (by rw [server]; rfl)))
      exact answered.called none (codes input s.daemon msg) _ server
    | wroteBack i status n down server _ written => exact answered.wroteBack orderly server written
  | kill =>
    simp only [State.step] at taken
    split_ifs at taken
    cases taken
    exact answered.die

theorem answered_run (codes : ∀ input daemon msg, (callback input daemon msg).1 ∈ handleMsgCodes)
    {msgs : ι → List UInt8} {commands : ι → Bool} {daemon : S} {labels : List (Label ι κ)}
    (success : LabeledRun.run (State.step callback) (State.initial msgs commands daemon) labels = some s) :
    Orderly s ∧ Answered s := by
  have preserved (s : State ι S) (l : Label ι κ) (t : State ι S) (inv : Orderly s ∧ Answered s)
      (taken : s.step callback l = some t) : Orderly t ∧ Answered t :=
    ⟨inv.1.step taken, inv.2.step codes inv.1 taken⟩
  exact @LabeledRun.run_invariant _ _ (State.step callback) _ _ _ (fun s => Orderly s ∧ Answered s) preserved
    ⟨orderly_initial msgs commands daemon, answered_initial msgs commands daemon⟩ success

/-- In every run, whatever the clients do and wherever the server fails: a client is left with the
status 0, and runs its command, only if its own connection had its one call and that returned 0. -/
theorem status_zero_answered (callback : κ → S → List UInt8 → ℤ × S)
    (codes : ∀ input daemon msg, (callback input daemon msg).1 ∈ handleMsgCodes) (msgs : ι → List UInt8)
    (commands : ι → Bool) (daemon : S) (labels : List (Label ι κ)) (s : State ι S)
    (success : LabeledRun.run (State.step callback) (State.initial msgs commands daemon) labels = some s) (i : ι)
    (left : ((s.clients i).phase = .returned ∨ (s.clients i).phase = .finished) ∧
        intValue (s.clients i).status = Status.success ∨ (s.clients i).executed = true) :
    ∃ msg, s.callsOf i = [⟨i, msg, Status.success⟩] := by
  obtain ⟨orderly, answered⟩ := answered_run codes success
  have granted : ∃ call ∈ s.callsOf i, call.status = 0 := by
    rcases left with ⟨phase, zero⟩ | executed
    · exact (answered.kept i).told (by simpa using phase) zero
    · exact (answered.kept i).executed executed
  obtain ⟨call, member, zero⟩ := granted
  rcases orderly.once i with none | ⟨msg, status, one⟩
  · rw [none] at member
    exact absurd member List.not_mem_nil
  · rw [one] at member
    obtain rfl := List.mem_singleton.mp member
    obtain rfl : status = 0 := zero
    exact ⟨msg, one⟩

end Runs

/-! ## A command -/

/-- The wrapper is going to ask for process 100, and has a command. -/
def commandInitial : State (Fin 1) Daemon :=
  State.initial (fun _ => proxyPidText.map fun c => UInt8.ofNat c.toNat) (fun _ => true)
    (appliedDaemon (Config.ofLists [] [] [] []))

/-- The daemon can move the process. -/
def commandLabels : List (Label (Fin 1) Surroundings) :=
  servedLabels ⟨pidHost, .flat [], { runningIn [] with answers := fun _ => ⟨true, .moved⟩ }⟩ 21

def commandState : Option (State (Fin 1) Daemon) :=
  LabeledRun.run (State.step handleMsg) commandInitial commandLabels

theorem isSome_commandState : commandState.isSome = true := by decide +kernel

/-- The command runs, and the one call for its connection has returned 0. -/
theorem status_zero_answered_command :
    ∃ msg, (commandState.get isSome_commandState).callsOf 0 = [⟨0, msg, Status.success⟩] :=
  status_zero_answered handleMsg handleMsg_mem_codes _ _ _ _ (commandState.get isSome_commandState)
    (Option.some_get isSome_commandState).symm 0 (.inr (by decide +kernel))

end CgProxy.Socket

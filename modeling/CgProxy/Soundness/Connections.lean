import CgProxy.Model.Socket

/-! # Steps of the control socket

Inversion lemmas for the two step functions, and what holds of all runs: a connection waits in the
backlog, is served, and is over, and its callback is called at most once, while it is served.
-/

namespace CgProxy.Socket

open Posix

/-! ## What one step can do -/

/-- Everything that one step of a client can do. -/
inductive Client.Taken (listening : Bool) (c : Client) (l : Link) : ClientEvent → Client → Link → Prop
  | refused (phase : c.phase = .idle) :
      Taken listening c l (.connect false)
        { c with status := intBytes Status.connError, phase := .returned } l.closeClient
  | connected (phase : c.phase = .idle) (alive : listening = true) :
      Taken listening c l (.connect true)
        { c with status := intBytes Status.unknownError, phase := .writeLength } l
  | connectedRaw (phase : c.phase = .idle) (alive : listening = true) :
      Taken listening c l .connectRaw { c with phase := .raw } l
  | wroteLength (n : ℕ) (up : Stream UInt8) (phase : c.phase = .writeLength)
      (written : l.up.write (intBytes c.msgLen) n = some up) :
      Taken listening c l (.writeLength (some n)) { c with phase := .writeMsg } { l with up }
  | wroteMsg (n : ℕ) (up : Stream UInt8) (phase : c.phase = .writeMsg) (count : 0 ≤ c.msgLen)
      (written : l.up.write (c.msg.take c.msgLen.toNat) n = some up) :
      Taken listening c l (.writeMsg (some n)) { c with phase := .readReply } { l with up }
  | failed (e : ClientEvent) (phase : c.phase ∈ [.writeLength, .writeMsg, .readReply])
      (cause : e ∈ [.writeLength none, .writeMsg none, .readReply none] ∨ (∃ res, e = .writeMsg res) ∧ c.msgLen < 0) :
      Taken listening c l e { c with status := intBytes Status.connError, phase := .returned } l.closeClient
  | broken (e : ClientEvent) (phase : c.phase ∈ [.writeLength, .writeMsg]) (closed : l.up.reading = false)
      (cause : ∃ res, e = .writeLength res ∨ e = .writeMsg res) :
      Taken listening c l e { c with phase := .killed } l.closeClient
  | replied (n : ℕ) (bytes : List UInt8) (down : Stream UInt8) (phase : c.phase = .readReply)
      (received : l.down.read 4 n = some (bytes, down)) :
      Taken listening c l (.readReply (some n))
        { c with status := overwrite c.status bytes, phase := .returned } { l with down }.closeClient
  | finished (phase : c.phase = .returned) :
      Taken listening c l .main
        { c with phase := .finished, executed := decide (intValue c.status = 0) && c.command } l
  | quit (phase : c.phase ∈ [.writeLength, .writeMsg, .readReply, .raw]) :
      Taken listening c l .quit { c with phase := .killed } l.closeClient
  | sentRaw (bytes : List UInt8) (up : Stream UInt8) (phase : c.phase = .raw)
      (written : l.up.write bytes bytes.length = some up) :
      Taken listening c l (.sendRaw bytes) c { l with up }
  | receivedRaw (n : ℕ) (bytes : List UInt8) (down : Stream UInt8) (phase : c.phase = .raw)
      (received : l.down.read n n = some (bytes, down)) :
      Taken listening c l (.receiveRaw n) c { l with down }

namespace Client

variable {listening : Bool} {c c' : Client} {l l' : Link} {e : ClientEvent}

private theorem cases_write {data : List UInt8} {next : Phase} {res : Option ℕ}
    (taken : c.write l data next res = some (c', l')) :
    (l.up.reading = false ∧ c' = { c with phase := .killed } ∧ l' = l.closeClient) ∨
      (res = none ∧ (c', l') = c.fail l) ∨
      ∃ n up, res = some n ∧ l.up.write data n = some up ∧ c' = { c with phase := next } ∧ l' = { l with up } := by
  unfold Client.write at taken
  split at taken
  · next closed =>
    cases taken
    exact .inl ⟨closed, rfl, rfl⟩
  · cases res with
    | none =>
      cases taken
      exact .inr (.inl ⟨rfl, rfl⟩)
    | some n =>
      obtain ⟨up, written, same⟩ := Option.map_eq_some_iff.mp taken
      cases same
      exact .inr (.inr ⟨n, up, rfl, written, rfl, rfl⟩)

theorem taken_of_step (taken : step listening c l e = some (c', l')) : Taken listening c l e c' l' := by
  cases e with
  | connect ok =>
    simp only [step] at taken
    split_ifs at taken with busy failed alive
    · obtain rfl : ok = false := failed
      cases taken
      exact .refused (not_not.mp busy)
    · obtain rfl : ok = true := by simpa using failed
      cases taken
      exact .connected (not_not.mp busy) alive
  | connectRaw =>
    simp only [step] at taken
    split_ifs at taken with free
    cases taken
    exact .connectedRaw free.1 free.2
  | writeLength res =>
    simp only [step] at taken
    split_ifs at taken with other
    have phase := not_not.mp other
    rcases cases_write taken with ⟨closed, rfl, rfl⟩ | ⟨rfl, same⟩ | ⟨n, up, rfl, written, rfl, rfl⟩
    · exact .broken _ (by simp [phase]) closed ⟨res, .inl rfl⟩
    · cases same
      exact .failed _ (by simp [phase]) (.inl (by simp))
    · exact .wroteLength n up phase written
  | writeMsg res =>
    simp only [step] at taken
    split_ifs at taken with other negative
    · cases taken
      exact .failed _ (by simp [not_not.mp other]) (.inr ⟨⟨res, rfl⟩, negative⟩)
    · have phase := not_not.mp other
      rcases cases_write taken with ⟨closed, rfl, rfl⟩ | ⟨rfl, same⟩ | ⟨n, up, rfl, written, rfl, rfl⟩
      · exact .broken _ (by simp [phase]) closed ⟨res, .inr rfl⟩
      · cases same
        exact .failed _ (by simp [phase]) (.inl (by simp))
      · exact .wroteMsg n up phase (by omega) written
  | readReply res =>
    simp only [step] at taken
    split_ifs at taken with other
    have phase := not_not.mp other
    cases res with
    | none =>
      cases taken
      exact .failed _ (by simp [phase]) (.inl (by simp))
    | some n =>
      obtain ⟨⟨bytes, down⟩, received, same⟩ := Option.map_eq_some_iff.mp taken
      cases same
      exact .replied n bytes down phase received
  | main =>
    simp only [step] at taken
    split_ifs at taken with other
    cases taken
    exact .finished (not_not.mp other)
  | quit =>
    simp only [step] at taken
    split_ifs at taken with phase
    cases taken
    exact .quit phase
  | sendRaw bytes =>
    simp only [step] at taken
    split_ifs at taken with other
    obtain ⟨up, written, same⟩ := Option.map_eq_some_iff.mp taken
    cases same
    exact .sentRaw bytes up (not_not.mp other) written
  | receiveRaw n =>
    simp only [step] at taken
    split_ifs at taken with other
    obtain ⟨⟨bytes, down⟩, received, same⟩ := Option.map_eq_some_iff.mp taken
    cases same
    exact .receivedRaw n bytes down (not_not.mp other) received

/-- Only the two ways to connect start from `idle` and lead to the backlog, and nothing leads back. -/
theorem Taken.phase_ne_idle (taken : Taken listening c l e c' l') : c'.phase ≠ .idle := by
  cases taken with
  | sentRaw bytes up phase | receivedRaw n bytes down phase => simp [phase]
  | _ => simp

theorem Taken.idle_of_connects (taken : Taken listening c l e c' l') (connects : e.connects = true) :
    c.phase = .idle := by
  cases taken with
  | connected phase | connectedRaw phase => exact phase
  | failed _ _ cause =>
    simp only [List.mem_cons, List.not_mem_nil, or_false] at cause
    rcases cause with (rfl | rfl | rfl) | ⟨⟨res, rfl⟩, -⟩ <;> contradiction
  | broken _ _ _ cause => obtain ⟨res, rfl | rfl⟩ := cause <;> contradiction
  | _ => exact absurd connects Bool.false_ne_true

theorem Taken.msg (taken : Taken listening c l e c' l') : c'.msg = c.msg := by
  cases taken <;> rfl

end Client

section Server

variable {ι κ S : Type*} [DecidableEq ι] {callback : κ → S → List UInt8 → ℤ × S}

/-- Everything that one step of the server can do. -/
inductive ServerTaken (callback : κ → S → List UInt8 → ℤ × S) (s : State ι S) :
    ServerEvent κ → State ι S → Prop
  | again (server : s.server = .accept) : ServerTaken callback s (.accept false) s
  | accepted (i : ι) (rest : List ι) (server : s.server = .accept) (backlog : s.backlog = i :: rest) :
      ServerTaken callback s (.accept true) { s with backlog := rest, server := .readLength i }
  | lengthFailed (i : ι) (stale : List UInt8) (block : Option (List UInt8)) (server : s.server = .readLength i) :
      ServerTaken callback s (.readLength none stale block) (s.drop i)
  | gotLength (i : ι) (n : ℕ) (bytes : List UInt8) (up : Stream UInt8) (stale : List UInt8)
      (block : Option (List UInt8)) (server : s.server = .readLength i)
      (received : (s.links i).up.read 4 n = some (bytes, up)) (size : stale.length = 4)
      (small : intValue (overwrite stale bytes) ≠ intMax)
      (allocated : mallocOk (intValue (overwrite stale bytes)) block = true) :
      ServerTaken callback s (.readLength (some n) stale block)
        { s with
          links := Function.update s.links i { s.links i with up }
          server := .readMsg i (intValue (overwrite stale bytes)) block }
  | overflowed (i : ι) (n : ℕ) (bytes : List UInt8) (up : Stream UInt8) (stale : List UInt8)
      (block : Option (List UInt8)) (server : s.server = .readLength i)
      (received : (s.links i).up.read 4 n = some (bytes, up)) (size : stale.length = 4)
      (large : intValue (overwrite stale bytes) = intMax) :
      ServerTaken callback s (.readLength (some n) stale block)
        ({ s with links := Function.update s.links i { s.links i with up } } : State ι S).die
  | msgFailed (i : ι) (msgLen : ℤ) (msg : Option (List UInt8)) (server : s.server = .readMsg i msgLen msg) :
      ServerTaken callback s (.readMsg none) (s.drop i)
  | gotMsg (i : ι) (msgLen : ℤ) (memory : List UInt8) (n : ℕ) (bytes : List UInt8) (up : Stream UInt8)
      (server : s.server = .readMsg i msgLen (some memory)) (count : 0 ≤ msgLen)
      (received : (s.links i).up.read msgLen.toNat n = some (bytes, up)) :
      ServerTaken callback s (.readMsg (some n))
        { s with
          links := Function.update s.links i { s.links i with up }
          server := .callback i (cString ((overwrite memory bytes).set msgLen.toNat 0)) }
  | faulted (i : ι) (msgLen : ℤ) (n : ℕ) (up : Stream UInt8) (server : s.server = .readMsg i msgLen none)
      (received : (s.links i).up.read msgLen.toNat n = some ([], up)) :
      ServerTaken callback s (.readMsg (some n)) s.die
  | called (i : ι) (msg : List UInt8) (input : κ) (server : s.server = .callback i msg) :
      ServerTaken callback s (.callback input)
        (s.called ⟨i, msg, (callback input s.daemon msg).1⟩ (callback input s.daemon msg).2)
  | hung (i : ι) (msg : List UInt8) (server : s.server = .callback i msg) :
      ServerTaken callback s .hang { s with server := .stuck i msg }
  | aborted (i : ι) (msg : List UInt8) (server : s.server = .callback i msg) :
      ServerTaken callback s .abort s.die
  | piped (i : ι) (status : ℤ) (res : Option ℕ) (server : s.server = .writeBack i status)
      (closed : (s.links i).down.reading = false) :
      ServerTaken callback s (.writeBack res) s.die
  | backFailed (i : ι) (status : ℤ) (server : s.server = .writeBack i status)
      (opened : (s.links i).down.reading = true) :
      ServerTaken callback s (.writeBack none) (s.drop i)
  | wroteBack (i : ι) (status : ℤ) (n : ℕ) (down : Stream UInt8) (server : s.server = .writeBack i status)
      (opened : (s.links i).down.reading = true)
      (written : (s.links i).down.write (intBytes status) n = some down) :
      ServerTaken callback s (.writeBack (some n))
        (({ s with links := Function.update s.links i { s.links i with down } } : State ι S).drop i)

variable {s t : State ι S} {e : ServerEvent κ}

theorem taken_of_serverStep (taken : s.serverStep callback e = some t) : ServerTaken callback s e t := by
  cases e with
  | accept ok =>
    simp only [State.serverStep] at taken
    split at taken
    · next server =>
      cases taken
      exact .again server
    · next i rest server backlog =>
      cases taken
      exact .accepted i rest server backlog
    · contradiction
  | readLength res stale block =>
    simp only [State.serverStep] at taken
    split at taken
    · next i server =>
      cases taken
      exact .lengthFailed i stale block server
    · next i n server =>
      split at taken
      · contradiction
      · next bytes up received =>
        split_ifs at taken with size large allocated
        · cases taken
          exact .overflowed i n bytes up stale block server received (not_not.mp size) large
        · cases taken
          exact .gotLength i n bytes up stale block server received (not_not.mp size) large allocated
    · contradiction
  | readMsg res =>
    simp only [State.serverStep] at taken
    split at taken
    · next i msgLen msg server =>
      cases taken
      exact .msgFailed i msgLen msg server
    · next i msgLen msg n server =>
      split_ifs at taken with negative
      split at taken
      · contradiction
      · next bytes up memory received =>
        cases taken
        exact .gotMsg i msgLen memory n bytes up server (by omega) received
      · next up received =>
        cases taken
        exact .faulted i msgLen n up server received
      · contradiction
    · contradiction
  | callback input =>
    simp only [State.serverStep] at taken
    split at taken
    · next i msg server =>
      cases taken
      exact .called i msg input server
    · contradiction
  | hang =>
    simp only [State.serverStep] at taken
    split at taken
    · next i msg server =>
      cases taken
      exact .hung i msg server
    · contradiction
  | abort =>
    simp only [State.serverStep] at taken
    split at taken
    · next i msg server =>
      cases taken
      exact .aborted i msg server
    · contradiction
  | writeBack res =>
    simp only [State.serverStep] at taken
    split at taken
    · next i status server =>
      split_ifs at taken with closed
      · cases taken
        exact .piped i status res server closed
      · have opened : (s.links i).down.reading = true := by simpa using closed
        cases res with
        | none =>
          cases taken
          exact .backFailed i status server opened
        | some n =>
          obtain ⟨down, written, same⟩ := Option.map_eq_some_iff.mp taken
          cases same
          exact .wroteBack i status n down server opened written
    · contradiction

end Server

/-! ## One call for each connection -/

/-- The connection that the server works on. -/
def Server.current {ι : Type*} : Server ι → Option ι
  | .readLength i | .readMsg i _ _ | .callback i _ | .writeBack i _ | .stuck i _ => some i
  | .accept | .dead => none

/-- The connection whose call of the callback has not returned yet. -/
def Server.awaiting {ι : Type*} : Server ι → Option ι
  | .readLength i | .readMsg i _ _ | .callback i _ | .stuck i _ => some i
  | .accept | .writeBack _ _ | .dead => none

/-- The message that the callback has got and not answered. -/
def Server.passed {ι : Type*} : Server ι → Option (ι × List UInt8)
  | .callback i msg | .stuck i msg => some (i, msg)
  | _ => none

theorem awaiting_of_passed {ι : Type*} {server : Server ι} {i : ι} {msg : List UInt8}
    (passed : server.passed = some (i, msg)) : server.awaiting = some i := by
  cases server with
  | callback | stuck =>
    cases passed
    rfl
  | _ => cases passed

/-- The loop goes on: the process is there, and no call of the callback has it stuck. -/
def Server.running {ι : Type*} : Server ι → Bool
  | .stuck _ _ | .dead => false
  | _ => true

/-- The calls left until the loop is back at `accept`. -/
def Server.remaining {ι : Type*} : Server ι → ℕ
  | .accept | .stuck _ _ | .dead => 0
  | .writeBack _ _ => 1
  | .callback _ _ => 2
  | .readMsg _ _ _ => 3
  | .readLength _ => 4

section Orderly

variable {ι κ S : Type*} [DecidableEq ι] {callback : κ → S → List UInt8 → ℤ × S} {s t : State ι S}

def State.callsOf (s : State ι S) (i : ι) : List (Call ι) := s.calls.filter (·.client = i)

/-- The connection has not come to its call. -/
def State.Waiting (s : State ι S) (i : ι) : Prop :=
  (s.clients i).phase = .idle ∨ i ∈ s.backlog ∨ s.server.awaiting = some i

/-- Connections are made once and served one after the other, with one call each. -/
structure Orderly (s : State ι S) : Prop where
  nodup : s.backlog.Nodup
  queued : ∀ i ∈ s.backlog, (s.clients i).phase ≠ .idle ∧ s.server.current ≠ some i
  serving : ∀ i, s.server.current = some i → (s.clients i).phase ≠ .idle
  waiting : ∀ i, s.Waiting i → s.callsOf i = []
  answering : ∀ i status, s.server = .writeBack i status → ∃ msg, s.callsOf i = [⟨i, msg, status⟩]
  once : ∀ i, s.callsOf i = [] ∨ ∃ msg status, s.callsOf i = [⟨i, msg, status⟩]

theorem orderly_initial (msgs : ι → List UInt8) (commands : ι → Bool) (daemon : S) :
    Orderly (State.initial msgs commands daemon) where
  nodup := List.nodup_nil
  queued _ member := absurd member List.not_mem_nil
  serving _ current := absurd current (Option.some_ne_none _).symm
  waiting _ _ := rfl
  answering _ _ server := by contradiction
  once _ := .inl rfl

/-- A step of a client leaves the server alone. -/
theorem Orderly.client (orderly : Orderly s) {i : ι} {e : ClientEvent} {c : Client} {l : Link}
    (taken : Client.Taken s.listening (s.clients i) (s.links i) e c l) :
    Orderly { s with
      clients := Function.update s.clients i c
      links := Function.update s.links i l
      backlog := if e.connects then s.backlog ++ [i] else s.backlog } := by
  have busy (j : ι) (other : (s.clients j).phase ≠ .idle) : (Function.update s.clients i c j).phase ≠ .idle := by
    rcases eq_or_ne j i with rfl | apart
    · rw [Function.update_self]
      exact taken.phase_ne_idle
    · rwa [Function.update_of_ne apart]
  have free (connects : e.connects = true) : i ∉ s.backlog ∧ s.server.current ≠ some i := by
    have idle := taken.idle_of_connects connects
    exact ⟨fun member => (orderly.queued i member).1 idle, fun current => orderly.serving i current idle⟩
  have member_iff (j : ι) : j ∈ (if e.connects then s.backlog ++ [i] else s.backlog) ↔
      j ∈ s.backlog ∨ e.connects = true ∧ j = i := by
    split <;> simp_all
  refine ⟨?_, ?_, fun j current => busy j (orderly.serving j current), ?_, orderly.answering, orderly.once⟩
  · dsimp only
    split
    · next connects => exact List.nodup_append'.mpr ⟨orderly.nodup, List.nodup_singleton i, by
        simpa using (free connects).1⟩
    · exact orderly.nodup
  · intro j member
    rcases (member_iff j).mp member with old | ⟨connects, rfl⟩
    · exact ⟨busy j (orderly.queued j old).1, (orderly.queued j old).2⟩
    · exact ⟨by simpa using taken.phase_ne_idle, (free connects).2⟩
  · rintro j (idle | member | awaiting)
    · rcases eq_or_ne j i with rfl | apart
      · simp only [Function.update_self] at idle
        exact absurd idle taken.phase_ne_idle
      · simp only [Function.update_of_ne apart] at idle
        exact orderly.waiting j (.inl idle)
    · rcases (member_iff j).mp member with old | ⟨connects, rfl⟩
      · exact orderly.waiting j (.inr (.inl old))
      · exact orderly.waiting j (.inl (taken.idle_of_connects connects))
    · exact orderly.waiting j (.inr (.inr awaiting))

/-- Steps after which the server is not at a call, and at no other connection than before. -/
theorem Orderly.move (orderly : Orderly s) {links : ι → Link} {server : Server ι}
    (current : ∀ i, server.current = some i → s.server.current = some i)
    (awaiting : ∀ i, server.awaiting = some i → s.server.awaiting = some i)
    (answering : ∀ i status, server = .writeBack i status → s.server = .writeBack i status) :
    Orderly { s with links, server } where
  nodup := orderly.nodup
  queued i member := ⟨(orderly.queued i member).1, fun now => (orderly.queued i member).2 (current i now)⟩
  serving i now := orderly.serving i (current i now)
  waiting i waiting := orderly.waiting i (waiting.imp_right (.imp_right (awaiting i)))
  answering i status now := orderly.answering i status (answering i status now)
  once := orderly.once

theorem Orderly.drop (orderly : Orderly s) (i : ι) : Orderly (s.drop i) :=
  orderly.move (by simp [Server.current]) (by simp [Server.awaiting]) (by simp)

theorem Orderly.die (orderly : Orderly s) : Orderly s.die :=
  orderly.move (by simp [Server.current]) (by simp [Server.awaiting]) (by simp)

/-- A call is added to the calls of its connection and to no other's. -/
theorem callsOf_called (s : State ι S) (call : Call ι) (daemon : S) (i : ι) :
    (s.called call daemon).callsOf i = if call.client = i then s.callsOf i ++ [call] else s.callsOf i := by
  rw [State.callsOf, State.callsOf, State.called, List.filter_append]
  split
  · next own => rw [List.filter_cons_of_pos (by simpa using own), List.filter_nil]
  · next other => rw [List.filter_cons_of_neg (by simpa using other), List.filter_nil, List.append_nil]

/-- The call of the connection being served. -/
theorem Orderly.called (orderly : Orderly s) {i : ι} {msg : List UInt8} (server : s.server = .callback i msg)
    (status : ℤ) (daemon : S) : Orderly (s.called ⟨i, msg, status⟩ daemon) := by
  have none : s.callsOf i = [] := orderly.waiting i (.inr (.inr (by rw [server]; rfl)))
  have current : s.server.current = some i := by rw [server]; rfl
  have own : (s.called ⟨i, msg, status⟩ daemon).callsOf i = [⟨i, msg, status⟩] := by
    rw [callsOf_called, if_pos rfl, none, List.nil_append]
  have others (j : ι) (apart : j ≠ i) : (s.called ⟨i, msg, status⟩ daemon).callsOf j = s.callsOf j := by
    rw [callsOf_called, if_neg (Ne.symm apart)]
  refine ⟨orderly.nodup, ?_, ?_, ?_, ?_, ?_⟩
  · intro j member
    refine ⟨(orderly.queued j member).1, fun now => (orderly.queued j member).2 ?_⟩
    exact current.trans now
  · intro j now
    exact orderly.serving j (current.trans now)
  · rintro j (idle | member | awaiting)
    · rw [others j (fun same => orderly.serving i current (same ▸ idle))]
      exact orderly.waiting j (.inl idle)
    · rw [others j (fun same => (orderly.queued j member).2 (same ▸ current))]
      exact orderly.waiting j (.inr (.inl member))
    · contradiction
  · intro j other same
    cases same
    exact ⟨msg, own⟩
  · intro j
    rcases eq_or_ne j i with rfl | apart
    · exact .inr ⟨msg, status, own⟩
    · rw [others j apart]
      exact orderly.once j

theorem Orderly.accepted (orderly : Orderly s) {i : ι} {rest : List ι}
    (backlog : s.backlog = i :: rest) : Orderly { s with backlog := rest, server := .readLength i } := by
  have nodup := orderly.nodup
  rw [backlog, List.nodup_cons] at nodup
  have old (j : ι) (member : j ∈ rest) : j ∈ s.backlog := by
    rw [backlog]
    exact List.mem_cons_of_mem i member
  have first : i ∈ s.backlog := by rw [backlog]; exact List.mem_cons_self
  refine ⟨nodup.2, ?_, ?_, ?_, ?_, orderly.once⟩
  · intro j member
    refine ⟨(orderly.queued j (old j member)).1, fun now => ?_⟩
    cases now
    exact nodup.1 member
  · intro j now
    cases now
    exact (orderly.queued i first).1
  · rintro j (idle | member | awaiting)
    · exact orderly.waiting j (.inl idle)
    · exact orderly.waiting j (.inr (.inl (old j member)))
    · cases awaiting
      exact orderly.waiting i (.inr (.inl first))
  · intro j status now
    contradiction

/-- Every step keeps the order. -/
theorem Orderly.step {l : Label ι κ} (orderly : Orderly s) (taken : s.step callback l = some t) : Orderly t := by
  cases l with
  | client i e =>
    obtain ⟨⟨c, l⟩, client, rfl⟩ := Option.map_eq_some_iff.mp taken
    exact orderly.client (Client.taken_of_step client)
  | server e =>
    have taken : ServerTaken callback s e t := taken_of_serverStep taken
    cases taken with
    | again => exact orderly
    | accepted i rest _ backlog => exact orderly.accepted backlog
    | lengthFailed i | msgFailed i | backFailed i => exact orderly.drop i
    | gotLength i n bytes up stale block server | gotMsg i _ _ n bytes up server =>
      refine orderly.move ?_ ?_ (by simp) <;> simp [server, Server.current, Server.awaiting]
    | overflowed i n bytes up =>
      exact orderly.move (by simp [Server.current]) (by simp [Server.awaiting]) (by simp)
    | faulted | aborted | piped => exact orderly.die
    | hung i msg server =>
      refine orderly.move ?_ ?_ (by simp) <;> simp [server, Server.current, Server.awaiting]
    | called i msg input server => exact orderly.called server _ _
    | wroteBack i status n down =>
      exact orderly.move (by simp [Server.current]) (by simp [Server.awaiting]) (by simp)
  | kill =>
    simp only [State.step] at taken
    split_ifs at taken
    cases taken
    exact orderly.die

/-- Every state reached is orderly. -/
theorem orderly_run {msgs : ι → List UInt8} {commands : ι → Bool} {daemon : S} {labels : List (Label ι κ)}
    (success : LabeledRun.run (State.step callback) (State.initial msgs commands daemon) labels = some s) :
    Orderly s :=
  LabeledRun.run_invariant (fun _ _ _ => Orderly.step) (orderly_initial msgs commands daemon) success

end Orderly

/-- The client of a run that has only one. -/
def soleClient : Fin 1 := 0

/-- A run with one client, in which every call transfers everything. -/
def servedLabels {κ : Type*} (input : κ) (length : ℕ) : List (Label (Fin 1) κ) :=
  [.client 0 (.connect true), .server (.accept true), .client 0 (.writeLength (some 4)),
    .server (.readLength (some 4) [0, 0, 0, 0] (some (List.replicate (length + 1) 0))),
    .client 0 (.writeMsg (some length)), .server (.readMsg (some length)), .server (.callback input),
    .server (.writeBack (some 4)), .client 0 (.readReply (some 4)), .client 0 .main]

end CgProxy.Socket

import CgProxy.Soundness.Answers
import Mathlib.Algebra.BigOperators.Group.Finset.Basic
import Mathlib.Data.Fintype.BigOperators

/-! # Messages arrive as they were sent

Neither side looks at how much a call transferred. In the runs in which the two calls of each side
that carry the message transfer all they were asked to, each connection has exactly one call, with
exactly its message; the invariant follows the bytes of a connection from the client's calls through
the stream to what the server has consumed.
-/

namespace CgProxy.Socket

open Posix

/-! ## Runs without short counts -/

section Labels

variable {ι κ S : Type*}

/-- Clients that run `SOCKET::send`, and calls that return no error. -/
def Regular : Label ι κ → Bool
  | .client _ (.connect true) | .client _ (.writeLength (some _)) | .client _ (.writeMsg (some _))
  | .client _ (.readReply (some _)) | .client _ .main => true
  | .server (.accept true) | .server (.readLength (some _) _ (some _)) | .server (.readMsg (some _))
  | .server (.callback _) | .server (.writeBack (some _)) => true
  | _ => false

/-- The count that the server asks for. -/
def Server.msgLen : Server ι → ℤ
  | .readMsg _ msgLen _ => msgLen
  | _ => 0

/-- The length and the message go over in one piece each. -/
def Full (s : State ι S) : Label ι κ → Bool
  | .client _ (.writeLength (some n)) => n = 4
  | .client i (.writeMsg (some n)) => n = (s.clients i).msg.length
  | .server (.readLength (some n) _ _) => n = 4
  | .server (.readMsg (some n)) => (n : ℤ) = s.server.msgLen
  | _ => true

def Uncut (s : State ι S) (l : Label ι κ) : Prop := Regular l = true ∧ Full s l = true

instance (s : State ι S) (l : Label ι κ) : Decidable (Uncut s l) := inferInstanceAs (Decidable (_ ∧ _))

end Labels

/-! ## One connection -/

/-- What a client that runs `SOCKET::send` has written. -/
def Client.sent (c : Client) : List UInt8 :=
  match c.phase with
  | .writeMsg => intBytes c.msg.length
  | .readReply => intBytes c.msg.length ++ c.msg
  | _ => []

/-- A connection that is not over: what the server has read and what it has not is what the client
has written. -/
structure Pending (consumed : List UInt8) (c : Client) (l : Link) : Prop where
  phase : c.phase ∈ [.idle, .writeLength, .writeMsg, .readReply]
  content : consumed ++ l.up.buffer = c.sent
  opened : l.up.reading = true
  down : l.down = {}

section Connection

variable {consumed : List UInt8} {listening : Bool} {c c' : Client} {l l' : Link} {e : ClientEvent}

theorem msgLen_eq (short : c.msg.length + 1 < 2 ^ 31) : c.msgLen = c.msg.length := by
  rw [Client.msgLen, toInt32]
  exact Int.bmod_eq_of_le (by norm_num) (by norm_num; omega)

/-- A client's step on a connection that is not over. -/
theorem Pending.client {ι κ S : Type*} {s : State ι S} {i : ι} (pending : Pending consumed (s.clients i) l)
    (short : (s.clients i).msg.length + 1 < 2 ^ 31) (taken : Client.Taken listening (s.clients i) l e c' l')
    (uncut : Uncut s (.client i e : Label ι κ)) : Pending consumed c' l' := by
  obtain ⟨regular, full⟩ := uncut
  obtain ⟨phase, content, opened, down⟩ := pending
  cases taken with
  | refused | connectedRaw | quit | sentRaw | receivedRaw => contradiction
  | connected idle alive =>
    refine ⟨by simp, ?_, opened, down⟩
    rw [content]
    simp [Client.sent, idle]
  | wroteLength n up writing written =>
    obtain rfl : n = 4 := by simpa [Full] using full
    obtain ⟨-, rfl⟩ := Stream.write_eq_some_iff.mp written
    refine ⟨by simp, ?_, opened, down⟩
    have nothing : consumed ++ l.up.buffer = [] := by rw [content]; simp [Client.sent, writing]
    have whole : (intBytes (s.clients i).msgLen).take 4 = intBytes (s.clients i).msgLen :=
      List.take_of_length_le (by simp)
    dsimp only
    rw [← List.append_assoc, nothing, List.nil_append, whole, msgLen_eq short]
    rfl
  | wroteMsg n up writing count written =>
    obtain rfl : n = (s.clients i).msg.length := by simpa [Full] using full
    obtain ⟨-, rfl⟩ := Stream.write_eq_some_iff.mp written
    refine ⟨by simp, ?_, opened, down⟩
    have before : consumed ++ l.up.buffer = intBytes (s.clients i).msg.length := by
      rw [content]
      simp [Client.sent, writing]
    dsimp only
    rw [← List.append_assoc, before, msgLen_eq short, Int.toNat_natCast, List.take_length, List.take_length]
    rfl
  | failed _ working cause =>
    rcases cause with cause | ⟨-, negative⟩
    · simp only [List.mem_cons, List.not_mem_nil, or_false] at cause
      rcases cause with rfl | rfl | rfl <;> contradiction
    · rw [msgLen_eq short] at negative
      omega
  | broken _ working closed =>
    rw [opened] at closed
    contradiction
  | replied n bytes after writing received =>
    obtain ⟨⟨-, available, nothing⟩, -⟩ := Stream.read_eq_some_iff.mp received
    rw [down] at available nothing
    have zero : n = 0 := by simpa using available
    simp [zero] at nothing
  | finished returned => simp [returned] at phase

/-- A client's step on a connection that is over. -/
theorem past_client {ι κ S : Type*} {s : State ι S} {i : ι}
    (phase : (s.clients i).phase ∈ [.writeMsg, .readReply, .returned, .finished, .killed])
    (taken : Client.Taken listening (s.clients i) l e c' l')
    (uncut : Uncut s (.client i e : Label ι κ)) :
    c'.phase ∈ [.writeMsg, .readReply, .returned, .finished, .killed] := by
  cases taken with
  | refused | connectedRaw | quit | sentRaw | receivedRaw => exact absurd uncut.1 Bool.false_ne_true
  | connected idle => simp [idle] at phase
  | _ => simp

/-- A client's first step is to connect. -/
theorem connects_of_idle {ι κ S : Type*} {s : State ι S} {i : ι} (idle : (s.clients i).phase = .idle)
    (taken : Client.Taken listening (s.clients i) l e c' l') (uncut : Uncut s (.client i e : Label ι κ)) :
    e.connects = true := by
  cases taken with
  | refused | connectedRaw => exact absurd uncut.1 Bool.false_ne_true
  | connected => rfl
  | _ => simp_all

/-- The four bytes of the length, at the beginning of what was sent. -/
theorem Pending.length (pending : Pending [] c l) (available : 4 ≤ l.up.buffer.length) :
    l.up.buffer.take 4 = intBytes c.msg.length ∧
      Pending (intBytes c.msg.length) c { l with up := { l.up with buffer := l.up.buffer.drop 4 } } := by
  obtain ⟨phase, content, opened, down⟩ := pending
  rw [List.nil_append] at content
  have first : l.up.buffer.take 4 = intBytes c.msg.length := by
    rw [content] at available ⊢
    rw [Client.sent] at available ⊢
    split at available
    · exact List.take_of_length_le (by simp)
    · exact List.take_left' (length_intBytes _)
    · simp at available
  refine ⟨first, phase, ?_, opened, down⟩
  dsimp only
  rw [← first, List.take_append_drop, content]

/-- The message, which is all that was sent after its length. -/
theorem Pending.msg (pending : Pending (intBytes c.msg.length) c l)
    (available : c.msg.length ≤ l.up.buffer.length) :
    l.up.buffer.take c.msg.length = c.msg ∧
      Pending (intBytes c.msg.length ++ c.msg) c
        { l with up := { l.up with buffer := l.up.buffer.drop c.msg.length } } := by
  obtain ⟨phase, content, opened, down⟩ := pending
  have rest : l.up.buffer = c.msg := by
    rw [Client.sent] at content
    split at content
    · -- the write of an empty message is still to come
      have empty : l.up.buffer = [] := by simpa using content
      have none : c.msg = [] := List.eq_nil_of_length_eq_zero (by simpa [empty] using available)
      rw [empty, none]
    · exact List.append_cancel_left content
    · have size := congrArg List.length content
      simp at size
  refine ⟨by rw [rest, List.take_length], phase, ?_, opened, down⟩
  dsimp only
  rw [← content, rest, List.drop_length, List.append_nil]

/-- The bytes that the server makes a string of. -/
theorem cString_of_nulFree {memory msg : List UInt8} (size : memory.length = msg.length + 1) (nulFree : 0 ∉ msg) :
    cString ((overwrite memory msg).set msg.length 0) = msg := by
  rw [overwrite_concat size, cString, List.takeWhile_append_of_pos]
  · simp
  · intro b member
    have other : b ≠ 0 := fun zero => nulFree (zero ▸ member)
    simpa using other

end Connection

/-! ## All connections -/

section Runs

variable {ι κ S : Type*} [DecidableEq ι] {callback : κ → S → List UInt8 → ℤ × S} {msgs : ι → List UInt8}
  {s t : State ι S}

/-- What the server has read of the message that it is working on. -/
def Server.consumed (msg : List UInt8) : Server ι → List UInt8
  | .readMsg _ _ _ => intBytes msg.length
  | .callback _ _ | .writeBack _ _ | .stuck _ _ => intBytes msg.length ++ msg
  | _ => []

/-- Connections that are not over keep all their bytes, and the others have had their call. -/
structure Framed (msgs : ι → List UInt8) (s : State ι S) : Prop where
  msg : ∀ i, (s.clients i).msg = msgs i
  pending : ∀ i, (s.clients i).phase = .idle ∨ i ∈ s.backlog → Pending [] (s.clients i) (s.links i)
  serving : ∀ i, s.server.current = some i → Pending (s.server.consumed (msgs i)) (s.clients i) (s.links i)
  buffer : ∀ i msgLen block, s.server = .readMsg i msgLen block →
    msgLen = (msgs i).length ∧ ∃ memory, block = some memory ∧ memory.length = (msgs i).length + 1
  string : ∀ i msg, s.server = .callback i msg → msg = msgs i
  alive : s.server.running = true
  past : ∀ i, (s.clients i).phase ≠ .idle → i ∉ s.backlog → s.server.current ≠ some i →
    s.callsOf i ≠ [] ∧ (s.clients i).phase ∈ [.writeMsg, .readReply, .returned, .finished, .killed]
  exact : ∀ i, ∀ call ∈ s.callsOf i, call.msg = msgs i

theorem framed_initial (msgs : ι → List UInt8) (commands : ι → Bool) (daemon : S) :
    Framed msgs (State.initial msgs commands daemon) where
  msg _ := rfl
  pending _ _ := ⟨by simp [State.initial], rfl, rfl, rfl⟩
  serving _ current := absurd current (Option.some_ne_none _).symm
  buffer _ _ _ server := by contradiction
  string _ _ server := by contradiction
  alive := rfl
  past _ phase := absurd rfl phase
  exact _ _ member := absurd member List.not_mem_nil

theorem Framed.client (framed : Framed msgs s) (short : ∀ i, (msgs i).length + 1 < 2 ^ 31) {i : ι}
    {e : ClientEvent} {c : Client} {l : Link}
    (taken : Client.Taken s.listening (s.clients i) (s.links i) e c l)
    (uncut : Uncut s (.client i e : Label ι κ)) :
    Framed msgs { s with
      clients := Function.update s.clients i c
      links := Function.update s.links i l
      backlog := if e.connects then s.backlog ++ [i] else s.backlog } := by
  have small : (s.clients i).msg.length + 1 < 2 ^ 31 := by
    rw [framed.msg i]
    exact short i
  have member_iff (j : ι) : j ∈ (if e.connects then s.backlog ++ [i] else s.backlog) ↔
      j ∈ s.backlog ∨ e.connects = true ∧ j = i := by
    split <;> simp_all
  have forward {consumed : List UInt8} (j : ι) (pending : Pending consumed (s.clients j) (s.links j)) :
      Pending consumed (Function.update s.clients i c j) (Function.update s.links i l j) := by
    rcases eq_or_ne j i with rfl | apart
    · rw [Function.update_self, Function.update_self]
      exact pending.client small taken uncut
    · rwa [Function.update_of_ne apart, Function.update_of_ne apart]
  refine ⟨fun j => ?_, fun j early => ?_, fun j current => forward j (framed.serving j current), framed.buffer,
    framed.string, framed.alive, fun j phase absent other => ?_, framed.exact⟩
  · rcases eq_or_ne j i with rfl | apart
    · dsimp only
      rw [Function.update_self, taken.msg, framed.msg]
    · dsimp only
      rw [Function.update_of_ne apart, framed.msg]
  · refine forward j (framed.pending j ?_)
    rcases early with idle | member
    · rcases eq_or_ne j i with rfl | apart
      · simp only [Function.update_self] at idle
        exact absurd idle taken.phase_ne_idle
      · simp only [Function.update_of_ne apart] at idle
        exact .inl idle
    · rcases (member_iff j).mp member with old | ⟨connects, rfl⟩
      · exact .inr old
      · exact .inl (taken.idle_of_connects connects)
  · rw [member_iff, not_or] at absent
    rcases eq_or_ne j i with rfl | apart
    · have connected : (s.clients j).phase ≠ .idle := fun idle =>
        absent.2 ⟨connects_of_idle idle taken uncut, rfl⟩
      obtain ⟨calls, working⟩ := framed.past j connected absent.1 other
      refine ⟨calls, ?_⟩
      dsimp only
      rw [Function.update_self]
      exact past_client working taken uncut
    · simp only [Function.update_of_ne apart] at phase ⊢
      exact framed.past j phase absent.1 other

/-- The server reads on, on the connection it is working on. -/
theorem Framed.advance (framed : Framed msgs s) (orderly : Orderly s) {i : ι} {l : Link} {server : Server ι}
    (before : s.server.current = some i) (after : server.current = some i)
    (pending : Pending (server.consumed (msgs i)) (s.clients i) l)
    (buffer : ∀ j msgLen block, server = .readMsg j msgLen block →
      msgLen = (msgs j).length ∧ ∃ memory, block = some memory ∧ memory.length = (msgs j).length + 1)
    (string : ∀ j msg, server = .callback j msg → msg = msgs j) (alive : server.running = true) :
    Framed msgs { s with links := Function.update s.links i l, server } where
  msg := framed.msg
  pending j early := by
    have apart : j ≠ i := by
      rintro rfl
      rcases early with idle | member
      · exact orderly.serving j before idle
      · exact (orderly.queued j member).2 before
    dsimp only
    rw [Function.update_of_ne apart]
    exact framed.pending j early
  serving j current := by
    obtain rfl : i = j := Option.some.inj (after.symm.trans current)
    dsimp only
    rwa [Function.update_self]
  buffer := buffer
  string := string
  alive := alive
  past j phase absent other := framed.past j phase absent fun current => other (by
    rw [before] at current
    exact after.trans current)
  exact := framed.exact

/-- The connection is over, after its call. -/
theorem Framed.drop (framed : Framed msgs s) (orderly : Orderly s) {i : ι} {status : ℤ}
    (server : s.server = .writeBack i status) (link : Link) :
    Framed msgs (({ s with links := Function.update s.links i link } : State ι S).drop i) := by
  have current : s.server.current = some i := by rw [server]; rfl
  refine ⟨framed.msg, fun j early => ?_, by simp [State.drop, Server.current], by simp [State.drop],
    by simp [State.drop], rfl, fun j phase absent _ => ?_, framed.exact⟩
  · have apart : j ≠ i := by
      rintro rfl
      rcases early with idle | member
      · exact orderly.serving j current idle
      · exact (orderly.queued j member).2 current
    simp only [State.drop, Function.update_of_ne apart]
    exact framed.pending j early
  · rcases eq_or_ne j i with rfl | apart
    · obtain ⟨msg, calls⟩ := orderly.answering j status server
      refine ⟨by rw [State.callsOf] at calls ⊢; simp [State.drop, calls], ?_⟩
      obtain ⟨working, content, -, -⟩ := framed.serving j current
      simp only [List.mem_cons, List.not_mem_nil, or_false] at working
      rcases working with idle | writing | writing | reading
      · exact absurd idle phase
      · have size := congrArg List.length content
        simp [Client.sent, writing, server, Server.consumed] at size
      · simp [State.drop, writing]
      · simp [State.drop, reading]
    · exact framed.past j phase absent fun same => apart (Option.some.inj (same.symm.trans current))

theorem Framed.called (framed : Framed msgs s) {i : ι} {msg : List UInt8}
    (server : s.server = .callback i msg) (status : ℤ) (daemon : S) :
    Framed msgs (s.called ⟨i, msg, status⟩ daemon) := by
  have current : s.server.current = some i := by rw [server]; rfl
  refine ⟨framed.msg, framed.pending, fun j now => ?_, by simp [State.called], by simp [State.called],
    rfl, fun j phase absent other => ?_, fun j call member => ?_⟩
  · cases now
    have pending := framed.serving i current
    rwa [server] at pending
  · have apart : i ≠ j := fun same => other (by rw [same]; rfl)
    rw [callsOf_called, if_neg apart]
    exact framed.past j phase absent fun same => apart (Option.some.inj (current.symm.trans same))
  · rw [callsOf_called] at member
    split at member
    · next own =>
      rcases List.mem_append.mp member with old | new
      · exact framed.exact j call old
      · obtain rfl := List.mem_singleton.mp new
        obtain rfl : i = j := own
        exact framed.string i msg server
    · exact framed.exact j call member

theorem Framed.accepted (framed : Framed msgs s) {i : ι} {rest : List ι} (server : s.server = .accept)
    (backlog : s.backlog = i :: rest) : Framed msgs { s with backlog := rest, server := .readLength i } := by
  have first : i ∈ s.backlog := by rw [backlog]; exact List.mem_cons_self
  refine ⟨framed.msg, fun j early => framed.pending j (early.imp_right fun member => ?_), fun j current => ?_,
    by simp, by simp, rfl, fun j phase absent other => ?_, framed.exact⟩
  · rw [backlog]
    exact List.mem_cons_of_mem i member
  · cases current
    exact framed.pending i (.inr first)
  · have apart : j ≠ i := fun same => other (by rw [same]; rfl)
    refine framed.past j phase ?_ (by simp [server, Server.current])
    rw [backlog, List.mem_cons, not_or]
    exact ⟨apart, absent⟩

/-- The length that the server takes from the four bytes of the client. -/
theorem intValue_length {stale : List UInt8} (size : stale.length = 4) {msg : List UInt8}
    (short : msg.length + 1 < 2 ^ 31) : intValue (overwrite stale (intBytes msg.length)) = msg.length := by
  rw [overwrite_of_length_eq (by rw [length_intBytes, size]), intValue_intBytes (by omega) (by omega)]

/-- The four bytes of the length have been read at once. -/
theorem Framed.readLength (framed : Framed msgs s) {i : ι} {bytes : List UInt8} {up : Stream UInt8}
    (server : s.server = .readLength i) (received : (s.links i).up.read 4 4 = some (bytes, up)) :
    bytes = intBytes (msgs i).length ∧
      Pending (intBytes (msgs i).length) (s.clients i) { s.links i with up } := by
  obtain ⟨⟨-, available, -⟩, rfl, rfl⟩ := Stream.read_eq_some_iff.mp received
  have pending := framed.serving i (by rw [server]; rfl)
  rw [server] at pending
  rw [← framed.msg i]
  exact pending.length available

/-- The message has been read at once. -/
theorem Framed.readMsg (framed : Framed msgs s) {i : ι} {msgLen : ℤ} {block : Option (List UInt8)}
    {bytes : List UInt8} {up : Stream UInt8} (server : s.server = .readMsg i msgLen block)
    (received : (s.links i).up.read (msgs i).length (msgs i).length = some (bytes, up)) :
    bytes = msgs i ∧ Pending (intBytes (msgs i).length ++ msgs i) (s.clients i) { s.links i with up } := by
  obtain ⟨⟨-, available, -⟩, rfl, rfl⟩ := Stream.read_eq_some_iff.mp received
  have pending := framed.serving i (by rw [server]; rfl)
  rw [server, Server.consumed] at pending
  rw [← framed.msg i] at available pending ⊢
  exact pending.msg available

/-- A step of the server, in which the length and the message are read in one piece. -/
theorem Framed.server (framed : Framed msgs s) (orderly : Orderly s) (nulFree : ∀ i, 0 ∉ msgs i)
    (short : ∀ i, (msgs i).length + 1 < 2 ^ 31) {e : ServerEvent κ} (taken : ServerTaken callback s e t)
    (uncut : Uncut s (.server e : Label ι κ)) : Framed msgs t := by
  obtain ⟨regular, full⟩ := uncut
  cases taken with
  | again | lengthFailed | msgFailed | hung | aborted | backFailed => contradiction
  | accepted i rest server backlog => exact framed.accepted server backlog
  | gotLength i n bytes up stale block server received size small allocated =>
    obtain rfl : n = 4 := by simpa [Full] using full
    obtain ⟨rfl, pending⟩ := framed.readLength server received
    rw [intValue_length size (short i)] at allocated ⊢
    refine framed.advance orderly (by rw [server]; rfl) rfl pending (fun j len block' now => ?_) (by simp) rfl
    cases now
    refine ⟨rfl, ?_⟩
    cases block with
    | none => exact absurd regular Bool.false_ne_true
    | some memory =>
      have fits : memory.length = (msgs i).length + 1 := by
        simp only [mallocOk, decide_eq_true_eq] at allocated
        omega
      exact ⟨memory, rfl, fits⟩
  | overflowed i n bytes up stale block server received size large =>
    obtain rfl : n = 4 := by simpa [Full] using full
    obtain ⟨rfl, -⟩ := framed.readLength server received
    rw [intValue_length size (short i), intMax] at large
    have bound := short i
    omega
  | gotMsg i msgLen memory n bytes up server count received =>
    obtain ⟨rfl, memory', same, size⟩ := framed.buffer i msgLen (some memory) server
    obtain rfl := Option.some.inj same
    obtain rfl : n = (msgs i).length := by simpa [Full, server, Server.msgLen] using full
    rw [Int.toNat_natCast] at received ⊢
    obtain ⟨rfl, pending⟩ := framed.readMsg server received
    rw [cString_of_nulFree size (nulFree i)]
    refine framed.advance orderly (by rw [server]; rfl) rfl pending (by simp) (fun j msg now => ?_) rfl
    cases now
    rfl
  | faulted i msgLen n up server received =>
    obtain ⟨-, memory, block, -⟩ := framed.buffer i msgLen none server
    contradiction
  | called i msg input server => exact framed.called server _ _
  | piped i status res server closed =>
    have down := (framed.serving i (by rw [server]; rfl)).down
    rw [down] at closed
    contradiction
  | wroteBack i status n down server => exact framed.drop orderly server _

theorem Framed.step (framed : Framed msgs s) (orderly : Orderly s) (nulFree : ∀ i, 0 ∉ msgs i)
    (short : ∀ i, (msgs i).length + 1 < 2 ^ 31) {l : Label ι κ} (taken : s.step callback l = some t)
    (uncut : Uncut s l) : Framed msgs t := by
  cases l with
  | client i e =>
    obtain ⟨⟨c, l⟩, client, rfl⟩ := Option.map_eq_some_iff.mp taken
    exact framed.client short (Client.taken_of_step client) uncut
  | server e => exact framed.server orderly nulFree short (taken_of_serverStep taken) uncut
  | kill => exact absurd uncut.1 Bool.false_ne_true

end Runs

/-! ## Progress -/

section Progress

variable {ι κ S : Type*} [DecidableEq ι] {callback : κ → S → List UInt8 → ℤ × S} {msgs : ι → List UInt8}
  {s t : State ι S}

/-- A step without a short count is possible. -/
def CanGo (callback : κ → S → List UInt8 → ℤ × S) (s : State ι S) : Prop :=
  ∃ l, Uncut s l ∧ (s.step callback l).isSome = true

/-- A client that has still to write can write all of it. -/
theorem canGo_of_writing {consumed : List UInt8} {i : ι} (pending : Pending consumed (s.clients i) (s.links i))
    (short : (s.clients i).msg.length + 1 < 2 ^ 31)
    (writing : (s.clients i).phase = .writeLength ∨ (s.clients i).phase = .writeMsg) : CanGo callback s := by
  have opened := pending.opened
  have count := msgLen_eq short
  rcases writing with phase | phase
  · have written := Stream.write_full (s.links i).up (intBytes (s.clients i).msgLen) opened
    rw [length_intBytes] at written
    exact ⟨.client i (.writeLength (some 4)), ⟨rfl, rfl⟩, by
      simp [State.step, Client.step, phase, Client.write, opened, written]⟩
  · have written := Stream.write_full (s.links i).up (s.clients i).msg opened
    have accepted : ¬ ((s.clients i).msg.length : ℤ) < 0 := by omega
    exact ⟨.client i (.writeMsg (some (s.clients i).msg.length)), ⟨rfl, by simp [Full]⟩, by
      simp [State.step, Client.step, phase, Client.write, opened, count, accepted, written]⟩

/-- The server is waiting for the length: it can read it, or the client can write it. -/
theorem Framed.canGo_readLength (framed : Framed msgs s) (orderly : Orderly s)
    (short : ∀ i, (msgs i).length + 1 < 2 ^ 31) {i : ι} (server : s.server = .readLength i) :
    CanGo callback s := by
  have current : s.server.current = some i := by rw [server]; rfl
  have pending := framed.serving i current
  rw [server] at pending
  have small : (s.clients i).msg.length + 1 < 2 ^ 31 := by rw [framed.msg i]; exact short i
  have value := intValue_length (rfl : (List.replicate 4 (0 : UInt8)).length = 4) (short i)
  have readable (rest : List UInt8) (shape : (s.links i).up.buffer = intBytes (msgs i).length ++ rest) :
      CanGo callback s := by
    have received := Stream.read_full shape
    rw [length_intBytes] at received
    have bounded : ((msgs i).length : ℤ) ≠ intMax := by
      have bound := short i
      rw [intMax]
      omega
    exact ⟨.server (.readLength (some 4) (List.replicate 4 0) (some (List.replicate ((msgs i).length + 1) 0))),
      ⟨rfl, rfl⟩, by
        simp only [State.step, State.serverStep, server, received, value, List.length_replicate]
        simp [bounded, mallocOk]
        omega⟩
  have content : (s.links i).up.buffer = (s.clients i).sent := pending.content
  have phase := pending.phase
  simp only [List.mem_cons, List.not_mem_nil, or_false] at phase
  rcases phase with idle | writing | writing | reading
  · exact absurd idle (orderly.serving i current)
  · exact canGo_of_writing pending small (.inl writing)
  · exact readable [] (by rw [content, Client.sent, writing, framed.msg i, List.append_nil])
  · exact readable (msgs i) (by rw [content, Client.sent, reading, framed.msg i])

/-- The server is waiting for the message: it can read it, or the client can write it. -/
theorem Framed.canGo_readMsg (framed : Framed msgs s) (orderly : Orderly s)
    (short : ∀ i, (msgs i).length + 1 < 2 ^ 31) {i : ι} {msgLen : ℤ} {block : Option (List UInt8)}
    (server : s.server = .readMsg i msgLen block) : CanGo callback s := by
  have current : s.server.current = some i := by rw [server]; rfl
  have pending := framed.serving i current
  obtain ⟨rfl, memory, rfl, -⟩ := framed.buffer i msgLen block server
  rw [server, Server.consumed] at pending
  have small : (s.clients i).msg.length + 1 < 2 ^ 31 := by rw [framed.msg i]; exact short i
  have phase := pending.phase
  simp only [List.mem_cons, List.not_mem_nil, or_false] at phase
  rcases phase with idle | writing | writing | reading
  · exact absurd idle (orderly.serving i current)
  · exact canGo_of_writing pending small (.inl writing)
  · exact canGo_of_writing pending small (.inr writing)
  · have all : (s.links i).up.buffer = msgs i ++ [] := by
      have content := pending.content
      rw [Client.sent, reading, framed.msg i] at content
      rw [List.append_cancel_left content, List.append_nil]
    have received := Stream.read_full all
    exact ⟨.server (.readMsg (some (msgs i).length)), ⟨rfl, by simp [Full, server, Server.msgLen]⟩, by
      simp [State.step, State.serverStep, server, received]⟩

/-- As long as a connection has not had its call, something can be done. -/
theorem Framed.canGo [Nonempty κ] (framed : Framed msgs s) (orderly : Orderly s)
    (short : ∀ i, (msgs i).length + 1 < 2 ^ 31) {i : ι} (none : s.callsOf i = []) : CanGo callback s := by
  cases server : s.server with
  | accept =>
    have early : (s.clients i).phase = .idle ∨ i ∈ s.backlog := by
      by_contra! late
      exact (framed.past i late.1 late.2 (by simp [server, Server.current])).1 none
    rcases early with idle | member
    · exact ⟨.client i (.connect true), ⟨rfl, rfl⟩, by
        simp [State.step, Client.step, idle, State.listening, server]⟩
    · obtain ⟨j, rest, backlog⟩ := List.exists_cons_of_ne_nil (List.ne_nil_of_mem member)
      exact ⟨.server (.accept true), ⟨rfl, rfl⟩, by simp [State.step, State.serverStep, server, backlog]⟩
  | readLength j => exact framed.canGo_readLength orderly short server
  | readMsg j msgLen block => exact framed.canGo_readMsg orderly short server
  | callback j msg =>
    obtain ⟨input⟩ := ‹Nonempty κ›
    exact ⟨.server (.callback input), ⟨rfl, rfl⟩, by simp [State.step, State.serverStep, server]⟩
  | writeBack j status =>
    have down := (framed.serving j (by rw [server]; rfl)).down
    have written := Stream.write_full (s.links j).down (intBytes status) (by rw [down])
    rw [length_intBytes] at written
    exact ⟨.server (.writeBack (some 4)), ⟨rfl, rfl⟩, by
      simp only [State.step, State.serverStep, server, written]
      simp [down]⟩
  | stuck | dead => exact absurd framed.alive (by simp [server, Server.running])

/-! ## The number of steps -/

/-- The steps left to a client, and to the server for a client that has not connected. -/
def Phase.remaining : Phase → ℕ
  | .idle => 10
  | .writeLength => 4
  | .writeMsg => 3
  | .readReply => 2
  | .returned => 1
  | _ => 0

/-- The steps left to all. -/
def State.remaining [Fintype ι] (s : State ι S) : ℕ :=
  ∑ i, (s.clients i).phase.remaining + (5 * s.backlog.length + s.server.remaining)

theorem remaining_client {ι κ S : Type*} {s : State ι S} {i : ι} {e : ClientEvent} {c : Client} {l : Link}
    (taken : Client.Taken s.listening (s.clients i) (s.links i) e c l) (uncut : Uncut s (.client i e : Label ι κ)) :
    c.phase.remaining + (if e.connects then 5 else 0) < (s.clients i).phase.remaining := by
  have quiet (busy : (s.clients i).phase ≠ .idle) : e.connects = false := by
    rw [Bool.eq_false_iff]
    exact fun connects => busy (taken.idle_of_connects connects)
  cases taken with
  | refused | connectedRaw | quit | sentRaw | receivedRaw => exact absurd uncut.1 Bool.false_ne_true
  | failed _ phase =>
    simp only [List.mem_cons, List.not_mem_nil, or_false] at phase
    rcases phase with phase | phase | phase <;> simp [quiet, phase, Phase.remaining]
  | broken _ phase =>
    simp only [List.mem_cons, List.not_mem_nil, or_false] at phase
    rcases phase with phase | phase <;> simp [quiet, phase, Phase.remaining]
  | connected phase | wroteLength n up phase | wroteMsg n up phase | replied n bytes down phase
  | finished phase => simp [phase, Phase.remaining, ClientEvent.connects]

theorem remaining_server {e : ServerEvent κ} (taken : ServerTaken callback s e t)
    (uncut : Uncut s (.server e : Label ι κ)) (alive : t.server.running = true) :
    t.clients = s.clients ∧
      5 * t.backlog.length + t.server.remaining < 5 * s.backlog.length + s.server.remaining := by
  cases taken with
  | again => exact absurd uncut.1 Bool.false_ne_true
  | overflowed | faulted | hung | aborted | piped => exact absurd alive Bool.false_ne_true
  | accepted i rest server backlog =>
    refine ⟨rfl, ?_⟩
    rw [backlog, server, List.length_cons]
    simp only [Server.remaining]
    omega
  | lengthFailed _ _ _ server | gotLength _ _ _ _ _ _ server | msgFailed _ _ _ server
  | gotMsg _ _ _ _ _ _ server | called _ _ _ server | backFailed _ _ server | wroteBack _ _ _ _ server =>
    refine ⟨rfl, ?_⟩
    simp [server, Server.remaining, State.drop, State.called]

theorem remaining_step [Fintype ι] {l : Label ι κ} (taken : s.step callback l = some t) (uncut : Uncut s l)
    (alive : t.server.running = true) : t.remaining < s.remaining := by
  cases l with
  | client i e =>
    obtain ⟨⟨c, l⟩, client, rfl⟩ := Option.map_eq_some_iff.mp taken
    have lower := remaining_client (Client.taken_of_step client) uncut
    have others : ∑ j, (Function.update s.clients i c j).phase.remaining + (s.clients i).phase.remaining =
        ∑ j, (s.clients j).phase.remaining + c.phase.remaining := by
      have updated (j : ι) : (Function.update s.clients i c j).phase.remaining =
          Function.update (fun j => (s.clients j).phase.remaining) i c.phase.remaining j :=
        Function.apply_update (fun _ (c : Client) => c.phase.remaining) s.clients i c j
      rw [Finset.sum_congr rfl fun j _ => updated j, Finset.sum_update_of_mem (Finset.mem_univ i),
        Finset.sum_eq_add_sum_sdiff_singleton_of_mem (Finset.mem_univ i)]
      omega
    have backlog : (if e.connects then s.backlog ++ [i] else s.backlog).length =
        s.backlog.length + (if e.connects then 1 else 0) := by
      split <;> simp
    simp only [State.remaining, backlog]
    split at lower
    · next connects =>
      rw [if_pos connects]
      omega
    · next quiet =>
      rw [if_neg quiet]
      omega
  | server e =>
    obtain ⟨clients, lower⟩ := remaining_server (taken_of_serverStep taken) uncut alive
    rw [State.remaining, State.remaining, clients]
    omega
  | kill => exact absurd uncut.1 Bool.false_ne_true

/-- In every run whose length and message calls transfer all they were asked to: at every moment each
connection has had at most one call, with exactly its message; the run is no longer than ten steps for
each client; and when no such step is left, each connection has had its call. -/
theorem framing [Fintype ι] [Nonempty κ] (callback : κ → S → List UInt8 → ℤ × S) (msgs : ι → List UInt8)
    (commands : ι → Bool) (daemon : S) (nulFree : ∀ i, 0 ∉ msgs i) (short : ∀ i, (msgs i).length + 1 < 2 ^ 31)
    (labels : List (Label ι κ)) (s : State ι S)
    (success : LabeledRun.run (State.step callback) (State.initial msgs commands daemon) labels = some s)
    (uncut : LabeledRun.Along (State.step callback) Uncut (State.initial msgs commands daemon) labels) :
    (∀ i, s.callsOf i = [] ∨ ∃ status, s.callsOf i = [⟨i, msgs i, status⟩]) ∧
      labels.length ≤ 10 * Fintype.card ι ∧
      ((∀ l t, Uncut s l → s.step callback l ≠ some t) → ∀ i, ∃ status, s.callsOf i = [⟨i, msgs i, status⟩]) := by
  have preserved (s : State ι S) (l : Label ι κ) (t : State ι S) (inv : Orderly s ∧ Framed msgs s)
      (uncut : Uncut s l) (taken : s.step callback l = some t) : Orderly t ∧ Framed msgs t :=
    ⟨inv.1.step taken, inv.2.step inv.1 nulFree short taken uncut⟩
  have initial : Orderly (State.initial msgs commands daemon) ∧ Framed msgs (State.initial msgs commands daemon) :=
    ⟨orderly_initial msgs commands daemon, framed_initial msgs commands daemon⟩
  obtain ⟨orderly, framed⟩ : Orderly s ∧ Framed msgs s :=
    @LabeledRun.run_preserves _ _ _ _ _ _ _ (fun s => Orderly s ∧ Framed msgs s) preserved uncut initial success
  have exact (i : ι) : s.callsOf i = [] ∨ ∃ status, s.callsOf i = [⟨i, msgs i, status⟩] := by
    rcases orderly.once i with none | ⟨msg, status, one⟩
    · exact .inl none
    · obtain rfl : msg = msgs i := framed.exact i _ (by rw [one]; exact List.mem_cons_self)
      exact .inr ⟨status, one⟩
  refine ⟨exact, ?_, fun stuck i => (exact i).resolve_left fun none => ?_⟩
  · have bound := LabeledRun.run_length_le preserved
      (fun s l t inv uncut taken => remaining_step taken uncut (preserved s l t inv uncut taken).2.alive)
      uncut initial success
    have all : (State.initial msgs commands daemon).remaining = 10 * Fintype.card ι := by
      simp [State.remaining, State.initial, Phase.remaining, Server.remaining, mul_comm]
    omega
  · obtain ⟨l, full, enabled⟩ : CanGo callback s := framed.canGo orderly short none
    obtain ⟨t, taken⟩ := Option.isSome_iff_exists.mp enabled
    exact stuck l t full taken

end Progress

/-! ## Two messages -/

instance : Nonempty Surroundings := ⟨⟨pidHost, .flat [], runningIn []⟩⟩

/-- The wrapper's message, sent and read in one piece. -/
theorem framing_command :
    (commandState.get isSome_commandState).callsOf 0 = [] ∨
      ∃ status, (commandState.get isSome_commandState).callsOf 0 = [⟨0, (commandInitial.clients 0).msg, status⟩] :=
  (framing handleMsg (fun i => (commandInitial.clients i).msg) (fun _ => true)
    (appliedDaemon (Config.ofLists [] [] [] [])) (by decide) (by decide) commandLabels
    (commandState.get isSome_commandState) (Option.some_get isSome_commandState).symm (by decide +kernel)).1 0

/-- The message "ab", of which one read returns the first byte. -/
def shortLabels : List (Label (Fin 1) Unit) := (servedLabels () 2).set 5 (.server (.readMsg (some 1)))

/-- The callback gets "a". -/
theorem framing_short :
    (∀ l ∈ shortLabels, Regular l = true) ∧
      (LabeledRun.run (State.step fun _ _ _ => (0, ())) (State.initial (fun _ => [97, 98]) (fun _ => true) ())
        shortLabels).map State.calls = some [⟨0, [97], 0⟩] := by
  constructor
  · decide
  · decide +kernel

end CgProxy.Socket

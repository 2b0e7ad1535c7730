import CgProxy.Soundness.Framing

/-! # One client among others

The other clients send what they like or nothing, calls fail, and the daemon may be killed. Only the
calls that carry one client's message have to be whole, and that client has to run `SOCKET::send`: then
the callback sees its message and nothing else for its connection. The invariant follows the bytes of
that one connection; it says nothing about a client that was killed or follows no program.
-/

namespace CgProxy.Socket

open Posix

/-! ## The connection -/

/-- The client has not been killed, and runs `SOCKET::send` if it is connected. -/
def Client.Tame (c : Client) : Prop := c.phase ≠ .raw ∧ c.phase ≠ .killed

instance (c : Client) : Decidable c.Tame := inferInstanceAs (Decidable (_ ∧ _))

/-- The bytes that have been consumed and those that wait are the beginning of what the client is to send. -/
structure Sent (msg consumed : List UInt8) (c : Client) (l : Link) : Prop where
  begins : consumed ++ l.up.buffer <+: intBytes msg.length ++ msg
  length : c.phase = .writeMsg → consumed ++ l.up.buffer = intBytes msg.length
  nothing : c.phase = .idle ∨ c.phase = .writeLength → consumed ++ l.up.buffer = []

section Connection

variable {msg consumed : List UInt8} {listening : Bool} {c c' : Client} {l l' : Link} {e : ClientEvent}

theorem Client.Taken.tame (taken : Client.Taken listening c l e c' l') (tame : c'.Tame) : c.Tame := by
  cases taken with
  | sentRaw | receivedRaw => exact tame
  | connectedRaw => exact absurd rfl tame.1
  | broken | quit => exact absurd rfl tame.2
  | failed _ phase =>
    simp only [List.mem_cons, List.not_mem_nil, or_false] at phase
    rcases phase with phase | phase | phase <;> simp [Client.Tame, phase]
  | refused phase | connected phase | finished phase => simp [Client.Tame, phase]
  | wroteLength _ _ phase | wroteMsg _ _ phase => simp [Client.Tame, phase]
  | replied _ _ _ phase => simp [Client.Tame, phase]

theorem Sent.of_buffer (sent : Sent msg consumed c l) (same : l'.up.buffer = l.up.buffer) :
    Sent msg consumed c l' := by
  obtain ⟨begins, length, nothing⟩ := sent
  rw [← same] at begins length nothing
  exact ⟨begins, length, nothing⟩

/-- The client has no more to write. -/
theorem Sent.leave (sent : Sent msg consumed c l) (same : l'.up.buffer = l.up.buffer)
    (done : c'.phase = .returned ∨ c'.phase = .finished) : Sent msg consumed c' l' := by
  have begins := sent.begins
  rw [← same] at begins
  exact ⟨begins, fun writing => by simp [writing] at done, fun early => by
    rcases early with phase | phase <;> simp [phase] at done⟩

/-- A step of the client. The write of the length is to be whole. -/
theorem Sent.client (sent : Sent msg consumed c l) (own : c.msg = msg) (short : msg.length + 1 < 2 ^ 31)
    (taken : Client.Taken listening c l e c' l') (tame : c'.Tame) (whole : ∀ n, e = .writeLength (some n) → n = 4) :
    Sent msg consumed c' l' := by
  subst own
  cases taken with
  | connectedRaw | sentRaw _ _ phase | receivedRaw _ _ _ phase => simp_all [Client.Tame]
  | broken | quit => exact absurd rfl tame.2
  | refused | failed | replied => exact sent.leave rfl (.inl rfl)
  | finished => exact sent.leave rfl (.inr rfl)
  | connected phase => exact ⟨sent.begins, by simp, fun _ => sent.nothing (.inl phase)⟩
  | wroteLength n up phase written =>
    obtain rfl := whole n rfl
    obtain ⟨-, rfl⟩ := Stream.write_eq_some_iff.mp written
    have all : (intBytes c.msgLen).take 4 = intBytes c.msg.length := by
      rw [msgLen_eq short]
      exact List.take_of_length_le (by simp)
    have length : consumed ++ (l.up.buffer ++ (intBytes c.msgLen).take 4) = intBytes c.msg.length := by
      rw [← List.append_assoc, sent.nothing (.inr phase), List.nil_append, all]
    refine ⟨?_, fun _ => length, by simp⟩
    dsimp only
    rw [length]
    exact List.prefix_append _ _
  | wroteMsg n up phase count written =>
    obtain ⟨-, rfl⟩ := Stream.write_eq_some_iff.mp written
    refine ⟨?_, by simp, by simp⟩
    dsimp only
    rw [← List.append_assoc, sent.length phase, msgLen_eq short, Int.toNat_natCast, List.take_length,
      List.prefix_append_right_inj]
    exact List.take_prefix n _

/-- The length, read at once. -/
theorem Sent.readLength (sent : Sent msg [] c l) (available : 4 ≤ l.up.buffer.length) :
    l.up.buffer.take 4 = intBytes msg.length ∧
      Sent msg (intBytes msg.length) c { l with up := { l.up with buffer := l.up.buffer.drop 4 } } := by
  obtain ⟨begins, length, nothing⟩ := sent
  rw [List.nil_append] at begins length nothing
  have first : l.up.buffer.take 4 = intBytes msg.length := by
    obtain ⟨rest, whole⟩ := begins
    have front := congrArg (List.take 4) whole
    rwa [List.take_append_of_le_length available, List.take_append_of_le_length (by simp),
      List.take_of_length_le (by simp : (intBytes msg.length).length ≤ 4)] at front
  refine ⟨first, ?_⟩
  have same : intBytes msg.length ++ l.up.buffer.drop 4 = l.up.buffer := by rw [← first, List.take_append_drop]
  exact ⟨by rwa [same], by rwa [same], by rwa [same]⟩

/-- The message, read at once. -/
theorem Sent.readMsg (sent : Sent msg (intBytes msg.length) c l) (available : msg.length ≤ l.up.buffer.length) :
    l.up.buffer.take msg.length = msg ∧
      Sent msg (intBytes msg.length ++ msg) c { l with up := { l.up with buffer := l.up.buffer.drop msg.length } } := by
  have all : l.up.buffer = msg := by
    have begins : l.up.buffer <+: msg := (List.prefix_append_right_inj _).mp sent.begins
    exact begins.eq_of_length (le_antisymm begins.length_le available)
  obtain ⟨begins, length, nothing⟩ := sent
  have same : intBytes msg.length ++ msg ++ l.up.buffer.drop msg.length = intBytes msg.length ++ l.up.buffer := by
    rw [all, List.drop_length, List.append_nil]
  refine ⟨by rw [all, List.take_length], ?_⟩
  exact ⟨by rwa [same], by rwa [same], by rwa [same]⟩

end Connection

/-! ## The connection among the others -/

section Runs

variable {ι κ S : Type*} [DecidableEq ι] {callback : κ → S → List UInt8 → ℤ × S} {i : ι} {msg : List UInt8}
  {s t : State ι S}

/-- On this client's connection the length is written at once, and the length and the message are read at once. -/
def Intact (i : ι) (s : State ι S) : Label ι κ → Prop
  | .client j (.writeLength (some n)) => j = i → n = 4
  | .server (.readLength (some n) _ _) => s.server.current = some i → n = 4
  | .server (.readMsg (some n)) => s.server.current = some i → (n : ℤ) = s.server.msgLen
  | _ => True

instance (i : ι) (s : State ι S) (l : Label ι κ) : Decidable (Intact i s l) := by
  unfold Intact
  split <;> infer_instance

/-- As long as the client is tame, its bytes are on their way to the callback. -/
structure Own (i : ι) (msg : List UInt8) (s : State ι S) : Prop where
  given : (s.clients i).msg = msg
  waits : (s.clients i).Tame → (s.clients i).phase = .idle ∨ i ∈ s.backlog → Sent msg [] (s.clients i) (s.links i)
  serves : (s.clients i).Tame → s.server.current = some i →
    Sent msg (s.server.consumed msg) (s.clients i) (s.links i)
  buffer : (s.clients i).Tame → ∀ msgLen block, s.server = .readMsg i msgLen block →
    msgLen = msg.length ∧ ∀ memory, block = some memory → memory.length = msg.length + 1
  string : (s.clients i).Tame → ∀ text, s.server.passed = some (i, text) → text = msg
  exact : (s.clients i).Tame → ∀ call ∈ s.callsOf i, call.msg = msg

theorem own_initial (msgs : ι → List UInt8) (commands : ι → Bool) (daemon : S) (i : ι) :
    Own i (msgs i) (State.initial msgs commands daemon) where
  given := rfl
  waits _ _ := ⟨List.nil_prefix, by simp [State.initial], fun _ => rfl⟩
  serves _ current := absurd current (Option.some_ne_none _).symm
  buffer _ _ _ server := by contradiction
  string _ _ server := by contradiction
  exact _ _ member := absurd member List.not_mem_nil

theorem Own.client (own : Own i msg s) (short : msg.length + 1 < 2 ^ 31) {j : ι} {e : ClientEvent} {c : Client}
    {l : Link} (taken : Client.Taken s.listening (s.clients j) (s.links j) e c l)
    (whole : Intact i s (.client j e : Label ι κ)) :
    Own i msg { s with
      clients := Function.update s.clients j c
      links := Function.update s.links j l
      backlog := if e.connects then s.backlog ++ [j] else s.backlog } := by
  rcases eq_or_ne i j with rfl | apart
  · have before (tame : c.Tame) : (s.clients i).Tame := taken.tame tame
    have length (n : ℕ) (now : e = .writeLength (some n)) : n = 4 := by
      subst now
      exact whole rfl
    have forward {consumed : List UInt8} (tame : c.Tame) (sent : Sent msg consumed (s.clients i) (s.links i)) :
        Sent msg consumed c l := sent.client own.given short taken tame length
    refine ⟨?_, ?_, ?_, ?_, ?_, ?_⟩ <;> dsimp only <;> rw [Function.update_self]
    · rw [taken.msg, own.given]
    · rw [Function.update_self]
      refine fun tame early => forward tame (own.waits (before tame) ?_)
      rcases early with idle | member
      · exact absurd idle taken.phase_ne_idle
      · split at member
        · next connects => exact .inl (taken.idle_of_connects connects)
        · exact .inr member
    · rw [Function.update_self]
      exact fun tame current => forward tame (own.serves (before tame) current)
    · exact fun tame => own.buffer (before tame)
    · exact fun tame => own.string (before tame)
    · exact fun tame => own.exact (before tame)
  · have member_iff : (i ∈ if e.connects then s.backlog ++ [j] else s.backlog) ↔ i ∈ s.backlog := by
      split <;> simp [apart]
    refine ⟨?_, ?_, ?_, ?_, ?_, ?_⟩ <;> dsimp only <;> rw [Function.update_of_ne apart]
    · exact own.given
    · rw [Function.update_of_ne apart, member_iff]
      exact own.waits
    · rw [Function.update_of_ne apart]
      exact own.serves
    · exact own.buffer
    · exact own.string
    · exact own.exact

/-- The server goes on with another connection or with none. If it was not at this one, it has taken nothing from it. -/
theorem Own.elsewhere (own : Own i msg s) (orderly : Orderly s) {links : ι → Link} {backlog : List ι}
    {server : Server ι} (same : s.server.current ≠ some i → (links i).up.buffer = (s.links i).up.buffer)
    (fewer : i ∈ backlog → i ∈ s.backlog) (other : server.current ≠ some i) :
    Own i msg { s with links, backlog, server } where
  given := own.given
  waits tame early := by
    have waiting : (s.clients i).phase = .idle ∨ i ∈ s.backlog := early.imp_right fewer
    refine (own.waits tame waiting).of_buffer (same fun current => ?_)
    rcases waiting with idle | member
    · exact orderly.serving i current idle
    · exact (orderly.queued i member).2 current
  serves _ current := absurd current other
  buffer _ _ _ now := by
    cases now
    exact absurd rfl other
  string _ _ now := by
    cases server with
    | callback | stuck =>
      cases now
      exact absurd rfl other
    | _ => cases now
  exact := own.exact

theorem Own.drop (own : Own i msg s) (orderly : Orderly s) (j : ι) : Own i msg (s.drop j) := by
  refine own.elsewhere orderly (fun _ => ?_) id (by simp [Server.current])
  rcases eq_or_ne i j with rfl | apart
  · rw [Function.update_self]
    rfl
  · rw [Function.update_of_ne apart]

theorem Own.die (own : Own i msg s) (orderly : Orderly s) : Own i msg s.die :=
  own.elsewhere orderly (fun _ => rfl) id (by simp [Server.current])

/-- The server goes on with this connection. -/
theorem Own.advance (own : Own i msg s) (orderly : Orderly s) {l : Link} {server : Server ι}
    (before : s.server.current = some i)
    (sent : (s.clients i).Tame → Sent msg (server.consumed msg) (s.clients i) l)
    (buffer : (s.clients i).Tame → ∀ msgLen block, server = .readMsg i msgLen block →
      msgLen = msg.length ∧ ∀ memory, block = some memory → memory.length = msg.length + 1)
    (string : (s.clients i).Tame → ∀ text, server.passed = some (i, text) → text = msg) :
    Own i msg { s with links := Function.update s.links i l, server } where
  given := own.given
  waits _ early := by
    rcases early with idle | member
    · exact absurd idle (orderly.serving i before)
    · exact absurd before (orderly.queued i member).2
  serves tame _ := by
    dsimp only
    rw [Function.update_self]
    exact sent tame
  buffer := buffer
  string := string
  exact := own.exact

theorem Own.accepted (own : Own i msg s) (orderly : Orderly s) {j : ι} {rest : List ι} (backlog : s.backlog = j :: rest) :
    Own i msg { s with backlog := rest, server := .readLength j } := by
  rcases eq_or_ne i j with rfl | apart
  · have first : i ∈ s.backlog := by
      rw [backlog]
      exact List.mem_cons_self
    refine ⟨own.given, fun tame _ => own.waits tame (.inr first), fun tame _ => own.waits tame (.inr first),
      by simp, by simp [Server.passed], own.exact⟩
  · refine own.elsewhere orderly (fun _ => rfl) (fun member => ?_) fun now => apart (Option.some.inj now).symm
    rw [backlog]
    exact List.mem_cons_of_mem j member

theorem Own.called (own : Own i msg s) {j : ι} {text : List UInt8} (server : s.server = .callback j text) (status : ℤ)
    (daemon : S) : Own i msg (s.called ⟨j, text, status⟩ daemon) := by
  refine ⟨own.given, own.waits, fun tame current => ?_, by simp [State.called],
    by simp [State.called, Server.passed], fun tame call member => ?_⟩
  · cases current
    have sent := own.serves tame (by rw [server]; rfl)
    rwa [server] at sent
  · rw [callsOf_called] at member
    split at member
    · next same =>
      rcases List.mem_append.mp member with old | new
      · exact own.exact tame call old
      · obtain rfl := List.mem_singleton.mp new
        obtain rfl : j = i := same
        exact own.string tame text (by rw [server]; rfl)
    · exact own.exact tame call member

/-- A step of the server, in which the length and the message of this connection are read at once. -/
theorem Own.server (own : Own i msg s) (orderly : Orderly s) (nulFree : 0 ∉ msg) (short : msg.length + 1 < 2 ^ 31)
    {e : ServerEvent κ} (taken : ServerTaken callback s e t) (whole : Intact i s (.server e : Label ι κ)) :
    Own i msg t := by
  have upward {j : ι} (apart : i ≠ j) (up : Stream UInt8) :
      (Function.update s.links j { s.links j with up } i).up.buffer = (s.links i).up.buffer := by
    rw [Function.update_of_ne apart]
  have another {j : ι} (apart : i ≠ j) : some j ≠ some i := fun same => apart (Option.some.inj same).symm
  cases taken with
  | again => exact own
  | accepted j rest _ backlog => exact own.accepted orderly backlog
  | lengthFailed j | msgFailed j | backFailed j => exact own.drop orderly j
  | gotLength j n bytes up stale block server received size _ allocated =>
    rcases eq_or_ne i j with rfl | apart
    · have current : s.server.current = some i := by rw [server]; rfl
      obtain rfl := whole current
      obtain ⟨⟨-, available, -⟩, rfl, rfl⟩ := Stream.read_eq_some_iff.mp received
      have serves (tame : (s.clients i).Tame) : Sent msg [] (s.clients i) (s.links i) := by
        have sent := own.serves tame current
        rwa [server] at sent
      have length (tame : (s.clients i).Tame) :
          intValue (overwrite stale ((s.links i).up.buffer.take 4)) = msg.length := by
        rw [((serves tame).readLength available).1, intValue_length size short]
      refine own.advance orderly current (fun tame => ((serves tame).readLength available).2) ?_
        (by simp [Server.passed])
      intro tame msgLen block' now
      obtain ⟨-, rfl, rfl⟩ := Server.readMsg.inj now
      refine ⟨length tame, fun memory given => ?_⟩
      rw [length tame, given] at allocated
      simp only [mallocOk, decide_eq_true_eq] at allocated
      exact_mod_cast allocated.2
    · exact own.elsewhere orderly (fun _ => upward apart up) id (another apart)
  | overflowed j n bytes up _ _ server =>
    refine own.elsewhere orderly (fun other => upward (fun same => other ?_) up) id (by simp [Server.current])
    rw [server, same]
    rfl
  | gotMsg j msgLen memory n bytes up server count received =>
    rcases eq_or_ne i j with rfl | apart
    · have current : s.server.current = some i := by rw [server]; rfl
      have all : (n : ℤ) = msgLen := by simpa [server, Server.msgLen] using whole current
      subst all
      rw [Int.toNat_natCast] at received ⊢
      obtain ⟨⟨-, available, -⟩, rfl, rfl⟩ := Stream.read_eq_some_iff.mp received
      have serves (tame : (s.clients i).Tame) : Sent msg (intBytes msg.length) (s.clients i) (s.links i) := by
        have sent := own.serves tame current
        rwa [server] at sent
      have length (tame : (s.clients i).Tame) : n = msg.length := by
        have known := (own.buffer tame n (some memory) server).1
        omega
      refine own.advance orderly current (fun tame => ?_) (by simp) ?_
      · obtain rfl := length tame
        exact ((serves tame).readMsg available).2
      · rintro tame text ⟨⟩
        obtain rfl := length tame
        rw [((serves tame).readMsg available).1]
        exact cString_of_nulFree ((own.buffer tame _ _ server).2 memory rfl) nulFree
    · exact own.elsewhere orderly (fun _ => upward apart up) id (another apart)
  | faulted | aborted | piped => exact own.die orderly
  | hung j text server =>
    refine ⟨own.given, own.waits, fun tame current => ?_, by simp, fun tame => ?_, own.exact⟩
    · have sent := own.serves tame (by rw [server]; exact current)
      rwa [server] at sent
    · have string := own.string tame
      rwa [server] at string
  | called j text input server => exact own.called server _ _
  | wroteBack j status n down server =>
    refine own.elsewhere orderly (fun other => ?_) id (by simp [Server.current])
    have apart : i ≠ j := by
      rintro rfl
      exact other (by rw [server]; rfl)
    dsimp only
    rw [Function.update_of_ne apart, Function.update_of_ne apart]

theorem Own.step (own : Own i msg s) (orderly : Orderly s) (nulFree : 0 ∉ msg) (short : msg.length + 1 < 2 ^ 31)
    {l : Label ι κ} (taken : s.step callback l = some t) (whole : Intact i s l) : Own i msg t := by
  cases l with
  | client j e =>
    obtain ⟨⟨c, l⟩, client, rfl⟩ := Option.map_eq_some_iff.mp taken
    exact own.client short (Client.taken_of_step client) whole
  | server e => exact own.server orderly nulFree short (taken_of_serverStep taken) whole
  | kill =>
    simp only [State.step] at taken
    split_ifs at taken
    cases taken
    exact own.die orderly

/-- Every state reached keeps the connection's message. -/
theorem own_run {msgs : ι → List UInt8} {commands : ι → Bool} {daemon : S} {labels : List (Label ι κ)} (i : ι)
    (nulFree : 0 ∉ msgs i) (short : (msgs i).length + 1 < 2 ^ 31)
    (success : LabeledRun.run (State.step callback) (State.initial msgs commands daemon) labels = some s)
    (whole : LabeledRun.Along (State.step callback) (Intact i) (State.initial msgs commands daemon) labels) :
    Orderly s ∧ Own i (msgs i) s := by
  have preserved (s : State ι S) (l : Label ι κ) (t : State ι S) (inv : Orderly s ∧ Own i (msgs i) s)
      (whole : Intact i s l) (taken : s.step callback l = some t) : Orderly t ∧ Own i (msgs i) t :=
    ⟨inv.1.step taken, inv.2.step inv.1 nulFree short taken whole⟩
  exact @LabeledRun.run_preserves _ _ _ _ _ _ _ (fun s => Orderly s ∧ Own i (msgs i) s) preserved whole
    ⟨orderly_initial msgs commands daemon, own_initial msgs commands daemon i⟩ success

/-- In every run, whatever the other clients do and whatever fails: if the calls that carry this client's message
are whole, its connection has had at most one call of the callback that has returned, with exactly its message, and
one that has not has the same message. -/
theorem own_message (callback : κ → S → List UInt8 → ℤ × S) (msgs : ι → List UInt8) (commands : ι → Bool) (daemon : S)
    (i : ι) (nulFree : 0 ∉ msgs i) (short : (msgs i).length + 1 < 2 ^ 31) (labels : List (Label ι κ)) (s : State ι S)
    (success : LabeledRun.run (State.step callback) (State.initial msgs commands daemon) labels = some s)
    (whole : LabeledRun.Along (State.step callback) (Intact i) (State.initial msgs commands daemon) labels)
    (tame : (s.clients i).Tame) :
    (s.callsOf i = [] ∨ ∃ status, s.callsOf i = [⟨i, msgs i, status⟩]) ∧
      ∀ msg, s.server.passed = some (i, msg) → msg = msgs i ∧ s.callsOf i = [] := by
  obtain ⟨orderly, own⟩ := own_run i nulFree short success whole
  constructor
  · rcases orderly.once i with none | ⟨msg, status, one⟩
    · exact .inl none
    · have exact : msg = msgs i := own.exact tame ⟨i, msg, status⟩ (by rw [one]; exact List.mem_cons_self)
      rw [exact] at one
      exact .inr ⟨status, one⟩
  · intro msg passed
    exact ⟨own.string tame msg passed, orderly.waiting i (.inr (.inr (awaiting_of_passed passed)))⟩

end Runs

/-! ## A hostile client -/

/-- The first client sends one byte of garbage, the second is the wrapper. -/
def hostileInitial : State (Fin 2) Daemon :=
  State.initial (fun i => if i = 0 then [] else proxyPidText.map fun c => UInt8.ofNat c.toNat) (fun _ => true)
    (appliedDaemon (Config.ofLists [] [] [] []))

/-- Both are connected before either is served. -/
def hostileLabels : List (Label (Fin 2) Surroundings) :=
  let around : Surroundings := ⟨pidHost, .flat [], { runningIn [] with answers := fun _ => ⟨true, .moved⟩ }⟩
  [.client 0 .connectRaw, .client 0 (.sendRaw [1, 0, 0, 0, 65]), .client 1 (.connect true), .server (.accept true),
    .server (.readLength (some 4) [0, 0, 0, 0] (some [7, 7])), .client 1 (.writeLength (some 4)),
    .server (.readMsg (some 1)), .server (.callback around), .server (.writeBack (some 4)), .server (.accept true),
    .server (.readLength (some 4) [1, 0, 0, 0] (some (List.replicate 22 7))), .client 1 (.writeMsg (some 21)),
    .server (.readMsg (some 21)), .server (.callback around), .server (.writeBack (some 4)),
    .client 1 (.readReply (some 4)), .client 1 .main]

def hostileState : Option (State (Fin 2) Daemon) :=
  LabeledRun.run (State.step handleMsg) hostileInitial hostileLabels

theorem isSome_hostileState : hostileState.isSome = true := by decide +kernel

/-- The wrapper's message arrives as it was sent. -/
theorem own_message_hostile :
    (hostileState.get isSome_hostileState).callsOf 1 = [] ∨
      ∃ status, (hostileState.get isSome_hostileState).callsOf 1 = [⟨1, (hostileInitial.clients 1).msg, status⟩] :=
  (own_message handleMsg (fun i => (hostileInitial.clients i).msg) (fun _ => true)
    (appliedDaemon (Config.ofLists [] [] [] [])) 1 (by decide) (by decide) hostileLabels
    (hostileState.get isSome_hostileState) (Option.some_get isSome_hostileState).symm (by decide +kernel)
    (by decide +kernel)).1

end CgProxy.Socket

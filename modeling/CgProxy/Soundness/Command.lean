import CgProxy.Model.Request
import CgProxy.Soundness.Isolation
import CgProxy.Soundness.Loading

/-! # A command runs in its slice or not at all

The wrapper, its connection and the daemon's handler together. A call of the callback is traced back to
the step of the run in which the daemon made it, and the wrapper's message to the `attach` that it asks
for; a command that is executed then has had that `attach`, for its own process, with the answer 0.
-/

namespace CgProxy.Socket

open Posix Wrapper

/-! ## Where calls come from -/

section Calls

variable {ι κ S : Type*} [DecidableEq ι] {callback : κ → S → List UInt8 → ℤ × S} {s t : State ι S} {l : Label ι κ}

/-- Only the server's callback adds a call. -/
theorem calls_of_step (taken : s.step callback l = some t) :
    t.calls = s.calls ∨ ∃ i msg input, l = .server (.callback input) ∧ s.server = .callback i msg ∧
      t.calls = s.calls ++ [⟨i, msg, (callback input s.daemon msg).1⟩] := by
  cases l with
  | client i e =>
    obtain ⟨⟨c, l⟩, -, rfl⟩ := Option.map_eq_some_iff.mp taken
    exact .inl rfl
  | server e =>
    have taken : ServerTaken callback s e t := taken_of_serverStep taken
    cases taken with
    | called i msg input server => exact .inr ⟨i, msg, input, rfl, server, rfl⟩
    | _ => exact .inl rfl
  | kill =>
    simp only [State.step] at taken
    split_ifs at taken
    cases taken
    exact .inl rfl

/-- A call was made at a moment of the run at which the server had read its message. -/
theorem exists_of_mem_calls {initial : State ι S} {labels : List (Label ι κ)} (none : initial.calls = [])
    (success : LabeledRun.run (State.step callback) initial labels = some s) {call : Call ι} (member : call ∈ s.calls) :
    ∃ before input after mid, labels = before ++ .server (.callback input) :: after ∧
      LabeledRun.run (State.step callback) initial before = some mid ∧
        mid.server = .callback call.client call.msg ∧ call.status = (callback input mid.daemon call.msg).1 := by
  suffices recorded : LabeledRun.run (State.step callback) initial labels = some s ∧ ∀ call ∈ s.calls,
      ∃ before input after mid, labels = before ++ .server (.callback input) :: after ∧
        LabeledRun.run (State.step callback) initial before = some mid ∧
          mid.server = .callback call.client call.msg ∧ call.status = (callback input mid.daemon call.msg).1 from
    recorded.2 call member
  refine @LabeledRun.run_recorded _ _ (State.step callback) _ _ _ (fun done now =>
    LabeledRun.run (State.step callback) initial done = some now ∧ ∀ call ∈ now.calls,
      ∃ before input after mid, done = before ++ .server (.callback input) :: after ∧
        LabeledRun.run (State.step callback) initial before = some mid ∧
          mid.server = .callback call.client call.msg ∧ call.status = (callback input mid.daemon call.msg).1)
    ?_ [] ⟨rfl, by simp [none]⟩ success
  rintro done now l next ⟨reached, known⟩ taken
  refine ⟨by rw [LabeledRun.run_append, reached]; simp [LabeledRun.run, taken], fun call member => ?_⟩
  have old (earlier : call ∈ now.calls) : ∃ before input after mid,
      done ++ [l] = before ++ .server (.callback input) :: after ∧
        LabeledRun.run (State.step callback) initial before = some mid ∧
          mid.server = .callback call.client call.msg ∧ call.status = (callback input mid.daemon call.msg).1 := by
    obtain ⟨before, input, after, mid, rfl, rest⟩ := known call earlier
    exact ⟨before, input, after ++ [l], mid, by simp, rest⟩
  rcases calls_of_step taken with same | ⟨i, msg, input, rfl, server, added⟩
  · rw [same] at member
    exact old member
  · rw [added, List.mem_append, List.mem_singleton] at member
    rcases member with earlier | rfl
    · exact old earlier
    · exact ⟨done, input, [], now, rfl, reached, server, rfl⟩

/-- A client whose command has been executed has read a 0, and is done. -/
structure Executed (command : Bool) (c : Client) : Prop where
  command : c.command = command
  status : c.executed = true → c.phase = .finished ∧ intValue c.status = 0 ∧ c.command = true

theorem Executed.client {command listening : Bool} {c c' : Client} {l l' : Link} {e : ClientEvent}
    (executed : Executed command c) (taken : Client.Taken listening c l e c' l') : Executed command c' := by
  obtain ⟨given, status⟩ := executed
  have idle (other : c.phase ≠ .finished) : c.executed = false := by
    rw [Bool.eq_false_iff]
    exact fun now => other (status now).1
  cases taken with
  | finished phase =>
    refine ⟨given, fun now => ⟨rfl, ?_⟩⟩
    simpa using now
  | failed _ phase | broken _ phase | quit phase =>
    refine ⟨given, fun now => ?_⟩
    simp only [List.mem_cons, List.not_mem_nil, or_false] at phase
    rw [idle (by rintro same; simp [same] at phase)] at now
    contradiction
  | refused phase | connected phase | connectedRaw phase | wroteLength _ _ phase | wroteMsg _ _ phase
  | replied _ _ _ phase =>
    refine ⟨given, fun now => ?_⟩
    exact absurd ((idle (by simp [phase])).symm.trans now) Bool.false_ne_true
  | sentRaw | receivedRaw => exact ⟨given, status⟩

theorem executed_run {msgs : ι → List UInt8} {commands : ι → Bool} {daemon : S} {labels : List (Label ι κ)}
    (success : LabeledRun.run (State.step callback) (State.initial msgs commands daemon) labels = some s) (i : ι) :
    Executed (commands i) (s.clients i) := by
  refine @LabeledRun.run_invariant _ _ (State.step callback) _ _ _ (fun s => Executed (commands i) (s.clients i))
    (fun s l t executed taken => ?_) ⟨rfl, by simp [State.initial]⟩ success
  cases l with
  | client j e =>
    obtain ⟨⟨c, l⟩, client, rfl⟩ := Option.map_eq_some_iff.mp taken
    dsimp only
    rcases eq_or_ne i j with rfl | apart
    · rw [Function.update_self]
      exact executed.client (Client.taken_of_step client)
    · rwa [Function.update_of_ne apart]
  | server e =>
    have same : t.clients = s.clients := by
      have taken : ServerTaken callback s e t := taken_of_serverStep taken
      cases taken <;> rfl
    rwa [same]
  | kill =>
    simp only [State.step] at taken
    split_ifs at taken
    cases taken
    exact executed

end Calls

/-! ## What the message asks for -/

section Message

variable {around : Surroundings} {pid : ℤ} {proxy : Bool}

theorem pidMessage_sendPidJson {host : Host} {text : Str} (fits : IsInt pid)
    (parsed : host.parse text = .ok (sendPidJson pid proxy).reparsed) :
    PidMessage host text (if proxy then Daemon.msgTypeProxyPid else Daemon.msgTypeNoproxyPid) pid := by
  have distinct (value data : Json) :
      ([("type".toList, value), ("data".toList, data)].map Prod.fst).Nodup := by
    simp
  refine ⟨_, parsed, ?_, ?_⟩
  · rw [sendPidJson, Json.at?_reparsed, Json.at?_assigned (distinct _ _) List.mem_cons_self]
    cases proxy <;> rfl
  · rw [sendPidJson, Json.at?_reparsed, Json.at?_assigned (distinct _ _) (List.mem_cons_of_mem _ List.mem_cons_self)]
    exact getInt_reparsed fits

/-- What the daemon does with the message of `send_pid`. -/
theorem handleMsg_sendPid (d : Daemon) {r : Request} (fits : IsInt r.pid)
    (parsed : around.host.parse (sendPidText r.pid r.proxy) = .ok (sendPidJson r.pid r.proxy).reparsed) :
    (handleMsg around d (bytesOf (sendPidText r.pid r.proxy))).1 = (around.world.attach r.pid r.slice).1 ∧
      (handleMsg around d (bytesOf (sendPidText r.pid r.proxy))).2.world = (around.world.attach r.pid r.slice).2 := by
  have asks := pidMessage_sendPidJson fits parsed
  obtain ⟨pid, proxy, line⟩ := r
  obtain ⟨j, reads, type, data⟩ := asks
  rw [handleMsg, map_bytesOf (plain_sendPidText _ _), Daemon.handleMsg, reads]
  cases proxy with
  | true =>
    dsimp only
    rw [Daemon.dispatch_proxyPid type, data]
    exact ⟨rfl, rfl⟩
  | false =>
    dsimp only
    rw [Daemon.dispatch_noproxyPid type, data]
    exact ⟨rfl, rfl⟩

end Message

section Runs

variable {ι : Type*} [DecidableEq ι]

/-- In every run, whatever other clients do and whatever fails: a wrapper executes a command only after the daemon,
on this wrapper's own message, has called `attach` for this wrapper's process and the slice that it asks for, and
`attach` has returned 0. The line is then the one that `main` hands to `system`. -/
theorem command_attached (msgs : ι → List UInt8) (commands : ι → Bool) (daemon : Daemon) (i : ι) (argv : List Str)
    (self : ℤ) (isPid : 0 < self ∧ self < 2147483648) (r : Request) (asks : request argv self = .ok r)
    (sends : msgs i = bytesOf (sendPidText r.pid r.proxy)) (commanded : commands i = r.line.isSome)
    (labels : List (Label ι Surroundings)) (t : State ι Daemon)
    (parses : ∀ around, .server (.callback around) ∈ labels →
      around.host.parse (sendPidText r.pid r.proxy) = .ok (sendPidJson r.pid r.proxy).reparsed)
    (success : LabeledRun.run (State.step handleMsg) (State.initial msgs commands daemon) labels = some t)
    (whole : LabeledRun.Along (State.step handleMsg) (Intact i) (State.initial msgs commands daemon) labels)
    (executed : (t.clients i).executed = true) :
    (∃ line, r.line = some line ∧ Wrapper.main argv self (fun _ _ => intValue (t.clients i).status) = .system line) ∧
      ∃ before around after mid, labels = before ++ .server (.callback around) :: after ∧
        LabeledRun.run (State.step handleMsg) (State.initial msgs commands daemon) before = some mid ∧
        mid.server = .callback i (msgs i) ∧ (mid.clients i).executed = false ∧
        (around.world.attach self r.slice).1 = Status.success ∧
        (handleMsg around mid.daemon (msgs i)).2.world = (around.world.attach self r.slice).2 := by
  obtain ⟨given, status⟩ := executed_run success i
  obtain ⟨done, zero, command⟩ := status executed
  have line : r.line.isSome = true := by rw [← commanded, ← given, command]
  have own : r.pid = self := pid_of_line asks line
  have low : -2147483648 ≤ r.pid := by omega
  have high : r.pid < 2147483648 := by omega
  have plain := plain_sendPidText r.pid r.proxy
  refine ⟨?_, ?_⟩
  · obtain ⟨l, known⟩ := Option.isSome_iff_exists.mp line
    refine ⟨l, known, ?_⟩
    rw [main_eq, asks, zero]
    simp [Request.finish, known]
  · have answered := (answered_run handleMsg_mem_codes success).2
    obtain ⟨call, member, granted⟩ := (answered.kept i).executed executed
    have mine : call.client = i := by simpa using (List.mem_filter.mp member).2
    have nulFree : 0 ∉ msgs i := by
      rw [sends]
      exact zero_notMem_bytesOf plain
    have short : (msgs i).length + 1 < 2 ^ 31 := by
      have bound := length_sendPidText_le low high r.proxy
      rw [sends, bytesOf, List.length_map]
      omega
    have exact : call.msg = msgs i :=
      (own_run i nulFree short success whole).2.exact (by simp [Client.Tame, done]) call member
    obtain ⟨before, around, after, mid, rfl, reached, server, returned⟩ :=
      exists_of_mem_calls rfl success (List.mem_filter.mp member).1
    rw [mine, exact] at server
    rw [granted, exact, sends] at returned
    have did := handleMsg_sendPid mid.daemon ⟨low, high⟩ (parses around (by simp))
    refine ⟨before, around, after, mid, rfl, reached, server, ?_, ?_, ?_⟩
    · rw [Bool.eq_false_iff]
      intro early
      obtain ⟨orderly, answered⟩ := answered_run handleMsg_mem_codes reached
      obtain ⟨call, member, -⟩ := (answered.kept i).executed early
      rw [orderly.waiting i (.inr (.inr (by rw [server]; rfl)))] at member
      exact absurd member List.not_mem_nil
    · rw [← own, ← did.1]
      exact returned.symm
    · rw [← own, sends]
      exact did.2

end Runs

/-- The wrapper beside a hostile client: `cgproxy curl`, as process 100. -/
theorem command_attached_curl :
    ∃ before around after mid, hostileLabels = before ++ .server (.callback around) :: after ∧
      LabeledRun.run (State.step handleMsg) hostileInitial before = some mid ∧
      (mid.clients 1).executed = false ∧
      (around.world.attach 100 cgroupProxyPreserved).1 = Status.success := by
  have parses (around : Surroundings) (member : .server (.callback around) ∈ hostileLabels) :
      around.host.parse (sendPidText 100 true) = .ok (sendPidJson 100 true).reparsed := by
    have host : around.host = pidHost := by
      simp only [hostileLabels, List.mem_cons, List.not_mem_nil, or_false, reduceCtorEq, false_or,
        Label.server.injEq, ServerEvent.callback.injEq, or_self] at member
      rw [member]
    rw [host]
    rfl
  obtain ⟨-, before, around, after, mid, labels, reached, -, early, granted, -⟩ :=
    command_attached (fun i => (hostileInitial.clients i).msg) (fun _ => true)
      (appliedDaemon (Config.ofLists [] [] [] [])) 1 ["cgproxy".toList, "curl".toList] 100 (by decide)
      ⟨100, true, some "curl".toList⟩ (by decide) (by decide) rfl hostileLabels (hostileState.get isSome_hostileState)
      parses (Option.some_get isSome_hostileState).symm (by decide +kernel) (by decide +kernel)
  exact ⟨before, around, after, mid, labels, reached, early, granted⟩

end CgProxy.Socket

import CgProxy.Model.Signal
import CgProxy.Soundness.Interrupted

/-! # No rules outlive the daemon

The handler's CLEAN and the socket thread's scripts overlap in any way. Three predicates say what the
socket thread is at and what the tables are: `Alone` until the handler's CLEAN makes its probe, `Beside`
while that CLEAN removes, `Over` when it has ended. Two CLEANs may run beside each other. A START may
not: one that is launched after the signal, that is overtaken by the removals, or that has begun when
the probe finds nothing, leaves its rules behind. `Timely` excludes exactly these steps.
-/

namespace CgProxy

open Netfilter Script LabeledRun

namespace Script.Process

/-- A CLEAN before its probe, with the environment it was launched with. -/
inductive Asks (env : Env) : Process → Prop where
  | launched : Asks env (launched env true)
  | probing (target : Str) : Asks env (probing env target)

variable {env : Env} {p : Process}

/-- What a CLEAN that has not probed yet does next. -/
theorem Asks.step (asks : Asks env p) (k : Kernel) :
    (p.step k).2 = k ∧
      (Asks env (p.step k).1 ∨
        ((p.step k).1 = finished ∧ .tproxyEnt ∉ (k.tables .ipv4).mangle.chains) ∨
        ∃ target, (p.step k).1 = removing (stopCommands (params env)) target ∧
          .tproxyEnt ∈ (k.tables .ipv4).mangle.chains) := by
  cases asks with
  | launched => exact ⟨rfl, .inl (.probing _)⟩
  | probing target =>
    rw [Process.step]
    split
    · next absent => exact ⟨rfl, .inr (.inl ⟨rfl, absent⟩)⟩
    · next present => exact ⟨rfl, .inr (.inr ⟨target, rfl, not_not.mp present⟩)⟩

end Script.Process

namespace Signal

/-! ## The condition -/

/-- The steps that do no harm. A START is launched only before the signal, its commands that take effect
are those that the handler's CLEAN is going to undo, and that CLEAN finds TPROXY_ENT unless no START is
between its commands. -/
def Timely (s : State) : Label → Prop
  | .next => s.socket = .exported → s.handler = .quiet
  | .script => ∀ c rest, s.socket = .starting (.installing (c :: rest)) → s.kernel.exec c ≠ none →
      s.handler.over = false ∧ ∀ d ∈ s.handled, ¬ d.Undoes c
  | .cleanup => ∀ env target, s.handler = .cleaning (.probing env target) →
      .tproxyEnt ∉ (s.kernel.tables .ipv4).mangle.chains → ∀ c rest, s.socket ≠ .starting (.installing (c :: rest))
  | _ => True

/-! ## What the tables can be -/

/-- Either nothing is installed, or a stop finds what is. -/
def Settled (k₀ : Kernel) (prm : Params) (k : Kernel) : Prop :=
  k.tables = k₀.tables ∨
    (Remains (fullBy prm) k₀ k ∧ .tproxyEnt ∈ (k.tables .ipv4).mangle.chains)

/-- Before the handler's probe only the socket thread's scripts have edited the tables. -/
inductive Alone (k₀ : Kernel) (prm : Params) (k : Kernel) : Socket → Prop where
  | idle (settled : Settled k₀ prm k) : Alone k₀ prm k .idle
  | asking {env : Env} {p : Process} (asks : p.Asks env) (same : params env = prm) (settled : Settled k₀ prm k) :
      Alone k₀ prm k (.cleaning p)
  | removing {done rest : List Command} (target : Str) (cleared : Cleared prm done rest k)
      (remains : Remains (fullBy prm) k₀ k) : Alone k₀ prm k (.cleaning (.removing rest target))
  | cleaned (restored : k.tables = k₀.tables) : Alone k₀ prm k (.cleaning .finished)
  | exported (restored : k.tables = k₀.tables) : Alone k₀ prm k .exported
  | preparing {env : Env} {n : ℕ} {p : Process} (prepares : p.Prepares env n) (same : params env = prm)
      (restored : k.tables = k₀.tables) : Alone k₀ prm k (.starting p)
  | installing (noproxy proxy : List Str) (done rest : List Command)
      (split : done ++ rest = startCommands prm noproxy proxy) (built : k.tables = (k₀.runAll done).tables) :
      Alone k₀ prm k (.starting (.installing rest))
  | started (settled : Settled k₀ prm k) : Alone k₀ prm k (.starting .finished)

/-- While the handler's CLEAN removes, the socket thread may run another one, or finish its START. -/
inductive Beside (k₀ : Kernel) (prm : Params) (k : Kernel) : Socket → Prop where
  | idle : Beside k₀ prm k .idle
  | asking {env : Env} {p : Process} (asks : p.Asks env) (same : params env = prm) : Beside k₀ prm k (.cleaning p)
  | removing {done rest : List Command} (target : Str) (cleared : Cleared prm done rest k) :
      Beside k₀ prm k (.cleaning (.removing rest target))
  | cleaned : Beside k₀ prm k (.cleaning .finished)
  | exported : Beside k₀ prm k .exported
  | installing (noproxy proxy : List Str) (done rest : List Command)
      (split : done ++ rest = startCommands prm noproxy proxy) (remains : Remains (addedBy done) k₀ k) :
      Beside k₀ prm k (.starting (.installing rest))
  | started : Beside k₀ prm k (.starting .finished)

/-- When it has ended nothing is left, or the socket thread's CLEAN is still removing it. -/
inductive Over (k₀ : Kernel) (prm : Params) (k : Kernel) : Socket → Prop where
  | idle (restored : k.tables = k₀.tables) : Over k₀ prm k .idle
  | asking {env : Env} {p : Process} (asks : p.Asks env) (restored : k.tables = k₀.tables) :
      Over k₀ prm k (.cleaning p)
  | removing {done rest : List Command} (target : Str) (cleared : Cleared prm done rest k)
      (remains : Remains (fullBy prm) k₀ k) : Over k₀ prm k (.cleaning (.removing rest target))
  | cleaned (restored : k.tables = k₀.tables) : Over k₀ prm k (.cleaning .finished)
  | exported (restored : k.tables = k₀.tables) : Over k₀ prm k .exported
  | preparing {env : Env} {n : ℕ} {p : Process} (prepares : p.Prepares env n) (restored : k.tables = k₀.tables) :
      Over k₀ prm k (.starting p)
  | installing (rest : List Command) (restored : k.tables = k₀.tables) : Over k₀ prm k (.starting (.installing rest))
  | started (restored : k.tables = k₀.tables) : Over k₀ prm k (.starting .finished)

section Contexts

variable {k₀ k k' : Kernel} {prm : Params} {socket socket' : Socket}

theorem Settled.congr (settled : Settled k₀ prm k) (same : k'.tables = k.tables) : Settled k₀ prm k' := by
  rcases settled with restored | ⟨remains, present⟩
  · exact .inl (same.trans restored)
  · exact .inr ⟨remains.congr same, by rwa [same]⟩

theorem Settled.restored (settled : Settled k₀ prm k)
    (absent : .tproxyEnt ∉ (k.tables .ipv4).mangle.chains) : k.tables = k₀.tables :=
  settled.resolve_right fun installed => absent installed.2

theorem absent_of_restored (pristine : ∀ f, Pristine f (k₀.tables f)) (restored : k.tables = k₀.tables) :
    .tproxyEnt ∉ (k.tables .ipv4).mangle.chains := by
  rw [restored]
  exact (pristine .ipv4).free .tproxyEnt (by decide)

theorem Settled.remains (settled : Settled k₀ prm k) : Remains (fullBy prm) k₀ k := by
  rcases settled with restored | ⟨remains, -⟩
  · exact .of_tables restored
  · exact remains

/-- What a command does to the tables depends on nothing else. -/
theorem tables_runAll_congr (same : k'.tables = k.tables) (cmds : List Command) :
    (k'.runAll cmds).tables = (k.runAll cmds).tables := by
  funext f
  rw [Kernel.runAll_tables, Kernel.runAll_tables, same]

theorem Alone.congr (alone : Alone k₀ prm k socket) (same : k'.tables = k.tables) : Alone k₀ prm k' socket := by
  cases alone with
  | idle settled => exact .idle (settled.congr same)
  | asking asks env settled => exact .asking asks env (settled.congr same)
  | removing target cleared remains => exact .removing target (cleared.congr same) (remains.congr same)
  | cleaned restored => exact .cleaned (same.trans restored)
  | exported restored => exact .exported (same.trans restored)
  | preparing prepares env restored => exact .preparing prepares env (same.trans restored)
  | installing noproxy proxy done rest split built =>
    exact .installing noproxy proxy done rest split (same.trans built)
  | started settled => exact .started (settled.congr same)

theorem Beside.congr (beside : Beside k₀ prm k socket) (same : k'.tables = k.tables) : Beside k₀ prm k' socket := by
  cases beside with
  | idle => exact .idle
  | asking asks env => exact .asking asks env
  | removing target cleared => exact .removing target (cleared.congr same)
  | cleaned => exact .cleaned
  | exported => exact .exported
  | installing noproxy proxy done rest split remains =>
    exact .installing noproxy proxy done rest split (remains.congr same)
  | started => exact .started

theorem Over.congr (left : Over k₀ prm k socket) (same : k'.tables = k.tables) : Over k₀ prm k' socket := by
  cases left with
  | idle restored => exact .idle (same.trans restored)
  | asking asks restored => exact .asking asks (same.trans restored)
  | removing target cleared remains => exact .removing target (cleared.congr same) (remains.congr same)
  | cleaned restored => exact .cleaned (same.trans restored)
  | exported restored => exact .exported (same.trans restored)
  | preparing prepares restored => exact .preparing prepares (same.trans restored)
  | installing rest restored => exact .installing rest (same.trans restored)
  | started restored => exact .started (same.trans restored)

/-! ## Steps of the socket thread's script -/

theorem step_asking {env : Env} {p : Process} (asks : p.Asks env) :
    (Socket.cleaning p).step k = some (.cleaning (p.step k).1, (p.step k).2) := by
  cases asks <;> rfl

theorem step_preparing {env : Env} {n : ℕ} {p : Process} (prepares : p.Prepares env n) :
    (Socket.starting p).step k = some (.starting (p.step k).1, (p.step k).2) := by
  cases prepares <;> rfl

/-- The last step of a CLEAN unmounts. -/
theorem step_removed (target : Str) :
    ∃ k', (Socket.cleaning (.removing [] target)).step k = some (.cleaning .finished, k') ∧ k'.tables = k.tables := by
  refine ⟨_, rfl, ?_⟩
  dsimp only [Process.step]
  split
  · exact k.tables_umount target
  · rfl

/-- A command that is refused does nothing. -/
theorem runAll_of_refused {c : Command} (refused : k.exec c = none) : k.runAll [c] = k := by
  rw [Kernel.runAll, List.foldl_cons, List.foldl_nil, refused, Option.getD_none]

/-- A complete START is there, and a stop finds it. -/
theorem settled_of_complete (pristine : ∀ f, Pristine f (k₀.tables f)) {noproxy proxy : List Str}
    (built : k.tables = (k₀.runAll (startCommands prm noproxy proxy)).tables) : Settled k₀ prm k := by
  have vacant (f : Family) : Vacant (k₀.tables f) := (pristine f).toVacant
  have remains : Remains (addedBy (startCommands prm noproxy proxy)) k₀ (k₀.runAll (startCommands prm noproxy proxy)) :=
    .of_start vacant rfl fun _ member => member
  have present := @mem_chains_start k₀ (vacant .ipv4) prm noproxy proxy (startCommands prm noproxy proxy).length
  rw [List.take_of_length_le (Nat.le_add_left ..)] at present
  exact .inr ⟨(remains.full vacant (List.Sublist.refl _)).congr built, by rwa [built]⟩

theorem Alone.script (pristine : ∀ f, Pristine f (k₀.tables f)) (unrouted : ∀ f, Unrouted prm (k₀.tables f))
    (alone : Alone k₀ prm k socket) (taken : socket.step k = some (socket', k')) : Alone k₀ prm k' socket' := by
  cases alone with
  | idle settled => contradiction
  | asking asks env settled =>
    rw [step_asking asks, Option.some.injEq] at taken
    cases taken
    obtain ⟨same, still | ⟨ended, absent⟩ | ⟨target, begins, present⟩⟩ := asks.step k
    · rw [same]
      exact .asking still env settled
    · rw [same, ended]
      exact .cleaned (settled.restored absent)
    · rw [same, begins, env]
      exact .removing target (.start prm k) settled.remains
  | @removing done rest target cleared remains =>
    cases rest with
    | nil =>
      obtain ⟨after, steps, same⟩ := @step_removed k target
      rw [steps, Option.some.injEq] at taken
      cases taken
      exact .cleaned (same.trans (cleared.restored pristine remains))
    | cons c rest =>
      cases taken
      exact .removing target (cleared.next pristine unrouted remains) (remains.remove pristine unrouted cleared.mem)
  | cleaned restored => contradiction
  | exported restored => contradiction
  | preparing prepares env restored =>
    rw [step_preparing prepares, Option.some.injEq] at taken
    cases taken
    obtain ⟨same, still | ended | ⟨-, noproxy, proxy, begins⟩⟩ := prepares.step k
    · exact .preparing still env (same.tables.trans restored)
    · rw [ended]
      exact .started (.inl (same.tables.trans restored))
    · rw [begins, env]
      exact .installing noproxy proxy [] _ rfl (same.tables.trans restored)
  | installing noproxy proxy done rest split built =>
    cases rest with
    | nil =>
      cases taken
      rw [List.append_nil] at split
      subst split
      exact .started (settled_of_complete pristine built)
    | cons c rest =>
      cases taken
      refine .installing noproxy proxy (done ++ [c]) rest (by rw [← split, List.append_assoc]; rfl) ?_
      rw [Kernel.runAll_append]
      exact tables_runAll_congr built [c]
  | started settled => contradiction

theorem Beside.script (pristine : ∀ f, Pristine f (k₀.tables f)) (unrouted : ∀ f, Unrouted prm (k₀.tables f))
    {handled left : List Command} (beside : Beside k₀ prm k socket) (cleared : Cleared prm handled left k)
    (remains : Remains (fullBy prm) k₀ k) (taken : socket.step k = some (socket', k'))
    (timely : ∀ c rest, socket = .starting (.installing (c :: rest)) → k.exec c ≠ none →
      ∀ d ∈ handled, ¬ d.Undoes c) :
    Beside k₀ prm k' socket' ∧ Cleared prm handled left k' ∧ Remains (fullBy prm) k₀ k' := by
  cases beside with
  | idle => contradiction
  | asking asks env =>
    rw [step_asking asks, Option.some.injEq] at taken
    cases taken
    obtain ⟨same, still | ⟨ended, -⟩ | ⟨target, begins, -⟩⟩ := asks.step k
    · rw [same]
      exact ⟨.asking still env, cleared, remains⟩
    · rw [same, ended]
      exact ⟨.cleaned, cleared, remains⟩
    · rw [same, begins, env]
      exact ⟨.removing target (.start prm k), cleared, remains⟩
  | @removing done rest target own =>
    cases rest with
    | nil =>
      obtain ⟨after, steps, same⟩ := @step_removed k target
      rw [steps, Option.some.injEq] at taken
      cases taken
      exact ⟨.cleaned, cleared.congr same, remains.congr same⟩
    | cons c rest =>
      cases taken
      exact ⟨.removing target (own.next pristine unrouted remains), cleared.beside pristine own.mem,
        remains.remove pristine unrouted own.mem⟩
  | cleaned => contradiction
  | exported => contradiction
  | installing noproxy proxy done rest split added =>
    cases rest with
    | nil =>
      cases taken
      exact ⟨.started, cleared, remains⟩
    | cons c rest =>
      cases taken
      have vacant (f : Family) : Vacant (k₀.tables f) := (pristine f).toVacant
      have split' : done ++ [c] ++ rest = startCommands prm noproxy proxy := by
        rw [← split, List.append_assoc]
        rfl
      have starts : c ∈ startCommands prm noproxy proxy := split ▸ by simp
      have built := added.build vacant starts
      refine ⟨.installing noproxy proxy (done ++ [c]) rest split' built, ?_,
        built.full vacant (split' ▸ List.sublist_append_left ..)⟩
      cases effect : k.exec c with
      | none => exact cleared.congr (congrArg Kernel.tables (runAll_of_refused effect))
      | some after => exact cleared.build starts (timely c rest rfl (by simp [effect]))
  | started => contradiction

theorem Over.script (pristine : ∀ f, Pristine f (k₀.tables f)) (unrouted : ∀ f, Unrouted prm (k₀.tables f))
    (left : Over k₀ prm k socket) (taken : socket.step k = some (socket', k'))
    (timely : ∀ c rest, socket = .starting (.installing (c :: rest)) → k.exec c = none) :
    Over k₀ prm k' socket' := by
  cases left with
  | idle restored => contradiction
  | asking asks restored =>
    rw [step_asking asks, Option.some.injEq] at taken
    cases taken
    obtain ⟨same, still | ⟨ended, -⟩ | ⟨target, -, present⟩⟩ := asks.step k
    · rw [same]
      exact .asking still restored
    · rw [same, ended]
      exact .cleaned restored
    · exact absurd present (absent_of_restored pristine restored)
  | @removing done rest target cleared remains =>
    cases rest with
    | nil =>
      obtain ⟨after, steps, same⟩ := @step_removed k target
      rw [steps, Option.some.injEq] at taken
      cases taken
      exact .cleaned (same.trans (cleared.restored pristine remains))
    | cons c rest =>
      cases taken
      exact .removing target (cleared.next pristine unrouted remains) (remains.remove pristine unrouted cleared.mem)
  | cleaned restored => contradiction
  | exported restored => contradiction
  | preparing prepares restored =>
    rw [step_preparing prepares, Option.some.injEq] at taken
    cases taken
    obtain ⟨same, still | ended | ⟨-, noproxy, proxy, begins⟩⟩ := prepares.step k
    · exact .preparing still (same.tables.trans restored)
    · rw [ended]
      exact .started (same.tables.trans restored)
    · rw [begins]
      exact .installing _ (same.tables.trans restored)
  | installing rest restored =>
    cases rest with
    | nil =>
      cases taken
      exact .started restored
    | cons c rest =>
      cases taken
      have same := congrArg Kernel.tables (runAll_of_refused (timely c rest rfl))
      exact .installing rest (same.trans restored)
  | started restored => contradiction

/-! ## Steps of the handler's CLEAN -/

/-- The probe finds nothing: the CLEAN is over. -/
theorem Alone.over (pristine : ∀ f, Pristine f (k₀.tables f)) (alone : Alone k₀ prm k socket)
    (absent : .tproxyEnt ∉ (k.tables .ipv4).mangle.chains)
    (timely : ∀ c rest, socket ≠ .starting (.installing (c :: rest))) : Over k₀ prm k socket := by
  cases alone with
  | idle settled => exact .idle (settled.restored absent)
  | asking asks env settled => exact .asking asks (settled.restored absent)
  | removing target cleared remains => exact .removing target cleared remains
  | cleaned restored => exact .cleaned restored
  | exported restored => exact .exported restored
  | preparing prepares env restored => exact .preparing prepares restored
  | installing noproxy proxy done rest split built =>
    cases rest with
    | nil =>
      rw [List.append_nil] at split
      subst split
      exact .installing [] ((settled_of_complete pristine built).restored absent)
    | cons c rest => exact absurd rfl (timely c rest)
  | started settled => exact .started (settled.restored absent)

/-- It finds TPROXY_ENT: the CLEAN begins to remove. -/
theorem Alone.beside (pristine : ∀ f, Pristine f (k₀.tables f)) (alone : Alone k₀ prm k socket)
    (present : .tproxyEnt ∈ (k.tables .ipv4).mangle.chains) :
    Beside k₀ prm k socket ∧ Remains (fullBy prm) k₀ k := by
  cases alone with
  | idle settled => exact ⟨.idle, settled.remains⟩
  | asking asks env settled => exact ⟨.asking asks env, settled.remains⟩
  | removing target cleared remains => exact ⟨.removing target cleared, remains⟩
  | cleaned restored => exact absurd present (absent_of_restored pristine restored)
  | exported restored => exact absurd present (absent_of_restored pristine restored)
  | preparing prepares env restored => exact absurd present (absent_of_restored pristine restored)
  | installing noproxy proxy done rest split built =>
    have vacant (f : Family) : Vacant (k₀.tables f) := (pristine f).toVacant
    have part : done.Sublist (startCommands prm noproxy proxy) := split ▸ List.sublist_append_left ..
    have added : Remains (addedBy done) k₀ (k₀.runAll done) :=
      .of_start vacant rfl fun cmd member => part.subset member
    exact ⟨.installing noproxy proxy done rest split (added.congr built), (added.full vacant part).congr built⟩
  | started settled => exact ⟨.started, settled.remains⟩

theorem Beside.remove (pristine : ∀ f, Pristine f (k₀.tables f)) (unrouted : ∀ f, Unrouted prm (k₀.tables f))
    (beside : Beside k₀ prm k socket) {cmd : Command} (stops : cmd ∈ stopCommands prm) :
    Beside k₀ prm (k.runAll [cmd]) socket := by
  cases beside with
  | idle => exact .idle
  | asking asks env => exact .asking asks env
  | removing target cleared => exact .removing target (cleared.beside pristine stops)
  | cleaned => exact .cleaned
  | exported => exact .exported
  | installing noproxy proxy done rest split added =>
    exact .installing noproxy proxy done rest split (added.remove pristine unrouted stops)
  | started => exact .started

/-- The CLEAN has removed everything. -/
theorem Beside.over (beside : Beside k₀ prm k socket) (restored : k.tables = k₀.tables) : Over k₀ prm k socket := by
  cases beside with
  | idle => exact .idle restored
  | asking asks env => exact .asking asks restored
  | removing target cleared => exact .removing target cleared (.of_tables restored)
  | cleaned => exact .cleaned restored
  | exported => exact .exported restored
  | installing noproxy proxy done rest split added => exact .installing rest restored
  | started => exact .started restored

end Contexts

/-! ## The whole daemon -/

/-- Where the handler is, and what that means for the rest. -/
inductive Guarded (k₀ : Kernel) (prm : Params) (s : State) : Handler → Prop where
  | quiet (alone : Alone k₀ prm s.kernel s.socket) (none : s.handled = []) : Guarded k₀ prm s .quiet
  | asking {env : Env} {p : Process} (asks : p.Asks env) (same : params env = prm)
      (alone : Alone k₀ prm s.kernel s.socket) (none : s.handled = []) : Guarded k₀ prm s (.cleaning p)
  | removing {rest : List Command} (target : Str) (cleared : Cleared prm s.handled rest s.kernel)
      (remains : Remains (fullBy prm) k₀ s.kernel) (beside : Beside k₀ prm s.kernel s.socket) :
      Guarded k₀ prm s (.cleaning (.removing rest target))
  | cleaned (left : Over k₀ prm s.kernel s.socket) : Guarded k₀ prm s (.cleaning .finished)
  | exited (left : Over k₀ prm s.kernel s.socket) : Guarded k₀ prm s .exited

/-- The parameters are those of the generation that is installed, removed or about to be installed. Between
`toEnv` and a START that comes too late they are no longer those of the environment. -/
structure Coherent (k₀ : Kernel) (env₀ : Env) (prm : Params) (s : State) : Prop where
  unrouted : ∀ f, Unrouted prm (k₀.tables f)
  clear : ∀ f, Unrouted (params (s.config.toEnv env₀)) (k₀.tables f)
  inherited : ∀ c : Config, c.toEnv s.env = c.toEnv env₀
  env : s.handler = .quiet ∨ s.socket ≠ .exported → params s.env = prm
  guarded : Guarded k₀ prm s s.handler

section Steps

variable {k₀ : Kernel} {env₀ : Env} {prm : Params} {s t : State}

theorem coherent_started (pristine : ∀ f, Pristine f (k₀.tables f)) {c : Config} (accepted : c.Accepted)
    (clear : ∀ f, Unrouted (params (c.toEnv env₀)) (k₀.tables f)) :
    Coherent k₀ env₀ (params (c.toEnv env₀)) (.started k₀ env₀ c) := by
  refine ⟨clear, clear, fun _ => rfl, fun _ => rfl, .quiet (.idle ?_) rfl⟩
  have untouched : stop env₀ k₀ = k₀ := stop_of_vacant (pristine .ipv4).toVacant
  have same : ({ k₀.withMount with hierarchy := k₀.hierarchy.withSlices } : Kernel).tables = k₀.tables :=
    k₀.tables_withMount
  rw [State.started, untouched, start_accepted accepted]
  exact settled_of_complete pristine (tables_runAll_congr same _)

/-- A message begins with a CLEAN of the generation that is there. -/
theorem Coherent.message (coherent : Coherent k₀ env₀ prm s) {c : Config}
    (clear : ∀ f, Unrouted (params (c.toEnv env₀)) (k₀.tables f)) (taken : s.step (.message c) = some t) :
    Coherent k₀ env₀ prm t := by
  obtain ⟨unrouted, -, inherited, env, guarded⟩ := coherent
  obtain ⟨kernel, config, senv, socket, handler, handled⟩ := s
  have idle : socket = .idle ∧ handler ≠ .exited ∧
      t = ⟨kernel, c, senv, .cleaning (.launched senv true), handler, handled⟩ := by
    cases socket <;> cases handler <;> simp_all [State.step]
  obtain ⟨rfl, alive, rfl⟩ := idle
  have mine : params senv = prm := env (.inr nofun)
  refine ⟨unrouted, clear, inherited, fun _ => mine, ?_⟩
  cases guarded with
  | quiet alone none =>
    cases alone with
    | idle settled => exact .quiet (.asking .launched mine settled) none
  | asking asks same alone none =>
    cases alone with
    | idle settled => exact .asking asks same (.asking .launched mine settled) none
  | removing target cleared remains beside => exact .removing target cleared remains (.asking .launched mine)
  | cleaned left =>
    cases left with
    | idle restored => exact .cleaned (.asking .launched restored)
  | exited left => exact absurd rfl alive

/-- A step of the socket thread's script. -/
theorem Coherent.script (pristine : ∀ f, Pristine f (k₀.tables f)) (coherent : Coherent k₀ env₀ prm s)
    (timely : Timely s .script) (taken : s.step .script = some t) : Coherent k₀ env₀ prm t := by
  obtain ⟨unrouted, clear, inherited, env, guarded⟩ := coherent
  obtain ⟨kernel, config, senv, socket, handler, handled⟩ := s
  obtain ⟨⟨socket', kernel'⟩, steps, rfl⟩ := Option.map_eq_some_iff.mp taken
  dsimp only at *
  have known : socket ≠ .exported ∧ socket' ≠ .exported := by
    constructor
    · rintro rfl
      contradiction
    · rintro rfl
      cases socket with
      | idle => contradiction
      | exported => contradiction
      | cleaning p => cases p <;> simp [Socket.step] at steps
      | starting p => cases p <;> simp [Socket.step] at steps
  refine ⟨unrouted, clear, inherited, fun _ => env (.inr known.1), ?_⟩
  cases guarded with
  | quiet alone none => exact .quiet (alone.script pristine unrouted steps) none
  | asking asks same alone none => exact .asking asks same (alone.script pristine unrouted steps) none
  | removing target cleared remains beside =>
    obtain ⟨beside', cleared', remains'⟩ := beside.script pristine unrouted cleared remains steps
      fun c rest here effect => (timely c rest here effect).2
    exact .removing target cleared' remains' beside'
  | cleaned left =>
    refine .cleaned (left.script pristine unrouted steps fun c rest here => ?_)
    by_contra effect
    exact absurd (timely c rest here effect).1 (by simp [Handler.over])
  | exited left =>
    refine .exited (left.script pristine unrouted steps fun c rest here => ?_)
    by_contra effect
    exact absurd (timely c rest here effect).1 (by simp [Handler.over])

/-- The socket thread goes on. -/
theorem Coherent.next (coherent : Coherent k₀ env₀ prm s) (timely : Timely s .next) (taken : s.step .next = some t) :
    ∃ prm', Coherent k₀ env₀ prm' t := by
  obtain ⟨unrouted, clear, inherited, env, guarded⟩ := coherent
  obtain ⟨kernel, config, senv, socket, handler, handled⟩ := s
  have goes : (socket = .cleaning .finished ∧ t = ⟨kernel, config, config.toEnv senv, .exported, handler, handled⟩) ∨
      (socket = .exported ∧ t = ⟨kernel, config, senv, .starting (.launched senv false), handler, handled⟩) ∨
      (socket = .starting .finished ∧ t = ⟨kernel, config, senv, .idle, handler, handled⟩) := by
    cases handler <;> simp only [State.step, reduceCtorEq] at taken
    all_goals
      rw [State.next] at taken
      split at taken <;> simp_all
  obtain ⟨rfl, rfl⟩ | ⟨rfl, rfl⟩ | ⟨rfl, rfl⟩ := goes
  · -- toEnv
    have exported : params (config.toEnv senv) = params (config.toEnv env₀) := by rw [inherited]
    cases guarded with
    | quiet alone none =>
      cases alone with
      | asking asks => contradiction
      | cleaned restored =>
        exact ⟨_, clear, clear, fun _ => inherited _, fun _ => exported, .quiet (.exported restored) none⟩
    | asking asks same alone none =>
      cases alone with
      | asking asks => contradiction
      | cleaned restored =>
        exact ⟨_, unrouted, clear, fun _ => inherited _, by simp, .asking asks same (.exported restored) none⟩
    | removing target cleared remains beside =>
      exact ⟨_, unrouted, clear, fun _ => inherited _, by simp, .removing target cleared remains .exported⟩
    | cleaned left =>
      cases left with
      | asking asks => contradiction
      | cleaned restored => exact ⟨_, unrouted, clear, fun _ => inherited _, by simp, .cleaned (.exported restored)⟩
    | exited left =>
      cases left with
      | asking asks => contradiction
      | cleaned restored => exact ⟨_, unrouted, clear, fun _ => inherited _, by simp, .exited (.exported restored)⟩
  · -- a START is launched before the signal
    obtain rfl : handler = .quiet := timely rfl
    have mine : params senv = prm := env (.inl rfl)
    cases guarded with
    | quiet alone none =>
      cases alone with
      | exported restored =>
        exact ⟨prm, unrouted, clear, inherited, fun _ => mine, .quiet (.preparing .launched mine restored) none⟩
  · -- a START has ended
    have mine : params senv = prm := env (.inr nofun)
    refine ⟨prm, unrouted, clear, inherited, fun _ => mine, ?_⟩
    cases guarded with
    | quiet alone none =>
      cases alone with
      | preparing prepares => contradiction
      | started settled => exact .quiet (.idle settled) none
    | asking asks same alone none =>
      cases alone with
      | preparing prepares => contradiction
      | started settled => exact .asking asks same (.idle settled) none
    | removing target cleared remains beside => exact .removing target cleared remains .idle
    | cleaned left =>
      cases left with
      | preparing prepares => contradiction
      | started restored => exact .cleaned (.idle restored)
    | exited left =>
      cases left with
      | preparing prepares => contradiction
      | started restored => exact .exited (.idle restored)

/-- The handler launches its CLEAN with the environment of that moment. -/
theorem Coherent.signal (coherent : Coherent k₀ env₀ prm s) (taken : s.step .signal = some t) :
    Coherent k₀ env₀ prm t := by
  obtain ⟨unrouted, clear, inherited, env, guarded⟩ := coherent
  obtain ⟨kernel, config, senv, socket, handler, handled⟩ := s
  cases guarded with
  | quiet alone none =>
    cases taken
    have mine : params senv = prm := env (.inl rfl)
    exact ⟨unrouted, clear, inherited, fun _ => mine, .asking .launched mine alone none⟩
  | asking asks => contradiction
  | removing target cleared remains beside => contradiction
  | cleaned left => contradiction
  | exited left => contradiction

/-- A step of the handler's CLEAN. -/
theorem Coherent.cleanup (pristine : ∀ f, Pristine f (k₀.tables f)) (coherent : Coherent k₀ env₀ prm s)
    (timely : Timely s .cleanup) (taken : s.step .cleanup = some t) : Coherent k₀ env₀ prm t := by
  obtain ⟨unrouted, clear, inherited, env, guarded⟩ := coherent
  obtain ⟨kernel, config, senv, socket, handler, handled⟩ := s
  dsimp only at timely env guarded
  have mine (other : socket ≠ .exported) : params senv = prm := env (.inr other)
  cases guarded with
  | quiet alone none => contradiction
  | asking asks same alone none =>
    obtain rfl : handled = [] := none
    cases asks with
    | launched =>
      cases taken
      exact ⟨unrouted, clear, inherited, fun other => mine (other.resolve_left nofun),
        .asking (.probing _) same alone rfl⟩
    | probing target =>
      cases taken
      refine ⟨unrouted, clear, inherited, fun other => mine (other.resolve_left nofun), ?_⟩
      dsimp only [Process.step]
      split
      · next absent => exact .cleaned (alone.over pristine absent (timely _ target rfl absent))
      · next present =>
        obtain ⟨beside, remains⟩ := alone.beside pristine (not_not.mp present)
        dsimp only
        rw [same]
        exact .removing target (.start prm kernel) remains beside
  | @removing rest target cleared remains beside =>
    cases rest with
    | nil =>
      cases taken
      refine ⟨unrouted, clear, inherited, fun other => mine (other.resolve_left nofun), .cleaned ?_⟩
      have restored := cleared.restored pristine remains
      refine (beside.over restored).congr ?_
      dsimp only [Process.step]
      split
      · exact kernel.tables_umount target
      · rfl
    | cons c rest =>
      cases taken
      exact ⟨unrouted, clear, inherited, fun other => mine (other.resolve_left nofun),
        .removing target (cleared.next pristine unrouted remains) (remains.remove pristine unrouted cleared.mem)
          (beside.remove pristine unrouted cleared.mem)⟩
  | cleaned left => contradiction
  | exited left => contradiction

/-- The daemon exits when the handler's CLEAN has ended. -/
theorem Coherent.exit (coherent : Coherent k₀ env₀ prm s) (taken : s.step .exit = some t) :
    Coherent k₀ env₀ prm t := by
  obtain ⟨unrouted, clear, inherited, env, guarded⟩ := coherent
  obtain ⟨kernel, config, senv, socket, handler, handled⟩ := s
  have ended : handler = .cleaning .finished ∧ t = ⟨kernel, config, senv, socket, .exited, handled⟩ := by
    cases handler with
    | cleaning p => cases p <;> simp_all [State.step]
    | _ => simp [State.step] at taken
  obtain ⟨rfl, rfl⟩ := ended
  refine ⟨unrouted, clear, inherited, fun other => env (.inr (other.resolve_left nofun)), ?_⟩
  cases guarded with
  | asking asks => contradiction
  | cleaned left => exact .exited left

/-- Others change the cgroups. -/
theorem Coherent.tree (coherent : Coherent k₀ env₀ prm s) {h : Hierarchy} (taken : s.step (.tree h) = some t) :
    Coherent k₀ env₀ prm t := by
  obtain ⟨unrouted, clear, inherited, env, guarded⟩ := coherent
  cases taken
  refine ⟨unrouted, clear, inherited, env, ?_⟩
  dsimp only
  generalize s.handler = handler at guarded
  cases guarded with
  | quiet alone none => exact .quiet (alone.congr rfl) none
  | asking asks same alone none => exact .asking asks same (alone.congr rfl) none
  | removing target cleared remains beside =>
    exact .removing target (cleared.congr rfl) (remains.congr rfl) (beside.congr rfl)
  | cleaned left => exact .cleaned (left.congr rfl)
  | exited left => exact .exited (left.congr rfl)

/-- What a step keeps. The configurations of the messages have to find the machine without rules and
routes where their own go. -/
theorem Coherent.step (pristine : ∀ f, Pristine f (k₀.tables f)) {l : Label} (coherent : Coherent k₀ env₀ prm s)
    (timely : Timely s l) (clear : ∀ c, l = .message c → ∀ f, Unrouted (params (c.toEnv env₀)) (k₀.tables f))
    (taken : s.step l = some t) : ∃ prm', Coherent k₀ env₀ prm' t := by
  cases l with
  | message c => exact ⟨prm, coherent.message (clear c rfl) taken⟩
  | script => exact ⟨prm, coherent.script pristine timely taken⟩
  | next => exact coherent.next timely taken
  | signal => exact ⟨prm, coherent.signal taken⟩
  | cleanup => exact ⟨prm, coherent.cleanup pristine timely taken⟩
  | exit => exact ⟨prm, coherent.exit taken⟩
  | tree h => exact ⟨prm, coherent.tree taken⟩

/-- When the daemon has exited and no script is running any more, the machine is as it was. -/
theorem Coherent.restored (coherent : Coherent k₀ env₀ prm s) (exited : s.handler = .exited)
    (ended : s.socket.over = true) : s.kernel.tables = k₀.tables := by
  have guarded := coherent.guarded
  rw [exited] at guarded
  cases guarded with
  | exited left =>
    generalize s.socket = socket at left ended
    cases left with
    | idle restored => exact restored
    | asking asks restored => exact restored
    | removing target cleared remains => contradiction
    | cleaned restored => exact restored
    | exported restored => exact restored
    | preparing prepares restored => exact restored
    | installing rest restored => exact restored
    | started restored => exact restored

end Steps

/-- Once the daemon has exited and all its scripts have ended, nothing of any configuration it applied is
left, in every run whose steps are all timely. -/
theorem no_rules_outlive (k₀ : Kernel) (env₀ : Env) (pristine : ∀ f, Pristine f (k₀.tables f)) (c : Config)
    (accepted : c.Accepted) (labels : List Label) (t : State)
    (clear : ∀ c', c' = c ∨ .message c' ∈ labels → ∀ f, Unrouted (params (c'.toEnv env₀)) (k₀.tables f))
    (timely : Along State.step Timely (.started k₀ env₀ c) labels)
    (success : run State.step (.started k₀ env₀ c) labels = some t) (exited : t.handler = .exited)
    (ended : t.socket.over = true) :
    t.kernel.tables = k₀.tables ∧
      ∀ c', c' = c ∨ .message c' ∈ labels → ∀ f, Clean f (params (c'.toEnv env₀)) (t.kernel.tables f) := by
  have clearAlong : Along State.step
      (fun _ l => ∀ c', l = .message c' → ∀ f, Unrouted (params (c'.toEnv env₀)) (k₀.tables f))
      (.started k₀ env₀ c) labels :=
    along_of_forall_mem fun l member c' same => clear c' (.inr (same ▸ member))
  have kept : ∀ s l u, (∃ prm, Coherent k₀ env₀ prm s) →
      (Timely s l ∧ ∀ c', l = .message c' → ∀ f, Unrouted (params (c'.toEnv env₀)) (k₀.tables f)) →
      s.step l = some u → ∃ prm, Coherent k₀ env₀ prm u := by
    rintro s l u ⟨prm, coherent⟩ ⟨timely, clear⟩ taken
    exact coherent.step pristine timely clear taken
  obtain ⟨prm, coherent⟩ := run_preserves kept (timely.and clearAlong)
    ⟨_, coherent_started pristine accepted (clear c (.inl rfl))⟩ success
  have restored := coherent.restored exited ended
  refine ⟨restored, fun c' applied f => ?_⟩
  rw [restored]
  exact .of_pristine (pristine f) (clear c' applied f)

/-! ## Runs -/

/-- The socket thread's process is left to run to its end. -/
theorem run_script {wrap : Process → Socket}
    (steps : ∀ p k, p ≠ .finished → (wrap p).step k = some (wrap (p.step k).1, (p.step k).2))
    {n : ℕ} {s : State} {p : Process} {k' : Kernel} (here : s.socket = wrap p)
    (ends : Process.after n p s.kernel = (.finished, k')) :
    ∃ m, run State.step s (List.replicate m .script) = some { s with kernel := k', socket := wrap .finished } := by
  induction n generalizing s p with
  | zero =>
    obtain ⟨rfl, rfl⟩ := Prod.mk.inj ends
    refine ⟨0, ?_⟩
    rw [← here]
    rfl
  | succ n ih =>
    by_cases done : p = .finished
    · subst done
      rw [Process.after_finished] at ends
      obtain ⟨-, rfl⟩ := Prod.mk.inj ends
      refine ⟨0, ?_⟩
      rw [← here]
      rfl
    · have taken : s.step .script =
          some { s with kernel := (p.step s.kernel).2, socket := wrap (p.step s.kernel).1 } := by
        rw [State.step, here, steps p s.kernel done]
        rfl
      obtain ⟨m, rest⟩ :=
        @ih { s with kernel := (p.step s.kernel).2, socket := wrap (p.step s.kernel).1 } (p.step s.kernel).1 rfl ends
      exact ⟨m + 1, by rw [List.replicate_succ, run, taken, Option.bind_some, rest]⟩

/-- Scripts are timely before the handler's CLEAN has executed a command. -/
theorem timely_scripts {s : State} {m : ℕ} (before : s.handler.over = false) (unhandled : s.handled = []) :
    Along State.step Timely s (List.replicate m .script) := by
  induction m generalizing s with
  | zero => trivial
  | succ m ih =>
    refine ⟨fun c rest _ _ => ⟨before, by simp [unhandled]⟩, fun next taken => ?_⟩
    obtain ⟨moved, -, rfl⟩ := Option.map_eq_some_iff.mp taken
    exact ih before unhandled

/-- The handler's CLEAN is left to run to its end, while no START is between its commands. -/
theorem run_cleanup {n : ℕ} {s : State} {p : Process} {k' : Kernel} (here : s.handler = .cleaning p)
    (between : ∀ c rest, s.socket ≠ .starting (.installing (c :: rest)))
    (ends : Process.after n p s.kernel = (.finished, k')) :
    ∃ m handled, run State.step s (List.replicate m .cleanup) =
        some { s with kernel := k', handler := .cleaning .finished, handled } ∧
      Along State.step Timely s (List.replicate m .cleanup) := by
  induction n generalizing s p with
  | zero =>
    obtain ⟨rfl, rfl⟩ := Prod.mk.inj ends
    refine ⟨0, s.handled, ?_, trivial⟩
    rw [← here]
    rfl
  | succ n ih =>
    by_cases done : p = .finished
    · subst done
      rw [Process.after_finished] at ends
      obtain ⟨-, rfl⟩ := Prod.mk.inj ends
      refine ⟨0, s.handled, ?_, trivial⟩
      rw [← here]
      rfl
    · have taken : s.step .cleanup = some { s with
          kernel := (p.step s.kernel).2
          handler := .cleaning (p.step s.kernel).1
          handled := s.handled ++ p.command?.toList } := by
        rw [State.step, here]
        cases p <;> first | rfl | contradiction
      obtain ⟨m, handled, rest, timely⟩ := @ih { s with
          kernel := (p.step s.kernel).2
          handler := .cleaning (p.step s.kernel).1
          handled := s.handled ++ p.command?.toList } (p.step s.kernel).1 rfl between ends
      refine ⟨m + 1, handled, by rw [List.replicate_succ, run, taken, Option.bind_some, rest], ?_⟩
      rw [List.replicate_succ, along_cons_of_step taken]
      exact ⟨fun _ _ _ _ => between, timely⟩

/-- A START that is launched just before the signal is not stopped by anyone. -/
theorem run_overtaken (s : State) (launched : s.socket = .starting (.launched s.env false)) (quiet : s.handler = .quiet)
    (absent : .tproxyEnt ∉ (s.kernel.tables .ipv4).mangle.chains) :
    ∃ labels t, run State.step s labels = some t ∧ t.handler = .exited ∧ t.socket.over = true ∧
      t.kernel = start s.env s.kernel := by
  have exits : run State.step s [.signal, .cleanup, .cleanup, .exit] = some { s with handler := .exited } := by
    obtain ⟨kernel, config, env, socket, handler, handled⟩ := s
    obtain rfl : handler = .quiet := quiet
    simp [run, State.step, Process.step, Process.command?, absent]
  obtain ⟨n, ends⟩ := Process.start_eq s.env s.kernel
  obtain ⟨m, ran⟩ := @run_script .starting (fun p k _ => by cases p <;> first | rfl | contradiction) n
    { s with handler := .exited } (.launched s.env false) _ launched ends
  refine ⟨[.signal, .cleanup, .cleanup, .exit] ++ List.replicate m .script,
    { s with kernel := start s.env s.kernel, socket := .starting .finished, handler := .exited }, ?_, rfl, rfl, rfl⟩
  rw [run_append, exits, Option.bind_some, ran]

/-- The configuration of the runs. -/
def oneCgroup : Config := Config.ofLists [] [] [] ["/a".toList]

/-- A message up to the launch of its START. -/
def messageLabels (c : Config) (n : ℕ) : List Label :=
  Label.message c :: (List.replicate n Label.script ++ [Label.next, Label.next])

/-- After that a signal, the steps of the START, those of the handler's CLEAN, and the exit. -/
def signalLabels (m k : ℕ) : List Label :=
  Label.signal :: (List.replicate m Label.script ++ (List.replicate k Label.cleanup ++ [Label.exit]))

theorem run_message (s : State) (idle : s.socket = .idle) (quiet : s.handler = .quiet) (unhandled : s.handled = [])
    (c : Config) :
    ∃ n t, run State.step s (messageLabels c n) = some t ∧ Along State.step Timely s (messageLabels c n) ∧
      t.kernel = stop s.env s.kernel ∧ t.env = c.toEnv s.env ∧ t.socket = .starting (.launched t.env false) ∧
      t.handler = .quiet ∧ t.handled = [] := by
  obtain ⟨kernel, config, env, socket, handler, handled⟩ := s
  obtain rfl : socket = .idle := idle
  obtain rfl : handler = .quiet := quiet
  obtain ⟨n, ends⟩ := Process.stop_eq env kernel
  have taken : State.step ⟨kernel, config, env, .idle, .quiet, handled⟩ (.message c) =
      some ⟨kernel, c, env, .cleaning (.launched env true), .quiet, handled⟩ := rfl
  obtain ⟨m, ran⟩ := @run_script .cleaning (fun p k _ => by cases p <;> first | rfl | contradiction) n
    ⟨kernel, c, env, .cleaning (.launched env true), .quiet, handled⟩ _ _ rfl ends
  refine ⟨m, ⟨stop env kernel, c, c.toEnv env, .starting (.launched (c.toEnv env) false), .quiet, handled⟩, ?_, ?_, rfl,
    rfl, rfl, rfl, unhandled⟩
  · rw [messageLabels, run, taken, Option.bind_some, run_append, ran]
    rfl
  · rw [messageLabels, along_cons_of_step taken, along_append_of_run ran]
    refine ⟨trivial, timely_scripts rfl unhandled, fun _ => rfl, fun next first => ?_⟩
    cases first
    exact ⟨fun _ => rfl, fun _ _ => trivial⟩

/-- The signal comes when the message's START has just been launched. The START runs to its end before the handler's
CLEAN makes its probe. -/
theorem run_beside (s : State) (launched : s.socket = .starting (.launched s.env false)) (quiet : s.handler = .quiet)
    (unhandled : s.handled = []) :
    ∃ m k t, run State.step s (signalLabels m k) = some t ∧ Along State.step Timely s (signalLabels m k) ∧
      t.handler = .exited ∧ t.socket.over = true := by
  have signalled : s.step .signal = some { s with handler := .cleaning (.launched s.env true) } := by
    rw [State.step, quiet]
  obtain ⟨started, starts⟩ := Process.start_eq s.env s.kernel
  obtain ⟨m, ran⟩ := @run_script .starting (fun p k _ => by cases p <;> first | rfl | contradiction) started
    { s with handler := .cleaning (.launched s.env true) } (.launched s.env false) _ launched starts
  obtain ⟨stopped, stops⟩ := Process.stop_eq s.env (start s.env s.kernel)
  obtain ⟨k, handled, cleaned, timely⟩ := @run_cleanup stopped { s with
      kernel := start s.env s.kernel
      socket := .starting .finished
      handler := .cleaning (.launched s.env true) } (.launched s.env true) _ rfl (by simp) stops
  refine ⟨m, k, { s with
      kernel := stop s.env (start s.env s.kernel)
      socket := .starting .finished
      handler := .exited
      handled }, ?_, ?_, rfl, rfl⟩
  · rw [signalLabels, run, signalled, Option.bind_some, run_append, ran, Option.bind_some, run_append, cleaned]
    rfl
  · rw [signalLabels, along_cons_of_step signalled, along_append_of_run ran, along_append_of_run cleaned]
    exact ⟨trivial, timely_scripts rfl unhandled, timely, trivial, fun _ _ => trivial⟩

/-- The configuration that the message of the run brings. -/
def otherCgroup : Config := Config.ofLists [] [] ["/b".toList] []

/-- A message, and its START beside the handler's CLEAN, on a blank machine. -/
theorem no_rules_outlive_beside :
    ∃ n m k t, run State.step (.started .blank {} oneCgroup) (messageLabels otherCgroup n ++ signalLabels m k) = some t ∧
      t.handler = .exited ∧ t.kernel.tables = Kernel.blank.tables := by
  obtain ⟨n, s, handled, first, -, -, launched, quiet, unhandled⟩ :=
    run_message (.started .blank {} oneCgroup) rfl rfl rfl otherCgroup
  obtain ⟨m, k, t, last, timely, exited, ended⟩ := run_beside s launched quiet unhandled
  have success : run State.step (.started .blank {} oneCgroup) (messageLabels otherCgroup n ++ signalLabels m k) =
      some t := by rw [run_append, handled, Option.bind_some, last]
  refine ⟨n, m, k, t, success, exited, (no_rules_outlive .blank {} Pristine.blank oneCgroup accepted_reloadHost _ t
    (fun _ _ _ => .blank _) ?_ success exited ended).1⟩
  exact (along_append_of_run handled).mpr ⟨first, timely⟩

/-- The signal comes when the message's START has just been launched: the handler's CLEAN finds no
TPROXY_ENT, the daemon exits, and the START goes on. -/
theorem run_orphan {k₀ : Kernel} {env₀ : Env} (pristine : ∀ f, Pristine f (k₀.tables f)) {c : Config}
    (accepted : c.Accepted) (unrouted : ∀ f, Unrouted (params (c.toEnv env₀)) (k₀.tables f)) :
    ∃ labels t, run State.step (.started k₀ env₀ c) labels = some t ∧ t.handler = .exited ∧ t.socket.over = true ∧
      .tproxyEnt ∈ (t.kernel.tables .ipv4).mangle.chains := by
  have untouched : stop env₀ k₀ = k₀ := stop_of_vacant (pristine .ipv4).toVacant
  have cleaned (f : Family) : (stop (c.toEnv env₀) (start (c.toEnv env₀) k₀)).tables f = k₀.tables f :=
    @tables_stop _ k₀ env₀ ⟨c, accepted, k₀.hierarchy⟩ pristine unrouted
      (fun f => tables_start accepted (pristine f).toVacant (unrouted f)) f
  obtain ⟨m, s, handled, -, kernel, env, launched, quiet, -⟩ := run_message (.started k₀ env₀ c) rfl rfl rfl c
  dsimp only [State.started] at kernel env
  rw [untouched] at kernel
  obtain ⟨after, t, overtaken, exited, ended, orphan⟩ := run_overtaken s launched quiet (by
    rw [kernel, cleaned]
    exact (pristine .ipv4).free .tproxyEnt (by decide))
  refine ⟨messageLabels c m ++ after, t, ?_, exited, ended, ?_⟩
  · rw [run_append, handled, Option.bind_some, overtaken]
  · have again : (start (c.toEnv (c.toEnv env₀)) (stop (c.toEnv env₀) (start (c.toEnv env₀) k₀))).tables .ipv4 = _ :=
      tables_start accepted (by rw [cleaned]; exact (pristine _).toVacant) (by rw [cleaned]; exact unrouted _)
    rw [orphan, env, kernel, again]
    exact Generation.tproxyEnt_mem_chains ..

/-- One configuration, sent again to a blank machine. -/
theorem rules_outlive :
    oneCgroup.Accepted ∧
      ¬ ∀ labels t, run State.step (.started .blank {} oneCgroup) labels = some t → t.handler = .exited →
        t.socket.over = true → ∀ f, Clean f (params (oneCgroup.toEnv {})) (t.kernel.tables f) := by
  refine ⟨accepted_reloadHost, fun clean => ?_⟩
  obtain ⟨labels, t, success, exited, ended, outlived⟩ :=
    @run_orphan .blank {} Pristine.blank oneCgroup accepted_reloadHost fun _ => .blank _
  exact (clean labels t success exited ended .ipv4).chains .tproxyEnt (by decide) outlived

end Signal

end CgProxy

import CgProxy.Soundness.Loading
import CgProxy.ToMathlib.LocalFold

/-! # The numbers that reach the script

A load takes any number under `port`, `fwmark` and `table` that converts to an `int`, and of the three
only the port is checked, for a lower bound. After a sequence of loads a `Config` therefore has the number
that was given last under each of them, or its default.
-/

namespace CgProxy

open Netfilter Script

namespace Config

/-- The tables `default`, `main` and `local` of every machine. -/
def systemTables : List ℤ := [253, 254, 255]

/-- Numbers that the commands of the script accept, and a table that is not one of the system. -/
structure Installable (c : Config) : Prop where
  port : 1 ≤ c.port ∧ c.port ≤ 65535
  fwmark : 1 ≤ c.fwmark ∧ c.fwmark ≤ 4294967295
  table : 1 ≤ c.table ∧ c.table ≤ 4294967295 ∧ c.table ∉ systemTables

end Config

/-! ## What a sequence of loads gives -/

namespace Load

open Config

/-- The document of a text that is accepted. -/
def accepted? (host : Host) (js : Str) : Option Json :=
  (host.parse js).toOption.bind fun j => if validateItems j.items = .ok true then some j else none

/-- The document that the call takes its values from. -/
def document? : Load → Option Json
  | text host js => accepted? host js
  | file host f => (host.readFile f).bind (accepted? host)

/-- The number that the call finds under a key. -/
def number? (key : String) (l : Load) : Option ℤ :=
  l.document?.bind fun j => ((j.at? key.toList).bind Json.getInt).toOption

/-- The number that was given last. -/
def given (key : String) (calls : List Load) : Option ℤ := (calls.filterMap (number? key)).getLast?

/-- What a text changes. -/
theorem loadFromJsonStr_snd (host : Host) (c : Config) (js : Str) :
    (accepted? host js = none ∧ (loadFromJsonStr host c js).2 = c) ∨
      ∃ j programNoproxy programProxy, accepted? host js = some j ∧
        (loadFromJsonStr host c js).2 = mergeReserved { assign j c with programNoproxy, programProxy } := by
  rw [accepted?, loadFromJsonStr, validateJsonStr]
  cases host.parse js with
  | error e => exact .inl ⟨rfl, rfl⟩
  | ok j =>
    simp only [bind, Except.bind, Except.toOption, Option.bind_some]
    cases validateItems j.items with
    | error e => exact .inl ⟨rfl, rfl⟩
    | ok verdict =>
      cases verdict with
      | false => exact .inl ⟨rfl, rfl⟩
      | true => exact .inr ⟨j, _, _, rfl, rfl⟩

/-- What a call changes. -/
theorem run_snd (l : Load) (c : Config) :
    (l.document? = none ∧ (l.run c).2 = c) ∨
      ∃ j programNoproxy programProxy, l.document? = some j ∧
        (l.run c).2 = mergeReserved { assign j c with programNoproxy, programProxy } := by
  cases l with
  | text host js => exact loadFromJsonStr_snd host c js
  | file host f =>
    rw [document?, run, loadFromFile]
    cases host.readFile f with
    | none => exact .inl ⟨rfl, rfl⟩
    | some js => exact loadFromJsonStr_snd host c js

theorem tryassign_getInt (j : Json) (key : String) (old : ℤ) :
    tryassign j key Json.getInt old = ((j.at? key.toList).bind Json.getInt).toOption.getD old := by
  rw [tryassign]
  cases (j.at? key.toList).bind Json.getInt <;> rfl

/-- A field that is assigned from a number. -/
theorem number_run {key : String} {field : Config → ℤ}
    (assigned : ∀ j c programNoproxy programProxy,
      field (mergeReserved { assign j c with programNoproxy, programProxy }) = tryassign j key Json.getInt (field c))
    (c : Config) (l : Load) : field (l.run c).2 = (l.number? key).getD (field c) := by
  rcases l.run_snd c with ⟨none, same⟩ | ⟨j, programNoproxy, programProxy, document, after⟩
  · rw [same, number?, none]
    rfl
  · rw [after, assigned, tryassign_getInt, number?, document, Option.bind_some]

variable (c : Config) (calls : List Load)

theorem port_runAll : (runAll c calls).port = (given "port" calls).getD c.port :=
  LocalFold.get_foldl_of_writes (number_run fun _ _ _ _ => rfl) calls c

theorem fwmark_runAll : (runAll c calls).fwmark = (given "fwmark" calls).getD c.fwmark :=
  LocalFold.get_foldl_of_writes (number_run fun _ _ _ _ => rfl) calls c

theorem table_runAll : (runAll c calls).table = (given "table" calls).getD c.table :=
  LocalFold.get_foldl_of_writes (number_run fun _ _ _ _ => rfl) calls c

end Load

namespace Config

/-- The numbers that the accepted documents of the run gave last, where they gave any. -/
structure GivenWithin (calls : List Load) : Prop where
  port : ∀ p, Load.given "port" calls = some p → p ≤ 65535
  fwmark : ∀ m, Load.given "fwmark" calls = some m → 1 ≤ m
  table : ∀ t, Load.given "table" calls = some t → 1 ≤ t ∧ t ∉ systemTables

/-! ## What a stop flushes -/

/-- A stop with this configuration leaves the routes of the system's tables in place. -/
def Spares (c : Config) : Prop :=
  ∀ env k f, env.tableTproxy = none → env.tableReroute = none →
    ∀ route ∈ (k.tables f).routes, route.1 ∈ systemTables → route ∈ ((stop (c.toEnv env) k).tables f).routes

/-- Only the two tables of the script lose routes. -/
theorem mem_routes_stop {env : Env} {k : Kernel} {f : Family} {route : ℤ × Route} (member : route ∈ (k.tables f).routes)
    (tproxy : route.1 ≠ (params env).tableTproxy) (reroute : route.1 ≠ (params env).tableReroute) :
    route ∈ ((stop env k).tables f).routes := by
  by_cases present : Chain.tproxyEnt ∈ (k.tables .ipv4).mangle.chains
  · rw [stop_tables present, Kernel.runAll_tables, forFamily_stopCommands, FamilyTables.runAll_eq, stopFamily_eq]
    simp only [List.foldl_append, foldl_editRoutes_mangle, stopRouting, List.foldl_cons, List.foldl_nil,
      FamilyTables.editRoutes, List.mem_filter, decide_eq_true_eq]
    exact ⟨⟨member, tproxy⟩, reroute⟩
  · rwa [stop, if_pos present]

theorem Installable.spares {c : Config} (installable : Installable c) : Spares c := by
  intro env k f noTproxy noReroute route member system
  have other : route.1 ≠ c.table := fun same => installable.table.2.2 (same ▸ system)
  have tproxy : (params (c.toEnv env)).tableTproxy = c.table := by simp [params, toEnv, noTproxy]
  have reroute : (params (c.toEnv env)).tableReroute = c.table := by simp [params, toEnv, noReroute]
  exact mem_routes_stop member (by rwa [tproxy]) (by rwa [reroute])

/-- A value with a good default is good if what replaces the default is. -/
private theorem good_getD_iff (good : ℤ → Prop) {value default : ℤ} {last : Option ℤ} (start : good default)
    (same : value = last.getD default) : good value ↔ ∀ i, last = some i → good i := by
  subst same
  cases last <;> simp [start]

/-- After any sequence of loads the numbers are good for the script exactly if those that were given last
are; and then no stop takes a route of the system. -/
theorem installable_iff (calls : List Load) :
    (Installable (Load.runAll {} calls) ↔ GivenWithin calls) ∧
      (Installable (Load.runAll {} calls) → Spares (Load.runAll {} calls)) := by
  have numbers : Numbers (Load.runAll {} calls) := (Load.reached_runAll .init calls).numbers
  have small {i : ℤ} (fits : IsInt i) : i ≤ 4294967295 := by
    have bound := fits.2
    norm_num at bound
    omega
  have port := good_getD_iff (· ≤ 65535) (by decide) (Load.port_runAll {} calls)
  have fwmark := good_getD_iff (1 ≤ ·) (by decide) (Load.fwmark_runAll {} calls)
  have table := good_getD_iff (fun t => 1 ≤ t ∧ t ∉ systemTables) (by decide) (Load.table_runAll {} calls)
  refine ⟨⟨fun installable => ?_, fun within => ?_⟩, Installable.spares⟩
  · exact ⟨port.mp installable.port.2, fwmark.mp installable.fwmark.1,
      table.mp ⟨installable.table.1, installable.table.2.2⟩⟩
  · obtain ⟨positive, foreign⟩ := table.mpr within.table
    exact ⟨⟨numbers.positive, port.mpr within.port⟩, ⟨fwmark.mpr within.fwmark, small numbers.fwmark⟩,
      positive, small numbers.table, foreign⟩

/-- A document with the number of the table `main`. -/
def mainTable : Json := .object [("table".toList, .numberUnsigned 254)]

/-- A machine with a default route. -/
def routedMachine : Kernel :=
  { Kernel.blank with
    tables := fun _ => { FamilyTables.blank with routes := [(254, .other "default via 192.0.2.1 dev eth0".toList)] } }

/-- It is accepted, and the next stop takes the route. -/
theorem installable_mainTable :
    let load := Load.text (singleHost [] mainTable) []
    let c := Load.runAll {} [load]
    (load.run {}).1 = .ok Status.success ∧ ¬ Installable c ∧
      (254, .other "default via 192.0.2.1 dev eth0".toList) ∈ (routedMachine.tables .ipv4).routes ∧
      ((stop (c.toEnv {}) (start (c.toEnv {}) routedMachine)).tables .ipv4).routes = [] := by
  refine ⟨by decide +kernel, fun installable => ?_, by decide, by decide +kernel⟩
  exact installable.table.2.2 (by decide +kernel)

end Config

end CgProxy

import CgProxy.Soundness.Loading
import CgProxy.Soundness.Validation

/-! # Which process a message moves

The type of a message and the number of its process both go through `get<int>`, which takes every number
and every boolean for some `int`. A message can therefore move a process that it does not name, but only
by a type or a number that the conversion changes.
-/

namespace CgProxy

/-! ## What the conversion keeps -/

theorem Json.getInt_of_number? {value : Json} {i : ℤ} (number : value.number? = some (i : ℚ)) (fits : IsInt i) :
    value.getInt = .ok i := by
  cases value with
  | numberInteger n =>
    obtain rfl : n = i := Int.cast_inj.mp (Option.some.inj number)
    rw [getInt, toInt32_of_isInt fits]
  | numberUnsigned n =>
    have same : ((n : ℤ) : ℚ) = (i : ℚ) := (Int.cast_natCast n).trans (Option.some.inj number)
    rw [getInt, Int.cast_inj.mp same, toInt32_of_isInt fits]
  | numberFloat q =>
    obtain rfl : q = (i : ℚ) := Option.some.inj number
    have kept : (truncInt32 (i : ℚ) : ℚ) = (i : ℚ) :=
      truncInt32_eq_iff.mpr ⟨Rat.den_intCast i, by rwa [Rat.num_intCast]⟩
    rw [getInt, Int.cast_inj.mp kept]
  | _ => contradiction

/-- A value that is converted to `i` is the number `i` exactly if it is one that an `int` can hold. -/
theorem Json.number?_eq_iff {value : Json} {i : ℤ} (converted : value.getInt = .ok i) :
    value.number? = some (i : ℚ) ↔ value.isInt32 = true := by
  rw [← number?_eq_getInt_iff]
  constructor
  · intro number
    exact ⟨i, converted, number⟩
  · rintro ⟨k, same, number⟩
    obtain rfl : i = k := Except.ok.inj (converted.symm.trans same)
    exact number

/-! ## The calls of `attach` -/

namespace Daemon

/-- The calls that a message leads to. -/
def attached (host : Host) (d : Daemon) (msg : Str) : List AttachCall :=
  (d.handleMsg host msg).2.world.calls.drop d.world.calls.length

variable {host : Host} {d : Daemon} {msg : Str} {call : AttachCall}

theorem world_configLoaded (loaded : Except Exn ℤ × Config) : (d.configLoaded loaded).2.world = d.world := by
  obtain ⟨_ | status, c⟩ := loaded
  · rfl
  · rw [configLoaded]
    dsimp only
    split <;> rfl

theorem calls_pidMessage (data : Except Exn ℤ) (slice : Str) :
    (d.pidMessage data slice).2.world.calls = d.world.calls ++ (data.toOption.map (⟨·, slice⟩)).toList := by
  cases data with
  | error e => exact (List.append_nil _).symm
  | ok pid => rfl

/-- The slice of the two messages about processes. -/
def slice? (type : ℤ) : Option Str :=
  if type = msgTypeProxyPid then some cgroupProxyPreserved
  else if type = msgTypeNoproxyPid then some cgroupNoproxyPreserved
  else none

/-- One call at most, for the two types only. -/
theorem calls_dispatch (j : Json) {type : ℤ} (typed : (j.at? "type".toList).bind Json.getInt = .ok type) :
    (d.dispatch host j).2.world.calls =
      d.world.calls ++
        ((slice? type).bind fun slice =>
          ((j.at? "data".toList).bind Json.getInt).toOption.map (⟨·, slice⟩)).toList := by
  have none (other : slice? type = none) : d.world.calls ++ ((slice? type).bind fun slice =>
      ((j.at? "data".toList).bind Json.getInt).toOption.map (⟨·, slice⟩)).toList = d.world.calls := by
    rw [other, Option.bind_none, Option.toList_none, List.append_nil]
  simp only [dispatch, typed]
  split
  · next config =>
    rw [none (by rw [config]; rfl)]
    split
    · rfl
    · rw [world_configLoaded]
  split
  · next _ config =>
    rw [none (by rw [config]; rfl)]
    split
    · rfl
    · rw [world_configLoaded]
  rw [slice?]
  split
  · rw [calls_pidMessage, Option.bind_some]
  split
  · rw [calls_pidMessage, Option.bind_some]
  · exact (List.append_nil _).symm

theorem slice?_isSome_iff {type : ℤ} : (slice? type).isSome = true ↔ type = 3 ∨ type = 4 := by
  rw [slice?, msgTypeProxyPid, msgTypeNoproxyPid]
  split_ifs <;> simp [*]

theorem at?_bind_getInt_eq_ok {j : Json} {key : Str} {i : ℤ} :
    (j.at? key).bind Json.getInt = .ok i ↔ ∃ value, j.at? key = .ok value ∧ value.getInt = .ok i := by
  cases j.at? key <;> simp [Except.bind]

/-- The calls are those that the message asks for. -/
theorem mem_attached_iff :
    call ∈ d.attached host msg ↔ ∃ type, PidMessage host msg type call.pid ∧ slice? type = some call.target := by
  cases parsed : host.parse msg with
  | error e => simp [attached, handleMsg, PidMessage, parsed]
  | ok j =>
    have message (type : ℤ) : PidMessage host msg type call.pid ↔
        (j.at? "type".toList).bind Json.getInt = .ok type ∧ (j.at? "data".toList).bind Json.getInt = .ok call.pid := by
      simp only [PidMessage, parsed, Except.ok.injEq, exists_eq_left']
    simp only [message]
    rw [attached, handleMsg_snd parsed]
    cases typed : (j.at? "type".toList).bind Json.getInt with
    | error e =>
      simp only [dispatch, typed, List.drop_length, List.not_mem_nil, reduceCtorEq, false_and,
        exists_const]
    | ok type =>
      rw [calls_dispatch j typed, List.drop_left, Option.mem_toList]
      cases data : (j.at? "data".toList).bind Json.getInt with
      | error e => simp [Except.toOption]
      | ok pid =>
        obtain ⟨called, target⟩ := call
        cases sliced : slice? type with
        | none => simp [sliced]
        | some slice => simp [Except.toOption, sliced]

end Daemon

open Daemon

/-- The message is an object with exactly the type of a message about processes and exactly this number. -/
def Named (host : Host) (msg : Str) (pid : ℤ) : Prop :=
  ∃ members type data, host.parse msg = .ok (.object members) ∧
    (Json.object members).at? "type".toList = .ok type ∧ (type.number? = some 3 ∨ type.number? = some 4) ∧
    (Json.object members).at? "data".toList = .ok data ∧ data.number? = some (pid : ℚ)

/-- If the type is taken for one of a message about processes and the data for a number, both are integers
that an `int` can hold. -/
def Verbatim (host : Host) (msg : Str) : Prop :=
  ∀ j type data, host.parse msg = .ok j → j.at? "type".toList = .ok type → j.at? "data".toList = .ok data →
    (∃ t, type.getInt = .ok t ∧ (t = 3 ∨ t = 4)) → data.isNumeric = true →
      type.isInt32 = true ∧ data.isInt32 = true

/-- A message moves none but the process it names, exactly if its numbers are taken as they stand. -/
theorem attached_named_iff (host : Host) (d : Daemon) (msg : Str) :
    (∀ call ∈ d.attached host msg, Named host msg call.pid) ↔ Verbatim host msg := by
  constructor
  · rintro named j type data parsed typeFound dataFound ⟨t, typed, about⟩ numeric
    obtain ⟨pid, number⟩ := Json.exists_getInt_iff.mpr numeric
    obtain ⟨slice, target⟩ := Option.isSome_iff_exists.mp (slice?_isSome_iff.mpr about)
    have called : ⟨pid, slice⟩ ∈ d.attached host msg :=
      mem_attached_iff.mpr ⟨t, ⟨j, parsed, at?_bind_getInt_eq_ok.mpr ⟨type, typeFound, typed⟩,
        at?_bind_getInt_eq_ok.mpr ⟨data, dataFound, number⟩⟩, target⟩
    obtain ⟨members, type', data', parsed', typeFound', exact, dataFound', given⟩ := named _ called
    obtain rfl : j = .object members := Except.ok.inj (parsed.symm.trans parsed')
    obtain rfl : type = type' := Except.ok.inj (typeFound.symm.trans typeFound')
    obtain rfl : data = data' := Except.ok.inj (dataFound.symm.trans dataFound')
    refine ⟨?_, (Json.number?_eq_iff number).mp given⟩
    rcases exact with proxy | noproxy
    · exact (Json.number?_eq_iff (Json.getInt_of_number? proxy (by decide))).mp proxy
    · exact (Json.number?_eq_iff (Json.getInt_of_number? noproxy (by decide))).mp noproxy
  · intro verbatim call member
    obtain ⟨t, ⟨j, parsed, typed, number⟩, target⟩ := mem_attached_iff.mp member
    obtain ⟨type, typeFound, typed⟩ := at?_bind_getInt_eq_ok.mp typed
    obtain ⟨data, dataFound, number⟩ := at?_bind_getInt_eq_ok.mp number
    have about : t = 3 ∨ t = 4 := slice?_isSome_iff.mp (Option.isSome_of_eq_some target)
    obtain ⟨typeFits, dataFits⟩ := verbatim j type data parsed typeFound dataFound ⟨t, typed, about⟩
      (Json.exists_getInt_iff.mp ⟨_, number⟩)
    have exact := (Json.number?_eq_iff typed).mpr typeFits
    have given := (Json.number?_eq_iff number).mpr dataFits
    cases j with
    | object members =>
      refine ⟨members, type, data, parsed, typeFound, ?_, dataFound, given⟩
      exact about.imp (fun proxy => by rw [exact, proxy]; rfl) (fun noproxy => by rw [exact, noproxy]; rfl)
    | _ => contradiction

/-- A number that is one more than all that an `int` can tell apart. -/
def wrappedPid : Json := .object [("data".toList, .numberUnsigned 4294967297), ("type".toList, .numberUnsigned 3)]

/-- It moves process 1. -/
theorem attached_wrappedPid :
    let host := Config.singleHost [] wrappedPid
    ⟨1, cgroupProxyPreserved⟩ ∈ (appliedDaemon {}).attached host [] ∧ ¬ Named host [] 1 := by
  intro host
  have called : ⟨1, cgroupProxyPreserved⟩ ∈ (appliedDaemon {}).attached host [] :=
    mem_attached_iff.mpr ⟨3, ⟨wrappedPid, rfl, by decide, by decide⟩, rfl⟩
  refine ⟨called, ?_⟩
  rintro ⟨members, type, data, parsed, -, -, found, given⟩
  cases parsed
  cases found
  exact absurd (Option.some.inj given) (by norm_num)

end CgProxy

import CgProxy.Model.Daemon
import CgProxy.Model.Wrapper

/-! # What the wrapper asks the daemon for

This file cuts the `main` of `cgproxy.hpp` at its call of `send_pid`, and follows `send_pid` as far as
the text that goes to `SOCKET::send`. What `main` does with the status is the rest of it.
-/

namespace CgProxy.Wrapper

open Posix

/-- The arguments of `send_pid`, and the line for `system` if there is a command. -/
structure Request where
  pid : ℤ
  proxy : Bool
  line : Option Str
deriving DecidableEq

/-- `main` up to `send_pid`, or how it ends before that. -/
def request (argv : List Str) (self : ℤ) : Except Outcome Request :=
  let argc := argv.length
  match processArgs 1 (argv.drop 1) {} with
  | none => .error (.exit 1)
  | some (o, shift) =>
      if o.printHelp then .error (.exit 0)
      else if !o.attachPid ∧ argc = shift then .error (.exit 1)
      else
        match if o.attachPid then stoi o.argPid else some self with
        | none => .error .terminated
        | some pid =>
            let line := Shell.cString (join2strArgv (argc - shift) (argv.drop shift) ' ')
            .ok ⟨pid, o.proxy, if o.attachPid then none else some line⟩

/-- `main` from `send_pid` on. -/
def Request.finish (r : Request) (status : ℤ) : Outcome :=
  if status ≠ 0 then .exit 1
  else
    match r.line with
    | none => .exit 0
    | some line => .system line

/-- The slice that the daemon is to put the process into. -/
def Request.slice (r : Request) : Str := if r.proxy then cgroupProxyPreserved else cgroupNoproxyPreserved

/-- The value `j` of `send_pid`. -/
def sendPidJson (pid : ℤ) (proxy : Bool) : Json :=
  .assigned [("type".toList, .numberInteger (if proxy then Daemon.msgTypeProxyPid else Daemon.msgTypeNoproxyPid)),
    ("data".toList, .numberInteger pid)]

/-- A number in decimal. -/
def decimal (i : ℤ) : Str := if i < 0 then '-' :: Nat.toDigits 10 i.natAbs else Nat.toDigits 10 i.natAbs

/-- `j.dump()`: the members in the order of their keys, and no blanks. -/
def sendPidText (pid : ℤ) (proxy : Bool) : Str :=
  "\x7b\"data\":".toList ++ decimal pid ++ (if proxy then ",\"type\":3\x7d" else ",\"type\":4\x7d").toList

/-- The text as the bytes of a `char *`. -/
def bytesOf (text : Str) : List UInt8 := text.map fun c => UInt8.ofNat c.toNat

section Cut

variable {argv : List Str} {self : ℤ} {r : Request}

theorem main_eq (sendPid : ℤ → Bool → ℤ) :
    main argv self sendPid =
      match request argv self with
      | .error outcome => outcome
      | .ok r => r.finish (sendPid r.pid r.proxy) := by
  rw [main, request]
  rcases processArgs 1 (argv.drop 1) {} with _ | ⟨o, shift⟩
  · rfl
  · dsimp only
    split_ifs
    · rfl
    · rfl
    · cases stoi o.argPid <;> rfl
    · rfl

/-- A wrapper with a command asks for itself. -/
theorem pid_of_line (asks : request argv self = .ok r) (command : r.line.isSome = true) : r.pid = self := by
  rw [request] at asks
  cases scanned : processArgs 1 (argv.drop 1) {} with
  | none =>
    rw [scanned] at asks
    contradiction
  | some found =>
    rw [scanned] at asks
    dsimp only at asks
    split_ifs at asks with help none attach
    · cases value : stoi found.1.argPid with
      | none =>
        rw [value] at asks
        contradiction
      | some pid =>
        rw [value] at asks
        cases asks
        contradiction
    · cases asks
      rfl

end Cut

/-! ## The text -/

/-- A character of one byte that does not end a C string. -/
def Plain (c : Char) : Prop := 0 < c.toNat ∧ c.toNat < 256

instance (c : Char) : Decidable (Plain c) := inferInstanceAs (Decidable (_ ∧ _))

theorem plain_decimal (i : ℤ) : ∀ c ∈ decimal i, Plain c := by
  have digits (n : ℕ) : ∀ c ∈ Nat.toDigits 10 n, Plain c := by
    intro c member
    have range := Char.isDigit_iff_toNat.mp (Nat.isDigit_of_mem_toDigits (by decide) (by decide) member)
    have low : '0'.toNat = 48 := rfl
    have high : '9'.toNat = 57 := rfl
    rw [Plain]
    omega
  rw [decimal]
  split
  · exact List.forall_mem_cons.mpr ⟨by decide, digits _⟩
  · exact digits _

theorem plain_of_all {text : Str} (all : text.all (fun c => decide (Plain c)) = true) : ∀ c ∈ text, Plain c :=
  fun c member => of_decide_eq_true (List.all_eq_true.mp all c member)

theorem plain_sendPidText (pid : ℤ) (proxy : Bool) : ∀ c ∈ sendPidText pid proxy, Plain c := by
  intro c member
  unfold sendPidText at member
  rw [List.mem_append, List.mem_append] at member
  rcases member with (front | number) | back
  · exact plain_of_all (by decide) c front
  · exact plain_decimal pid c number
  · revert c
    cases proxy <;> exact plain_of_all (by decide)

theorem length_decimal_le {i : ℤ} (low : -2147483648 ≤ i) (high : i < 2147483648) : (decimal i).length ≤ 11 := by
  have digits : (Nat.toDigits 10 i.natAbs).length ≤ 10 :=
    (Nat.length_toDigits_le_iff (by decide) (by decide)).mpr (by omega)
  rw [decimal]
  split
  · rw [List.length_cons]
    omega
  · omega

theorem length_sendPidText_le {pid : ℤ} (low : -2147483648 ≤ pid) (high : pid < 2147483648) (proxy : Bool) :
    (sendPidText pid proxy).length ≤ 29 := by
  have number := length_decimal_le low high
  have front : "\x7b\"data\":".toList.length = 8 := by decide
  have back : (if proxy then ",\"type\":3\x7d" else ",\"type\":4\x7d").toList.length = 10 := by cases proxy <;> decide
  unfold sendPidText
  rw [List.length_append, List.length_append, front, back]
  omega

section Bytes

variable {text : Str}

theorem zero_notMem_bytesOf (plain : ∀ c ∈ text, Plain c) : 0 ∉ bytesOf text := by
  intro member
  obtain ⟨c, listed, zero⟩ := List.mem_map.mp member
  have value := congrArg UInt8.toNat zero
  rw [UInt8.toNat_ofNat'] at value
  have range := plain c listed
  rw [Plain] at range
  simp only [UInt8.toNat_zero] at value
  omega

/-- The characters that the daemon takes the bytes for. -/
theorem map_bytesOf (plain : ∀ c ∈ text, Plain c) : (bytesOf text).map (fun b => Char.ofNat b.toNat) = text := by
  rw [bytesOf, List.map_map]
  refine (List.map_congr_left fun c listed => ?_).trans (List.map_id text)
  have range := (plain c listed).2
  rw [Function.comp_apply, UInt8.toNat_ofNat', Nat.mod_eq_of_lt range, Char.ofNat_toNat, id]

end Bytes

end CgProxy.Wrapper

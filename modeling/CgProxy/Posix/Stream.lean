import Mathlib.Data.Nat.Digits.Lemmas
import Mathlib.Tactic.Linarith

/-! # Byte streams and the integers sent over them

A stream connects a writer and a reader. One call of `read` or `write` may transfer less than it was
asked to; the number of bytes transferred is an argument here. The buffer is unbounded. An `int` is
four bytes of memory, least significant first, and a short read overwrites only the first of them.
-/

namespace Posix

/-! ## Streams -/

/-- What has been written and not yet read, and which ends are still open. -/
@[ext] structure Stream (α : Type*) where
  buffer : List α := []
  writing : Bool := true
  reading : Bool := true
deriving DecidableEq

namespace Stream

variable {α : Type*} {s t : Stream α} {count n : ℕ} {data bytes : List α}

/-- A call of `read` for `count` bytes that returns `n`. Zero means that nothing was asked for or that
the writer has closed its end; otherwise the call waits. -/
def read (s : Stream α) (count n : ℕ) : Option (List α × Stream α) :=
  if n ≤ count ∧ n ≤ s.buffer.length ∧ (n = 0 → count = 0 ∨ s.buffer = [] ∧ s.writing = false) then
    some (s.buffer.take n, { s with buffer := s.buffer.drop n })
  else none

/-- A call of `write` that returns `n`, while the reader's end is open. -/
def write (s : Stream α) (data : List α) (n : ℕ) : Option (Stream α) :=
  if s.reading = true ∧ n ≤ data.length ∧ (n = 0 → data = []) then
    some { s with buffer := s.buffer ++ data.take n }
  else none

theorem read_eq_some_iff :
    s.read count n = some (bytes, t) ↔
      (n ≤ count ∧ n ≤ s.buffer.length ∧ (n = 0 → count = 0 ∨ s.buffer = [] ∧ s.writing = false)) ∧
        bytes = s.buffer.take n ∧ t = { s with buffer := s.buffer.drop n } := by
  rw [read]
  split
  · next allowed =>
    rw [and_iff_right allowed, Option.some.injEq, Prod.mk.injEq]
    exact and_congr eq_comm eq_comm
  · next refused => exact iff_of_false (Option.some_ne_none _).symm fun allowed => refused allowed.1

theorem write_eq_some_iff :
    s.write data n = some t ↔
      (s.reading = true ∧ n ≤ data.length ∧ (n = 0 → data = [])) ∧
        t = { s with buffer := s.buffer ++ data.take n } := by
  rw [write]
  split
  · next allowed =>
    rw [and_iff_right allowed, Option.some.injEq]
    exact eq_comm
  · next refused => exact iff_of_false (Option.some_ne_none _).symm fun allowed => refused allowed.1

/-- Nothing is lost between what a read returns and what it leaves. -/
theorem append_of_read (done : s.read count n = some (bytes, t)) : bytes ++ t.buffer = s.buffer := by
  obtain ⟨-, rfl, rfl⟩ := read_eq_some_iff.mp done
  exact List.take_append_drop n s.buffer

/-- A read of all that was written takes exactly that. -/
theorem read_full (shape : s.buffer = data ++ bytes) :
    s.read data.length data.length = some (data, { s with buffer := bytes }) := by
  refine read_eq_some_iff.mpr ⟨⟨le_rfl, ?_, fun zero => .inl zero⟩, ?_, ?_⟩
  · rw [shape, List.length_append]
    omega
  · rw [shape, List.take_left]
  · rw [shape, List.drop_left]

/-- A write that takes everything. -/
theorem write_full (s : Stream α) (data : List α) (opened : s.reading = true) :
    s.write data data.length = some { s with buffer := s.buffer ++ data } := by
  refine write_eq_some_iff.mpr ⟨⟨opened, le_rfl, List.eq_nil_of_length_eq_zero⟩, ?_⟩
  rw [List.take_length]

end Stream

/-! ## Memory -/

section Memory

variable {α : Type*}

/-- The memory after the bytes have been stored at its beginning. -/
def overwrite (memory bytes : List α) : List α := bytes ++ memory.drop bytes.length

@[simp] theorem overwrite_nil (memory : List α) : overwrite memory [] = memory := rfl

theorem overwrite_of_length_eq {memory bytes : List α} (same : bytes.length = memory.length) :
    overwrite memory bytes = bytes := by
  rw [overwrite, same, List.drop_length, List.append_nil]

/-- Bytes stored over all of the memory but its last one. -/
theorem overwrite_concat {bytes : List α} {memory : List α} (fits : memory.length = bytes.length + 1) (last : α) :
    (overwrite memory bytes).set bytes.length last = bytes ++ [last] := by
  rw [overwrite, List.set_append_right _ _ le_rfl, Nat.sub_self]
  obtain ⟨b, rest⟩ := List.length_eq_one_iff.mp (by rw [List.length_drop]; omega :
    (memory.drop bytes.length).length = 1)
  rw [rest]
  rfl

end Memory

/-! ## Integers -/

/-- The low bytes of a number, least significant first. -/
def littleEndian (width n : ℕ) : List UInt8 := (List.range width).map fun i => UInt8.ofNat (n / 256 ^ i)

def ofLittleEndian (bytes : List UInt8) : ℕ := Nat.ofDigits 256 (bytes.map UInt8.toNat)

@[simp] theorem length_littleEndian (width n : ℕ) : (littleEndian width n).length = width := by
  simp [littleEndian]

theorem ofLittleEndian_littleEndian (width n : ℕ) : ofLittleEndian (littleEndian width n) = n % 256 ^ width := by
  rw [ofLittleEndian, littleEndian, List.map_map]
  induction width with
  | zero => simp [Nat.mod_one]
  | succ width ih =>
    rw [List.range_succ, List.map_append, Nat.ofDigits_append, ih, List.length_map, List.length_range,
      Nat.mod_pow_succ]
    simp [UInt8.toNat_ofNat']

/-- The memory of an `int`. -/
def intBytes (i : ℤ) : List UInt8 := littleEndian 4 (i % 2 ^ 32).toNat

/-- The `int` in four bytes of memory. -/
def intValue (memory : List UInt8) : ℤ := (ofLittleEndian memory : ℤ).bmod (2 ^ 32)

@[simp] theorem length_intBytes (i : ℤ) : (intBytes i).length = 4 := length_littleEndian 4 _

theorem intValue_of_lt {memory : List UInt8} (small : ofLittleEndian memory < 2147483648) :
    intValue memory = ofLittleEndian memory :=
  Int.bmod_eq_of_le (by norm_num) (by norm_num; omega)

theorem intValue_intBytes {i : ℤ} (low : -2 ^ 31 ≤ i) (high : i < 2 ^ 31) : intValue (intBytes i) = i := by
  have small : (i % 2 ^ 32).toNat < 256 ^ 4 := by omega
  have stored : (ofLittleEndian (intBytes i) : ℤ) = i % ((2 ^ 32 : ℕ) : ℤ) := by
    rw [intBytes, ofLittleEndian_littleEndian, Nat.mod_eq_of_lt small]
    omega
  calc
    intValue (intBytes i) = (i % ((2 ^ 32 : ℕ) : ℤ)).bmod (2 ^ 32) := congrArg (·.bmod (2 ^ 32)) stored
    _ = i.bmod (2 ^ 32) := Int.emod_bmod ..
    _ = i := Int.bmod_eq_of_le (by norm_num; omega) (by norm_num; omega)

end Posix

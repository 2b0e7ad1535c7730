import CgProxy.Model.Reader

/-! # What comes back through a pipe

The output of a command is put together from the pieces that `fgets` cuts, wherever they end. The loop that
reads numbers only looks for the end of the text. It stops if everything on the pipe can belong to a number,
and with no more numbers than words if every word is one; at any other character it stays for good.
-/

namespace CgProxy

open Posix Stdio

namespace Reader

section Lines

variable {popen : Str → Option Str} {cmd : ToolCall} {text : Str}

theorem cString_of_clean (clean : '\x00' ∉ text) : Shell.cString text = text := by
  rw [Shell.cString, List.takeWhile_eq_self_iff]
  exact fun c member => decide_eq_true fun zero => clean (zero ▸ member)

/-- The pieces make up the text. -/
theorem fgetsLoop_of_clean (clean : '\x00' ∉ text) (buffer : Str) : fgetsLoop buffer text = buffer ++ text := by
  induction buffer, text using fgetsLoop.induct with
  | case1 buffer text ended => rw [fgets_eq_none_iff.mp ended, fgetsLoop_nil, List.append_nil]
  | case2 buffer text buf rest read ih =>
    have parts := append_of_fgets read
    rw [← parts, List.mem_append, not_or] at clean
    rw [fgetsLoop_of_fgets read, ih clean.2, cString_of_clean clean.1, List.append_assoc, parts]

theorem printed_of_clean (opened : popen cmd.line = some text) (clean : '\x00' ∉ text) :
    printed cmd popen = text.dropLast := by
  rw [printed, opened]
  simp only [fgetsLoop_of_clean clean, List.nil_append]
  split
  · rfl
  · next none => rw [not_not.mp none]; rfl

/-- The other modules read the same. -/
theorem printed_eq_output (clean : ∀ text, popen cmd.line = some text → '\x00' ∉ text) :
    printed cmd popen = cmd.output popen := by
  cases opened : popen cmd.line with
  | none => rw [printed, ToolCall.output, opened]; rfl
  | some text => rw [printed_of_clean opened (clean text opened), ToolCall.output, opened]; rfl

end Lines

/-- A line comes back without its end, whatever its length, and nothing comes back as nothing. -/
theorem bashWhich_bashReadlink_exact (popen : Str → Option Str) (given body : Str) (clean : '\x00' ∉ body) :
    (popen (⟨.which, given⟩ : ToolCall).line = some (body ++ ['\n']) → bashWhich popen given = body) ∧
    (popen (⟨.which, given⟩ : ToolCall).line = some [] → bashWhich popen given = []) ∧
    (popen (⟨.readlink, given⟩ : ToolCall).line = some (body ++ ['\n']) → bashReadlink popen given = body) ∧
    (popen (⟨.readlink, given⟩ : ToolCall).line = some [] → bashReadlink popen given = []) := by
  have line : '\x00' ∉ body ++ ['\n'] := by simpa using clean
  have whole : (body ++ ['\n']).dropLast = body := List.dropLast_concat
  refine ⟨fun opened => ?_, fun opened => ?_, fun opened => ?_, fun opened => ?_⟩
  · exact (printed_of_clean opened line).trans whole
  · exact printed_of_clean opened List.not_mem_nil
  · exact (printed_of_clean opened line).trans whole
  · exact printed_of_clean opened List.not_mem_nil

/-- A path that fills the buffer, so that the newline comes alone. -/
theorem bashWhich_bashReadlink_exact_full :
    bashReadlink (fun _ => some ('/' :: List.replicate 126 'a' ++ ['\n'])) "a".toList = '/' :: List.replicate 126 'a' :=
  (bashWhich_bashReadlink_exact _ "a".toList ('/' :: List.replicate 126 'a') (by decide)).2.2.1 rfl

/-! ## Numbers -/

section Numbers

variable {fuel : ℕ} {pid : ℤ} {pids out : List ℤ} {text : Str}

/-- The loop ends at some time, with no more numbers than the text has words. -/
def Ends (uninitialised : ℤ) (text : Str) : Prop :=
  ∃ fuel pids, pidofLoop fuel uninitialised [] text = some pids ∧ pids.length ≤ (words text).length

/-- Each call that does not find the end adds a number. -/
theorem demand_le_of_pidofLoop (returned : pidofLoop fuel pid pids text = some out) :
    pids.length + demand text ≤ out.length := by
  induction fuel generalizing pid pids text with
  | zero => contradiction
  | succ fuel ih =>
    rw [pidofLoop] at returned
    cases read : scanInt text with
    | none =>
      rw [read] at returned
      cases returned
      simp [demand, scanInt_eq_none_iff.mp read]
    | some result =>
      obtain ⟨converted, rest⟩ := result
      rw [read] at returned
      have later := ih returned
      have now := demand_le_of_scanInt read
      rw [List.length_append, List.length_singleton] at later
      omega

/-- One call for each number, and one for the end. -/
theorem pidofLoop_of_numerals (numerals : (words text).all numeral = true) (pid : ℤ) (pids : List ℤ) :
    ∃ out, pidofLoop ((words text).length + 1) pid pids text = some out ∧
      out.length = pids.length + (words text).length := by
  generalize count : (words text).length = n
  induction n generalizing text pid pids with
  | zero =>
    have ended := scanInt_eq_none_iff.mpr (List.eq_nil_of_length_eq_zero count)
    exact ⟨pids, by rw [pidofLoop, ended], rfl⟩
  | succ n ih =>
    cases read : scanInt text with
    | none => simp [scanInt_eq_none_iff.mp read] at count
    | some result =>
      obtain ⟨converted, rest⟩ := result
      obtain ⟨word, shape⟩ := words_of_scanInt read numerals
      rw [shape, List.length_cons, Nat.add_right_cancel_iff] at count
      rw [shape, List.all_cons, Bool.and_eq_true] at numerals
      obtain ⟨out, returned, length⟩ := ih numerals.2 (converted.getD pid) (pids ++ [converted.getD pid]) count
      refine ⟨out, ?_, ?_⟩
      · rw [pidofLoop, read]
        exact returned
      · rw [length, List.length_append, List.length_singleton]
        omega

/-- A character that no number has is never passed. -/
theorem pidofLoop_of_foreign {c : Char} (foreign : numeric c = false) (member : c ∈ text) (fuel : ℕ) (pid : ℤ)
    (pids : List ℤ) : pidofLoop fuel pid pids text = none := by
  induction fuel generalizing pid pids text with
  | zero => rfl
  | succ fuel ih =>
    rw [pidofLoop]
    cases read : scanInt text with
    | none =>
      have shown := mem_dropWhile_of_false (isSpace_of_numeric foreign) member
      rw [scanInt_eq_none_iff_dropWhile.mp read] at shown
      contradiction
    | some result => exact ih (mem_of_scanInt read foreign member) _ _

/-- Any other is, so that each call leaves less. -/
theorem pidofLoop_of_numeric (own : text.all numeric = true) (enough : text.length < fuel) (pid : ℤ) (pids : List ℤ) :
    ∃ out, pidofLoop fuel pid pids text = some out := by
  induction fuel generalizing pid pids text with
  | zero => contradiction
  | succ fuel ih =>
    rw [pidofLoop]
    cases read : scanInt text with
    | none => exact ⟨pids, rfl⟩
    | some result =>
      have less := length_lt_of_scanInt read own
      have left : result.2.all numeric = true := List.all_eq_true.mpr fun c member =>
        List.all_eq_true.mp own c ((suffix_of_scanInt read).mem member)
      exact ih left (by omega) _ _

/-- The loop ends at some time exactly if every character can belong to a number. -/
theorem pidofLoop_returns_iff : (∃ fuel out, pidofLoop fuel pid pids text = some out) ↔ text.all numeric = true := by
  constructor
  · rintro ⟨fuel, out, returned⟩
    by_contra other
    obtain ⟨c, member, foreign⟩ := List.all_eq_false.mp (Bool.eq_false_iff.mpr other)
    rw [pidofLoop_of_foreign (Bool.eq_false_iff.mpr foreign) member] at returned
    contradiction
  · intro own
    exact ⟨text.length + 1, pidofLoop_of_numeric own (Nat.lt_succ_self _) pid pids⟩

end Numbers

/-- Exactly the texts whose words are all numbers, or signs, are read within bounds. -/
theorem ends_iff (uninitialised : ℤ) (text : Str) : Ends uninitialised text ↔ (words text).all numeral = true := by
  constructor
  · rintro ⟨fuel, pids, returned, short⟩
    have enough := demand_le_of_pidofLoop returned
    by_contra other
    rw [demand, if_neg other, List.length_nil] at enough
    omega
  · intro numerals
    obtain ⟨out, returned, length⟩ := pidofLoop_of_numerals numerals uninitialised []
    exact ⟨_, out, returned, by rw [length, List.length_nil, Nat.zero_add]⟩

/-- A word that keeps the loop busy for ever, and one that is read as two numbers. -/
theorem not_ends_word :
    (∀ fuel, pidofLoop fuel 0 [] "sh: not found\n".toList = none) ∧ ¬ Ends 0 "sh: not found\n".toList ∧
      pidofLoop 3 0 [] "12-5\n".toList = some [12, -5] ∧ ¬ Ends 0 "12-5\n".toList := by
  have stuck (fuel : ℕ) : pidofLoop fuel 0 [] "sh: not found\n".toList = none :=
    pidofLoop_of_foreign (c := 's') (by decide) (by decide) fuel 0 []
  refine ⟨stuck, ?_, by decide, ?_⟩
  · rintro ⟨fuel, pids, returned, -⟩
    rw [stuck] at returned
    contradiction
  · rintro ⟨fuel, pids, returned, short⟩
    have enough := demand_le_of_pidofLoop returned
    have two : demand "12-5\n".toList = 2 := by decide
    have one : (words "12-5\n".toList).length = 1 := by decide
    rw [two, List.length_nil] at enough
    rw [one] at short
    omega

/-! ## What `pidof` prints -/

/-- A number behind the one before it. -/
def pidofLater (numbers : List ℕ) : Str := numbers.flatMap (fun n => ' ' :: Nat.toDigits 10 n) ++ ['\n']

/-- One line with the numbers, if there are any. -/
def pidofText : List ℕ → Str
  | [] => []
  | first :: later => Nat.toDigits 10 first ++ pidofLater later

section Printed

variable {blanks tail : Str} {n : ℕ} {numbers : List ℕ}

theorem pidofLoop_toDigits (blank : ∀ c ∈ blanks, isSpace c = true) (small : n < 2147483648) (ending : Ending tail)
    (fuel : ℕ) (pid : ℤ) (pids : List ℤ) :
    pidofLoop (fuel + 1) pid pids (blanks ++ (Nat.toDigits 10 n ++ tail)) = pidofLoop fuel n (pids ++ [(n : ℤ)]) tail := by
  rw [pidofLoop, scanInt_toDigits blank small ending]
  rfl

theorem pidofLater_cons (n : ℕ) (numbers : List ℕ) :
    pidofLater (n :: numbers) = [' '] ++ (Nat.toDigits 10 n ++ pidofLater numbers) := by
  simp [pidofLater]

theorem ending_pidofLater (numbers : List ℕ) : Ending (pidofLater numbers) := by
  cases numbers <;> exact rfl

theorem pidofLoop_pidofLater (small : ∀ n ∈ numbers, n < 2147483648) (pid : ℤ) (pids : List ℤ) :
    pidofLoop (numbers.length + 1) pid pids (pidofLater numbers) = some (pids ++ numbers.map (↑)) := by
  induction numbers generalizing pid pids with
  | nil =>
    have ended : scanInt (pidofLater []) = none := rfl
    rw [pidofLoop, ended, List.map_nil, List.append_nil]
  | cons n numbers ih =>
    obtain ⟨now, small⟩ := List.forall_mem_cons.mp small
    have blank : ∀ c ∈ [' '], isSpace c = true := by simp [isSpace]
    rw [pidofLater_cons, List.length_cons, pidofLoop_toDigits blank now (ending_pidofLater numbers), ih small,
      List.map_cons, List.append_assoc, List.singleton_append]

/-- The numbers are read as they were printed. -/
theorem bashPidof_pidofText {popen : Str → Option Str} {path : Str}
    (opened : popen (⟨.pidof, path⟩ : ToolCall).line = some (pidofText numbers))
    (small : ∀ n ∈ numbers, n < 2147483648) (uninitialised : ℤ) :
    bashPidof popen uninitialised (numbers.length + 1) path = some (numbers.map (↑)) := by
  rw [bashPidof, opened]
  cases numbers with
  | nil => rfl
  | cons first later =>
    obtain ⟨now, small⟩ := List.forall_mem_cons.mp small
    have blank : ∀ c ∈ ([] : Str), isSpace c = true := List.forall_mem_nil _
    exact (pidofLoop_toDigits blank now (ending_pidofLater later) _ _ _).trans (pidofLoop_pidofLater small _ _)

end Printed

end Reader

end CgProxy

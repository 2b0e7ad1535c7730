import CgProxy.Soundness.Wrapped

/-! # Where the options end

Two loops scan the arguments. The one of `main.cpp` does not know that `--pid` has a value, but it stops at
the first argument that is no option, and so not after the one of the wrapper does. What comes after the
wrapped command's name is therefore seen by neither of them.
-/

namespace CgProxy

namespace Wrapper

/-- Arguments that the wrapper takes for itself: options, and the value after each `--pid`. -/
inductive Leading : List Str → Prop
  | nil : Leading []
  | pid (value : Str) {rest : List Str} (later : Leading rest) : Leading ("--pid".toList :: value :: rest)
  | option {arg : Str} {rest : List Str} (dashed : arg.head? = some '-') (other : arg ≠ "--pid".toList)
      (later : Leading rest) : Leading (arg :: rest)

section Scan

variable {i : ℕ} {arg pid a : Str} {rest leading tail tail' args : List Str} {o : Options}

theorem scan_pid : scan i ("--pid".toList :: pid :: rest) o =
    if validPid pid then scan (i + 2) rest { o with attachPid := true, argPid := pid }
    else ({ o with attachPid := true, argPid := pid }, none) := by
  rw [scan, if_pos rfl]

theorem scan_cons (other : arg ≠ "--pid".toList) : scan i (arg :: rest) o =
    if arg.head? ≠ some '-' then (o.flag arg, some i) else scan (i + 1) rest (o.flag arg) := by
  rw [scan.eq_def]
  dsimp only
  rw [if_neg other]

/-- The scan is that of the model of `main`, which reads its variables only when it returns true. -/
theorem processArgs_eq_scan : processArgs i args o = (scan i args o).2.map ((scan i args o).1, ·) := by
  induction i, args, o using scan.induct with
  | case1 i o => rfl
  | case2 i o => rfl
  | case3 i o pid rest _ valid ih => rw [processArgs_pid, scan_pid, if_pos valid, if_pos valid, ih]
  | case4 i o pid rest invalid => rw [processArgs_pid, scan_pid, if_neg invalid, if_neg invalid, Option.map_none]
  | case5 i o arg rest other stops =>
    rw [processArgs_cons other, scan_cons other, if_pos stops, if_pos stops, Option.map_some]
  | case6 i o arg rest other goes ih =>
    rw [processArgs_cons other, scan_cons other, if_neg goes, if_neg goes, ih]

/-- Nothing after the first operand is looked at. -/
theorem scan_append (before : Leading leading) (operand : a.head? ≠ some '-') :
    scan i (leading ++ a :: tail) o = scan i (leading ++ a :: tail') o := by
  induction before generalizing i o with
  | nil =>
    have other := ne_pid_of_operand operand
    rw [List.nil_append, List.nil_append, scan_cons other, scan_cons other, if_pos operand, if_pos operand]
  | pid value _ ih =>
    rw [List.cons_append, List.cons_append, List.cons_append, List.cons_append, scan_pid, scan_pid, ih]
  | option dashed other _ ih =>
    rw [List.cons_append, List.cons_append, scan_cons other, scan_cons other, ih]

/-- A scan that returns true has come to the first operand, or to the end. -/
theorem shift_of_scan {shift : ℕ} {o' : Options} (scanned : scan i args o = (o', some shift)) :
    (∃ leading a tail, args = leading ++ a :: tail ∧ Leading leading ∧ a.head? ≠ some '-' ∧
        shift = i + leading.length) ∨
      Leading args ∧ shift = i + args.length := by
  induction i, args, o using scan.induct with
  | case1 i o =>
    cases scanned
    exact .inr ⟨.nil, rfl⟩
  | case2 i o => cases scanned
  | case3 i o pid rest _ valid ih =>
    rw [scan_pid, if_pos valid] at scanned
    rcases ih scanned with ⟨leading, a, tail, rfl, before, operand, rfl⟩ | ⟨all, rfl⟩
    · exact .inl ⟨"--pid".toList :: pid :: leading, a, tail, rfl, .pid pid before, operand, by
        simp only [List.length_cons]
        omega⟩
    · exact .inr ⟨.pid pid all, by
        simp only [List.length_cons]
        omega⟩
  | case4 i o pid rest invalid =>
    rw [scan_pid, if_neg invalid] at scanned
    cases scanned
  | case5 i o arg rest other stops =>
    rw [scan_cons other, if_pos stops] at scanned
    cases scanned
    exact .inl ⟨[], arg, rest, rfl, .nil, stops, rfl⟩
  | case6 i o arg rest other goes ih =>
    rw [scan_cons other, if_neg goes] at scanned
    have dashed : arg.head? = some '-' := not_not.mp goes
    rcases ih scanned with ⟨leading, a, tail, rfl, before, operand, rfl⟩ | ⟨all, rfl⟩
    · exact .inl ⟨arg :: leading, a, tail, rfl, .option dashed other before, operand, by
        rw [List.length_cons]
        omega⟩
    · exact .inr ⟨.option dashed other all, by
        rw [List.length_cons]
        omega⟩

/-- The operand it has come to is the first one. -/
theorem shift_of_operand {shift : ℕ} {o' : Options} (before : Leading leading) (operand : a.head? ≠ some '-')
    (scanned : scan i (leading ++ a :: tail) o = (o', some shift)) : shift = i + leading.length := by
  induction before generalizing i o with
  | nil =>
    rw [List.nil_append, scan_cons (ne_pid_of_operand operand), if_pos operand] at scanned
    cases scanned
    rfl
  | pid value _ ih =>
    rw [List.cons_append, List.cons_append, scan_pid] at scanned
    split at scanned
    · rw [ih scanned, List.length_cons, List.length_cons]
      omega
    · cases scanned
  | option dashed other _ ih =>
    rw [List.cons_append, scan_cons other, if_neg (not_not_intro dashed)] at scanned
    rw [ih scanned, List.length_cons]
    omega

end Scan

end Wrapper

namespace Entry

/-- The loop of `main.cpp` stops there as well, or before. -/
theorem processArgs_append {asCgproxyd : Bool} {leading tail tail' : List Str} {a : Str}
    (operand : a.head? ≠ some '-') :
    processArgs asCgproxyd (leading ++ a :: tail) = processArgs asCgproxyd (leading ++ a :: tail') := by
  induction leading generalizing asCgproxyd with
  | nil => simp only [List.nil_append, processArgs, if_pos operand]
  | cons arg rest ih => simp only [List.cons_append, processArgs, ih]

end Entry

open Wrapper

/-- The choice and the variables depend on nothing after the first argument that is neither an option nor
the value of `--pid`, and a scan that returns true leaves the index of that argument, or `argc`. -/
theorem operands_inert :
    (∀ name leading a tail tail', Leading leading → a.head? ≠ some '-' →
      Entry.role (name :: (leading ++ a :: tail)) = Entry.role (name :: (leading ++ a :: tail'))) ∧
    ∀ args o shift, scan 1 args {} = (o, some shift) →
      (∀ leading a tail, args = leading ++ a :: tail → Leading leading → a.head? ≠ some '-' →
        shift = 1 + leading.length) ∧
      ((∀ leading a tail, args = leading ++ a :: tail → Leading leading → a.head? = some '-') →
        shift = 1 + args.length) := by
  refine ⟨fun name leading a tail tail' before operand => ?_, fun args o shift scanned => ⟨?_, fun none => ?_⟩⟩
  · have choice : Entry.processArgs false (leading ++ a :: tail) = Entry.processArgs false (leading ++ a :: tail') :=
      Entry.processArgs_append operand
    have found : scan 1 (leading ++ a :: tail) {} = scan 1 (leading ++ a :: tail') {} := scan_append before operand
    simp only [Entry.role, List.drop_one, List.tail_cons, choice, found]
  · rintro leading a tail rfl before operand
    exact shift_of_operand before operand scanned
  · rcases shift_of_scan scanned with ⟨leading, a, tail, shape, before, operand, -⟩ | ⟨-, length⟩
    · exact absurd (none leading a tail shape before) operand
    · exact length

/-- The options of another program. -/
theorem operands_inert_curl :
    Entry.role ["cgproxy".toList, "--debug".toList, "curl".toList, "--daemon".toList, "--noproxy".toList] =
      Entry.role ["cgproxy".toList, "--debug".toList, "curl".toList] :=
  operands_inert.1 "cgproxy".toList ["--debug".toList] "curl".toList ["--daemon".toList, "--noproxy".toList] []
    (.option rfl (by decide) .nil) (by decide)

end CgProxy

import CgProxy.Model.Wrapper

/-! # The command that the wrapper runs

The option scan stops at the first argument that is no option, and the wrapper joins the arguments from
there on. The shell splits the line again, and gets the same arguments exactly if they are plain.
-/

namespace CgProxy

open Posix Posix.Shell

/-! ## The join -/

private theorem foldl_zipIdx (delm : Char) (args : List Str) (i last : ℕ) (bound : i + args.length = last + 1)
    (s : Str) :
    (args.zipIdx i).foldl (fun s (arg, i) => if i ≠ last then s ++ arg ++ [delm] else s ++ arg) s =
      s ++ [delm].intercalate args := by
  induction args generalizing i s with
  | nil => simp
  | cons arg rest ih =>
    rw [List.zipIdx_cons, List.foldl_cons]
    rw [List.length_cons] at bound
    cases rest with
    | nil =>
      have final : i = last := by simpa using bound
      simp [final]
    | cons next others =>
      have inner : i ≠ last := by
        rw [List.length_cons] at bound
        omega
      rw [ih (i + 1) (by omega), List.intercalate_cons_cons]
      dsimp only
      rw [if_pos inner]
      simp only [List.append_assoc]

/-- The delimiter stands between the arguments. -/
theorem join2strArgv_eq (args : List Str) (delm : Char) :
    join2strArgv args.length args delm = [delm].intercalate args := by
  rw [join2strArgv, List.take_length]
  cases args with
  | nil => rfl
  | cons arg rest => simpa using foldl_zipIdx delm (arg :: rest) 0 rest.length (by simp) []

namespace Wrapper

/-! ## The option scan -/

theorem processArgs_pid {i : ℕ} {pid : Str} {rest : List Str} {o : Options} :
    processArgs i ("--pid".toList :: pid :: rest) o =
      if validPid pid then processArgs (i + 2) rest { o with attachPid := true, argPid := pid } else none := by
  rw [processArgs, if_pos rfl]

theorem processArgs_cons {i : ℕ} {arg : Str} {rest : List Str} {o : Options} (other : arg ≠ "--pid".toList) :
    processArgs i (arg :: rest) o =
      if arg.head? ≠ some '-' then some (o.flag arg, i) else processArgs (i + 1) rest (o.flag arg) := by
  rw [processArgs.eq_def]
  dsimp only
  rw [if_neg other]

theorem ne_pid_of_operand {a : Str} (operand : a.head? ≠ some '-') : a ≠ "--pid".toList := by
  rintro rfl
  exact operand rfl

/-- Once a process is to be attached, it stays so. -/
theorem attachPid_of_processArgs {i shift : ℕ} {args : List Str} {o o' : Options}
    (scanned : processArgs i args o = some (o', shift)) (attached : o.attachPid = true) : o'.attachPid = true := by
  induction i, args, o using processArgs.induct with
  | case1 i o =>
    cases scanned
    exact attached
  | case2 i o => contradiction
  | case3 i o pid rest valid ih =>
    rw [processArgs_pid, if_pos valid] at scanned
    exact ih scanned rfl
  | case4 i o pid rest invalid =>
    rw [processArgs_pid, if_neg invalid] at scanned
    contradiction
  | case5 i o arg rest other stops =>
    rw [processArgs_cons other, if_pos stops] at scanned
    cases scanned
    exact attached
  | case6 i o arg rest other goes ih =>
    rw [processArgs_cons other, if_neg goes] at scanned
    exact ih scanned attached

/-- Without a process to attach, the scan stops at the first argument that is no option. -/
theorem shift_of_processArgs {i shift : ℕ} {options rest : List Str} {a : Str} {o o' : Options}
    (dashed : ∀ b ∈ options, b.head? = some '-') (operand : a.head? ≠ some '-')
    (scanned : processArgs i (options ++ a :: rest) o = some (o', shift)) (own : o'.attachPid = false) :
    shift = i + options.length := by
  induction options generalizing i o with
  | nil =>
    rw [List.nil_append, processArgs_cons (ne_pid_of_operand operand), if_pos operand] at scanned
    cases scanned
    rfl
  | cons b options ih =>
    by_cases pid : b = "--pid".toList
    · subst pid
      obtain ⟨next, others, shape⟩ := List.exists_cons_of_ne_nil (l := options ++ a :: rest) (by simp)
      rw [List.cons_append, shape, processArgs_pid] at scanned
      split at scanned
      · rw [attachPid_of_processArgs scanned rfl] at own
        contradiction
      · contradiction
    · have goes : ¬ b.head? ≠ some '-' := not_not_intro (dashed b List.mem_cons_self)
      rw [List.cons_append, processArgs_cons pid, if_neg goes] at scanned
      rw [ih (fun d member => dashed d (List.mem_cons_of_mem b member)) scanned, List.length_cons]
      omega

/-- `main` gets to `system` after a scan that asks for neither help nor another process, and leaves
something to run. -/
theorem main_eq_system_iff {argv : List Str} {self : ℤ} {sendPid : ℤ → Bool → ℤ} {line : Str} :
    main argv self sendPid = .system line ↔ ∃ o shift, processArgs 1 (argv.drop 1) {} = some (o, shift) ∧
      o.printHelp = false ∧ o.attachPid = false ∧ argv.length ≠ shift ∧ sendPid self o.proxy = 0 ∧
      cString (join2strArgv (argv.length - shift) (argv.drop shift) ' ') = line := by
  rw [main]
  cases scanned : processArgs 1 (argv.drop 1) {} with
  | none => simp
  | some result =>
    obtain ⟨o, shift⟩ := result
    simp only [Option.some.injEq, Prod.mk.injEq, exists_and_left, exists_eq_left', and_assoc]
    cases help : o.printHelp with
    | true => simp
    | false =>
      cases attach : o.attachPid with
      | true =>
        cases stoi o.argPid with
        | none => simp
        | some pid => simp [ite_eq_iff]
      | false => simp [ite_eq_iff]

/-- What it hands over is the arguments from the first one that is no option. -/
theorem line_of_main {name a line : Str} {options rest : List Str} {self : ℤ} {sendPid : ℤ → Bool → ℤ}
    (dashed : ∀ b ∈ options, b.head? = some '-') (operand : a.head? ≠ some '-')
    (run : main (name :: (options ++ a :: rest)) self sendPid = .system line) :
    line = cString ([' '].intercalate (a :: rest)) := by
  obtain ⟨o, shift, scanned, -, own, -, -, rfl⟩ := main_eq_system_iff.mp run
  rw [List.drop_one, List.tail_cons] at scanned
  have stop := shift_of_processArgs dashed operand scanned own
  have dropped : (name :: (options ++ a :: rest)).drop shift = a :: rest := by
    rw [stop, Nat.add_comm, List.drop_succ_cons, List.drop_left]
  have length : (name :: (options ++ a :: rest)).length - shift = (a :: rest).length := by
    rw [stop, List.length_cons, List.length_append]
    omega
  rw [dropped, length, join2strArgv_eq]

end Wrapper

/-- The shell gets back the wrapped command exactly if all of it is plain and its first word is a command. -/
theorem wrapped_iff (name a line : Str) (options rest : List Str) (self : ℤ) (sendPid : ℤ → Bool → ℤ)
    (dashed : ∀ b ∈ options, b.head? = some '-') (operand : a.head? ≠ some '-')
    (run : Wrapper.main (name :: (options ++ a :: rest)) self sendPid = .system line) :
    argumentVector line = some (a :: rest) ↔ (∀ b ∈ a :: rest, Plain b) ∧ isCommand (unquoted a) = true := by
  rw [Wrapper.line_of_main dashed operand run, argumentVector_cString_iff]
  rfl

/-- The example of the readme. -/
theorem wrapped_curl :
    argumentVector "curl -vI https://www.google.com".toList =
      some ["curl".toList, "-vI".toList, "https://www.google.com".toList] :=
  (wrapped_iff "cgproxy".toList "curl".toList "curl -vI https://www.google.com".toList ["--debug".toList]
    ["-vI".toList, "https://www.google.com".toList] 100 (fun _ _ => 0) (by decide) (by decide) (by decide)).mpr
    (by decide)

/-- One argument with a blank becomes two. -/
theorem wrapped_blank :
    Wrapper.main ["cgproxy".toList, "ls".toList, "a b".toList] 100 (fun _ _ => 0) = .system "ls a b".toList ∧
      argumentVector "ls a b".toList = some ["ls".toList, "a".toList, "b".toList] := by
  decide

end CgProxy

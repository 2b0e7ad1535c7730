import CgProxy.Model.Script

/-! # The script as a process

`Script.start` and `Script.stop` are whole runs of `cgroup-tproxy.sh`. Here the same script is a process
that takes one command at a time, so that it can be killed between two commands or run beside another
one. A test and the command that depends on it are one step. `Process.start_eq` and `Process.stop_eq`
connect both views.
-/

namespace CgProxy

open Netfilter

namespace Script

/-- What a running script is about to do. `stopping` is its argument. -/
inductive Process where
  | launched (env : Env) (stopping : Bool)
  | mounting (env : Env) (target : Str)
  | checking (env : Env) (target : Str)
  | makingProxy (env : Env)
  | makingNoproxy (env : Env)
  | filtering (env : Env)
  | installing (rest : List Command)
  | probing (env : Env) (target : Str)
  | removing (rest : List Command) (target : Str)
  | finished

namespace Process

/-- A directory that can be neither found nor made ends the script. -/
def make (path : Str) (next : Process) (k : Kernel) : Process × Kernel :=
  match ensureDir k.hierarchy path with
  | none => (finished, k)
  | some h => (next, { k with hierarchy := h })

def step (p : Process) (k : Kernel) : Process × Kernel :=
  match p with
  | launched env false => (mounting env (cgroupMountPoint env k), k)
  | launched env true => (probing env (cgroupMountPoint env k), k)
  | mounting env target =>
      if target = [] then (finished, k)
      else (checking env target, if target ∈ k.mounts then k else k.runAll [.mount target])
  | checking env target => if target ∉ k.mounts then (finished, k) else (makingProxy env, k)
  | makingProxy env =>
      make ((cgroupArray env.cgroupProxy cgroupProxyPreserved).head?.getD []) (makingNoproxy env) k
  | makingNoproxy env =>
      make ((cgroupArray env.cgroupNoproxy cgroupNoproxyPreserved).head?.getD []) (filtering env) k
  | filtering env =>
      (installing (startCommands (params env)
        (keepExisting k.hierarchy (cgroupArray env.cgroupNoproxy cgroupNoproxyPreserved))
        (keepExisting k.hierarchy (cgroupArray env.cgroupProxy cgroupProxyPreserved))), k)
  | installing [] => (finished, k)
  | installing (c :: rest) => (installing rest, k.runAll [c])
  | probing env target =>
      if .tproxyEnt ∉ (k.tables .ipv4).mangle.chains then (finished, k)
      else (removing (stopCommands (params env)) target, k)
  | removing [] target => (finished, if target ∈ k.mounts then k.runAll [.umount target] else k)
  | removing (c :: rest) target => (removing rest target, k.runAll [c])
  | finished => (finished, k)

/-- The process and the kernel after a number of steps, if nothing else happens. -/
def after : ℕ → Process → Kernel → Process × Kernel
  | 0, p, k => (p, k)
  | n + 1, p, k => after n (p.step k).1 (p.step k).2

variable {env : Env} {k : Kernel} {p : Process}

theorem after_succ (n : ℕ) (p : Process) (k : Kernel) :
    after (n + 1) p k = after n (p.step k).1 (p.step k).2 := rfl

theorem after_add (m n : ℕ) (p : Process) (k : Kernel) :
    after (m + n) p k = after n (after m p k).1 (after m p k).2 := by
  induction m generalizing p k with
  | zero => rw [Nat.zero_add]; rfl
  | succ m ih => rw [Nat.succ_add, after_succ, after_succ, ih]

@[simp] theorem after_finished (n : ℕ) (k : Kernel) : after n finished k = (finished, k) := by
  induction n with
  | zero => rfl
  | succ n ih => rw [after_succ]; exact ih

/-- A starting script that is killed has executed a prefix of its commands. -/
theorem after_installing (n : ℕ) (cmds : List Command) (k : Kernel) :
    (after n (installing cmds) k).2 = k.runAll (cmds.take n) := by
  induction n generalizing cmds k with
  | zero => rfl
  | succ n ih =>
    cases cmds with
    | nil => rw [after_succ]; simp [step, Kernel.runAll]
    | cons c rest => rw [after_succ, step, ih]; rfl

/-- So has a stopping one, which moreover unmounts at the end. -/
theorem after_removing (n : ℕ) (cmds : List Command) (target : Str) (k : Kernel) :
    Kernel.Alike (k.runAll (cmds.take n)) (after n (removing cmds target) k).2 := by
  induction n generalizing cmds k with
  | zero => exact .refl k
  | succ n ih =>
    cases cmds with
    | nil =>
      rw [after_succ, step, after_finished]
      dsimp only
      split
      · exact .umount k target
      · exact .refl k
    | cons c rest =>
      rw [after_succ, step]
      exact ih rest (k.runAll [c])

private theorem after_installing_all (cmds : List Command) (k : Kernel) :
    after (cmds.length + 1) (installing cmds) k = (finished, k.runAll cmds) := by
  induction cmds generalizing k with
  | nil => rfl
  | cons c rest ih => rw [List.length_cons, after_succ, step, ih]; rfl

private theorem after_removing_all (cmds : List Command) (target : Str) (k : Kernel) :
    after (cmds.length + 1) (removing cmds target) k =
      (finished,
        if target ∈ (k.runAll cmds).mounts then (k.runAll cmds).runAll [.umount target] else k.runAll cmds) := by
  induction cmds generalizing k with
  | nil => rfl
  | cons c rest ih => rw [List.length_cons, after_succ, step, ih]; rfl

/-- The first three steps, up to the directories. -/
theorem after_checking {k' : Kernel} {target : Str} (named : cgroupMountPoint env k = target) (some : target ≠ [])
    (mounted : (if target ∈ k.mounts then k else k.runAll [.mount target]) = k') :
    after 3 (launched env false) k =
      if target ∉ k'.mounts then (finished, k') else (makingProxy env, k') := by
  have first : (launched env false).step k = (mounting env target, k) := by rw [step, named]
  have second : (mounting env target).step k = (checking env target, k') := by rw [step, if_neg some, mounted]
  rw [after_succ, first, after_succ, second]
  rfl

/-- Left alone, a starting script does what `Script.start` says. -/
theorem start_eq (env : Env) (k : Kernel) : ∃ n, after n (launched env false) k = (finished, start env k) := by
  rw [start]
  dsimp only
  generalize named : cgroupMountPoint env k = target
  by_cases none : target = []
  · rw [if_pos none]
    exact ⟨2, by simp [after, step, named, none]⟩
  rw [if_neg none]
  generalize mounted : (if target ∈ k.mounts then k else k.runAll [.mount target]) = k'
  have checked := after_checking named none mounted
  split
  · next failed => exact ⟨3, by rw [checked, if_pos failed]⟩
  · next succeeded =>
    rw [if_neg succeeded] at checked
    rw [ensureFirst]
    cases first : ensureDir k'.hierarchy ((cgroupArray env.cgroupProxy cgroupProxyPreserved).head?.getD []) with
    | none =>
      refine ⟨3 + 1, ?_⟩
      rw [after_add, checked]
      simp only [after, step, make, first]
    | some h =>
      cases second : ensureDir h ((cgroupArray env.cgroupNoproxy cgroupNoproxyPreserved).head?.getD []) with
      | none =>
        refine ⟨3 + 2, ?_⟩
        rw [after_add, checked]
        simp only [after, step, make, first, second]
      | some h' =>
        let cmds := startCommands (params env)
          (keepExisting h' (cgroupArray env.cgroupNoproxy cgroupNoproxyPreserved))
          (keepExisting h' (cgroupArray env.cgroupProxy cgroupProxyPreserved))
        have made : after 3 (makingProxy env) k' = (installing cmds, { k' with hierarchy := h' }) := by
          simp only [after, step, make, first, second, cmds]
        refine ⟨3 + (3 + (cmds.length + 1)), ?_⟩
        rw [after_add, checked, after_add, made, after_installing_all]
        dsimp only
        rw [second]

/-- A stopping process that finds the chain comes to its commands. -/
theorem after_probing (present : .tproxyEnt ∈ (k.tables .ipv4).mangle.chains) :
    after 2 (launched env true) k = (removing (stopCommands (params env)) (cgroupMountPoint env k), k) := by
  have second : (probing env (cgroupMountPoint env k)).step k = _ := if_neg (not_not_intro present)
  rw [after_succ, step, after_succ, second]
  rfl

/-- And it does what `Script.stop` says. -/
theorem stop_eq (env : Env) (k : Kernel) : ∃ n, after n (launched env true) k = (finished, stop env k) := by
  rw [stop]
  split
  · next absent => exact ⟨2, by simp [after, step, absent]⟩
  · next present =>
    exact ⟨2 + ((stopCommands (params env)).length + 1),
      by rw [after_add, after_probing (not_not.mp present), after_removing_all]⟩

end Process

end Script

end CgProxy

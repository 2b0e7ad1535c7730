import CgProxy.Model.Daemon
import CgProxy.Posix.Paths
import CgProxy.Soundness.Injection

/-! # Program lists and real paths

`handle_pid` looks for the real path of a program in the lists. A name that is searched for gets into a
list as a real path. An absolute path of a file gets there as it stands, links and all.
-/

namespace CgProxy

open Posix Posix.Shell

/-- What a command prints that finds a path, or none. -/
def printed : Option Str → Str
  | none => []
  | some path => path ++ ['\n']

/-- The two commands, as documented: `which name` prints what the search gives for its argument, and
`readlink -e` the real path of an argument that is no option. Nothing is known of other lines. -/
structure Documented (t : Tree) (which : Str → Option Str) (popen : Str → Option Str) : Prop where
  which {line name : Str} (read : argumentVector line = some ["which".toList, name]) :
    popen line = some (printed (which name))
  readlink {line path : Str} (read : argumentVector line = some ["readlink".toList, "-e".toList, path])
    (operand : path.head? ≠ some '-') : popen line = some (printed (t.realpath path))

/-- `getRealExistPath` returns the name itself. -/
def Taken (t : Tree) (name : Str) : Prop := name.head? = some '/' ∧ t.isRegular name = true

/-- The program that a configured name stands for, as a real path. -/
def Resolves (t : Tree) (which : Str → Option Str) (name program : Str) : Prop :=
  ∃ path, (Taken t name ∧ path = name ∨ ¬ Taken t name ∧ which name = some path) ∧
    t.realpath path = some program ∧ t.isRegular program = true

/-- The test of `handle_pid`: the real path of `/proc/pid/exe` is in the list. -/
def Listed (w : World) (pid : ℤ) (programs : List Str) : Prop := ∃ path, w.exe pid = some path ∧ path ∈ programs

/-- The list that `names` have become has real paths of regular files only, and what the names stand for
is found in it. -/
structure Canonical (t : Tree) (which : Str → Option Str) (names programs : List Str) : Prop where
  real : ∀ e ∈ programs, t.realpath e = some e ∧ t.isRegular e = true
  found : ∀ name ∈ names, ∀ program, Resolves t which name program →
    ∀ (w : World) (pid : ℤ), w.exe pid = some program → Listed w pid programs

/-- The name and what the search gives for it pass through a command line unchanged. -/
def Passable (which : Str → Option Str) (name : Str) : Prop :=
  Plain name ∧ ∀ path, which name = some path → Plain path ∧ path.head? ≠ some '-'

section Commands

variable {t : Tree} {which : Str → Option Str} {popen : Str → Option Str} {host : Host} {name path e : Str}

theorem dropLast_printed (found : Option Str) : (printed found).dropLast = found.getD [] := by
  cases found <;> simp [printed]

theorem bashWhich_eq (documented : Documented t which popen) (plain : Plain name) :
    bashWhich popen name = (which name).getD [] := by
  have read := documented.which ((ToolCall.passedOn_iff ⟨.which, name⟩).mpr plain)
  rw [bashWhich, ToolCall.output, read, Option.getD_some, dropLast_printed]

theorem bashReadlink_eq (documented : Documented t which popen) (plain : Plain path)
    (operand : path.head? ≠ some '-') : bashReadlink popen path = (t.realpath path).getD [] := by
  have read := documented.readlink ((ToolCall.passedOn_iff ⟨.readlink, path⟩).mpr plain) operand
  rw [bashReadlink, ToolCall.output, read, Option.getD_some, dropLast_printed]

theorem getRealExistPath_taken (popen : Str → Option Str) (taken : Taken t name) :
    getRealExistPath (host.running t.isRegular popen) name = name := if_pos taken

/-- What is found for a name that is searched for. -/
theorem getRealExistPath_searched_iff (documented : Documented t which popen) (searched : ¬ Taken t name)
    (passable : Passable which name) (nonempty : e ≠ []) :
    getRealExistPath (host.running t.isRegular popen) name = e ↔ Resolves t which name e := by
  have resolves : Resolves t which name e ↔
      ∃ path, which name = some path ∧ t.realpath path = some e ∧ t.isRegular e = true := by
    simp [Resolves, searched]
  have empty : t.isRegular [] = false := rfl
  have search : getRealExistPath (host.running t.isRegular popen) name =
      if bashWhich popen name = [] then []
      else if t.isRegular (bashReadlink popen (bashWhich popen name)) then bashReadlink popen (bashWhich popen name)
      else [] := if_neg searched
  rw [resolves, search, bashWhich_eq documented passable.1]
  cases found : which name with
  | none => simp [nonempty.symm]
  | some path =>
    obtain ⟨plain, operand⟩ := passable.2 path found
    rw [Option.getD_some, if_neg plain.nonempty, bashReadlink_eq documented plain operand]
    cases real : t.realpath path with
    | none => simp [empty, real, nonempty.symm]
    | some q =>
      simp only [Option.getD_some, Option.some.injEq, exists_eq_left', real]
      rcases Bool.eq_false_or_eq_true (t.isRegular q) with regular | special
      · rw [if_pos regular]
        exact ⟨fun same => ⟨same, same ▸ regular⟩, And.left⟩
      · rw [if_neg (by simp [special])]
        refine iff_of_false nonempty.symm ?_
        rintro ⟨rfl, regular⟩
        rw [special] at regular
        contradiction

theorem mem_toRealProgramPath {host : Host} {names : List Str} :
    e ∈ Config.toRealProgramPath host names ↔ e ≠ [] ∧ ∃ name ∈ names, getRealExistPath host name = e := by
  simp [Config.toRealProgramPath, and_comm]

end Commands

/-- After a load the list is canonical exactly if the absolute paths in it were real ones; what happens to
the other names is known as long as the shell passes them on. -/
theorem canonical_programs (t : Tree) (which popen : Str → Option Str) (documented : Documented t which popen)
    (host : Host) (names : List Str) :
    let programs := Config.toRealProgramPath (host.running t.isRegular popen) names
    (Canonical t which names programs → ∀ name ∈ names, Taken t name → t.realpath name = some name) ∧
      ((∀ name ∈ names, Taken t name → t.realpath name = some name) →
        (∀ name ∈ names, ¬ Taken t name → Passable which name) → Canonical t which names programs) := by
  intro programs
  have nonempty {name : Str} (taken : Taken t name) : name ≠ [] := by
    rintro rfl
    exact absurd taken.1 (by simp)
  constructor
  · intro canonical name member taken
    have kept : name ∈ programs :=
      mem_toRealProgramPath.mpr ⟨nonempty taken, name, member, getRealExistPath_taken popen taken⟩
    exact (canonical.real name kept).1
  · intro direct passable
    constructor
    · intro e kept
      obtain ⟨some, name, member, same⟩ := mem_toRealProgramPath.mp kept
      by_cases taken : Taken t name
      · rw [getRealExistPath_taken popen taken] at same
        subst same
        exact ⟨direct name member taken, taken.2⟩
      · obtain ⟨path, -, real, regular⟩ :=
          (getRealExistPath_searched_iff documented taken (passable name member taken) some).mp same
        exact ⟨Tree.realpath_realpath real, regular⟩
    · intro name member program resolves w pid exe
      refine ⟨program, exe, ?_⟩
      by_cases taken : Taken t name
      · obtain ⟨path, ⟨-, rfl⟩ | ⟨searched, -⟩, real, -⟩ := resolves
        · rw [direct path member taken] at real
          cases real
          exact mem_toRealProgramPath.mpr ⟨nonempty taken, _, member, getRealExistPath_taken popen taken⟩
        · contradiction
      · have some : program ≠ [] := by
          obtain ⟨path, -, real, -⟩ := resolves
          obtain ⟨q, -, rfl⟩ := Option.map_eq_some_iff.mp real
          simp [render]
        have found : getRealExistPath (host.running t.isRegular popen) name = program :=
          (getRealExistPath_searched_iff documented taken (passable name member taken) some).mpr resolves
        exact mem_toRealProgramPath.mpr ⟨some, name, member, found⟩

/-! ## A program behind a link -/

/-- A shell whose commands do what is documented, and nothing else. -/
def shellPopen (t : Tree) (which : Str → Option Str) (line : Str) : Option Str :=
  match argumentVector line with
  | some [cmd, name] => if cmd = "which".toList then some (printed (which name)) else none
  | some [_, _, path] => some (printed (t.realpath path))
  | _ => none

theorem documented_shellPopen (t : Tree) (which : Str → Option Str) : Documented t which (shellPopen t which) where
  which read := by rw [shellPopen, read]; exact if_pos rfl
  readlink read _ := by rw [shellPopen, read]

/-- The links of the comment: v2ray -> /usr/bin/v2ray -> /usr/lib/v2ray/v2ray. -/
def linkedTree : Tree where
  node path :=
    if path ∈ [["usr"], ["usr", "bin"], ["usr", "lib"], ["usr", "lib", "v2ray"]].map (·.map String.toList) then
      some .directory
    else if path = ["usr", "bin", "v2ray"].map String.toList then some (.link "/usr/lib/v2ray/v2ray".toList)
    else if path = ["usr", "lib", "v2ray", "v2ray"].map String.toList then some (.file true)
    else none
  cwd := []
  cwdReal := .root

def linkedWhich (name : Str) : Option Str :=
  if name = "v2ray".toList then some "/usr/bin/v2ray".toList else none

/-- By its name the program is found. -/
theorem canonical_programs_name :
    Canonical linkedTree linkedWhich ["v2ray".toList]
      (Config.toRealProgramPath ((Config.singleHost [] .null).running linkedTree.isRegular
        (shellPopen linkedTree linkedWhich)) ["v2ray".toList]) := by
  have searched : ¬ Taken linkedTree "v2ray".toList := fun taken => absurd taken.1 (by decide)
  have passable : Passable linkedWhich "v2ray".toList := by
    refine ⟨by decide, fun path found => ?_⟩
    cases found
    decide
  refine (canonical_programs linkedTree linkedWhich _ (documented_shellPopen _ _) _ _).2 ?_ ?_
  · exact List.forall_mem_singleton.mpr fun taken => absurd taken searched
  · exact List.forall_mem_singleton.mpr fun _ => passable

/-- By the path of the link it is not: the list keeps that path. -/
theorem canonical_programs_link :
    ¬ Canonical linkedTree linkedWhich ["/usr/bin/v2ray".toList]
      (Config.toRealProgramPath ((Config.singleHost [] .null).running linkedTree.isRegular
        (shellPopen linkedTree linkedWhich)) ["/usr/bin/v2ray".toList]) := by
  have regular : linkedTree.isRegular "/usr/bin/v2ray".toList = true := by decide +kernel
  have elsewhere : linkedTree.realpath "/usr/bin/v2ray".toList ≠ some "/usr/bin/v2ray".toList := by decide +kernel
  have kept : "/usr/bin/v2ray".toList ∈ Config.toRealProgramPath ((Config.singleHost [] .null).running
      linkedTree.isRegular (shellPopen linkedTree linkedWhich)) ["/usr/bin/v2ray".toList] :=
    mem_toRealProgramPath.mpr ⟨by decide, _, List.mem_singleton_self _, getRealExistPath_taken _ ⟨rfl, regular⟩⟩
  exact fun canonical => elsewhere (canonical.real _ kept).1

end CgProxy

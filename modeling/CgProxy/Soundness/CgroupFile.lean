import CgProxy.Model.Reader

/-! # The cgroup in a process's file

The kernel prints one line for each hierarchy that a process is in, and the unified one has the number zero
and no controllers. The line is told from the others by its first character, since no other number is printed
with a zero in front, and its path begins behind three characters.
-/

namespace CgProxy

open Posix

/-- An entry of `/proc/<pid>/cgroup`. -/
structure CgroupEntry where
  id : ℕ
  controllers : Str
  path : Str
  oneLine : '\n' ∉ controllers ∧ '\n' ∉ path
  unified : id = 0 → controllers = []

namespace CgroupEntry

def line (e : CgroupEntry) : Str := Nat.toDigits 10 e.id ++ ':' :: (e.controllers ++ ':' :: e.path)

/-- The text of the file. -/
def text (entries : List CgroupEntry) : Str := entries.flatMap fun e => e.line ++ ['\n']

/-- No process is in two unified hierarchies. -/
def OneUnified (entries : List CgroupEntry) : Prop := entries.Pairwise fun a b => ¬ (a.id = 0 ∧ b.id = 0)

theorem newline_notMem_line (e : CgroupEntry) : '\n' ∉ e.line := by
  have number : '\n' ∉ Nat.toDigits 10 e.id := fun member => by
    have digit := Nat.isDigit_of_mem_toDigits (by decide) (by decide) member
    contradiction
  simp [line, number, e.oneLine]

theorem head?_line (e : CgroupEntry) : e.line.head? = some '0' ↔ e.id = 0 := by
  rw [line, List.head?_append_of_ne_nil _ Nat.toDigits_ne_nil, Stdio.head?_toDigits_eq_zero_iff]

theorem substr_line {e : CgroupEntry} (zero : e.id = 0) : substr e.line 3 = .ok e.path := by
  rw [line, zero, e.unified zero, Nat.toDigits_zero]
  rfl

theorem find?_of_oneUnified {entries : List CgroupEntry} (one : OneUnified entries) {e : CgroupEntry} (member : e ∈ entries)
    (zero : e.id = 0) : entries.find? (·.id = 0) = some e := by
  induction entries with
  | nil => contradiction
  | cons first rest ih =>
    obtain ⟨alone, one⟩ := List.pairwise_cons.mp one
    rcases List.mem_cons.mp member with rfl | later
    · exact List.find?_cons_of_pos (by simpa using zero)
    · rw [List.find?_cons_of_neg (by simpa using fun other => alone e later ⟨other, zero⟩)]
      exact ih one later

end CgroupEntry

namespace Reader

open CgroupEntry

variable {files : Str → Option Str} {pid : Str} {entries : List CgroupEntry}

/-- One line. -/
theorem getCgroupLoop_line (e : CgroupEntry) (rest : Str) :
    getCgroupLoop (e.line ++ '\n' :: rest) = if e.id = 0 then .ok e.path else getCgroupLoop rest := by
  rw [getCgroupLoop_of_getline (Stdio.getline_append e.newline_notMem_line rest)]
  by_cases zero : e.id = 0
  · rw [if_pos (e.head?_line.mpr zero), if_pos zero, substr_line zero]
  · rw [if_neg (mt e.head?_line.mp zero), if_neg zero]

/-- The first entry of the unified hierarchy decides. -/
theorem getCgroupLoop_text (entries : List CgroupEntry) :
    getCgroupLoop (text entries) = .ok (((entries.find? (·.id = 0)).map path).getD []) := by
  induction entries with
  | nil => rw [text, List.flatMap_nil, getCgroupLoop]; rfl
  | cons e rest ih =>
    have shape : text (e :: rest) = e.line ++ '\n' :: text rest := by
      rw [text, List.flatMap_cons, List.append_assoc]
      rfl
    rw [shape, getCgroupLoop_line, ih]
    by_cases zero : e.id = 0
    · rw [if_pos zero, List.find?_cons_of_pos (by simpa using zero)]
      rfl
    · rw [if_neg zero, List.find?_cons_of_neg (by simpa using zero)]

theorem getCgroup_text (content : files (cgroupFile pid) = some (text entries)) :
    getCgroup files pid = .ok (((entries.find? (·.id = 0)).map path).getD []) := by
  rw [getCgroup, content]
  exact getCgroupLoop_text entries

/-- The path of the entry with the number zero, or nothing. -/
theorem getCgroup_entries (content : files (cgroupFile pid) = some (text entries))
    (one : OneUnified entries) :
    (∀ e ∈ entries, e.id = 0 → getCgroup files pid = .ok e.path) ∧
      ((∀ e ∈ entries, e.id ≠ 0) → getCgroup files pid = .ok []) := by
  rw [getCgroup_text content]
  constructor
  · intro e member zero
    rw [find?_of_oneUnified one member zero]
    rfl
  · intro none
    rw [List.find?_eq_none.mpr fun e member => by simpa using none e member]
    rfl

/-- A process in a numbered hierarchy, a named one and the unified one. -/
theorem getCgroup_entries_mixed :
    getCgroup (fun _ => some "10:cpu:/a\n1:name=systemd:/0::/b\n0::/user.slice/x\n".toList) "42".toList =
      .ok "/user.slice/x".toList := by
  let numbered : CgroupEntry := ⟨10, "cpu".toList, "/a".toList, by decide, by decide⟩
  let named : CgroupEntry := ⟨1, "name=systemd".toList, "/0::/b".toList, by decide, by decide⟩
  let unified : CgroupEntry := ⟨0, [], "/user.slice/x".toList, by decide, by decide⟩
  have content : "10:cpu:/a\n1:name=systemd:/0::/b\n0::/user.slice/x\n".toList = text [numbered, named, unified] := by
    decide
  have one : OneUnified [numbered, named, unified] := by simp [OneUnified, numbered, named]
  exact (@getCgroup_entries (fun _ => some _) "42".toList _ (congrArg some content) one).1 unified (by simp) rfl

/-- The file of a process in a cgroup. It is gone with the process. -/
def Shown (files : Str → Option Str) (pid : Str) : Option CgPath → Prop
  | none => files (cgroupFile pid) = none
  | some p => ∃ entries, files (cgroupFile pid) = some (text entries) ∧ OneUnified entries ∧
      ∃ e ∈ entries, e.id = 0 ∧ e.path = p.toStr

/-- So `attach` reads the cgroup that the process is in. -/
theorem getCgroup_of_shown {process : Option CgPath} (shown : Shown files pid process) :
    getCgroup files pid = .ok (Attach.getCgroup process) := by
  cases process with
  | none => rw [getCgroup, show files (cgroupFile pid) = none from shown]; rfl
  | some p =>
    obtain ⟨entries, content, one, e, member, zero, place⟩ := shown
    rw [getCgroup_text content, find?_of_oneUnified one member zero, Option.map_some, place]
    rfl

end Reader

end CgProxy

import CgProxy.Posix.Lexical
import CgProxy.Soundness.AttachTruth

/-! # Where attach makes directories

The validator admits dots and slashes, and so names that lead up. The paths that `attach` works on are the
mount point with the string behind it; they stay below the mount point exactly if the string does not climb
above it, or comes back by the names of the mount point.
-/

namespace CgProxy

open Posix.Lexical

/-- What a name in a path does. -/
def moveOf (name : Str) : Move Str :=
  if name = ".".toList then .stay else if name = "..".toList then .up else .down name

theorem lexicalNormal_eq (names : List Str) : lexicalNormal names = (names.map moveOf).foldl Move.apply [] := by
  have same : (fun (here : List Str) (name : Str) =>
      if name = ".".toList then here else if name = "..".toList then here.dropLast else here ++ [name]) =
        fun here name => (moveOf name).apply here := by
    funext here name
    rw [moveOf]
    split_ifs <;> rfl
  rw [lexicalNormal, same, List.foldl_map]

theorem lexicalNormal_append (first second : List Str) :
    lexicalNormal (first ++ second) = (Net.ofMoves (second.map moveOf)).apply (lexicalNormal first) := by
  rw [lexicalNormal_eq, List.map_append, List.foldl_append, ← lexicalNormal_eq, Net.apply_ofMoves]

namespace Attach

/-- The names of the mount point. -/
def mountNames : List Str := lexicalNormal (pathComponents cgroup2MountPoint)

/-- At or below the mount point, as the text of the path has it. -/
def Inside (path : Str) : Prop := mountNames <+: lexicalNormal (pathComponents path)

/-- Whatever is there, and whatever happens meanwhile, no call makes or writes to anything elsewhere. -/
def Confined (cgroupTarget : Str) : Prop :=
  ∀ fs uid pid process labels s,
    LabeledRun.run (step fs cgroupTarget) (call uid pid cgroupTarget process) labels = some s →
      ∀ l ∈ labels, ∀ path, l.path? cgroupTarget = some path → Inside path

/-- The string climbs no level above the mount point that it does not go down again. -/
def Returns (cgroupTarget : Str) : Prop :=
  let net := Net.ofMoves ((pathComponents cgroupTarget).map moveOf)
  mountNames.drop (mountNames.length - net.up) <+: net.down

instance (cgroupTarget : Str) : Decidable (Returns cgroupTarget) := inferInstanceAs (Decidable (_ <+: _))

section Targets

variable {cgroupTarget : Str}

theorem lexicalNormal_cgroupTargetPath (valid : validCgroup cgroupTarget = true) :
    lexicalNormal (pathComponents (cgroupTargetPath cgroupTarget)) =
      (Net.ofMoves ((pathComponents cgroupTarget).map moveOf)).apply mountNames := by
  obtain ⟨rest, rfl, -⟩ := validCgroup_cons valid
  rw [cgroupTargetPath, pathComponents_append_slash, pathComponents_slash rest, lexicalNormal_append, mountNames]

theorem inside_cgroupTargetPath_iff (valid : validCgroup cgroupTarget = true) :
    Inside (cgroupTargetPath cgroupTarget) ↔ Returns cgroupTarget := by
  rw [Inside, lexicalNormal_cgroupTargetPath valid, Net.prefix_apply_iff, Returns]

/-- The file is in the directory. -/
theorem lexicalNormal_cgroupTargetProcs :
    lexicalNormal (pathComponents (cgroupTargetProcs cgroupTarget)) =
      lexicalNormal (pathComponents (cgroupTargetPath cgroupTarget)) ++ ["cgroup.procs".toList] := by
  have file : "/cgroup.procs".toList = '/' :: "cgroup.procs".toList := rfl
  have name : pathComponents "cgroup.procs".toList = ["cgroup.procs".toList] :=
    pathComponents_name (by decide) (by decide)
  have net : Net.ofMoves (["cgroup.procs".toList].map moveOf) = ⟨0, ["cgroup.procs".toList]⟩ := rfl
  rw [cgroupTargetProcs, file, pathComponents_append_slash, name, lexicalNormal_append, net, Net.apply, Nat.sub_zero,
    List.take_length]

theorem Inside.of_path? (inside : Inside (cgroupTargetPath cgroupTarget)) {l : Label} {path : Str}
    (works : l.path? cgroupTarget = some path) : Inside path := by
  cases l with
  | mkdir ok =>
    cases works
    exact inside
  | write2procs ok =>
    cases works
    rw [Inside, lexicalNormal_cgroupTargetProcs]
    exact inside.trans (List.prefix_append _ _)
  | _ => contradiction

end Targets

/-- A root process stays in the hierarchy exactly with the strings that lead back to it. -/
theorem confined_iff (cgroupTarget : Str) (valid : validCgroup cgroupTarget = true) :
    Confined cgroupTarget ↔ Returns cgroupTarget := by
  rw [← inside_cgroupTargetPath_iff valid]
  constructor
  · intro confined
    -- nothing is there, and the directory can be made
    let fs : FileSystem := ⟨fun _ => none, fun _ => some (.plain true)⟩
    have run : LabeledRun.run (step fs cgroupTarget) (call 0 [] cgroupTarget none) [.stat, .mkdir true] =
        some { process := none, reads := [], phase := .read (.plain true) } := by
      rw [call_zero]
      rfl
    exact confined fs 0 [] none _ _ run (.mkdir true) (by simp) _ rfl
  · intro inside fs uid pid process labels s _ l _ path works
    exact inside.of_path? works

/-- A string that climbs one level and comes back. -/
theorem confined_back : Confined "/../cgroup2/proxy.slice".toList :=
  (confined_iff "/../cgroup2/proxy.slice".toList (by decide)).mpr (by decide)

/-- One that leads to the temporary files. -/
theorem not_confined_up :
    validCgroup "/../../../../tmp/x".toList = true ∧ ¬ Confined "/../../../../tmp/x".toList := by
  have valid : validCgroup "/../../../../tmp/x".toList = true := by decide
  refine ⟨valid, fun confined => ?_⟩
  have inside := confined ⟨fun _ => none, fun _ => some (.plain true)⟩ 0 "100".toList none [.stat, .mkdir true] _
    (by rw [call_zero]; rfl) (.mkdir true) (by simp) _ rfl
  rw [inside_cgroupTargetPath_iff valid] at inside
  exact absurd inside (by decide)

end Attach

end CgProxy

import CgProxy.Soundness.Installed
import Mathlib.Data.List.TakeWhile

/-! # From the configuration to the cgroup rules

`toEnv` joins a cgroup list into one variable and the script splits it again. The join decides by
value where to leave out a separator, so an entry that equals the last one is glued to its
successor, and the two are lost as one path that does not exist. `start_accepted` is what a start
does with an accepted configuration, and `cgroupRules_start_iff` says for which lists the rules are
the configured ones.
-/

namespace CgProxy

open Netfilter GluedJoin

/-- The hierarchy with the two reserved slices, which a start creates when they are missing. -/
def Hierarchy.withSlices (h : Hierarchy) : Hierarchy where
  isDir xs := h.isDir xs || (xs = ["proxy.slice".toList] || xs = ["noproxy.slice".toList])
  root := by simp [h.root]
  closed := by
    intro xs ys present
    simp only [Bool.or_eq_true, decide_eq_true_eq] at present ⊢
    rcases present with old | new
    · exact .inl (h.closed xs ys old)
    · cases xs with
      | nil => exact .inl h.root
      | cons x xs =>
        right
        simp only [List.cons_append, List.cons.injEq, List.append_eq_nil_iff] at new ⊢
        tauto

/-- The kernel with the daemon's own mount. -/
def Kernel.withMount (k : Kernel) : Kernel :=
  if cgroup2MountPoint ∈ k.mounts then k else { k with mounts := k.mounts ++ [cgroup2MountPoint] }

namespace Kernel

variable (k : Kernel)

@[simp] theorem tables_withMount : k.withMount.tables = k.tables := by
  rw [withMount]
  split <;> rfl

@[simp] theorem hierarchy_withMount : k.withMount.hierarchy = k.hierarchy := by
  rw [withMount]
  split <;> rfl

@[simp] theorem forwarding_withMount : k.withMount.forwarding = k.forwarding := by
  rw [withMount]
  split <;> rfl

theorem mem_mounts_withMount : cgroup2MountPoint ∈ k.withMount.mounts := by
  rw [withMount]
  split
  · assumption
  · exact List.mem_append_right _ List.mem_cons_self

/-- It is what mounting makes of the kernel. -/
theorem mount_eq_withMount :
    (if cgroup2MountPoint ∈ k.mounts then k else k.runAll [.mount cgroup2MountPoint]) = k.withMount := by
  rw [withMount]
  split
  · rfl
  · next absent => rw [runAll, List.foldl_cons, List.foldl_nil, exec, if_neg absent, Option.getD_some]

end Kernel

namespace Script

/-- What the script finds in the variable of a list: the fields with an existing directory. -/
def scriptCgroups (h : Hierarchy) (l : List Str) : List Str :=
  (bashReadArray (join2str l ':')).filter h.withSlices.dirExist

/-! ## Splitting what was joined -/

section Fields

variable {l : List Str} {z : Str}

theorem blank_of_cgroupChar {c : Char} (valid : cgroupChar c = true) : blank c = false := by
  rcases Bool.eq_false_or_eq_true (blank c) with white | plain
  · simp only [blank, Bool.or_eq_true, decide_eq_true_eq] at white
    rcases white with (rfl | rfl) | rfl <;> contradiction
  · exact plain

/-- The array the script reads: the entries, with those equal to the last one glued. -/
theorem bashReadArray_join2str (valid : ∀ e ∈ l ++ [z], validCgroup e = true) :
    bashReadArray (join2str (l ++ [z]) ':') = glued z (l ++ [z]) := by
  have free : ∀ e ∈ l ++ [z], ':' ∉ e := by
    intro e member colon
    have char := cgroupChar_of_mem (valid e member) colon
    contradiction
  have oneLine : (encode ':' z (l ++ [z])).takeWhile (· ≠ '\n') = encode ':' z (l ++ [z]) := by
    apply List.takeWhile_eq_self_iff.mpr
    intro c member
    rcases mem_encode member with rfl | ⟨e, inside, member⟩
    · rfl
    · have char := cgroupChar_of_mem (valid e inside) member
      have other : c ≠ '\n' := by
        rintro rfl
        contradiction
      simpa using other
  have last : (glued z (l ++ [z])).getLast? ≠ some [] := by
    intro empty
    exact ne_nil_of_mem_glued (fun e member => ne_nil_of_validCgroup (valid e member))
      (List.mem_of_getLast? empty) rfl
  rw [bashReadArray, join2str_eq_encode List.getLast?_concat, oneLine, splitOn_encode free, if_neg last]

theorem plain_of_mem_glued (valid : ∀ e ∈ l ++ [z], validCgroup e = true) :
    ∀ field ∈ glued z (l ++ [z]), Plain field := by
  intro field inside
  refine ⟨ne_nil_of_mem_glued (fun e member => ne_nil_of_validCgroup (valid e member)) inside, ?_⟩
  intro c member
  obtain ⟨e, known, member⟩ := mem_of_mem_glued inside member
  exact blank_of_cgroupChar (cgroupChar_of_mem (valid e known) member)

/-- The first field is the first entry if nothing equal follows it. -/
theorem head?_glued {e : Str} {rest : List Str} (fresh : e ∉ rest) (last : (e :: rest).getLast? = some z) :
    (glued z (e :: rest)).head? = some e := by
  by_cases same : e = z
  · subst same
    cases rest with
    | nil => simp [glued]
    | cons d rest => exact absurd (List.mem_of_getLast? (by simpa using last)) fresh
  · simp [glued_cons_of_ne rest same]

/-- What the script reads back of an accepted list. -/
theorem bashReadArray_reservedFirst {reserved : Str} (accepted : Config.ReservedFirst reserved l) :
    (∀ field ∈ bashReadArray (join2str l ':'), Plain field) ∧
      (bashReadArray (join2str l ':')).head? = some reserved := by
  obtain ⟨rest, shape, fresh⟩ := accepted.first
  rcases List.eq_nil_or_concat l with empty | ⟨front, last, ends⟩
  · rw [empty] at shape
    contradiction
  · rw [List.concat_eq_append] at ends
    have valid : ∀ e ∈ front ++ [last], validCgroup e = true := ends ▸ accepted.valid
    rw [ends, bashReadArray_join2str valid]
    refine ⟨plain_of_mem_glued valid, ?_⟩
    rw [← ends, shape]
    exact head?_glued fresh (by rw [← shape, ends, List.getLast?_concat])

end Fields

/-! ## Starting with an accepted configuration -/

/-- A directory right below the root can always be made. -/
private theorem ensureDir_top (h : Hierarchy) (path : Str) {name : Str} (top : pathComponents path = [name]) :
    ∃ h', ensureDir h path = some h' ∧ ∀ xs, h'.isDir xs = (h.isDir xs || xs = [name]) := by
  rw [ensureDir, Hierarchy.dirExist, top]
  rcases Bool.eq_false_or_eq_true (h.isDir [name]) with present | absent
  · refine ⟨h, by rw [if_pos present], fun xs => ?_⟩
    by_cases same : xs = [name]
    · simp [same, present]
    · simp [same]
  · have fresh : h.dirExist path = false ∧ h.isDir (pathComponents path).dropLast = true := by
      rw [Hierarchy.dirExist, top]
      exact ⟨absent, h.root⟩
    rw [if_neg (by simp [absent]), Hierarchy.mkdir, dif_pos fresh]
    exact ⟨_, rfl, fun xs => by dsimp only; rw [top]⟩

theorem ensureFirst_eq (h : Hierarchy) {proxy noproxy : List Str}
    (proxyFirst : proxy.head? = some cgroupProxyPreserved)
    (noproxyFirst : noproxy.head? = some cgroupNoproxyPreserved) :
    ensureFirst h proxy noproxy = .ok h.withSlices := by
  have proxyTop : pathComponents cgroupProxyPreserved = ["proxy.slice".toList] := by decide
  have noproxyTop : pathComponents cgroupNoproxyPreserved = ["noproxy.slice".toList] := by decide
  obtain ⟨h₁, made₁, dirs₁⟩ := ensureDir_top h cgroupProxyPreserved proxyTop
  obtain ⟨h₂, made₂, dirs₂⟩ := ensureDir_top h₁ cgroupNoproxyPreserved noproxyTop
  rw [ensureFirst, proxyFirst, noproxyFirst, Option.getD_some, Option.getD_some, made₁]
  dsimp only
  rw [made₂]
  have same : h₂ = h.withSlices := by
    ext xs
    rw [dirs₂, dirs₁, Bool.or_assoc]
    rfl
  rw [same]

variable {c : Config} {env : Env} {k : Kernel}

/-- The script splits what `toEnv` has joined. -/
theorem proxyArray_toEnv (c : Config) (env : Env) :
    cgroupArray (c.toEnv env).cgroupProxy cgroupProxyPreserved = bashReadArray (join2str c.cgroupProxy ':') := rfl

theorem noproxyArray_toEnv (c : Config) (env : Env) :
    cgroupArray (c.toEnv env).cgroupNoproxy cgroupNoproxyPreserved = bashReadArray (join2str c.cgroupNoproxy ':') := rfl

/-- A start with an accepted configuration mounts, makes the two slices and runs all its commands. -/
theorem start_accepted (accepted : c.Accepted) :
    start (c.toEnv env) k =
      { k.withMount with hierarchy := k.hierarchy.withSlices }.runAll
        (startCommands (params (c.toEnv env)) (scriptCgroups k.hierarchy c.cgroupNoproxy)
          (scriptCgroups k.hierarchy c.cgroupProxy)) := by
  obtain ⟨proxy, noproxy⟩ := accepted.reserved
  obtain ⟨proxyPlain, proxyFirst⟩ := bashReadArray_reservedFirst proxy
  obtain ⟨noproxyPlain, noproxyFirst⟩ := bashReadArray_reservedFirst noproxy
  have target : cgroupMountPoint (c.toEnv env) k = cgroup2MountPoint := rfl
  have named : cgroup2MountPoint ≠ [] := by decide
  rw [start, target, if_neg named, k.mount_eq_withMount]
  dsimp only
  rw [if_neg (not_not_intro k.mem_mounts_withMount), k.hierarchy_withMount, proxyArray_toEnv, noproxyArray_toEnv,
    ensureFirst_eq k.hierarchy proxyFirst noproxyFirst]
  dsimp only
  rw [keepExisting_eq proxyPlain, keepExisting_eq noproxyPlain]
  rfl

/-! ## The cgroup rules -/

def matchesCgroup (r : Rule) : Bool :=
  r.conditions.any fun
    | .cgroupPath _ => true
    | _ => false

/-- The rules of TPROXY_OUT that match a cgroup, in order. -/
def cgroupRulesOf (mangle : Ruleset Chain Rule) : List Rule := (mangle.rules .tproxyOut).filter matchesCgroup

theorem matchesCgroup_of_mem {target : Target Chain Action} {cgroups : List Str} {r : Rule}
    (member : r ∈ cgroupRules target cgroups) : matchesCgroup r = true := by
  obtain ⟨cg, -, rfl⟩ := List.mem_map.mp member
  rfl

theorem filter_outRules (noproxy proxy : List Str) :
    (outRules noproxy proxy).filter matchesCgroup = outCgroupRules noproxy proxy := by
  rw [outRules, List.filter_cons_of_neg (by decide), List.filter_eq_self]
  intro r member
  rcases List.mem_append.mp member with member | member <;> exact matchesCgroup_of_mem member

private theorem cgroupRules_injective (target : Target Chain Action) :
    Function.Injective (cgroupRules target) := by
  apply List.map_injective_iff.mpr
  intro a b same
  simpa using same

/-- The rules determine both lists: the targets tell them apart. -/
theorem outCgroupRules_inj {noproxy proxy noproxy' proxy' : List Str} :
    outCgroupRules noproxy proxy = outCgroupRules noproxy' proxy' ↔ noproxy = noproxy' ∧ proxy = proxy' := by
  have returns (noproxy proxy : List Str) :
      (outCgroupRules noproxy proxy).filter (·.target = .ret) = cgroupRules .ret noproxy := by
    simp [outCgroupRules, cgroupRules, List.filter_map, Function.comp_def]
  constructor
  · intro same
    have first : noproxy = noproxy' := by
      apply cgroupRules_injective .ret
      rw [← returns noproxy proxy, same, returns]
    subst first
    exact ⟨rfl, cgroupRules_injective _ (List.append_cancel_left same)⟩
  · rintro ⟨rfl, rfl⟩
    rfl

/-- What a start puts into TPROXY_OUT for an accepted configuration. -/
theorem cgroupRulesOf_start {f : Family} (accepted : c.Accepted) (vacant : Vacant (k.tables f)) :
    cgroupRulesOf ((start (c.toEnv env) k).tables f).mangle =
      outCgroupRules (scriptCgroups k.hierarchy c.cgroupNoproxy) (scriptCgroups k.hierarchy c.cgroupProxy) := by
  have outside : .tproxyOut ∉ (hooked f (params (c.toEnv env)) (k.tables f).mangle).chains := by
    rw [chains_hooked]
    exact vacant.free _ (by decide)
  rw [start_accepted accepted, mangle_startCommands _ _ _ (by rwa [k.tables_withMount]), k.tables_withMount, cgroupRulesOf,
    Ruleset.rules_append_of_notMem outside, ← filter_outRules]
  rfl

/-- No existing directory is lost: an entry that equals the last one, and its successor, are gone. -/
def Separated (h : Hierarchy) (l : List Str) : Prop :=
  ∀ z ∈ l.getLast?, GluedDropped h.withSlices.dirExist z l

instance (h : Hierarchy) (l : List Str) : Decidable (Separated h l) :=
  inferInstanceAs (Decidable (∀ z ∈ l.getLast?, _))

/-- The script finds the existing entries of an accepted list just when the list is separated. -/
theorem scriptCgroups_eq_iff {h : Hierarchy} {reserved : Str} {l : List Str}
    (accepted : Config.ReservedFirst reserved l) :
    scriptCgroups h l = l.filter h.withSlices.dirExist ↔ Separated h l := by
  rcases List.eq_nil_or_concat l with rfl | ⟨front, z, rfl⟩
  · obtain ⟨rest, shape, -⟩ := accepted.first
    contradiction
  · rw [List.concat_eq_append] at accepted ⊢
    have closed : PrefixClosed h.withSlices.dirExist z (front ++ [z]) := by
      intro y member w present
      obtain ⟨rest, rfl, -⟩ := validCgroup_cons (accepted.valid y member)
      exact Hierarchy.dirExist_of_append rfl present
    have nonempty : ∀ y ∈ front ++ [z], y ≠ [] := fun y member =>
      ne_nil_of_validCgroup (accepted.valid y member)
    have only : Separated h (front ++ [z]) ↔ GluedDropped h.withSlices.dirExist z (front ++ [z]) := by
      simp [Separated]
    rw [scriptCgroups, bashReadArray_join2str accepted.valid, only, filter_glued_eq_iff closed nonempty]

/-- The cgroup rules are the configured ones, for the directories that exist, exactly when both
lists are separated. -/
theorem cgroupRules_start_iff {f : Family} (accepted : c.Accepted) (vacant : Vacant (k.tables f)) :
    cgroupRulesOf ((start (c.toEnv env) k).tables f).mangle =
        outCgroupRules (c.cgroupNoproxy.filter k.hierarchy.withSlices.dirExist)
          (c.cgroupProxy.filter k.hierarchy.withSlices.dirExist) ↔
      Separated k.hierarchy c.cgroupNoproxy ∧ Separated k.hierarchy c.cgroupProxy := by
  obtain ⟨proxy, noproxy⟩ := accepted.reserved
  rw [cgroupRulesOf_start accepted vacant, outCgroupRules_inj, scriptCgroups_eq_iff noproxy,
    scriptCgroups_eq_iff proxy]

/-! ## Two lists -/

/-- The blank machine with some cgroups right below the root. -/
def machineWith (cgroups : List Str) : Kernel := { Kernel.blank with hierarchy := .flat cgroups }

theorem Vacant.machineWith (cgroups : List Str) (f : Family) : Vacant ((machineWith cgroups).tables f) where
  prerouting := (by decide : Chain.prerouting ∈ FamilyTables.blank.mangle.chains)
  output := (by decide : Chain.output ∈ FamilyTables.blank.mangle.chains)
  postrouting := (by decide : Chain.postrouting ∈ FamilyTables.blank.nat.chains)
  free := (by decide : ∀ c ∈ ownNames, c ∉ FamilyTables.blank.mangle.chains)

/-- Two proxied cgroups, as configured. -/
theorem cgroupRules_start_iff_two :
    let c := Config.ofLists [] [] [] ["/a".toList, "/b".toList]
    let k := machineWith ["a".toList, "b".toList]
    cgroupRulesOf ((start (c.toEnv {}) k).tables .ipv4).mangle =
      outCgroupRules (c.cgroupNoproxy.filter k.hierarchy.withSlices.dirExist)
        (c.cgroupProxy.filter k.hierarchy.withSlices.dirExist) :=
  (cgroupRules_start_iff
    (Config.accepted_single "\x7b\"cgroup_noproxy\":[],\"cgroup_proxy\":[\"/a\",\"/b\"],\"program_noproxy\":[],\"program_proxy\":[]\x7d".toList
      (by decide) (by decide) (by decide)) (Vacant.machineWith _ _)).mpr (by decide)

/-- The list /a, /b, /a loses /b: the first /a is glued to it. -/
theorem cgroupRules_start_repeated :
    let c := Config.ofLists [] [] [] ["/a".toList, "/b".toList, "/a".toList]
    let k := machineWith ["a".toList, "b".toList]
    c.Accepted ∧ cgroupRulesOf ((start (c.toEnv {}) k).tables .ipv4).mangle ≠
      outCgroupRules (c.cgroupNoproxy.filter k.hierarchy.withSlices.dirExist)
        (c.cgroupProxy.filter k.hierarchy.withSlices.dirExist) := by
  have accepted : (Config.ofLists [] [] [] ["/a".toList, "/b".toList, "/a".toList]).Accepted :=
    Config.accepted_single "\x7b\"cgroup_noproxy\":[],\"cgroup_proxy\":[\"/a\",\"/b\",\"/a\"],\"program_noproxy\":[],\"program_proxy\":[]\x7d".toList
      (by decide) (by decide) (by decide)
  refine ⟨accepted, ?_⟩
  rw [cgroupRulesOf_start accepted (Vacant.machineWith _ _)]
  intro same
  have lost : scriptCgroups (machineWith ["a".toList, "b".toList]).hierarchy
      (Config.ofLists [] [] [] ["/a".toList, "/b".toList, "/a".toList]).cgroupProxy ≠
        (Config.ofLists [] [] [] ["/a".toList, "/b".toList, "/a".toList]).cgroupProxy.filter
          (machineWith ["a".toList, "b".toList]).hierarchy.withSlices.dirExist := by decide
  exact lost (outCgroupRules_inj.mp same).2

end Script

end CgProxy

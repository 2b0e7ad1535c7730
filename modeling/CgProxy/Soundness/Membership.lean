import CgProxy.Model.Common

/-! # The daemon's notion of membership

The daemon asks whether a cgroup belongs to a configured entry by comparing texts, and the rule built
from the same entry by comparing names. The text test never claims a membership that the rule does not
see. It misses those of entries that are not written as `/proc` shows the cgroup they name, and those
of every cgroup in the root but the root itself.
-/

namespace CgProxy

/-- The entry is written as the kernel writes its cgroup, and if that is the root then `c` is it. -/
def Shown (c : CgPath) (entry : Str) : Prop :=
  (CgPath.ofStr entry).toStr = entry ∧ (entry = "/".toList → c = .root)

section Entries

variable {c : CgPath} {entry : Str} {entries : List Str}

theorem belongToCgroup_iff (valid : validCgroup entry = true) :
    belongToCgroup c.toStr entry = true ↔ c.under entry = true ∧ Shown c entry := by
  obtain ⟨rest, rfl, -⟩ := validCgroup_cons valid
  have origin : '/' :: rest = "/".toList ↔ rest = [] := by simp
  rw [CgPath.belongToCgroup_slash_iff, Shown, origin]

theorem belongToCgroups_iff (valid : validCgroups entries = true) :
    belongToCgroups c.toStr entries = true ↔ ∃ e ∈ entries, c.under e = true ∧ Shown c e := by
  rw [belongToCgroups, List.any_eq_true]
  refine exists_congr fun e => and_congr_right fun member => ?_
  exact belongToCgroup_iff (List.all_eq_true.mp valid e member)

/-- The two tests agree on an entry, and on a list of entries, exactly when a membership that there is
is one of an entry that the text test can see. -/
theorem membership_agrees_iff (c : CgPath) (entry : Str) (entries : List Str)
    (valid : validCgroup entry = true) (allValid : validCgroups entries = true) :
    ((belongToCgroup c.toStr entry = true ↔ c.under entry = true) ↔ (c.under entry = true → Shown c entry)) ∧
      ((belongToCgroups c.toStr entries = true ↔ ∃ e ∈ entries, c.under e = true) ↔
        ((∃ e ∈ entries, c.under e = true) → ∃ e ∈ entries, c.under e = true ∧ Shown c e)) := by
  constructor
  · rw [belongToCgroup_iff valid]
    exact ⟨fun agree above => (agree.mpr above).2, fun seen => ⟨And.left, fun above => ⟨above, seen above⟩⟩⟩
  · rw [belongToCgroups_iff allValid]
    constructor
    · exact Iff.mpr
    · intro seen
      exact ⟨fun ⟨e, member, above, _⟩ => ⟨e, member, above⟩, seen⟩

theorem membership_agrees_slice :
    ((belongToCgroup (CgPath.ofStr "/user.slice/a".toList).toStr "/user.slice".toList = true ↔
          (CgPath.ofStr "/user.slice/a".toList).under "/user.slice".toList = true) ↔
        ((CgPath.ofStr "/user.slice/a".toList).under "/user.slice".toList = true →
          Shown (CgPath.ofStr "/user.slice/a".toList) "/user.slice".toList)) ∧
      ((belongToCgroups (CgPath.ofStr "/user.slice/a".toList).toStr ["/".toList, "/user.slice".toList] = true ↔
          ∃ e ∈ ["/".toList, "/user.slice".toList], (CgPath.ofStr "/user.slice/a".toList).under e = true) ↔
        ((∃ e ∈ ["/".toList, "/user.slice".toList], (CgPath.ofStr "/user.slice/a".toList).under e = true) →
          ∃ e ∈ ["/".toList, "/user.slice".toList],
            (CgPath.ofStr "/user.slice/a".toList).under e = true ∧ Shown (CgPath.ofStr "/user.slice/a".toList) e)) :=
  membership_agrees_iff _ _ _ (by decide) (by decide)

/-- The entry for a global proxy, and any slice: the rule covers it and the daemon does not see that. -/
theorem membership_root :
    validCgroup "/".toList = true ∧ (CgPath.ofStr "/user.slice".toList).under "/".toList = true ∧
      belongToCgroup (CgPath.ofStr "/user.slice".toList).toStr "/".toList = false ∧
      belongToCgroups (CgPath.ofStr "/user.slice".toList).toStr ["/".toList] = false := by decide

end Entries

end CgProxy

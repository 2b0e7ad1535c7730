import CgProxy.ToMathlib.GluedJoin

/-! # Strings, cgroup paths and status codes

A C++ string is its list of characters. This file follows `common.cpp`: the join, the prefix test,
the validators and the cgroup membership test, which all work on the text of a path. `CgPath` is
what the kernel works on instead: a cgroup is the list of its names below the root, none of them
empty and none containing a slash, and `under` is the component-wise ancestor test that a
`-m cgroup --path` rule performs.
-/

namespace CgProxy

/-- A C++ string. -/
abbrev Str := List Char

instance : LawfulBEq Str := inferInstanceAs (LawfulBEq (List Char))

/-! ## Constants of `common.cmake.h` -/

def cgroupProxyPreserved : Str := "/proxy.slice".toList
def cgroupNoproxyPreserved : Str := "/noproxy.slice".toList

namespace Status

def unknownError : Int := 99
def error : Int := -1
def success : Int := 0
def connError : Int := 1
def msgError : Int := 2
def paramError : Int := 4
def fileError : Int := 7

end Status

/-! ## `common.cpp` -/

/-- The separator follows every element whose value differs from that of the last one. -/
def join2str (t : List Str) (delm : Char := ' ') : Str :=
  t.foldl (fun s e => if t.getLast? ≠ some e then s ++ (e ++ [delm]) else s ++ e) []

/-- `s.rfind(prefix, 0) == 0`. -/
def startWith (s pre : Str) : Bool := pre.isPrefixOf s

/-- The class `[a-zA-Z0-9\-_./@]`. -/
def cgroupChar (c : Char) : Bool := c.isAlphanum || c ∈ ['-', '_', '.', '/', '@']

/-- A full match of `^/[a-zA-Z0-9\-_./@]*$`. -/
def validCgroup : Str → Bool
  | '/' :: rest => rest.all cgroupChar
  | _ => false

/-- The overload for lists. -/
def validCgroups (cgroup : List Str) : Bool := cgroup.all validCgroup

def validPid (pid : Str) : Bool := pid ≠ [] && pid.all Char.isDigit

def validPort (port : Int) : Bool := 0 < port

def belongToCgroup (cg1 cg2 : Str) : Bool := startWith (cg1 ++ ['/']) (cg2 ++ ['/'])

/-- The overload for lists. -/
def belongToCgroups (cg1 : Str) (cg2 : List Str) : Bool := cg2.any (belongToCgroup cg1)

theorem join2str_eq_encode {t : List Str} {z : Str} (last : t.getLast? = some z) (delm : Char) :
    join2str t delm = GluedJoin.encode delm z t := by
  have step : (fun (s e : Str) => if t.getLast? ≠ some e then s ++ (e ++ [delm]) else s ++ e) =
      fun s e => s ++ (if e ≠ z then e ++ [delm] else e) := by
    funext s e
    by_cases same : e = z <;> simp [last, same, Ne.symm]
  simp only [join2str, step, List.foldl_append_eq_append, GluedJoin.encode, List.flatMap,
    List.nil_append]

theorem validCgroup_cons {e : Str} (valid : validCgroup e = true) :
    ∃ rest, e = '/' :: rest ∧ ∀ c ∈ rest, cgroupChar c = true := by
  cases e with
  | nil => simp [validCgroup] at valid
  | cons c rest =>
    by_cases slash : c = '/'
    · subst slash
      exact ⟨rest, rfl, by simpa [validCgroup] using valid⟩
    · simp [validCgroup, slash] at valid

theorem cgroupChar_of_mem {e : Str} (valid : validCgroup e = true) {c : Char} (member : c ∈ e) :
    cgroupChar c = true := by
  obtain ⟨rest, rfl, all⟩ := validCgroup_cons valid
  rcases List.mem_cons.mp member with rfl | member
  · decide
  · exact all c member

theorem ne_nil_of_validCgroup {e : Str} (valid : validCgroup e = true) : e ≠ [] := by
  rintro rfl
  contradiction

/-! ## Cgroups -/

/-- The names along a path; empty names between slashes do not count. -/
def pathComponents (path : Str) : List Str := (path.splitOn '/').filter (· ≠ [])

theorem named_of_mem_pathComponents {path c : Str} (member : c ∈ pathComponents path) :
    c ≠ [] ∧ '/' ∉ c := by
  obtain ⟨field, nonempty⟩ := List.mem_filter.mp member
  exact ⟨by simpa using nonempty, GluedJoin.notMem_of_mem_splitOn field⟩

/-- A slash separates the names before it from those after it. -/
theorem pathComponents_append_slash (a b : Str) :
    pathComponents (a ++ '/' :: b) = pathComponents a ++ pathComponents b := by
  rw [pathComponents, List.splitOn_append_cons_self, List.filter_append]
  rfl

theorem pathComponents_slash (b : Str) : pathComponents ('/' :: b) = pathComponents b := by
  simpa [pathComponents] using pathComponents_append_slash [] b

theorem pathComponents_name {c : Str} (nonempty : c ≠ []) (plain : '/' ∉ c) :
    pathComponents c = [c] := by
  simp [pathComponents, List.splitOn_eq_singleton plain, nonempty]

/-- A cgroup, by its names below the root of the hierarchy. -/
structure CgPath where
  components : List Str
  named : ∀ c ∈ components, c ≠ [] ∧ '/' ∉ c
deriving DecidableEq

namespace CgPath

/-- The root cgroup. -/
def root : CgPath := ⟨[], by simp⟩

/-- The line `/proc/<pid>/cgroup` shows for the cgroup. -/
def toStr (p : CgPath) : Str :=
  if p.components = [] then ['/'] else p.components.flatMap ('/' :: ·)

end CgPath

namespace CgPath

/-- The cgroup a path below the mount point names. -/
def ofStr (path : Str) : CgPath := ⟨pathComponents path, fun _ => named_of_mem_pathComponents⟩

/-- The cgroup named by `entry` is `p` or an ancestor of it. -/
def under (p : CgPath) (entry : Str) : Bool := (pathComponents entry).isPrefixOf p.components

theorem under_iff {p : CgPath} {entry : Str} :
    p.under entry = true ↔ pathComponents entry <+: p.components := List.isPrefixOf_iff_prefix

private theorem pathComponents_flatMap {l : List Str} (named : ∀ c ∈ l, c ≠ [] ∧ '/' ∉ c) :
    pathComponents (l.flatMap ('/' :: ·)) = l := by
  induction l with
  | nil => rfl
  | cons c rest ih =>
    have later := ih fun d member => named d (List.mem_cons_of_mem _ member)
    obtain ⟨nonempty, plain⟩ := named c List.mem_cons_self
    rw [List.flatMap_cons, List.cons_append, pathComponents_slash]
    cases rest with
    | nil => simp [pathComponents_name nonempty plain]
    | cons d rest =>
      rw [List.flatMap_cons, List.cons_append] at later ⊢
      rw [pathComponents_append_slash, pathComponents_name nonempty plain,
        ← pathComponents_slash, later, List.singleton_append]

/-- What `/proc` shows names the cgroup it was read from. -/
@[simp] theorem pathComponents_toStr (p : CgPath) : pathComponents p.toStr = p.components := by
  rw [toStr]
  split
  · next root => rw [root]; rfl
  · exact pathComponents_flatMap p.named

theorem toStr_ne_nil (p : CgPath) : p.toStr ≠ [] := by
  rw [toStr]
  split
  · exact List.cons_ne_nil _ _
  · next inner =>
    obtain ⟨c, rest, shape⟩ := List.exists_cons_of_ne_nil inner
    simp [shape]

/-- The daemon's text test never claims a membership that the kernel does not see. -/
theorem under_of_belongToCgroup {p : CgPath} {entry : Str}
    (belongs : belongToCgroup p.toStr entry = true) : p.under entry = true := by
  obtain ⟨w, text⟩ := List.isPrefixOf_iff_prefix.mp belongs
  rw [under_iff]
  have names := congrArg pathComponents text
  rw [List.append_assoc, List.singleton_append, pathComponents_append_slash,
    pathComponents_append_slash, pathComponents_toStr] at names
  exact ⟨pathComponents w, names.trans (List.append_nil _)⟩

@[simp] theorem ofStr_toStr (p : CgPath) : ofStr p.toStr = p := by
  simp only [ofStr, pathComponents_toStr]

theorem toStr_append_slash {p : CgPath} (inner : p.components ≠ []) :
    p.toStr ++ ['/'] = '/' :: p.components.flatMap (· ++ ['/']) := by
  rw [toStr, if_neg inner]
  induction p.components with
  | nil => rfl
  | cons c rest ih =>
    rw [List.flatMap_cons, List.flatMap_cons, List.append_assoc, ih]
    simp

/-- Where every name has a slash after it, what is cut off after a slash consists of whole names. -/
private theorem exists_names_of_prefix {names : List Str} (named : ∀ c ∈ names, c ≠ [] ∧ '/' ∉ c)
    {text : Str} (start : text ++ ['/'] <+: names.flatMap (· ++ ['/'])) :
    ∃ first, first <+: names ∧ text ++ ['/'] = first.flatMap (· ++ ['/']) := by
  induction names generalizing text with
  | nil => simp at start
  | cons name rest ih =>
    obtain ⟨w, shape⟩ := start
    have plain := (named name List.mem_cons_self).2
    rw [List.flatMap_cons, List.append_assoc, List.append_assoc, List.append_eq_append_iff] at shape
    rcases shape with ⟨more, longer, tail⟩ | ⟨more, shorter, tail⟩
    · -- the text ends within the first name, and so at its end
      cases more with
      | nil =>
        refine ⟨[name], by simp, ?_⟩
        simp [longer]
      | cons c more =>
        obtain rfl : '/' = c := (List.cons.inj tail).1
        simp [longer] at plain
    · cases more with
      | nil =>
        refine ⟨[name], by simp, ?_⟩
        simp [shorter]
      | cons c more =>
        obtain ⟨rfl, tail⟩ := List.cons.inj tail
        have later : more ++ ['/'] <+: rest.flatMap (· ++ ['/']) := ⟨w, by simpa using tail.symm⟩
        obtain ⟨first, before, same⟩ := ih (fun d member => named d (List.mem_cons_of_mem _ member)) later
        refine ⟨name :: first, by simpa using before, ?_⟩
        rw [List.flatMap_cons, ← same, shorter]
        simp

/-- The text test sees a membership when the entry is written as the kernel writes cgroups, and that
of the root in itself only. -/
theorem belongToCgroup_slash_iff {p : CgPath} {rest : Str} :
    belongToCgroup p.toStr ('/' :: rest) = true ↔
      p.under ('/' :: rest) = true ∧ (ofStr ('/' :: rest)).toStr = '/' :: rest ∧ (rest = [] → p = root) := by
  constructor
  · intro belongs
    refine ⟨under_of_belongToCgroup belongs, ?_⟩
    have text := List.isPrefixOf_iff_prefix.mp belongs
    rcases Decidable.em (p.components = []) with none | inner
    · rw [toStr, if_pos none] at text
      obtain rfl : rest = [] := by
        have bound := text.length_le
        simp only [List.length_append, List.length_cons, List.length_nil] at bound
        exact List.eq_nil_of_length_eq_zero (by omega)
      have origin : p = root := by
        obtain ⟨components, named⟩ := p
        obtain rfl : components = [] := none
        rfl
      exact ⟨rfl, fun _ => origin⟩
    · rw [toStr_append_slash inner, List.cons_append, List.cons_prefix_cons] at text
      obtain ⟨first, before, same⟩ := exists_names_of_prefix p.named text.2
      have some : first ≠ [] := by
        rintro rfl
        simp at same
      have written : '/' :: rest = toStr ⟨first, fun c member => p.named c (before.subset member)⟩ := by
        apply (List.append_left_inj ['/']).mp
        rw [toStr_append_slash some, List.cons_append, same]
      have nonempty : rest ≠ [] := by
        rintro rfl
        have names := congrArg pathComponents written
        rw [pathComponents_toStr] at names
        exact some names.symm
      exact ⟨by rw [written, ofStr_toStr], fun empty => absurd empty nonempty⟩
  · rintro ⟨above, written, origin⟩
    apply List.isPrefixOf_iff_prefix.mpr
    obtain ⟨more, shape⟩ := under_iff.mp above
    rcases Decidable.em ((ofStr ('/' :: rest)).components = []) with none | some
    · rw [toStr, if_pos none] at written
      obtain rfl : [] = rest := (List.cons.inj written).2
      rw [origin rfl]
      exact ⟨[], rfl⟩
    · have inner : p.components ≠ [] := by
        rw [← shape]
        exact List.append_ne_nil_of_left_ne_nil some more
      rw [← written, toStr_append_slash inner, toStr_append_slash some, ← shape, ofStr]
      simp

/-- For a slice right below the root the text test sees every membership. -/
theorem belongToCgroup_top_iff {p : CgPath} {name : Str} (nonempty : name ≠ []) (plain : '/' ∉ name) :
    belongToCgroup p.toStr ('/' :: name) = true ↔ p.under ('/' :: name) = true := by
  have names : pathComponents ('/' :: name) = [name] := by
    rw [pathComponents_slash, pathComponents_name nonempty plain]
  have written : (ofStr ('/' :: name)).toStr = '/' :: name := by simp [toStr, ofStr, names]
  rw [belongToCgroup_slash_iff]
  exact ⟨And.left, fun above => ⟨above, written, fun empty => absurd empty nonempty⟩⟩

end CgPath

end CgProxy

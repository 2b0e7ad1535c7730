import CgProxy.ToMathlib.GluedJoin

/-! # Resolving paths

A tree says what there is at each list of names below the root. A path is walked name by name, and a
symbolic link is replaced by its target, up to a number of links. Where a walk ends there is no link on
the way from the root, so resolving the result again changes nothing.
-/

namespace Posix

abbrev Name := List Char

/-- What a name can stand for. Only some files are regular. -/
inductive Node where
  | directory
  | file (regular : Bool)
  | link (target : List Char)
deriving DecidableEq

/-- Not empty, and not divided by a slash. -/
def Named (n : Name) : Prop := n ≠ [] ∧ '/' ∉ n

/-- A directory, reached from the root without links. -/
inductive Real (node : List Name → Option Node) : List Name → Prop
  | root : Real node []
  | entry {done : List Name} {n : Name} (real : Real node done) (named : Named n) (ordinary : n ≠ ['.'] ∧ n ≠ ['.', '.'])
      (directory : node (done ++ [n]) = some .directory) : Real node (done ++ [n])

/-- The entries of all directories, and the working directory. -/
structure Tree where
  node : List Name → Option Node
  cwd : List Name
  cwdReal : Real node cwd

/-- The names along a path. A slash at its end asks for a directory, as a dot does. -/
def names (path : List Char) : List Name :=
  let fields := path.splitOn '/'
  fields.filter (· ≠ []) ++ if fields.getLast? = some [] then [['.']] else []

/-- The path that goes down from the root. -/
def render (names : List Name) : List Char := '/' :: ['/'].intercalate names

/-- Where a path starts. -/
def start (base : List Name) (path : List Char) : List Name := if path.head? = some '/' then [] else base

/-- Walk from a directory; `follow` walks on from there after a link. -/
def walkFrom (node : List Name → Option Node) (follow : List Name → List Name → Option (List Name)) :
    List Name → List Name → Option (List Name)
  | done, [] => some done
  | done, n :: rest =>
      if n = ['.'] then walkFrom node follow done rest
      else if n = ['.', '.'] then walkFrom node follow done.dropLast rest
      else
        match node (done ++ [n]) with
        | none => none
        | some .directory => walkFrom node follow (done ++ [n]) rest
        | some (.file _) => if rest = [] then some (done ++ [n]) else none
        | some (.link target) =>
            if target = [] then none else follow (start done target) (names target ++ rest)

/-- Walk through at most that many links. -/
def walk (node : List Name → Option Node) : ℕ → List Name → List Name → Option (List Name)
  | 0 => walkFrom node fun _ _ => none
  | links + 1 => walkFrom node (walk node links)

namespace Tree

/-- Where a path leads to. -/
def resolve (t : Tree) (path : List Char) : Option (List Name) :=
  if path = [] then none else walk t.node 40 (start t.cwd path) (names path)

/-- The path without links, when there is something. -/
def realpath (t : Tree) (path : List Char) : Option (List Char) := (t.resolve path).map render

/-- The path leads to a regular file. -/
def isRegular (t : Tree) (path : List Char) : Bool := (t.resolve path).any fun q => q ≠ [] && t.node q = some (.file true)

end Tree

/-! ## Where a walk ends -/

/-- A directory or a file, reached from the root without links. -/
inductive Settled (node : List Name → Option Node) : List Name → Prop
  | directory {q : List Name} (real : Real node q) : Settled node q
  | file {done : List Name} {n : Name} {regular : Bool} (real : Real node done) (named : Named n)
      (ordinary : n ≠ ['.'] ∧ n ≠ ['.', '.']) (file : node (done ++ [n]) = some (.file regular)) :
      Settled node (done ++ [n])

section Walks

variable {node : List Name → Option Node} {follow : List Name → List Name → Option (List Name)}
  {done todo q : List Name} {path : List Char}

theorem named_of_mem_names {n : Name} (member : n ∈ names path) : Named n := by
  rcases List.mem_append.mp member with field | slash
  · obtain ⟨split, nonempty⟩ := List.mem_filter.mp field
    exact ⟨by simpa using nonempty, GluedJoin.notMem_of_mem_splitOn split⟩
  · split at slash
    · rw [List.mem_singleton.mp slash]
      exact ⟨by decide, by decide⟩
    · contradiction

theorem Real.dropLast (real : Real node q) : Real node q.dropLast := by
  cases real with
  | root => exact .root
  | entry real => rwa [List.dropLast_concat]

theorem Real.start (real : Real node done) (path : List Char) : Real node (start done path) := by
  rw [Posix.start]
  split
  · exact .root
  · exact real

theorem settled_of_walkFrom
    (after : ∀ done todo q, Real node done → (∀ n ∈ todo, Named n) → follow done todo = some q → Settled node q)
    (real : Real node done) (named : ∀ n ∈ todo, Named n) (walked : walkFrom node follow done todo = some q) :
    Settled node q := by
  induction todo generalizing done with
  | nil =>
    cases walked
    exact .directory real
  | cons n rest ih =>
    have later : ∀ m ∈ rest, Named m := fun m member => named m (List.mem_cons_of_mem n member)
    rw [walkFrom] at walked
    split at walked
    · exact ih real later walked
    · next dot =>
      split at walked
      · exact ih real.dropLast later walked
      · next dots =>
        have first : Named n := named n List.mem_cons_self
        cases found : node (done ++ [n]) with
        | none => simp [found] at walked
        | some entry =>
          rw [found] at walked
          cases entry with
          | directory => exact ih (real.entry first ⟨dot, dots⟩ found) later walked
          | file regular =>
            dsimp only at walked
            split at walked
            · cases walked
              exact .file real first ⟨dot, dots⟩ found
            · contradiction
          | link target =>
            dsimp only at walked
            split at walked
            · contradiction
            · have ahead : ∀ m ∈ names target ++ rest, Named m :=
                List.forall_mem_append.mpr ⟨fun _ => named_of_mem_names, later⟩
              exact after _ _ q (real.start target) ahead walked

theorem settled_of_walk {links : ℕ} (real : Real node done) (named : ∀ n ∈ todo, Named n)
    (walked : walk node links done todo = some q) : Settled node q := by
  induction links generalizing done todo q with
  | zero => exact settled_of_walkFrom (fun _ _ _ _ _ ends => by contradiction) real named walked
  | succ links ih => exact settled_of_walkFrom (fun _ _ _ real named walked => ih real named walked) real named walked

/-! ## Paths without links -/

/-- The names of a real directory lead there. -/
theorem walkFrom_real (real : Real node done) (rest : List Name) :
    walkFrom node follow [] (done ++ rest) = walkFrom node follow done rest := by
  induction real generalizing rest with
  | root => rfl
  | @entry done n real named ordinary directory ih =>
    rw [List.append_assoc, ih, List.singleton_append, walkFrom, if_neg ordinary.1, if_neg ordinary.2, directory]

theorem walkFrom_settled (settled : Settled node q) : walkFrom node follow [] q = some q := by
  cases settled with
  | directory real =>
    have whole : walkFrom node follow [] (q ++ []) = walkFrom node follow q [] := walkFrom_real real []
    rwa [List.append_nil] at whole
  | file real named ordinary file =>
    rw [walkFrom_real real, walkFrom, if_neg ordinary.1, if_neg ordinary.2, file]
    simp

theorem walk_settled (settled : Settled node q) (links : ℕ) : walk node links [] q = some q := by
  cases links with
  | zero => exact walkFrom_settled settled
  | succ links => exact walkFrom_settled settled

theorem Real.named (real : Real node q) : ∀ n ∈ q, Named n := by
  induction real with
  | root => simp
  | entry real named ordinary directory ih =>
    exact List.forall_mem_append.mpr ⟨ih, List.forall_mem_singleton.mpr named⟩

theorem Settled.named (settled : Settled node q) : ∀ n ∈ q, Named n := by
  cases settled with
  | directory real => exact real.named
  | file real named ordinary file =>
    exact List.forall_mem_append.mpr ⟨real.named, List.forall_mem_singleton.mpr named⟩

theorem splitOn_render (named : ∀ n ∈ q, Named n) (below : q ≠ []) : (render q).splitOn '/' = [] :: q := by
  rw [render, List.splitOn_cons_eq_if_modifyHead, if_pos (by decide),
    List.splitOn_intercalate '/' (fun n member => (named n member).2) below]

/-- Of a rendered path the names come back, with a dot for the root. -/
theorem names_render (named : ∀ n ∈ q, Named n) : names (render q) = if q = [] then [['.']] else q := by
  split
  · next root =>
    subst root
    decide
  · next below =>
    have fields : q.filter (· ≠ []) = q := List.filter_eq_self.mpr fun n member => by simpa using (named n member).1
    have last : ([] :: q).getLast? ≠ some [] := by
      intro slash
      rw [List.getLast?_cons_of_ne_nil below] at slash
      exact (named [] (List.mem_of_getLast? slash)).1 rfl
    rw [names, splitOn_render named below]
    simp only [if_neg last, List.append_nil]
    rwa [List.filter_cons_of_neg (by simp)]

end Walks

namespace Tree

variable {t : Tree} {path e : List Char} {q : List Name}

theorem settled_of_resolve (resolved : t.resolve path = some q) : Settled t.node q := by
  rw [resolve] at resolved
  split at resolved
  · contradiction
  · exact settled_of_walk (t.cwdReal.start path) (fun n member => named_of_mem_names member) resolved

/-- The end of a walk is resolved to itself. -/
theorem resolve_render (settled : Settled t.node q) : t.resolve (render q) = some q := by
  have absolute : start t.cwd (render q) = [] := if_pos rfl
  rw [resolve, if_neg (by simp [render]), absolute, names_render settled.named]
  split
  · next root =>
    subst root
    rfl
  · exact walk_settled settled 40

theorem resolve_realpath (real : t.realpath path = some e) : t.resolve e = t.resolve path := by
  obtain ⟨q, resolved, rfl⟩ := Option.map_eq_some_iff.mp real
  rw [resolve_render (settled_of_resolve resolved), resolved]

/-- A real path is its own real path. -/
theorem realpath_realpath (real : t.realpath path = some e) : t.realpath e = some e := by
  rw [realpath, resolve_realpath real]
  exact real

end Tree

end Posix

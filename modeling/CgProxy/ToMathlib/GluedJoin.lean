import Mathlib.Data.List.Basic
import Mathlib.Data.List.Infix

/-! # Joins that leave out separators

An encoder writes a separator after an entry unless the entry equals a fixed value, usually the
last one of the list. Entries equal to that value are glued to their successor. `glued` is what
splitting the text at the separator gives back. On lists that end in the fixed value it never
keeps more entries than the list had, and `filter_glued_eq_iff` says exactly when a filter cannot
tell the two apart.
-/

namespace GluedJoin

variable {α : Type*} [DecidableEq α]

/-- Entries in order, each followed by the separator unless it equals `z`. -/
def encode (sep : α) (z : List α) (l : List (List α)) : List α :=
  l.flatMap fun e => if e ≠ z then e ++ [sep] else e

/-- The fields of the encoded text: an entry equal to `z` is a prefix of the next field. -/
def glued (z : List α) : List (List α) → List (List α)
  | [] => [[]]
  | e :: rest => if e ≠ z then e :: glued z rest else (glued z rest).modifyHead (e ++ ·)

theorem glued_cons_of_ne {z e : List α} (rest : List (List α)) (other : e ≠ z) :
    glued z (e :: rest) = e :: glued z rest := if_pos other

theorem glued_cons_self (z : List α) (rest : List (List α)) :
    glued z (z :: rest) = (glued z rest).modifyHead (z ++ ·) := if_neg (not_not_intro rfl)

theorem splitOn_append_of_notMem {sep : α} {e : List α} (free : sep ∉ e) (text : List α) :
    (e ++ text).splitOn sep = (text.splitOn sep).modifyHead (e ++ ·) := by
  induction e with
  | nil => rw [List.nil_append]; cases text.splitOn sep <;> rfl
  | cons a e ih =>
    simp only [List.mem_cons, not_or] at free
    have plain : (a == sep) = false := beq_eq_false_iff_ne.mpr (Ne.symm free.1)
    rw [List.cons_append, List.splitOn_cons_eq_if_modifyHead, plain, if_neg Bool.false_ne_true,
      ih free.2, List.modifyHead_modifyHead]
    rfl

/-- A field of a split text is free of the separator. -/
theorem notMem_of_mem_splitOn {sep : α} {text field : List α} (member : field ∈ text.splitOn sep) :
    sep ∉ field := by
  induction text generalizing field with
  | nil => simp_all
  | cons c text ih =>
    rw [List.splitOn_cons_eq_if_modifyHead] at member
    by_cases same : c = sep
    · rw [if_pos (by simpa using same)] at member
      rcases List.mem_cons.mp member with rfl | member
      · exact List.not_mem_nil
      · exact ih member
    · rw [if_neg (by simpa using same)] at member
      obtain ⟨first, rest, shape⟩ := List.exists_cons_of_ne_nil (List.splitOn_ne_nil sep text)
      rw [shape, List.modifyHead_cons] at member
      rcases List.mem_cons.mp member with rfl | member
      · have free : sep ∉ first := ih (by simp [shape])
        simpa [Ne.symm same] using free
      · exact ih (by simp [shape, member])

/-- Splitting undoes the encoding up to the glued entries. -/
theorem splitOn_encode {sep : α} {z : List α} {l : List (List α)} (free : ∀ e ∈ l, sep ∉ e) :
    (encode sep z l).splitOn sep = glued z l := by
  induction l with
  | nil => simp [encode, glued]
  | cons e rest ih =>
    have later := ih fun other member => free other (List.mem_cons_of_mem _ member)
    simp only [encode, List.flatMap_cons] at later ⊢
    by_cases same : e = z
    · rw [if_neg (not_not_intro same), splitOn_append_of_notMem (free e List.mem_cons_self), later,
        same, glued_cons_self]
    · rw [if_pos same, List.append_assoc, List.singleton_append,
        List.splitOn_append_cons_self_of_not_mem (free e List.mem_cons_self), later,
        glued_cons_of_ne rest same]

theorem glued_ne_nil (z : List α) (l : List (List α)) : glued z l ≠ [] := by
  induction l with
  | nil => simp [glued]
  | cons e rest ih =>
    rw [glued]
    split
    · simp
    · simpa using ih

/-- The first field starts with the first entry, and is that entry unless it is glued. -/
theorem glued_cons_eq (z y : List α) (rest : List (List α)) :
    ∃ w fields, glued z (y :: rest) = (y ++ w) :: fields ∧
      (y ≠ z → w = [] ∧ fields = glued z rest) := by
  by_cases same : y = z
  · subst same
    obtain ⟨h, fields, shape⟩ := List.exists_cons_of_ne_nil (glued_ne_nil y rest)
    exact ⟨h, fields, by rw [glued_cons_self, shape, List.modifyHead_cons], fun other => absurd rfl other⟩
  · exact ⟨[], glued z rest, by rw [glued_cons_of_ne rest same, List.append_nil], fun _ => ⟨rfl, rfl⟩⟩

theorem mem_encode {sep a : α} {z : List α} {l : List (List α)} (member : a ∈ encode sep z l) :
    a = sep ∨ ∃ e ∈ l, a ∈ e := by
  obtain ⟨e, inside, member⟩ := List.mem_flatMap.mp member
  split at member
  · rcases List.mem_append.mp member with own | separator
    · exact .inr ⟨e, inside, own⟩
    · exact .inl (List.mem_singleton.mp separator)
  · exact .inr ⟨e, inside, member⟩

/-- Gluing brings no new symbols. -/
theorem mem_of_mem_glued {z : List α} {l : List (List α)} {field : List α} (inside : field ∈ glued z l)
    {a : α} (member : a ∈ field) : ∃ e ∈ l, a ∈ e := by
  induction l generalizing field with
  | nil =>
    obtain rfl : field = [] := by simpa [glued] using inside
    contradiction
  | cons e rest ih =>
    by_cases same : e = z
    · obtain ⟨h, fields, shape⟩ := List.exists_cons_of_ne_nil (glued_ne_nil z rest)
      rw [same, glued_cons_self, shape, List.modifyHead_cons] at inside
      have later : ∀ {other}, other ∈ h :: fields → a ∈ other → ∃ e' ∈ e :: rest, a ∈ e' := by
        intro other known seen
        obtain ⟨e', found, holds⟩ := ih (shape ▸ known) seen
        exact ⟨e', List.mem_cons_of_mem _ found, holds⟩
      rcases List.mem_cons.mp inside with rfl | tail
      · rcases List.mem_append.mp member with own | next
        · exact ⟨e, List.mem_cons_self, same ▸ own⟩
        · exact later List.mem_cons_self next
      · exact later (List.mem_cons_of_mem _ tail) member
    · rw [glued_cons_of_ne rest same] at inside
      rcases List.mem_cons.mp inside with rfl | tail
      · exact ⟨field, List.mem_cons_self, member⟩
      · obtain ⟨e', found, holds⟩ := ih tail member
        exact ⟨e', List.mem_cons_of_mem _ found, holds⟩

/-- No field is empty when no entry is and the list ends in the glued value. -/
theorem ne_nil_of_mem_glued {z : List α} {l : List (List α)} (nonempty : ∀ e ∈ l ++ [z], e ≠ [])
    {field : List α} (inside : field ∈ glued z (l ++ [z])) : field ≠ [] := by
  induction l generalizing field with
  | nil =>
    obtain rfl : field = z := by simpa [glued_cons_self, glued] using inside
    exact nonempty field (by simp)
  | cons e rest ih =>
    have later := fun y member => nonempty y (List.mem_cons_of_mem e member)
    rw [List.cons_append] at inside
    by_cases same : e = z
    · obtain ⟨h, fields, shape⟩ := List.exists_cons_of_ne_nil (glued_ne_nil z (rest ++ [z]))
      rw [same, glued_cons_self, shape, List.modifyHead_cons] at inside
      rcases List.mem_cons.mp inside with rfl | tail
      · exact List.append_ne_nil_of_left_ne_nil (nonempty z (by simp)) h
      · exact ih later (by simp [shape, tail])
    · rw [glued_cons_of_ne _ same] at inside
      rcases List.mem_cons.mp inside with rfl | tail
      · exact nonempty field List.mem_cons_self
      · exact ih later tail

/-! ## What a filter sees -/

section Filter

variable {z : List α} {keep : List α → Bool}

/-- A filter that keeps a glued field also keeps the entry it starts with. -/
def PrefixClosed (keep : List α → Bool) (z : List α) (l : List (List α)) : Prop :=
  ∀ y ∈ l, ∀ w, keep (z ++ (y ++ w)) = true → keep z = true

/-- Every entry equal to `z` that has a successor is dropped by the filter, as is its successor. -/
def GluedDropped (keep : List α → Bool) (z : List α) : List (List α) → Prop
  | e :: y :: rest => (e = z → keep e = false ∧ keep y = false) ∧ GluedDropped keep z (y :: rest)
  | _ => True

instance decidableGluedDropped (keep : List α → Bool) (z : List α) :
    (l : List (List α)) → Decidable (GluedDropped keep z l)
  | [] | [_] => isTrue trivial
  | _ :: y :: rest =>
      have := decidableGluedDropped keep z (y :: rest)
      inferInstanceAs (Decidable (_ ∧ _))

omit [DecidableEq α] in
theorem PrefixClosed.tail {e : List α} {l : List (List α)} (closed : PrefixClosed keep z (e :: l)) :
    PrefixClosed keep z l := fun y member => closed y (List.mem_cons_of_mem _ member)

/-- Gluing `z` to the fields of a list that is not empty lengthens the first of them. -/
private theorem glued_cons_append (z : List α) (l : List (List α)) :
    ∃ y ∈ l ++ [z], ∃ w fields tail, l ++ [z] = y :: tail ∧ glued z (l ++ [z]) = (y ++ w) :: fields ∧
      (y ≠ z → w = [] ∧ fields = glued z tail) ∧
      glued z (z :: (l ++ [z])) = (z ++ (y ++ w)) :: fields := by
  obtain ⟨y, tail, shape⟩ : ∃ y tail, l ++ [z] = y :: tail := by cases l <;> simp
  obtain ⟨w, fields, first, plain⟩ := glued_cons_eq z y tail
  refine ⟨y, by simp [shape], w, fields, tail, shape, by rw [shape, first], plain, ?_⟩
  rw [glued_cons_self, shape, first, List.modifyHead_cons]

/-- If the first field is kept, so is the first entry. -/
private theorem keep_of_keep_first {l : List (List α)} (closed : PrefixClosed keep z (l ++ [z]))
    {y w : List α} {fields tail : List (List α)} (shape : l ++ [z] = y :: tail)
    (first : glued z (l ++ [z]) = (y ++ w) :: fields) (kept : keep (y ++ w) = true) : keep y = true := by
  cases l with
  | nil =>
    obtain ⟨rfl, rfl⟩ : z = y ∧ [] = tail := by simpa using shape
    have bare : w = [] ∧ fields = [] := by simpa [glued_cons_self, glued] using first
    rwa [bare.1, List.append_nil] at kept
  | cons e rest =>
    obtain ⟨rfl, rfl⟩ : e = y ∧ rest ++ [z] = tail := by simpa using shape
    by_cases same : e = z
    · subst same
      obtain ⟨y', member, w', _, _, -, -, -, joined⟩ := glued_cons_append e rest
      rw [List.cons_append, joined] at first
      rw [← (List.cons.inj first).1] at kept
      exact closed.tail y' member w' kept
    · rw [List.cons_append, glued_cons_of_ne _ same] at first
      rwa [← (List.cons.inj first).1] at kept

theorem length_filter_glued_le {l : List (List α)} (closed : PrefixClosed keep z (l ++ [z])) :
    ((glued z (l ++ [z])).filter keep).length ≤ ((l ++ [z]).filter keep).length := by
  induction l with
  | nil => simp [glued_cons_self, glued]
  | cons e rest ih =>
    have bound := ih closed.tail
    by_cases same : e = z
    · subst same
      obtain ⟨y, member, w, fields, tail, -, first, -, joined⟩ := glued_cons_append e rest
      have grows := closed.tail y member w
      have later : (fields.filter keep).length ≤ ((rest ++ [e]).filter keep).length :=
        ((List.sublist_cons_self (y ++ w) fields).filter keep).length_le.trans (first ▸ bound)
      rw [List.cons_append, joined, List.filter_cons, List.filter_cons]
      cases kept : keep (e ++ (y ++ w)) with
      | true => simpa [grows kept] using later
      | false =>
        rw [if_neg Bool.false_ne_true]
        split
        · exact later.trans (Nat.le_succ _)
        · exact later
    · rw [List.cons_append, glued_cons_of_ne _ same, List.filter_cons, List.filter_cons]
      split
      · simpa using bound
      · exact bound

/-- One glued entry: the filter misses nothing exactly when it drops the entry and its successor
and misses nothing in the rest. -/
private theorem filter_glued_cons_self {l : List (List α)} (closed : PrefixClosed keep z (l ++ [z]))
    (nonempty : ∀ y ∈ l ++ [z], y ≠ []) {y : List α} {tail : List (List α)} (shape : l ++ [z] = y :: tail) :
    (glued z (z :: (l ++ [z]))).filter keep = (z :: (l ++ [z])).filter keep ↔
      (keep z = false ∧ keep y = false) ∧
        (glued z (l ++ [z])).filter keep = (l ++ [z]).filter keep := by
  have bound := length_filter_glued_le closed
  obtain ⟨y', member, w, fields, tail', shape', first, plain, joined⟩ := glued_cons_append z l
  obtain ⟨rfl, rfl⟩ := List.cons.inj (shape.symm.trans shape')
  have grows := closed y member w
  have head := keep_of_keep_first closed shape first
  rw [joined, first, List.filter_cons, List.filter_cons, List.filter_cons]
  rw [first] at bound
  have later : (fields.filter keep).length ≤ ((l ++ [z]).filter keep).length :=
    ((List.sublist_cons_self (y ++ w) fields).filter keep).length_le.trans bound
  constructor
  · intro same
    have zDropped : keep z = false := by
      by_contra kept
      rw [if_pos (by simpa using kept : keep z = true)] at same
      split at same
      · have long : z ++ (y ++ w) = z := (List.cons.inj same).1
        have bare : y = [] ∧ w = [] := by simpa using congrArg List.length long
        exact nonempty y member bare.1
      · have count := congrArg List.length same
        simp only [List.length_cons] at count
        omega
    have joinedDropped : keep (z ++ (y ++ w)) = false := by
      by_contra kept
      rw [grows (by simpa using kept)] at zDropped
      contradiction
    rw [joinedDropped, zDropped, if_neg Bool.false_ne_true, if_neg Bool.false_ne_true] at same
    have yDropped : keep y = false := by
      by_contra kept
      have other : y ≠ z := by
        rintro rfl
        exact kept zDropped
      obtain ⟨rfl, -⟩ := plain other
      rw [List.append_nil, List.filter_cons, if_pos (by simpa using kept : keep y = true), same,
        List.length_cons] at bound
      omega
    have firstDropped : keep (y ++ w) = false := by
      by_contra kept
      rw [head (by simpa using kept)] at yDropped
      contradiction
    exact ⟨⟨zDropped, yDropped⟩, by rw [firstDropped, if_neg Bool.false_ne_true, same]⟩
  · rintro ⟨⟨zDropped, yDropped⟩, same⟩
    have joinedDropped : keep (z ++ (y ++ w)) = false := by
      by_contra kept
      rw [grows (by simpa using kept)] at zDropped
      contradiction
    have firstDropped : keep (y ++ w) = false := by
      by_contra kept
      rw [head (by simpa using kept)] at yDropped
      contradiction
    rw [firstDropped, if_neg Bool.false_ne_true] at same
    rw [joinedDropped, zDropped, if_neg Bool.false_ne_true, if_neg Bool.false_ne_true, same]

/-- A filter sees the original entries in the glued fields exactly when every glued entry and the
entry after it are dropped anyway. -/
theorem filter_glued_eq_iff {l : List (List α)} (closed : PrefixClosed keep z (l ++ [z]))
    (nonempty : ∀ y ∈ l ++ [z], y ≠ []) :
    (glued z (l ++ [z])).filter keep = (l ++ [z]).filter keep ↔ GluedDropped keep z (l ++ [z]) := by
  induction l with
  | nil => simp [glued_cons_self, glued, GluedDropped]
  | cons e rest ih =>
    have later := fun y member => nonempty y (List.mem_cons_of_mem e member)
    obtain ⟨y, tail, shape⟩ : ∃ y tail, rest ++ [z] = y :: tail := by cases rest <;> simp
    have dropped : GluedDropped keep z (e :: (rest ++ [z])) ↔
        (e = z → keep e = false ∧ keep y = false) ∧ GluedDropped keep z (rest ++ [z]) := by
      rw [shape, GluedDropped]
    rw [List.cons_append, dropped, ← ih closed.tail later]
    by_cases same : e = z
    · subst same
      rw [filter_glued_cons_self closed.tail later shape]
      simp only [forall_const]
    · rw [glued_cons_of_ne _ same, List.filter_cons, List.filter_cons]
      split <;> simp [same]

end Filter

end GluedJoin

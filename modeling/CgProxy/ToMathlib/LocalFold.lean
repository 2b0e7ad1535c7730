import Mathlib.Data.List.Basic

/-! # Folds of steps that each change one place

A state has a value at every key, and the step for a key replaces the value there by a function of
it, as long as the state has a property that all steps keep. If doing so twice is doing so once, the
fold over a list of keys has, at each key, the value after one step or the old one, whatever the
order of the list and however often a key is in it. A single place that some steps write keeps what
was written last.
-/

namespace LocalFold

variable {σ α β : Type*}

/-- `step s a` changes the value at `a` only, by `f a`. -/
structure Local (good : σ → Prop) (get : σ → α → β) (step : σ → α → σ) (f : α → β → β) : Prop where
  good_step : ∀ {s} a, good s → good (step s a)
  get_self : ∀ {s} a, good s → get (step s a) a = f a (get s a)
  get_of_ne : ∀ {s a b}, good s → b ≠ a → get (step s a) b = get s b

namespace Local

variable {good : σ → Prop} {get : σ → α → β} {step : σ → α → σ} {f : α → β → β}

theorem good_foldl (loc : Local good get step f) (keys : List α) {s : σ} (start : good s) :
    good (keys.foldl step s) := by
  induction keys generalizing s with
  | nil => exact start
  | cons a rest ih => exact ih (loc.good_step a start)

theorem get_foldl_of_notMem (loc : Local good get step f) {keys : List α} {s : σ} (start : good s) {b : α}
    (absent : b ∉ keys) : get (keys.foldl step s) b = get s b := by
  induction keys generalizing s with
  | nil => rfl
  | cons a rest ih =>
    rw [List.mem_cons, not_or] at absent
    rw [List.foldl_cons, ih (loc.good_step a start) absent.2, loc.get_of_ne start absent.1]

/-- The value at a key of the list, if a second step there does nothing. -/
theorem get_foldl_of_mem (loc : Local good get step f) (idem : ∀ a v, f a (f a v) = f a v) {keys : List α} {s : σ}
    (start : good s) {b : α} (member : b ∈ keys) : get (keys.foldl step s) b = f b (get s b) := by
  induction keys generalizing s with
  | nil => contradiction
  | cons a rest ih =>
    rw [List.foldl_cons]
    by_cases later : b ∈ rest
    · rw [ih (loc.good_step a start) later]
      rcases eq_or_ne b a with rfl | other
      · rw [loc.get_self b start, idem]
      · rw [loc.get_of_ne start other]
    · obtain rfl : b = a := (List.mem_cons.mp member).resolve_right later
      rw [loc.get_foldl_of_notMem (loc.good_step b start) later, loc.get_self b start]

theorem get_foldl [DecidableEq α] (loc : Local good get step f) (idem : ∀ a v, f a (f a v) = f a v)
    (keys : List α) {s : σ} (start : good s) (b : α) : get (keys.foldl step s) b = if b ∈ keys then f b (get s b) else get s b := by
  split
  · next member => exact loc.get_foldl_of_mem idem start member
  · next absent => exact loc.get_foldl_of_notMem start absent

end Local

/-- A place that every step overwrites or leaves alone holds what was written last. -/
theorem get_foldl_of_writes {get : σ → β} {step : σ → α → σ} {write : α → Option β}
    (writes : ∀ s a, get (step s a) = (write a).getD (get s)) (l : List α) (s : σ) :
    get (l.foldl step s) = (l.filterMap write).getLast?.getD (get s) := by
  induction l generalizing s with
  | nil => rfl
  | cons a rest ih =>
    rw [List.foldl_cons, ih, writes]
    cases written : write a with
    | none => simp [written]
    | some x => cases last : (rest.filterMap write).getLast? <;> simp [written, List.getLast?_cons, last]

end LocalFold

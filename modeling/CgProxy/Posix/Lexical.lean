import Mathlib.Data.List.Infix

/-! # Walking up and down a tree of names

A path read as text is a list of moves. Its net effect does not depend on where it starts: it climbs some
levels, as far as there are any, and then goes down along some names. So it stays below its start exactly
if it does not climb, or comes back along the names it has climbed.
-/

namespace Posix.Lexical

variable {α : Type*}

inductive Move (α : Type*) where
  | stay
  | up
  | down (name : α)
deriving DecidableEq

/-- The root is above itself. -/
def Move.apply (here : List α) : Move α → List α
  | stay => here
  | up => here.dropLast
  | down name => here ++ [name]

/-- So many levels up, and from there down. -/
structure Net (α : Type*) where
  up : ℕ := 0
  down : List α := []

namespace Net

/-- Another move after that. -/
def step (net : Net α) : Move α → Net α
  | .stay => net
  | .up => if net.down.isEmpty then { net with up := net.up + 1 } else { net with down := net.down.dropLast }
  | .down name => { net with down := net.down ++ [name] }

def ofMoves (moves : List (Move α)) : Net α := moves.foldl step {}

/-- Where it leads. -/
def apply (net : Net α) (base : List α) : List α := base.take (base.length - net.up) ++ net.down

theorem apply_step (net : Net α) (base : List α) (move : Move α) :
    (net.step move).apply base = move.apply (net.apply base) := by
  cases move with
  | stay => rfl
  | down name => simp only [apply, step, Move.apply, List.append_assoc]
  | up =>
    rw [step, Move.apply]
    split
    · next bare =>
      have none : net.down = [] := List.isEmpty_iff.mp bare
      simp only [apply, none, List.append_nil, List.dropLast_eq_take, List.length_take, List.take_take]
      congr 1
      omega
    · next some =>
      have inner : net.down ≠ [] := fun none => some (List.isEmpty_iff.mpr none)
      rw [apply, apply, List.dropLast_append_of_ne_nil inner]

/-- The moves lead where their net effect does. -/
theorem apply_ofMoves (moves : List (Move α)) (base : List α) :
    (ofMoves moves).apply base = moves.foldl Move.apply base := by
  suffices general : ∀ net : Net α, (moves.foldl step net).apply base = moves.foldl Move.apply (net.apply base) by
    have start : ({} : Net α).apply base = base := by simp [apply]
    rw [ofMoves, general, start]
  induction moves with
  | nil => exact fun _ => rfl
  | cons move rest ih =>
    intro net
    rw [List.foldl_cons, List.foldl_cons, ih, apply_step]

/-- It leads to the start or below exactly if it goes down again as it has climbed. -/
theorem prefix_apply_iff (net : Net α) (base : List α) :
    base <+: net.apply base ↔ base.drop (base.length - net.up) <+: net.down := by
  have parts := List.take_append_drop (base.length - net.up) base
  calc
    base <+: net.apply base ↔ base.take (base.length - net.up) ++ base.drop (base.length - net.up) <+:
        base.take (base.length - net.up) ++ net.down := by rw [parts, apply]
    _ ↔ base.drop (base.length - net.up) <+: net.down := List.prefix_append_right_inj _

end Net

end Posix.Lexical

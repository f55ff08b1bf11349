import Mathlib.Algebra.GroupWithZero.Nat
import Mathlib.Data.List.Basic
import Mathlib.Data.List.Pairwise

namespace Arclain.Tiling

/-!
# Pieces that follow each other

Pieces that are placed one behind the other cover every position from the first to
the last exactly once.
-/

variable {Piece : Type*} (size : Piece → Nat)

/-- The pieces are placed one behind the other, from the start to the stop. -/
def Tiles (start : Nat) : List (Nat × Piece) → Nat → Prop
  | [], stop => start = stop
  | placed :: rest, stop => placed.1 = start ∧ Tiles (start + size placed.2) rest stop

section

variable {size} {start middle stop : Nat} {placed : List (Nat × Piece)}

theorem Tiles.snoc (tiles : Tiles size start placed middle) (piece : Piece) :
    Tiles size start (placed ++ [(middle, piece)]) (middle + size piece) := by
  induction placed generalizing start with
  | nil =>
    obtain rfl : start = middle := tiles
    exact ⟨rfl, rfl⟩
  | cons _ _ ih => exact ⟨tiles.1, ih tiles.2⟩

section

variable (tiles : Tiles size start placed stop)
include tiles

theorem Tiles.stop_eq :
    stop = start + (placed.map fun piece => size piece.2).sum := by
  induction placed generalizing start with
  | nil => exact Eq.symm tiles
  | cons _ _ ih =>
    rw [ih tiles.2, List.map_cons, List.sum_cons]
    omega

theorem Tiles.inside {piece : Nat × Piece}
    (mem : piece ∈ placed) : start ≤ piece.1 ∧ piece.1 + size piece.2 ≤ stop := by
  induction placed generalizing start with
  | nil => cases mem
  | cons _ _ ih =>
    obtain ⟨_, behind⟩ := tiles
    have length := behind.stop_eq
    rcases List.mem_cons.mp mem with rfl | inRest
    · omega
    · obtain ⟨_, _⟩ := ih behind inRest
      omega

theorem Tiles.pairwise :
    placed.Pairwise fun first second => first.1 + size first.2 ≤ second.1 := by
  induction placed generalizing start with
  | nil => exact .nil
  | cons first _ ih =>
    obtain ⟨_, behind⟩ := tiles
    refine .cons ?_ (ih behind)
    intro second mem
    have above := (behind.inside mem).1
    omega

end

end

end Arclain.Tiling

import Mathlib.Data.Nat.Basic
import Mathlib.Order.Basic

/-!
# Blocks placed at multiples of an alignment

Each block is placed at the first multiple of the alignment that the block before it has left
free. Blocks that are placed so never overlap, whatever their sizes.
-/

namespace Stormnetboot.Common

/-- The first multiple of `a` from `v` on. -/
def roundUp (a v : ℕ) : ℕ :=
  (v + a - 1) / a * a

/-- What is rounded up is a multiple. -/
theorem dvd_roundUp (a v : ℕ) : a ∣ roundUp a v :=
  Nat.dvd_mul_left ..

/-- It is rounded up by less than the unit. -/
theorem roundUp_le (a v : ℕ) : roundUp a v ≤ v + a - 1 :=
  Nat.div_mul_le_self ..

/-- It is not rounded down. -/
theorem le_roundUp {a : ℕ} (ha : 0 < a) (v : ℕ) : v ≤ roundUp a v := by
  have hmod := Nat.mod_lt (v + a - 1) ha
  rw [roundUp, Nat.div_mul_self_eq_mod_sub_self]
  omega

/-- The addresses and sizes of blocks placed one after the other. -/
def placed (a start : ℕ) : List ℕ → List (ℕ × ℕ)
  | [] => []
  | size :: rest => (roundUp a start, size) :: placed a (roundUp a start + size) rest

/-- Nothing that is rounded up on the way reaches the limit. -/
def PlacedBelow (limit a start : ℕ) : List ℕ → Prop
  | [] => True
  | size :: rest => start + a - 1 < limit ∧ PlacedBelow limit a (roundUp a start + size) rest

section

variable {a : ℕ}

/-- Every block starts at a multiple. -/
theorem dvd_of_mem_placed {start : ℕ} {sizes : List ℕ} {block : ℕ × ℕ}
    (h : block ∈ placed a start sizes) : a ∣ block.1 := by
  induction sizes generalizing start with
  | nil => cases h
  | cons size rest ih =>
    rcases List.mem_cons.mp h with rfl | h
    · exact dvd_roundUp ..
    · exact ih h

/-- No block lies below the start. -/
theorem le_of_mem_placed (ha : 0 < a) {start : ℕ} {sizes : List ℕ} {block : ℕ × ℕ}
    (h : block ∈ placed a start sizes) : start ≤ block.1 := by
  induction sizes generalizing start with
  | nil => cases h
  | cons size rest ih =>
    have hstart := le_roundUp ha start
    rcases List.mem_cons.mp h with rfl | h
    · exact hstart
    · have hrest := ih h
      omega

/-- Each block ends before the later ones. -/
theorem pairwise_placed (ha : 0 < a) (start : ℕ) (sizes : List ℕ) :
    (placed a start sizes).Pairwise fun x y => x.1 + x.2 ≤ y.1 := by
  induction sizes generalizing start with
  | nil => exact .nil
  | cons size rest ih =>
    exact .cons (fun block hblock => le_of_mem_placed ha hblock) (ih _)

end

end Stormnetboot.Common

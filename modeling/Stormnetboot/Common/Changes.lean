import Mathlib.Data.List.Destutter

/-!
# Only what has changed

Where values are looked at one after the other and each is kept only if it differs from the one
before it that was kept, nothing is lost: the last value kept is the last one there was.
-/

namespace Stormnetboot.Common

variable {α : Type} [DecidableEq α]

/-- The last value is the last one kept, from any start. -/
theorem getLast?_destutter' (a : α) (l : List α) :
    (l.destutter' (· ≠ ·) a).getLast? = (a :: l).getLast? := by
  induction l generalizing a with
  | nil => rfl
  | cons b l ih =>
    rw [List.getLast?_cons_cons]
    by_cases h : a ≠ b
    · rw [List.destutter'_cons_pos l h, List.getLast?_cons, ih b]
      simp [List.getLast?_cons]
    · rw [List.destutter'_cons_neg l h, ih a, not_ne_iff.mp h]

/-- Dropping repeats keeps the last value. -/
theorem getLast?_destutter (l : List α) : (l.destutter (· ≠ ·)).getLast? = l.getLast? := by
  cases l with
  | nil => rfl
  | cons a l => exact getLast?_destutter' a l

/-- Another value is kept if it is not the last one again. -/
theorem destutter'_concat (a b : α) (l : List α) :
    (l ++ [b]).destutter' (· ≠ ·) a =
      if (a :: l).getLast? = some b then l.destutter' (· ≠ ·) a
      else l.destutter' (· ≠ ·) a ++ [b] := by
  induction l generalizing a with
  | nil =>
    rw [List.nil_append, List.destutter'_singleton]
    by_cases h : a = b
    · rw [if_neg (not_ne_iff.mpr h), h]
      exact (if_pos rfl).symm
    · rw [if_pos h]
      exact (if_neg fun heq => h (Option.some.inj heq)).symm
  | cons c l ih =>
    rw [List.cons_append, List.getLast?_cons_cons]
    by_cases h : a ≠ c
    · rw [List.destutter'_cons_pos _ h, List.destutter'_cons_pos _ h, ih c]
      split_ifs <;> rfl
    · rw [List.destutter'_cons_neg _ h, List.destutter'_cons_neg _ h, ih a, not_ne_iff.mp h]

/-- One more value is kept exactly if it is not the last one again. -/
theorem destutter_concat (l : List α) (a : α) : (l ++ [a]).destutter (· ≠ ·) =
    if l.getLast? = some a then l.destutter (· ≠ ·) else l.destutter (· ≠ ·) ++ [a] := by
  cases l with
  | nil => rfl
  | cons b l => exact destutter'_concat b a l

end Stormnetboot.Common

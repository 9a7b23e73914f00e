import Mathlib.Data.Nat.Notation
import Mathlib.Tactic.Common

/-!
# Attempts up to a quota of successes

Something is attempted again and again until it has succeeded so many times. The quota bounds the
successes; it bounds the attempts only where none of the first ones fails.
-/

namespace Stormnetboot.Common

variable {α : Type}

/-- The attempts that are made, of those that could be, each with whether it succeeds. -/
def untilQuota : ℕ → List (α × Bool) → List (α × Bool)
  | 0, _ => []
  | _ + 1, [] => []
  | quota + 1, (a, succeeds) :: rest =>
    (a, succeeds) :: untilQuota (if succeeds then quota else quota + 1) rest

/-- With a quota that has room for all of them, all are made. -/
theorem untilQuota_eq_self {quota : ℕ} {attempts : List (α × Bool)}
    (h : attempts.length ≤ quota) : untilQuota quota attempts = attempts := by
  induction attempts generalizing quota with
  | nil => cases quota <;> rfl
  | cons attempt rest ih =>
    obtain ⟨quota, rfl⟩ := Nat.exists_eq_succ_of_ne_zero (Nat.ne_zero_of_lt h)
    rw [List.length_cons] at h
    rw [untilQuota, ih]
    split_ifs <;> omega

/-- Failures never use the quota up. -/
theorem untilQuota_eq_self_of_fails {quota : ℕ} (hroom : 0 < quota) {attempts : List (α × Bool)}
    (h : ∀ attempt ∈ attempts, attempt.2 = false) : untilQuota quota attempts = attempts := by
  obtain ⟨quota, rfl⟩ := Nat.exists_eq_succ_of_ne_zero (Nat.ne_of_gt hroom)
  induction attempts with
  | nil => rfl
  | cons attempt rest ih =>
    obtain ⟨a, succeeds⟩ := attempt
    obtain ⟨rfl, hrest⟩ := List.forall_mem_cons.mp h
    rw [untilQuota, if_neg Bool.false_ne_true, ih hrest]

/-- Where there are enough, at least as many are made as the quota asks for. -/
theorem le_length_untilQuota {quota : ℕ} {attempts : List (α × Bool)}
    (h : quota ≤ attempts.length) : quota ≤ (untilQuota quota attempts).length := by
  induction attempts generalizing quota with
  | nil => exact Nat.le_zero.mp h ▸ Nat.zero_le _
  | cons attempt rest ih =>
    cases quota with
    | zero => exact Nat.zero_le _
    | succ quota =>
      rw [untilQuota, List.length_cons]
      rw [List.length_cons] at h
      split_ifs with hsucceeds
      · exact Nat.succ_le_succ (ih (by omega))
      · rcases Nat.lt_or_ge rest.length (quota + 1) with hshort | hlong
        · rw [untilQuota_eq_self (by omega)]
          omega
        · have := ih hlong
          omega

/-- The quota bounds the attempts exactly where it has room for all of them, or none of the first
ones fails. -/
theorem length_untilQuota_le_iff (quota : ℕ) (attempts : List (α × Bool)) :
    (untilQuota quota attempts).length ≤ quota ↔
      attempts.length ≤ quota ∨ ∀ attempt ∈ attempts.take quota, attempt.2 = true := by
  induction attempts generalizing quota with
  | nil => cases quota <;> simp [untilQuota]
  | cons attempt rest ih =>
    obtain ⟨a, succeeds⟩ := attempt
    cases quota with
    | zero => simp [untilQuota]
    | succ quota =>
      rw [untilQuota, List.length_cons, List.length_cons, List.take_succ_cons, List.forall_mem_cons]
      cases succeeds with
      | true =>
        rw [if_pos rfl, Nat.add_le_add_iff_right, ih, Nat.add_le_add_iff_right]
        simp
      | false =>
        rw [if_neg Bool.false_ne_true]
        rcases Nat.lt_or_ge rest.length (quota + 1) with hshort | hlong
        · rw [untilQuota_eq_self (by omega)]
          simp
        · have hmade := le_length_untilQuota hlong
          refine iff_of_false (by omega) ?_
          rintro (hall | ⟨hfalse, -⟩)
          · omega
          · cases hfalse

end Stormnetboot.Common

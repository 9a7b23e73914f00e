import Mathlib.Data.List.Induction
import Stormnetboot.Common.Runs

/-!
# Since when a reading holds

A system takes steps, each at a time of its own, and shows a reading that carries a time. If a
step carries the time forward while the reading stays, and sets it to its own time otherwise, then
the time is that of the last step at which the reading changed, over the whole history; or the
time it came with, or that of the step that first showed it.
-/

namespace Stormnetboot.Common

section Since

variable {σ ι α τ : Type} (step : σ → ι → σ) (reading : σ → Option (α × τ)) (clock : ι → τ)

/-- The step shows another reading than there was before. -/
def Changes (s : σ) (i : ι) : Prop :=
  ∃ old new, reading s = some old ∧ reading (step s i) = some new ∧ old.1 ≠ new.1

/-- No step changes the reading. -/
def Steady (s : σ) (is : List ι) : Prop :=
  ∀ before i after, is = before ++ i :: after → ¬Changes step reading (before.foldl step s) i

/-- The time since which the reading holds that the history ends with. -/
inductive HeldSince (s : σ) (is : List ι) : τ → Prop where
  | changed (before : List ι) (i : ι) (after : List ι) (hsplit : is = before ++ i :: after)
    (hchanges : Changes step reading (before.foldl step s) i)
    (hsteady : Steady step reading ((before ++ [i]).foldl step s) after) :
    HeldSince s is (clock i)
  | initial (old : α × τ) (hold : reading s = some old) (hsteady : Steady step reading s is) :
    HeldSince s is old.2
  | appeared (i : ι) (rest : List ι) (hsplit : is = i :: rest) (hnone : reading s = none)
    (hsteady : Steady step reading (step s i) rest) : HeldSince s is (clock i)

/-- A step carries the time forward while the reading stays, and sets it otherwise. -/
structure Stamps : Prop where
  shown : ∀ s i, (reading (step s i)).isSome
  carried : ∀ s i old new, reading s = some old → reading (step s i) = some new →
    old.1 = new.1 → new.2 = old.2
  moved : ∀ s i new, reading (step s i) = some new →
    (∀ old, reading s = some old → old.1 ≠ new.1) → new.2 = clock i

variable {step reading clock}

/-- Without a step nothing changes. -/
theorem steady_nil (s : σ) : Steady step reading s [] := by
  intro before i after h
  cases before <;> cases h

/-- One more step that does not change it. -/
theorem Steady.snoc {s : σ} {is : List ι} {last : ι} (h : Steady step reading s is)
    (hlast : ¬Changes step reading (is.foldl step s) last) :
    Steady step reading s (is ++ [last]) := by
  intro before i after hsplit
  rcases append_singleton_cases hsplit with ⟨after', hinit⟩ | ⟨rfl, rfl⟩
  · exact h before i after' hinit
  · exact hlast

/-- A time is held through a step that changes nothing. -/
theorem HeldSince.snoc {s : σ} {is : List ι} {last : ι} {time : τ}
    (h : HeldSince step reading clock s is time)
    (hlast : ¬Changes step reading (is.foldl step s) last) :
    HeldSince step reading clock s (is ++ [last]) time := by
  cases h with
  | changed before i after hsplit hchanges hsteady =>
    refine .changed before i (after ++ [last]) (by simp [hsplit]) hchanges (hsteady.snoc ?_)
    rw [← List.foldl_append, List.append_assoc, List.singleton_append, ← hsplit]
    exact hlast
  | initial old hold hsteady => exact .initial old hold (hsteady.snoc hlast)
  | appeared i rest hsplit hnone hsteady =>
    refine .appeared i (rest ++ [last]) (by simp [hsplit]) hnone (hsteady.snoc ?_)
    rw [← List.foldl_cons, ← hsplit]
    exact hlast

/-- The last step keeps the time of a reading that stays, and is the time of one that changes. -/
theorem Stamps.heldSince_snoc (h : Stamps step reading clock) {s : σ} {is : List ι} {last : ι}
    {old new : α × τ} (hold : reading (is.foldl step s) = some old)
    (hnew : reading ((is ++ [last]).foldl step s) = some new)
    (hbefore : HeldSince step reading clock s is old.2) :
    HeldSince step reading clock s (is ++ [last]) new.2 := by
  rw [List.foldl_append, List.foldl_cons, List.foldl_nil] at hnew
  by_cases hsame : old.1 = new.1
  · have htime : new.2 = old.2 := h.carried _ last old new hold hnew hsame
    have hstays : ¬Changes step reading (is.foldl step s) last := by
      rintro ⟨old', new', hold', hnew', hne⟩
      rw [hold, Option.some.injEq] at hold'
      rw [hnew, Option.some.injEq] at hnew'
      exact hne (hold' ▸ hnew' ▸ hsame)
    rw [htime]
    exact hbefore.snoc hstays
  · have htime : new.2 = clock last := h.moved _ last new hnew fun old' hold' => by
      rw [hold, Option.some.injEq] at hold'
      exact hold' ▸ hsame
    rw [htime]
    exact .changed is last [] rfl ⟨old, new, hold, hnew, hsame⟩ (steady_nil _)

/-- After every history the time is that since which the reading holds. -/
theorem Stamps.heldSince (h : Stamps step reading clock) (s : σ) (is : List ι) (last : ι)
    {new : α × τ} (hnew : reading ((is ++ [last]).foldl step s) = some new) :
    HeldSince step reading clock s (is ++ [last]) new.2 := by
  induction is using List.reverseRecOn generalizing last new with
  | nil =>
    cases hold : reading s with
    | none =>
      have htime : new.2 = clock last := h.moved s last new hnew fun old hsome => by
        rw [hold] at hsome
        cases hsome
      rw [htime]
      exact .appeared last [] rfl hold (steady_nil _)
    | some old =>
      have hstart : reading (([] : List ι).foldl step s) = some old := hold
      exact h.heldSince_snoc hstart hnew (.initial old hold (steady_nil s))
  | append_singleton is previous ih =>
    have hshown := h.shown (is.foldl step s) previous
    obtain ⟨old, hold⟩ := Option.isSome_iff_exists.mp hshown
    have hread : reading ((is ++ [previous]).foldl step s) = some old := by
      rw [List.foldl_append]
      exact hold
    exact h.heldSince_snoc hread hnew (ih previous hread)

end Since

end Stormnetboot.Common

import Mathlib.Data.Nat.Notation
import Mathlib.Data.List.Basic
import Mathlib.Tactic.SplitIfs

/-!
# Runs that keep a log

A system takes a step for each thing that happens to it, and logs what it does. What holds of
the state and the log before anything happens, and is kept by every step, holds after every
run; a rule about the entries of a log may refer to the entries before each.
-/

namespace Stormnetboot.Common

/-! ## Places in a list -/

/-- An element of two lists put together stands in the first, or in the second after it. -/
theorem append_eq_cons_cases {α : Type} {first second before after : List α} {x : α}
    (h : first ++ second = before ++ x :: after) :
    (∃ after', first = before ++ x :: after') ∨
      ∃ rest, before = first ++ rest ∧ second = rest ++ x :: after := by
  rcases List.append_eq_append_iff.mp h with ⟨rest, hbefore, hsecond⟩ | ⟨rest, hfirst, htail⟩
  · exact .inr ⟨rest, hbefore, hsecond⟩
  · cases rest with
    | nil => exact .inr ⟨[], by rw [hfirst, List.append_nil, List.append_nil], htail.symm⟩
    | cons y ys =>
      rw [List.cons_append, List.cons.injEq] at htail
      exact .inl ⟨ys, by rw [hfirst, htail.1]⟩

/-- With a single element in the second, it stands in the first or is that one. -/
theorem append_singleton_cases {α : Type} {first before after : List α} {last x : α}
    (h : first ++ [last] = before ++ x :: after) :
    (∃ after', first = before ++ x :: after') ∨ before = first ∧ x = last := by
  rcases append_eq_cons_cases h with hfirst | ⟨rest, hbefore, hlast⟩
  · exact .inl hfirst
  · cases rest with
    | nil => exact .inr ⟨by rw [hbefore, List.append_nil], (List.cons.inj hlast).1.symm⟩
    | cons y ys => cases ys <;> cases hlast

/-- An entry that is not in the first part of a log is in the second. -/
theorem exists_of_append_eq {α : Type} {first second before after : List α} {x : α}
    (h : first ++ second = before ++ x :: after) (hx : x ∉ first) :
    ∃ rest, before = first ++ rest ∧ second = rest ++ x :: after :=
  (append_eq_cons_cases h).resolve_left fun ⟨_, hfirst⟩ => hx (hfirst ▸ by simp)

/-! ## Runs -/

variable {σ ι ε : Type}

/-- The state and the log after a run. -/
def runFrom (step : σ → ι → σ × List ε) : σ → List ε → List ι → σ × List ε
  | s, log, [] => (s, log)
  | s, log, i :: rest => runFrom step (step s i).1 (log ++ (step s i).2) rest

/-- The state does not depend on the log. -/
theorem fst_runFrom (step : σ → ι → σ × List ε) (s : σ) (log : List ε) (is : List ι) :
    (runFrom step s log is).1 = is.foldl (fun s i => (step s i).1) s := by
  induction is generalizing s log with
  | nil => rfl
  | cons i rest ih => exact ih (step s i).1 (log ++ (step s i).2)

/-- What happens meets the condition in every state it happens in. -/
def Always (step : σ → ι → σ × List ε) (P : σ → ι → Prop) : σ → List ι → Prop
  | _, [] => True
  | s, i :: rest => P s i ∧ Always step P (step s i).1 rest

/-- A stronger condition that is met always gives the weaker one. -/
theorem Always.imp {step : σ → ι → σ × List ε} {P Q : σ → ι → Prop} {s : σ} {is : List ι}
    (h : Always step P s is) (himp : ∀ s i, P s i → Q s i) : Always step Q s is := by
  induction is generalizing s with
  | nil => trivial
  | cons i rest ih => exact ⟨himp s i h.1, ih h.2⟩

/-- A condition that holds everywhere is always met. -/
theorem always_of_forall {step : σ → ι → σ × List ε} {P : σ → ι → Prop} (h : ∀ s i, P s i) (s : σ)
    (is : List ι) : Always step P s is := by
  induction is generalizing s with
  | nil => trivial
  | cons i rest ih => exact ⟨h s i, ih (step s i).1⟩

/-- What every step keeps holds after the run. -/
theorem runFrom_invariant {step : σ → ι → σ × List ε} {P : σ → ι → Prop} (Inv : σ → List ε → Prop)
    (hstep : ∀ s log i, Inv s log → P s i → Inv (step s i).1 (log ++ (step s i).2))
    {s : σ} {log : List ε} (hstart : Inv s log) (is : List ι) (h : Always step P s is) :
    Inv (runFrom step s log is).1 (runFrom step s log is).2 := by
  induction is generalizing s log with
  | nil => exact hstart
  | cons i rest ih => exact ih (hstep s log i hstart h.1) h.2

/-- Every entry is as it should be, given those before it. -/
def EachAfter (Q : List ε → ε → Prop) (log : List ε) : Prop :=
  ∀ before entry after, log = before ++ entry :: after → Q before entry

/-- Nothing is wrong with an empty log. -/
theorem eachAfter_nil (Q : List ε → ε → Prop) : EachAfter Q [] := by
  intro before entry after h
  cases before <;> cases h

/-- More is logged, each entry as it should be after all the earlier ones. -/
theorem EachAfter.append {Q : List ε → ε → Prop} {log new : List ε} (h : EachAfter Q log)
    (hnew : EachAfter (fun before entry => Q (log ++ before) entry) new) :
    EachAfter Q (log ++ new) := by
  intro before entry after heq
  rcases append_eq_cons_cases heq with ⟨after', hlog⟩ | ⟨rest, rfl, hrest⟩
  · exact h before entry after' hlog
  · exact hnew rest entry after hrest

/-- The entry at a place, after the entries before it. -/
theorem EachAfter.getElem? {Q : List ε → ε → Prop} {log : List ε} {entry : ε} {i : ℕ}
    (h : EachAfter Q log) (hi : log[i]? = some entry) : Q (log.take i) entry := by
  obtain ⟨hlt, rfl⟩ := List.getElem?_eq_some_iff.mp hi
  refine h (log.take i) log[i] (log.drop (i + 1)) ?_
  rw [← List.drop_eq_getElem_cons hlt, List.take_append_drop]

/-- A rule that looks at the entry only. -/
theorem eachAfter_of_forall {Q : List ε → ε → Prop} {log : List ε}
    (h : ∀ entry ∈ log, ∀ before, Q before entry) : EachAfter Q log :=
  fun before entry after heq => h entry (heq ▸ by simp) before

end Stormnetboot.Common

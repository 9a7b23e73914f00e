import Mathlib.Logic.Basic

/-!
# Looking for an acceptable candidate

A scan looks at candidates in order. It ends with the first that is accepted, breaks off at the
first that cannot be looked at, and remembers the last fault it has found. What it ends with
depends on the order only where an accepted candidate and a broken one are both there.
-/

namespace Stormnetboot.Common

/-- What a look at one candidate came to. -/
inductive Verdict (φ ε : Type) where
  | skipped
  | faulty (fault : φ)
  | broken (err : ε)
  | accepted
  deriving DecidableEq, Repr

/-- Look at the candidates in order; an error `conclude`s from the last fault if none is
accepted. -/
def scan {φ ε : Type} (conclude : φ → ε) : Option φ → List (Verdict φ ε) → Except ε Bool
  | none, [] => .ok false
  | some fault, [] => .error (conclude fault)
  | last, .skipped :: rest => scan conclude last rest
  | _, .faulty fault :: rest => scan conclude (some fault) rest
  | _, .broken err :: _ => .error err
  | _, .accepted :: _ => .ok true

section Scan

variable {φ ε : Type} (conclude : φ → ε)

/-- A scan accepts only what is there. -/
theorem accepted_mem_of_scan (last : Option φ) (verdicts : List (Verdict φ ε))
    (h : scan conclude last verdicts = .ok true) : .accepted ∈ verdicts := by
  induction verdicts generalizing last with
  | nil => cases last <;> cases h
  | cons verdict rest ih =>
    cases verdict with
    | skipped => exact List.mem_cons_of_mem _ (ih last (by simpa only [scan] using h))
    | faulty fault => exact List.mem_cons_of_mem _ (ih (some fault) (by simpa only [scan] using h))
    | broken err => simp only [scan, reduceCtorEq] at h
    | accepted => exact List.mem_cons_self

/-- Without a broken candidate, what is there is accepted. -/
theorem scan_of_accepted_mem (last : Option φ) (verdicts : List (Verdict φ ε))
    (hbroken : ∀ err, .broken err ∉ verdicts) (haccepted : .accepted ∈ verdicts) :
    scan conclude last verdicts = .ok true := by
  induction verdicts generalizing last with
  | nil => cases haccepted
  | cons verdict rest ih =>
    have hrest : ∀ err, .broken err ∉ rest :=
      fun err hmem => hbroken err (List.mem_cons_of_mem _ hmem)
    cases verdict with
    | skipped =>
      rw [scan]
      exact ih last hrest (by simpa only [List.mem_cons, reduceCtorEq, false_or] using haccepted)
    | faulty fault =>
      rw [scan]
      exact ih _ hrest (by simpa only [List.mem_cons, reduceCtorEq, false_or] using haccepted)
    | broken err => exact absurd List.mem_cons_self (hbroken err)
    | accepted => rw [scan]

/-- A scan ends without a finding exactly when there was nothing to look at. -/
theorem scan_eq_false_iff (last : Option φ) (verdicts : List (Verdict φ ε)) :
    scan conclude last verdicts = .ok false ↔
      last = none ∧ ∀ verdict ∈ verdicts, verdict = .skipped := by
  induction verdicts generalizing last with
  | nil => cases last <;> simp [scan]
  | cons verdict rest ih =>
    cases verdict with
    | skipped =>
      rw [scan, ih]
      simp only [List.mem_cons, forall_eq_or_imp, true_and]
    | faulty fault =>
      rw [scan, ih]
      simp
    | broken err => simp [scan]
    | accepted => simp [scan]

/-- The order does not matter where no accepted candidate stands beside a broken one: the scan
accepts, ends without a finding or fails as before. -/
theorem scan_perm (last : Option φ) {verdicts reordered : List (Verdict φ ε)}
    (hperm : reordered.Perm verdicts)
    (hclear : ¬ (.accepted ∈ verdicts ∧ ∃ err, .broken err ∈ verdicts)) (b : Bool) :
    scan conclude last reordered = .ok b ↔ scan conclude last verdicts = .ok b := by
  cases b with
  | false =>
    rw [scan_eq_false_iff, scan_eq_false_iff]
    simp only [hperm.mem_iff]
  | true =>
    constructor
    · intro h
      have haccepted := hperm.mem_iff.mp (accepted_mem_of_scan conclude last reordered h)
      exact scan_of_accepted_mem conclude last verdicts
        (fun err hmem => hclear ⟨haccepted, err, hmem⟩) haccepted
    · intro h
      have haccepted := accepted_mem_of_scan conclude last verdicts h
      exact scan_of_accepted_mem conclude last reordered
        (fun err hmem => hclear ⟨haccepted, err, hperm.mem_iff.mp hmem⟩)
        (hperm.mem_iff.mpr haccepted)

end Scan

end Stormnetboot.Common

import Stormnetboot.Common.Program

/-!
# Computations that are cut off

An execution may be cut off between two operations or in the middle of one. Which states the
middle of an operation can leave is a relation beside the handler; an operation without such
states is atomic. The rules are those of the states an execution visits, of which these are more.
-/

namespace Stormnetboot.Common

namespace Program

variable {Op : Type} {Ans : Op → Type} {ε ε' α β σ : Type}

/-- The states an execution can be cut off in. -/
inductive CutOff (h : Handler Op Ans σ) (mid : Op → σ → σ → Prop) :
    Program Op Ans ε α → σ → σ → Prop where
  | here (p : Program Op Ans ε α) (s : σ) : CutOff h mid p s s
  | during {op : Op} {next : Ans op → Program Op Ans ε α} {s t : σ} (hmid : mid op s t) :
    CutOff h mid (.call op next) s t
  | later {op : Op} {next : Ans op → Program Op Ans ε α} {s t : σ}
    (rest : CutOff h mid (next (h op s).1) (h op s).2 t) : CutOff h mid (.call op next) s t

variable {h : Handler Op Ans σ} {mid : Op → σ → σ → Prop}

/-- One operation is not performed yet, or is being performed, or was. -/
theorem cutOff_call_iff (op : Op) (next : Ans op → Program Op Ans ε α) (s t : σ) :
    CutOff h mid (.call op next) s t ↔
      t = s ∨ mid op s t ∨ CutOff h mid (next (h op s).1) (h op s).2 t := by
  constructor
  · intro hcut
    cases hcut with
    | here => exact .inl rfl
    | during hmid => exact .inr (.inl hmid)
    | later rest => exact .inr (.inr rest)
  · rintro (rfl | hmid | rest)
    · exact .here _ _
    · exact .during hmid
    · exact .later rest

/-- The same for an operation at the head of a sequence. -/
theorem cutOff_perform_bind_iff (op : Op) (f : Ans op → Program Op Ans ε β) (s t : σ) :
    CutOff h mid (perform op >>= f) s t ↔
      t = s ∨ mid op s t ∨ CutOff h mid (f (h op s).1) (h op s).2 t :=
  cutOff_call_iff op f s t

/-- A computation that is done is where it was. -/
theorem cutOff_done_iff (a : α) (s t : σ) :
    CutOff h mid (.done a : Program Op Ans ε α) s t ↔ t = s := by
  constructor
  · intro hcut
    cases hcut
    rfl
  · rintro rfl
    exact .here _ _

/-- A failed one too. -/
theorem cutOff_fail_iff (e : ε) (s t : σ) :
    CutOff h mid (.fail e : Program Op Ans ε α) s t ↔ t = s := by
  constructor
  · intro hcut
    cases hcut
    rfl
  · rintro rfl
    exact .here _ _

/-- An execution that is not cut off ends in such a state too. -/
theorem cutOff_exec (p : Program Op Ans ε α) (s : σ) : CutOff h mid p s (exec h p s).2 := by
  induction p generalizing s with
  | done a => exact .here _ _
  | fail e => exact .here _ _
  | call op next ih => exact .later (ih _ _)

/-- A sequence is cut off in its first part or, where that succeeds, in the second. -/
theorem CutOff.of_bind {p : Program Op Ans ε α} {f : α → Program Op Ans ε β} {s t : σ}
    (hcut : CutOff h mid (p >>= f) s t) :
    CutOff h mid p s t ∨ ∃ a m, exec h p s = (.ok a, m) ∧ CutOff h mid (f a) m t := by
  induction p generalizing s with
  | done a => exact .inr ⟨a, s, rfl, hcut⟩
  | fail e => exact .inl ((cutOff_fail_iff ..).mpr ((cutOff_fail_iff ..).mp hcut))
  | call op next ih =>
    rcases (cutOff_call_iff ..).mp hcut with rfl | hmid | hrest
    · exact .inl (.here _ _)
    · exact .inl (.during hmid)
    · exact (ih _ hrest).imp_left .later

/-- A step that only computes a value is not where it is cut off. -/
theorem CutOff.of_bind_done {p : Program Op Ans ε α} {g : α → β} {s t : σ}
    (hcut : CutOff h mid (p >>= fun a => .done (g a)) s t) : CutOff h mid p s t := by
  rcases hcut.of_bind with hfirst | ⟨a, m, hexec, hrest⟩
  · exact hfirst
  · obtain rfl := (cutOff_done_iff ..).mp hrest
    have hend : CutOff h mid p s (exec h p s).2 := cutOff_exec p s
    rwa [hexec] at hend

/-- Neither is the catching or rewriting of an error. -/
theorem CutOff.of_attempt {p : Program Op Ans ε α} {s t : σ}
    (hcut : CutOff h mid (p.attempt : Program Op Ans ε' (Except ε α)) s t) :
    CutOff h mid p s t := by
  induction p generalizing s with
  | done a => exact (cutOff_done_iff ..).mpr ((cutOff_done_iff ..).mp hcut)
  | fail e => exact (cutOff_fail_iff ..).mpr ((cutOff_done_iff ..).mp hcut)
  | call op next ih =>
    exact (cutOff_call_iff ..).mpr (((cutOff_call_iff ..).mp hcut).imp_right
      (Or.imp_right (ih _)))

/-- A cut of a computation with another error is a cut of the computation. -/
theorem CutOff.of_mapError {g : ε → ε'} {p : Program Op Ans ε α} {s t : σ}
    (hcut : CutOff h mid (p.mapError g) s t) : CutOff h mid p s t := by
  induction p generalizing s with
  | done a => exact (cutOff_done_iff ..).mpr ((cutOff_done_iff ..).mp hcut)
  | fail e => exact (cutOff_fail_iff ..).mpr ((cutOff_fail_iff ..).mp hcut)
  | call op next ih =>
    exact (cutOff_call_iff ..).mpr (((cutOff_call_iff ..).mp hcut).imp_right
      (Or.imp_right (ih _)))

/-- Operations that are atomic and leave the state alone. -/
def Still (h : Handler Op Ans σ) (mid : Op → σ → σ → Prop) (op : Op) : Prop :=
  ∀ s t, (h op s).2 = s ∧ (mid op s t → t = s)

/-- Where nothing else is performed the state stays. -/
theorem Only.cutOff_eq {P : Op → Prop} {p : Program Op Ans ε α} (hp : p.Only P)
    (hstill : ∀ op, P op → Still h mid op) {s t : σ} (hcut : CutOff h mid p s t) : t = s := by
  induction p generalizing s with
  | done a => exact (cutOff_done_iff ..).mp hcut
  | fail e => exact (cutOff_fail_iff ..).mp hcut
  | call op next ih =>
    obtain ⟨hstays, hmid⟩ := hstill op hp.1 s t
    rcases (cutOff_call_iff ..).mp hcut with rfl | hduring | hrest
    · rfl
    · exact hmid hduring
    · rw [hstays] at hrest
      exact ih _ (hp.2 _) hrest

/-- What every operation keeps, performed or being performed, is kept wherever it is cut off. -/
theorem Only.cutOff_keeps {P : Op → Prop} {I : σ → Prop} {p : Program Op Ans ε α}
    (hp : p.Only P) (hkeeps : ∀ op s, P op → I s → I (h op s).2 ∧ ∀ t, mid op s t → I t)
    {s t : σ} (hs : I s) (hcut : CutOff h mid p s t) : I t := by
  induction p generalizing s with
  | done a => exact (cutOff_done_iff ..).mp hcut ▸ hs
  | fail e => exact (cutOff_fail_iff ..).mp hcut ▸ hs
  | call op next ih =>
    obtain ⟨hperformed, hduring⟩ := hkeeps op s hp.1 hs
    rcases (cutOff_call_iff ..).mp hcut with rfl | hmid | hrest
    · exact hs
    · exact hduring t hmid
    · exact ih _ (hp.2 _) hperformed hrest

/-- A sequence whose first part performs nothing else is cut off where it starts, or in the second
part. -/
theorem Only.cutOff_bind {P : Op → Prop} {p : Program Op Ans ε α} {f : α → Program Op Ans ε β}
    (hp : p.Only P) (hstill : ∀ op, P op → Still h mid op) {s t : σ}
    (hcut : CutOff h mid (p >>= f) s t) :
    t = s ∨ ∃ a, (exec h p s).1 = .ok a ∧ CutOff h mid (f a) s t := by
  rcases hcut.of_bind with hfirst | ⟨a, m, hexec, hrest⟩
  · exact .inl (hp.cutOff_eq hstill hfirst)
  · have hend := hp.cutOff_eq hstill (cutOff_exec p s)
    rw [hexec] at hend
    exact .inr ⟨a, by rw [hexec], hend ▸ hrest⟩

/-- An operation whose answer is only checked is passed over, if both leave the state alone. -/
theorem cutOff_checked {P : Op → Prop} {op : Op} {check : Ans op → Program Op Ans ε α}
    {rest : Program Op Ans ε β} (hop : P op) (hcheck : ∀ answer, (check answer).Only P)
    (hstill : ∀ op, P op → Still h mid op) {s t : σ}
    (hcut : CutOff h mid (perform op >>= fun answer => check answer >>= fun _ => rest) s t) :
    t = s ∨ CutOff h mid rest s t := by
  rcases (only_perform op hop).cutOff_bind hstill hcut with rfl | ⟨answer, -, hcut⟩
  · exact .inl rfl
  rcases (hcheck answer).cutOff_bind hstill hcut with rfl | ⟨_, -, hcut⟩
  · exact .inl rfl
  · exact .inr hcut

end Program

end Stormnetboot.Common

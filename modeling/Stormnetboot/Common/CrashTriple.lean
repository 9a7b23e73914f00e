import Stormnetboot.Common.Ends

/-!
# What holds at every point of an execution and at its end

`Safe h crash post p s` says that `crash` holds of every state the execution of `p` from `s` passes
through, and `post` of the result and the state it ends in: a postcondition together with a crash
condition, both read off the same walk along the tree. There is one rule for each way computations
are put together, and a computation that performs only operations of some kind is safe for
whatever they all keep.
-/

namespace Stormnetboot.Common

namespace Program

variable {Op : Type} {Ans : Op → Type} {ε ε' α β σ : Type}

/-- The crash condition holds on the way and the postcondition at the end. -/
def Safe (h : Handler Op Ans σ) (crash : σ → Prop) (post : Except ε α → σ → Prop) :
    Program Op Ans ε α → σ → Prop
  | .done a, s => crash s ∧ post (.ok a) s
  | .fail e, s => crash s ∧ post (.error e) s
  | .call op next, s => crash s ∧ Safe h crash post (next (h op s).1) (h op s).2

variable {h : Handler Op Ans σ} {crash : σ → Prop} {P : Except ε α → σ → Prop}

/-- The crash condition holds of every state that is visited. -/
theorem Safe.visits {p : Program Op Ans ε α} {s t : σ} (hp : p.Safe h crash P s)
    (hv : Visits h p s t) : crash t := by
  induction hv with
  | here p s =>
    cases p with
    | done a => exact hp.1
    | fail e => exact hp.1
    | call op next => exact hp.1
  | later rest ih => exact ih hp.2

/-- The postcondition holds of the end. -/
theorem Safe.exec {p : Program Op Ans ε α} {s : σ} (hp : p.Safe h crash P s) :
    P (Program.exec h p s).1 (Program.exec h p s).2 := by
  induction p generalizing s with
  | done a => exact hp.2
  | fail e => exact hp.2
  | call op next ih => exact ih _ hp.2

/-- Weaker conditions hold as well. -/
theorem Safe.mono {crash' : σ → Prop} {P' : Except ε α → σ → Prop} {p : Program Op Ans ε α} {s : σ}
    (hp : p.Safe h crash P s) (hcrash : ∀ t, crash t → crash' t)
    (hpost : ∀ r t, P r t → P' r t) : p.Safe h crash' P' s := by
  induction p generalizing s with
  | done a => exact ⟨hcrash _ hp.1, hpost _ _ hp.2⟩
  | fail e => exact ⟨hcrash _ hp.1, hpost _ _ hp.2⟩
  | call op next ih => exact ⟨hcrash _ hp.1, ih _ hp.2⟩

/-- A sequence is safe where its second part is safe from the end of the first, and an error of the
first is an error of the whole. -/
theorem safe_bind {Q : Except ε β → σ → Prop} {p : Program Op Ans ε α}
    {f : α → Program Op Ans ε β} {s : σ} (hp : p.Safe h crash P s)
    (hok : ∀ a t, crash t → P (.ok a) t → (f a).Safe h crash Q t)
    (herror : ∀ e t, P (.error e) t → Q (.error e) t) : (p >>= f).Safe h crash Q s := by
  induction p generalizing s with
  | done a => exact hok a s hp.1 hp.2
  | fail e => exact ⟨hp.1, herror e s hp.2⟩
  | call op next ih => exact ⟨hp.1, ih _ hp.2⟩

/-- Catching the error ends with the result as a value. -/
theorem safe_attempt {p : Program Op Ans ε α} {s : σ} (hp : p.Safe h crash P s) :
    (p.attempt : Program Op Ans ε' (Except ε α)).Safe h crash
      (fun r t => ∃ result, r = .ok result ∧ P result t) s := by
  induction p generalizing s with
  | done a => exact ⟨hp.1, _, rfl, hp.2⟩
  | fail e => exact ⟨hp.1, _, rfl, hp.2⟩
  | call op next ih => exact ⟨hp.1, ih _ hp.2⟩

/-- Where nothing is asked of the way, what holds of every end does. -/
theorem Ends.safe {Q : Except ε α → Prop} {p : Program Op Ans ε α} (hp : p.Ends Q)
    (hcrash : ∀ t, crash t) (s : σ) : p.Safe h crash (fun r _ => Q r) s := by
  induction p generalizing s with
  | done a => exact ⟨hcrash s, hp⟩
  | fail e => exact ⟨hcrash s, hp⟩
  | call op next ih => exact ⟨hcrash s, ih _ (hp _) _⟩

/-- What every operation that can be performed keeps holds throughout. -/
theorem Only.safe {K : Op → Prop} {p : Program Op Ans ε α} (hp : p.Only K) {inv : σ → Prop}
    (hkeeps : ∀ op s, K op → inv s → inv (h op s).2) {s : σ} (hs : inv s) :
    p.Safe h inv (fun r t => inv t ∧ Program.exec h p s = (r, t)) s := by
  induction p generalizing s with
  | done a => exact ⟨hs, hs, rfl⟩
  | fail e => exact ⟨hs, hs, rfl⟩
  | call op next ih => exact ⟨hs, ih _ (hp.2 _) (hkeeps op s hp.1 hs)⟩

/-- A sequence whose first part keeps an invariant that is enough for both conditions is safe where
its second part is. -/
theorem Only.safe_bind {K : Op → Prop} {p : Program Op Ans ε α} (hp : p.Only K) {inv : σ → Prop}
    (hkeeps : ∀ op s, K op → inv s → inv (h op s).2) {Q : Except ε β → σ → Prop}
    {f : α → Program Op Ans ε β} {s : σ} (hs : inv s) (hcrash : ∀ t, inv t → crash t)
    (herror : ∀ e t, inv t → Q (.error e) t)
    (hok : ∀ a t, inv t → Program.exec h p s = (.ok a, t) → (f a).Safe h crash Q t) :
    (p >>= f).Safe h crash Q s :=
  Program.safe_bind ((hp.safe hkeeps hs).mono hcrash fun _ _ hpost => hpost)
    (fun a t _ hpost => hok a t hpost.1 hpost.2) fun e t hpost => herror e t hpost.1

end Program

end Stormnetboot.Common

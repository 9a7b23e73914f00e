import Stormnetboot.Common.Program

/-!
# What a computation can end in

`Ends Q p` says that `p` ends in a result that satisfies `Q` whatever its operations are
answered: a postcondition over every environment at once. It is computed along the tree, there
is one rule for each way computations are put together, and an execution under any handler
obeys it.
-/

namespace Stormnetboot.Common

namespace Program

variable {Op : Type} {Ans : Op → Type} {ε ε' α β σ : Type}

/-- Every end of the computation satisfies `Q`, whatever is answered on the way. -/
def Ends (Q : Except ε α → Prop) : Program Op Ans ε α → Prop
  | .done a => Q (.ok a)
  | .fail e => Q (.error e)
  | .call _ next => ∀ r, (next r).Ends Q

/-- An execution ends in such a result, under any handler and from any state. -/
theorem Ends.exec {Q : Except ε α → Prop} {p : Program Op Ans ε α} (hp : p.Ends Q)
    (h : Handler Op Ans σ) (s : σ) : Q (Program.exec h p s).1 := by
  induction p generalizing s with
  | done a => exact hp
  | fail e => exact hp
  | call op next ih => exact ih _ (hp _) _

/-- A weaker postcondition holds as well. -/
theorem Ends.mono {Q Q' : Except ε α → Prop} (hQ : ∀ r, Q r → Q' r) {p : Program Op Ans ε α}
    (hp : p.Ends Q) : p.Ends Q' := by
  induction p with
  | done a => exact hQ _ hp
  | fail e => exact hQ _ hp
  | call op next ih => exact fun r => ih r (hp r)

/-- Two postconditions hold together. -/
theorem Ends.and {Q Q' : Except ε α → Prop} {p : Program Op Ans ε α} (hp : p.Ends Q)
    (hp' : p.Ends Q') : p.Ends fun r => Q r ∧ Q' r := by
  induction p with
  | done a => exact ⟨hp, hp'⟩
  | fail e => exact ⟨hp, hp'⟩
  | call op next ih => exact fun r => ih r (hp r) (hp' r)

/-- Nothing is asked of where the computation ends. -/
theorem ends_true (p : Program Op Ans ε α) : p.Ends fun _ => True := by
  induction p with
  | done a => trivial
  | fail e => trivial
  | call op next ih => exact ih

/-- A sequence ends where its second part does, or in an error of its first part. -/
theorem ends_bind {P : Except ε α → Prop} {Q : Except ε β → Prop} {p : Program Op Ans ε α}
    {f : α → Program Op Ans ε β} (hp : p.Ends P) (hok : ∀ a, P (.ok a) → (f a).Ends Q)
    (herror : ∀ e, P (.error e) → Q (.error e)) : (p >>= f).Ends Q := by
  induction p with
  | done a => exact hok a hp
  | fail e => exact herror e hp
  | call op next ih => exact fun r => ih r (hp r)

/-- Rewriting the error carries over to the result. -/
theorem ends_mapError {P : Except ε α → Prop} {Q : Except ε' α → Prop} {g : ε → ε'}
    {p : Program Op Ans ε α} (hp : p.Ends P) (hok : ∀ a, P (.ok a) → Q (.ok a))
    (herror : ∀ e, P (.error e) → Q (.error (g e))) : (p.mapError g).Ends Q := by
  induction p with
  | done a => exact hok a hp
  | fail e => exact herror e hp
  | call op next ih => exact fun r => ih r (hp r)

/-- Catching the error ends with the result as a value. -/
theorem ends_attempt {P : Except ε α → Prop} {p : Program Op Ans ε α} (hp : p.Ends P) :
    (p.attempt : Program Op Ans ε' (Except ε α)).Ends fun r => ∃ result, r = .ok result ∧ P result := by
  induction p with
  | done a => exact ⟨_, rfl, hp⟩
  | fail e => exact ⟨_, rfl, hp⟩
  | call op next ih => exact fun r => ih r (hp r)

/-- A loop ends well or in an error of its body. -/
theorem ends_forEach {Q : Except ε Unit → Prop} (hdone : Q (.ok ())) {xs : List β}
    {body : β → Program Op Ans ε Unit} (hbody : ∀ x, (body x).Ends Q) :
    (forEach xs body).Ends Q := by
  induction xs with
  | nil => exact hdone
  | cons x rest ih => exact ends_bind (hbody x) (fun _ _ => ih) fun _ h => h

/-- The computation ends with a value. -/
def Succeeds (p : Program Op Ans ε α) : Prop :=
  p.Ends fun r => ∃ a, r = .ok a

/-- Catching the error of a computation always gives a value. -/
theorem attempt_succeeds (p : Program Op Ans ε α) :
    (p.attempt : Program Op Ans ε' (Except ε α)).Succeeds :=
  (ends_attempt p.ends_true).mono fun _ ⟨result, heq, _⟩ => ⟨result, heq⟩

/-- So an execution has a value to go on with. -/
theorem Succeeds.exec {p : Program Op Ans ε α} (hp : p.Succeeds) (h : Handler Op Ans σ) (s : σ) :
    ∃ a, Program.exec h p s = (.ok a, (Program.exec h p s).2) := by
  obtain ⟨a, ha⟩ := Ends.exec hp h s
  exact ⟨a, Prod.ext ha rfl⟩

/-- A sequence whose first part ends with a value ends where its second part does. -/
theorem Succeeds.ends_bind {Q : Except ε β → Prop} {p : Program Op Ans ε α}
    {f : α → Program Op Ans ε β} (hp : p.Succeeds) (hf : ∀ a, (f a).Ends Q) :
    (p >>= f).Ends Q := by
  refine Program.ends_bind hp (fun a _ => hf a) fun e he => ?_
  obtain ⟨a, ha⟩ := he
  cases ha

end Program

end Stormnetboot.Common

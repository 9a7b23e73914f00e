import Stormnetboot.Common.Program

/-!
# Computations with their calls in sight

A computation that calls pure functions on the way leaves no trace of them. Instrumented, each
such call is an operation of its own, beside those of the computation. Erasing the calls, by
answering each with the function it stands for, gives the computation back; what was called
before some operation can then be read off the trace.
-/

namespace Stormnetboot.Common

namespace Program

variable {Op Call : Type} {Ans : Op → Type} {Res : Call → Type} {ε α β σ : Type}

/-- A computation whose operations are those of another and some calls. -/
abbrev Instrumented (Op Call : Type) (Ans : Op → Type) (Res : Call → Type) (ε α : Type) :=
  Program (Call ⊕ Op) (Sum.elim Res Ans) ε α

/-- A computation that makes no calls. -/
def lift : Program Op Ans ε α → Instrumented Op Call Ans Res ε α
  | .done a => .done a
  | .fail e => .fail e
  | .call op next => .call (.inr op) fun r => (next r).lift

/-- Answer every call by its function. -/
def erase (answer : ∀ c, Res c) : Instrumented Op Call Ans Res ε α → Program Op Ans ε α
  | .done a => .done a
  | .fail e => .fail e
  | .call (.inl c) next => (next (answer c)).erase answer
  | .call (.inr op) next => .call op fun r => (next r).erase answer

/-- A handler that answers the calls too. -/
def observe (answer : ∀ c, Res c) (h : Handler Op Ans σ) :
    Handler (Call ⊕ Op) (Sum.elim Res Ans) σ
  | .inl c, s => (answer c, s)
  | .inr op, s => h op s

/-- Erasing the calls of a sequence erases those of its parts. -/
theorem erase_bind (answer : ∀ c, Res c) (p : Instrumented Op Call Ans Res ε α)
    (f : α → Instrumented Op Call Ans Res ε β) :
    (p >>= f).erase answer = p.erase answer >>= fun a => (f a).erase answer := by
  induction p with
  | done a => rfl
  | fail e => rfl
  | call c next ih =>
    cases c with
    | inl c => exact ih _
    | inr op => exact congrArg (Program.call op) (funext fun r => ih r)

/-- Where there are no calls nothing is erased. -/
@[simp] theorem erase_lift (answer : ∀ c, Res c) (p : Program Op Ans ε α) :
    (p.lift : Instrumented Op Call Ans Res ε α).erase answer = p := by
  induction p with
  | done a => rfl
  | fail e => rfl
  | call op next ih => exact congrArg (Program.call op) (funext fun r => ih r)

/-- The instrumented computation ends as the computation does. -/
theorem exec_observe (answer : ∀ c, Res c) (h : Handler Op Ans σ)
    (p : Instrumented Op Call Ans Res ε α) (s : σ) :
    exec (observe answer h) p s = exec h (p.erase answer) s := by
  induction p generalizing s with
  | done a => rfl
  | fail e => rfl
  | call c next ih =>
    cases c with
    | inl c => exact ih _ s
    | inr op => exact ih _ _

/-- It performs the operations of the computation. -/
theorem filterMap_trace_observe (answer : ∀ c, Res c) (h : Handler Op Ans σ)
    (p : Instrumented Op Call Ans Res ε α) (s : σ) :
    (trace (observe answer h) p s).filterMap Sum.getRight? = trace h (p.erase answer) s := by
  induction p generalizing s with
  | done a => rfl
  | fail e => rfl
  | call c next ih =>
    cases c with
    | inl c => exact ih _ s
    | inr op => exact congrArg (op :: ·) (ih _ _)

end Program

end Stormnetboot.Common

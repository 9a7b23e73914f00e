import Mathlib.Data.Nat.Notation
import Mathlib.Logic.Basic

/-!
# Computations that perform operations

A `Program` is a tree of operations, each followed by what the computation does with its
answer; it ends with a value or with an error. A handler gives the operations their meaning
on a state, and three notions describe an execution: where it ends (`exec`), the states it
passes through on the way and may therefore be cut off in (`Visits`), and the operations
it can perform at all, whatever the answers (`Only`). Each has one rule for sequencing.
-/

namespace Stormnetboot.Common

/-- A sequenced pair of fallible steps succeeds when both do. -/
theorem except_bind_eq_ok {ε α β : Type} (x : Except ε α) (f : α → Except ε β) (b : β) :
    (x >>= f) = .ok b ↔ ∃ a, x = .ok a ∧ f a = .ok b := by
  cases x with
  | error e =>
    constructor
    · intro h
      cases h
    · rintro ⟨a, ha, _⟩
      cases ha
  | ok a =>
    constructor
    · exact fun h => ⟨a, rfl, h⟩
    · rintro ⟨a', ha, h⟩
      cases ha
      exact h

/-- A computation over operations `Op`, whose answers may depend on the operation. -/
inductive Program (Op : Type) (Ans : Op → Type) (ε α : Type) where
  | done (a : α)
  | fail (e : ε)
  | call (op : Op) (next : Ans op → Program Op Ans ε α)

/-- What each operation answers in a state, and the state it leaves. -/
abbrev Handler (Op : Type) (Ans : Op → Type) (σ : Type) :=
  (op : Op) → σ → Ans op × σ

namespace Program

variable {Op : Type} {Ans : Op → Type} {ε ε' α β σ : Type}

/-- Continue with the value of a computation; an error ends the whole. -/
def bind : Program Op Ans ε α → (α → Program Op Ans ε β) → Program Op Ans ε β
  | .done a, f => f a
  | .fail e, _ => .fail e
  | .call op next, f => .call op fun r => (next r).bind f

/-- Programs in sequence are a program. -/
instance : Monad (Program Op Ans ε) where
  pure := .done
  bind := .bind

/-- Perform one operation and return its answer. -/
def perform (op : Op) : Program Op Ans ε (Ans op) :=
  .call op .done

/-- Turn an error into a value, as a caller that matches on the result does. -/
def attempt : Program Op Ans ε α → Program Op Ans ε' (Except ε α)
  | .done a => .done (.ok a)
  | .fail e => .done (.error e)
  | .call op next => .call op fun r => (next r).attempt

/-- Rewrite the error, as adding context to it does. -/
def mapError (g : ε → ε') : Program Op Ans ε α → Program Op Ans ε' α
  | .done a => .done a
  | .fail e => .fail (g e)
  | .call op next => .call op fun r => (next r).mapError g

/-- Do the same for every element, in order. -/
def forEach (xs : List β) (body : β → Program Op Ans ε Unit) : Program Op Ans ε Unit :=
  match xs with
  | [] => .done ()
  | x :: rest => (body x).bind fun _ => forEach rest body

/-- Run to the end. -/
def exec (h : Handler Op Ans σ) : Program Op Ans ε α → σ → Except ε α × σ
  | .done a, s => (.ok a, s)
  | .fail e, s => (.error e, s)
  | .call op next, s => exec h (next (h op s).1) (h op s).2

/-- The states an execution passes through, its first and last included. -/
inductive Visits (h : Handler Op Ans σ) : Program Op Ans ε α → σ → σ → Prop where
  | here (p : Program Op Ans ε α) (s : σ) : Visits h p s s
  | later {op : Op} {next : Ans op → Program Op Ans ε α} {s t : σ}
      (rest : Visits h (next (h op s).1) (h op s).2 t) : Visits h (.call op next) s t

/-- Every operation the computation can perform, whatever it is answered, satisfies `P`. -/
def Only (P : Op → Prop) : Program Op Ans ε α → Prop
  | .done _ => True
  | .fail _ => True
  | .call op next => P op ∧ ∀ r, (next r).Only P

/-- A pure value is a program that is done. -/
@[simp] theorem pure_eq_done (a : α) : (pure a : Program Op Ans ε α) = .done a := rfl

/-- What is done goes on with its value. -/
@[simp] theorem bind_done (a : α) (f : α → Program Op Ans ε β) : (.done a >>= f) = f a := rfl

/-- What has failed does not go on. -/
@[simp] theorem bind_fail (e : ε) (f : α → Program Op Ans ε β) :
    ((.fail e : Program Op Ans ε α) >>= f) = .fail e := rfl

/-- An operation is followed by what follows it, and that by the rest. -/
@[simp] theorem bind_call (op : Op) (next : Ans op → Program Op Ans ε α)
    (f : α → Program Op Ans ε β) : (.call op next >>= f) = .call op fun r => next r >>= f := rfl

/-- One operation is followed by the rest. -/
@[simp] theorem bind_perform (op : Op) (f : Ans op → Program Op Ans ε β) :
    (perform op >>= f) = .call op f := rfl

/-- Sequencing associates. -/
theorem bind_assoc {γ : Type} (p : Program Op Ans ε α) (f : α → Program Op Ans ε β)
    (g : β → Program Op Ans ε γ) : ((p >>= f) >>= g) = p >>= fun a => f a >>= g := by
  induction p with
  | done a => rfl
  | fail e => rfl
  | call op next ih => exact congrArg (Program.call op) (funext fun r => ih r)

/-- A sequence goes on with another where each of its values does. -/
theorem bind_eq_bind_bind {γ : Type} (p : Program Op Ans ε α) {f : α → Program Op Ans ε γ}
    {g : α → Program Op Ans ε β} {k : β → Program Op Ans ε γ} (h : ∀ a, f a = g a >>= k) :
    p >>= f = (p >>= g) >>= k := by
  rw [bind_assoc, funext h]

/-- A program that is done changes nothing. -/
@[simp] theorem exec_done (h : Handler Op Ans σ) (a : α) (s : σ) :
    exec h (.done a : Program Op Ans ε α) s = (.ok a, s) := rfl

/-- A program that fails changes nothing. -/
@[simp] theorem exec_fail (h : Handler Op Ans σ) (e : ε) (s : σ) :
    exec h (.fail e : Program Op Ans ε α) s = (.error e, s) := rfl

/-- An operation is answered, and the rest runs in the state it left. -/
@[simp] theorem exec_call (h : Handler Op Ans σ) (op : Op) (next : Ans op → Program Op Ans ε α)
    (s : σ) : exec h (.call op next) s = exec h (next (h op s).1) (h op s).2 := rfl

/-- Running a sequence runs its first part, and then the second if the first succeeded. -/
theorem exec_bind (h : Handler Op Ans σ) (p : Program Op Ans ε α) (f : α → Program Op Ans ε β)
    (s : σ) :
    exec h (p >>= f) s =
      match exec h p s with
      | (.ok a, t) => exec h (f a) t
      | (.error e, t) => (.error e, t) := by
  induction p generalizing s with
  | done a => rfl
  | fail e => rfl
  | call op next ih => exact ih _ _

/-- A sequence that ends with a value had one from its first part. -/
theorem exec_bind_eq_ok {h : Handler Op Ans σ} {p : Program Op Ans ε α}
    {f : α → Program Op Ans ε β} {s : σ} {b : β} (hexec : (exec h (p >>= f) s).1 = .ok b) :
    ∃ a t, exec h p s = (.ok a, t) ∧ (exec h (f a) t).1 = .ok b := by
  rw [exec_bind] at hexec
  rcases hp : exec h p s with ⟨_ | a, t⟩
  · rw [hp] at hexec
    cases hexec
  · rw [hp] at hexec
    exact ⟨a, t, rfl, hexec⟩

/-- Catching the error of a computation changes its result and nothing else. -/
theorem exec_attempt (h : Handler Op Ans σ) (p : Program Op Ans ε α) (s : σ) :
    exec h (p.attempt : Program Op Ans ε' (Except ε α)) s =
      (.ok (exec h p s).1, (exec h p s).2) := by
  induction p generalizing s with
  | done a => rfl
  | fail e => rfl
  | call op next ih => exact ih _ _

/-- Rewriting the error changes an error result and nothing else. -/
theorem exec_mapError (h : Handler Op Ans σ) (g : ε → ε') (p : Program Op Ans ε α) (s : σ) :
    exec h (p.mapError g) s = ((exec h p s).1.mapError g, (exec h p s).2) := by
  induction p generalizing s with
  | done a => rfl
  | fail e => rfl
  | call op next ih => exact ih _ _

/-- An execution ends in a state it visits. -/
theorem visits_exec (h : Handler Op Ans σ) (p : Program Op Ans ε α) (s : σ) :
    Visits h p s (exec h p s).2 := by
  induction p generalizing s with
  | done a => exact .here _ _
  | fail e => exact .here _ _
  | call op next ih => exact .later (ih _ _)

/-- A sequence visits what its first part visits and, from where that ends, what the second
part visits. -/
theorem visits_bind_iff (h : Handler Op Ans σ) (p : Program Op Ans ε α)
    (f : α → Program Op Ans ε β) (s t : σ) :
    Visits h (p >>= f) s t ↔
      Visits h p s t ∨ ∃ a m, exec h p s = (.ok a, m) ∧ Visits h (f a) m t := by
  induction p generalizing s with
  | done a =>
    constructor
    · exact fun hv => .inr ⟨a, s, rfl, hv⟩
    · rintro (hv | ⟨a', m, heq, hv⟩)
      · cases hv
        exact .here _ _
      · cases heq
        exact hv
  | fail e =>
    constructor
    · intro hv
      cases hv
      exact .inl (.here _ _)
    · rintro (hv | ⟨a', m, heq, _⟩)
      · cases hv
        exact .here _ _
      · cases heq
  | call op next ih =>
    constructor
    · intro hv
      cases hv with
      | here => exact .inl (.here _ _)
      | later rest =>
        rcases (ih _ _).mp rest with hv | ⟨a, m, heq, hv⟩
        · exact .inl (.later hv)
        · exact .inr ⟨a, m, heq, hv⟩
    · rintro (hv | ⟨a, m, heq, hv⟩)
      · cases hv with
        | here => exact .here _ _
        | later rest => exact .later ((ih _ _).mpr (.inl rest))
      · exact .later ((ih _ _).mpr (.inr ⟨a, m, heq, hv⟩))

/-- One operation is not performed yet, or it was and the rest goes on from there. -/
theorem visits_call_iff (h : Handler Op Ans σ) (op : Op) (next : Ans op → Program Op Ans ε α)
    (s t : σ) :
    Visits h (.call op next) s t ↔ t = s ∨ Visits h (next (h op s).1) (h op s).2 t := by
  constructor
  · intro hv
    cases hv with
    | here => exact .inl rfl
    | later rest => exact .inr rest
  · rintro (rfl | rest)
    · exact .here _ _
    · exact .later rest

/-- The same for an operation at the head of a sequence. -/
theorem visits_perform_bind_iff (h : Handler Op Ans σ) (op : Op) (f : Ans op → Program Op Ans ε β)
    (s t : σ) :
    Visits h (perform op >>= f) s t ↔ t = s ∨ Visits h (f (h op s).1) (h op s).2 t :=
  visits_call_iff h op f s t

/-- A finished computation visits nothing else. -/
theorem visits_done_iff (h : Handler Op Ans σ) (a : α) (s t : σ) :
    Visits h (.done a : Program Op Ans ε α) s t ↔ t = s := by
  constructor
  · intro hv
    cases hv
    rfl
  · rintro rfl
    exact .here _ _

/-- A step that only computes a value visits nothing more. -/
theorem visits_bind_done_iff (h : Handler Op Ans σ) (p : Program Op Ans ε α) (g : α → β)
    (s t : σ) : Visits h (p >>= fun a => .done (g a)) s t ↔ Visits h p s t := by
  rw [visits_bind_iff]
  constructor
  · rintro (hv | ⟨a, m, hexec, hv⟩)
    · exact hv
    · obtain rfl := (visits_done_iff ..).mp hv
      have hm := visits_exec h p s
      rw [hexec] at hm
      exact hm
  · exact .inl

/-- It changes the result and nothing else. -/
theorem exec_bind_done (h : Handler Op Ans σ) (p : Program Op Ans ε α) (g : α → β) (s : σ) :
    exec h (p >>= fun a => .done (g a)) s = ((exec h p s).1.map g, (exec h p s).2) := by
  rw [exec_bind]
  rcases exec h p s with ⟨_ | a, t⟩ <;> rfl

/-- Catching an error does not change what is visited. -/
theorem visits_attempt_iff (h : Handler Op Ans σ) (p : Program Op Ans ε α) (s t : σ) :
    Visits h (p.attempt : Program Op Ans ε' (Except ε α)) s t ↔ Visits h p s t := by
  induction p generalizing s with
  | done a => rw [attempt, visits_done_iff, visits_done_iff]
  | fail e =>
    rw [attempt, visits_done_iff]
    constructor
    · rintro rfl
      exact .here _ _
    · intro hv
      cases hv
      rfl
  | call op next ih =>
    rw [attempt, visits_call_iff, visits_call_iff]
    exact or_congr_right (ih _ _)

/-- Rewriting an error does not change what is visited. -/
theorem visits_mapError_iff (h : Handler Op Ans σ) (g : ε → ε') (p : Program Op Ans ε α)
    (s t : σ) : Visits h (p.mapError g) s t ↔ Visits h p s t := by
  induction p generalizing s with
  | done a => rw [mapError, visits_done_iff, visits_done_iff]
  | fail e =>
    constructor
    · intro hv
      cases hv
      exact .here _ _
    · intro hv
      cases hv
      exact .here _ _
  | call op next ih =>
    rw [mapError, visits_call_iff, visits_call_iff]
    exact or_congr_right (ih _ _)

/-- The state after a number of operations, or at the end if there are fewer. -/
def stateAfter (h : Handler Op Ans σ) : ℕ → Program Op Ans ε α → σ → σ
  | n + 1, .call op next, s => stateAfter h n (next (h op s).1) (h op s).2
  | _, _, s => s

/-- Every such state is visited. -/
theorem visits_stateAfter (h : Handler Op Ans σ) (n : ℕ) (p : Program Op Ans ε α) (s : σ) :
    Visits h p s (stateAfter h n p s) := by
  induction n generalizing p s with
  | zero => exact .here _ _
  | succ n ih =>
    cases p with
    | done a => exact .here _ _
    | fail e => exact .here _ _
    | call op next => exact .later (ih _ _)

/-- The operations an execution performs, in order. -/
def trace (h : Handler Op Ans σ) : Program Op Ans ε α → σ → List Op
  | .done _, _ => []
  | .fail _, _ => []
  | .call op next, s => op :: trace h (next (h op s).1) (h op s).2

/-- A sequence performs the operations of its first part and, if that succeeds, those of the
second part from there. -/
theorem trace_bind (h : Handler Op Ans σ) (p : Program Op Ans ε α) (f : α → Program Op Ans ε β)
    (s : σ) :
    trace h (p >>= f) s = trace h p s ++
      match exec h p s with
      | (.ok a, t) => trace h (f a) t
      | (.error _, _) => [] := by
  induction p generalizing s with
  | done a => rfl
  | fail e => rfl
  | call op next ih => exact congrArg (op :: ·) (ih _ _)

/-- So what it performs is performed by one of the two. -/
theorem mem_trace_bind_iff (h : Handler Op Ans σ) (p : Program Op Ans ε α)
    (f : α → Program Op Ans ε β) (s : σ) (op : Op) :
    op ∈ trace h (p >>= f) s ↔
      op ∈ trace h p s ∨ ∃ a t, exec h p s = (.ok a, t) ∧ op ∈ trace h (f a) t := by
  rw [trace_bind, List.mem_append]
  refine or_congr_right ?_
  rcases exec h p s with ⟨_ | a, t⟩
  · simp
  · constructor
    · exact fun hop => ⟨a, t, rfl, hop⟩
    · rintro ⟨a', t', heq, hop⟩
      cases heq
      exact hop

/-- Rewriting an error does not change what is performed. -/
theorem trace_mapError (h : Handler Op Ans σ) (g : ε → ε') (p : Program Op Ans ε α) (s : σ) :
    trace h (p.mapError g) s = trace h p s := by
  induction p generalizing s with
  | done a => rfl
  | fail e => rfl
  | call op next ih => exact congrArg (op :: ·) (ih _ _)

/-- Neither does catching it. -/
theorem trace_attempt (h : Handler Op Ans σ) (p : Program Op Ans ε α) (s : σ) :
    trace h (p.attempt : Program Op Ans ε' (Except ε α)) s = trace h p s := by
  induction p generalizing s with
  | done a => rfl
  | fail e => rfl
  | call op next ih => exact congrArg (op :: ·) (ih _ _)

/-- Whatever is performed is among the operations a computation can perform at all. -/
theorem Only.of_mem_trace {P : Op → Prop} {h : Handler Op Ans σ} {p : Program Op Ans ε α}
    (hp : p.Only P) {s : σ} {op : Op} (hop : op ∈ trace h p s) : P op := by
  induction p generalizing s with
  | done a => cases hop
  | fail e => cases hop
  | call op' next ih =>
    rcases List.mem_cons.mp hop with rfl | hop
    · exact hp.1
    · exact ih _ (hp.2 _) hop

/-- What a sequence performs is among the operations of its first part, or performed by the second
from where the first ends. -/
theorem Only.mem_trace_bind {P : Op → Prop} {h : Handler Op Ans σ} {p : Program Op Ans ε α}
    {f : α → Program Op Ans ε β} (hp : p.Only P) {s m : σ} {a : α} (hexec : exec h p s = (.ok a, m))
    {op : Op} (hop : op ∈ trace h (p >>= f) s) : P op ∨ op ∈ trace h (f a) m := by
  rcases (mem_trace_bind_iff ..).mp hop with hfirst | ⟨a', m', hexec', hsecond⟩
  · exact .inl (hp.of_mem_trace hfirst)
  · rw [hexec] at hexec'
    cases hexec'
    exact .inr hsecond

/-- A weaker description holds as well. -/
theorem Only.mono {P P' : Op → Prop} {p : Program Op Ans ε α} (hp : p.Only P)
    (hP : ∀ op, P op → P' op) : p.Only P' := by
  induction p with
  | done a => trivial
  | fail e => trivial
  | call op next ih => exact ⟨hP op hp.1, fun r => ih r (hp.2 r)⟩

/-- A step that performs one operation. -/
theorem only_perform {P : Op → Prop} (op : Op) (h : P op) :
    (perform op : Program Op Ans ε (Ans op)).Only P :=
  ⟨h, fun _ => trivial⟩

/-- The operations of a sequence are those of its parts. -/
theorem only_bind {P : Op → Prop} {p : Program Op Ans ε α} {f : α → Program Op Ans ε β}
    (hp : p.Only P) (hf : ∀ a, (f a).Only P) : (p >>= f).Only P := by
  induction p with
  | done a => exact hf a
  | fail e => trivial
  | call op next ih => exact ⟨hp.1, fun r => ih r (hp.2 r)⟩

/-- The operations of a computation are those it performs before its error is looked at. -/
theorem only_attempt {P : Op → Prop} {p : Program Op Ans ε α} (hp : p.Only P) :
    (p.attempt : Program Op Ans ε' (Except ε α)).Only P := by
  induction p with
  | done a => trivial
  | fail e => trivial
  | call op next ih => exact ⟨hp.1, fun r => ih r (hp.2 r)⟩

/-- Rewriting an error performs nothing. -/
theorem only_mapError {P : Op → Prop} {g : ε → ε'} {p : Program Op Ans ε α} (hp : p.Only P) :
    (p.mapError g).Only P := by
  induction p with
  | done a => trivial
  | fail e => trivial
  | call op next ih => exact ⟨hp.1, fun r => ih r (hp.2 r)⟩

/-- What every operation a computation can perform keeps, its execution keeps. -/
theorem Only.exec_keeps {P : Op → Prop} {h : Handler Op Ans σ} {p : Program Op Ans ε α}
    (hp : p.Only P) (Inv : σ → Prop)
    (hkeeps : ∀ op s, P op → Inv s → Inv (h op s).2) {s : σ} (hs : Inv s) :
    Inv (exec h p s).2 := by
  induction p generalizing s with
  | done a => exact hs
  | fail e => exact hs
  | call op next ih => exact ih _ (hp.2 _) (hkeeps op s hp.1 hs)

/-- Operations that leave the state alone are all that is performed: so is the state. -/
theorem Only.visits_eq {P : Op → Prop} {h : Handler Op Ans σ} {p : Program Op Ans ε α}
    (hp : p.Only P) (hquiet : ∀ op s, P op → (h op s).2 = s) {s t : σ} (hv : Visits h p s t) :
    t = s := by
  induction hv with
  | here => rfl
  | later rest ih => rw [ih (hp.2 _), hquiet _ _ hp.1]

/-- They also end where they started. -/
theorem Only.exec_eq {P : Op → Prop} {h : Handler Op Ans σ} {p : Program Op Ans ε α}
    (hp : p.Only P) (hquiet : ∀ op s, P op → (h op s).2 = s) (s : σ) : (exec h p s).2 = s :=
  hp.visits_eq hquiet (visits_exec h p s)

/-- A sequence whose first part leaves the state alone visits only what its second part does. -/
theorem Only.visits_bind {P : Op → Prop} {h : Handler Op Ans σ} {p : Program Op Ans ε α}
    {f : α → Program Op Ans ε β} (hp : p.Only P) (hquiet : ∀ op s, P op → (h op s).2 = s)
    {s t : σ} (hv : Visits h (p >>= f) s t) :
    t = s ∨ ∃ a, (exec h p s).1 = .ok a ∧ Visits h (f a) s t := by
  rcases (visits_bind_iff ..).mp hv with hfirst | ⟨a, m, hexec, hrest⟩
  · exact .inl (hp.visits_eq hquiet hfirst)
  · have hm : m = s := by rw [← hp.exec_eq hquiet s, hexec]
    exact .inr ⟨a, by rw [hexec], hm ▸ hrest⟩

/-- An operation whose answer is only checked is passed over, if both leave the state alone. -/
theorem visits_checked {P : Op → Prop} {h : Handler Op Ans σ} {op : Op}
    {check : Ans op → Program Op Ans ε α} {rest : Program Op Ans ε β} (hop : P op)
    (hcheck : ∀ answer, (check answer).Only P) (hquiet : ∀ op s, P op → (h op s).2 = s) {s t : σ}
    (hv : Visits h (perform op >>= fun answer => check answer >>= fun _ => rest) s t) :
    t = s ∨ Visits h rest s t := by
  rcases (only_perform op hop).visits_bind hquiet hv with rfl | ⟨answer, -, hv⟩
  · exact .inl rfl
  rcases (hcheck answer).visits_bind hquiet hv with rfl | ⟨_, -, hv⟩
  · exact .inl rfl
  · exact .inr hv

/-- It succeeds when both parts do, the second from where the first started. -/
theorem Only.exec_bind_ok {P : Op → Prop} {h : Handler Op Ans σ} {p : Program Op Ans ε α}
    {f : α → Program Op Ans ε β} (hp : p.Only P) (hquiet : ∀ op s, P op → (h op s).2 = s)
    {s t : σ} {b : β} (hexec : exec h (p >>= f) s = (.ok b, t)) :
    ∃ a, (exec h p s).1 = .ok a ∧ exec h (f a) s = (.ok b, t) := by
  rw [exec_bind] at hexec
  have hstate := hp.exec_eq hquiet s
  rcases hp' : exec h p s with ⟨_ | a, m⟩
  · rw [hp'] at hexec
    cases hexec
  · rw [hp'] at hexec hstate
    obtain rfl : m = s := hstate
    exact ⟨a, rfl, hexec⟩

/-- A sequence whose first part keeps an invariant succeeds where its second part does from a state
that has it. -/
theorem Only.exec_bind_keeps {P : Op → Prop} {h : Handler Op Ans σ} {p : Program Op Ans ε α}
    {f : α → Program Op Ans ε β} (hp : p.Only P) {inv : σ → Prop}
    (hkeeps : ∀ op s, P op → inv s → inv (h op s).2) {s : σ} (hs : inv s) {b : β}
    (hexec : (exec h (p >>= f) s).1 = .ok b) :
    ∃ a t, exec h p s = (.ok a, t) ∧ inv t ∧ (exec h (f a) t).1 = .ok b := by
  obtain ⟨a, t, hfirst, hsecond⟩ := exec_bind_eq_ok hexec
  have ht := hp.exec_keeps inv hkeeps hs
  rw [hfirst] at ht
  exact ⟨a, t, hfirst, ht, hsecond⟩

/-- A loop performs only what its body performs on the elements. -/
theorem only_forEach_mem {P : Op → Prop} {xs : List β} {body : β → Program Op Ans ε Unit}
    (hbody : ∀ x ∈ xs, (body x).Only P) : (forEach xs body).Only P := by
  induction xs with
  | nil => trivial
  | cons x rest ih =>
    exact only_bind (hbody x List.mem_cons_self) fun _ =>
      ih fun y hy => hbody y (List.mem_cons_of_mem x hy)

/-- A loop performs only what its body performs. -/
theorem only_forEach {P : Op → Prop} {xs : List β} {body : β → Program Op Ans ε Unit}
    (hbody : ∀ x, (body x).Only P) : (forEach xs body).Only P :=
  only_forEach_mem fun x _ => hbody x

/-- A sequence fails when its second part does, whatever it goes on from. -/
theorem exec_bind_fails (h : Handler Op Ans σ) (p : Program Op Ans ε α)
    (f : α → Program Op Ans ε β) (hf : ∀ a s, ∃ e, (exec h (f a) s).1 = .error e) (s : σ) :
    ∃ e, (exec h (p >>= f) s).1 = .error e := by
  rw [exec_bind]
  rcases exec h p s with ⟨_ | a, t⟩
  · exact ⟨_, rfl⟩
  · exact hf a t

end Program

end Stormnetboot.Common

import Stormnetboot.Common.Ends

/-!
# Processes that go on

A process does something first and then goes from one turn to the next. A turn performs at least
one operation, so a process whose turns cannot fail goes on for as long as it is let, unless it
fails before the first of them.
-/

namespace Stormnetboot.Common

/-- What a process does first, and its turns: each begins with an operation, and ends with the
turn that comes next. -/
structure Process (Op : Type) (Ans : Op → Type) (ε ι : Type) where
  start : Program Op Ans ε ι
  turn : ι → (op : Op) × (Ans op → Program Op Ans ε ι)

namespace Process

variable {Op : Type} {Ans : Op → Type} {ε ι σ : Type}

/-- The first operations that are performed from here on: fewer if the process fails. -/
def performs (process : Process Op Ans ε ι) (h : Handler Op Ans σ) :
    ℕ → Program Op Ans ε ι → σ → List Op
  | 0, _, _ => []
  | n + 1, .call op next, s => op :: process.performs h n (next (h op s).1) (h op s).2
  | _ + 1, .fail _, _ => []
  | n + 1, .done i, s =>
    let (result, t) := h (process.turn i).1 s
    (process.turn i).1 :: process.performs h n ((process.turn i).2 result) t

/-- The first operations of the process. -/
def operations (process : Process Op Ans ε ι) (h : Handler Op Ans σ) (n : ℕ) (s : σ) : List Op :=
  process.performs h n process.start s

/-- No turn can fail, whatever is answered. -/
def Lasts (process : Process Op Ans ε ι) : Prop :=
  ∀ i answer, ((process.turn i).2 answer).Succeeds

section

variable {process : Process Op Ans ε ι} {h : Handler Op Ans σ}

/-- What is begun is finished before the next turn. -/
theorem performs_of_exec {p : Program Op Ans ε ι} {s t : σ} {i : ι}
    (hexec : Program.exec h p s = (.ok i, t)) (n : ℕ) :
    process.performs h ((Program.trace h p s).length + n) p s =
      Program.trace h p s ++ process.performs h n (.done i) t := by
  induction p generalizing s with
  | done a =>
    cases hexec
    rw [Program.trace, List.length_nil, Nat.zero_add, List.nil_append]
  | fail e => cases hexec
  | call op next ih =>
    rw [Program.trace, List.length_cons, Nat.add_right_comm, performs, ih _ hexec]
    rfl

/-- What is performed first does not depend on how long the process is let go on. -/
theorem performs_prefix (n m : ℕ) (p : Program Op Ans ε ι) (s : σ) :
    process.performs h n p s <+: process.performs h (n + m) p s := by
  induction n generalizing p s with
  | zero => exact List.nil_prefix
  | succ n ih =>
    rw [Nat.add_right_comm]
    cases p with
    | done i => exact (List.prefix_cons_inj _).mpr (ih _ _)
    | fail e => exact List.nil_prefix
    | call op next => exact (List.prefix_cons_inj _).mpr (ih _ _)

/-- A process that lasts goes on exactly if what it has begun does not fail. -/
theorem goesOn_iff (hlasts : process.Lasts) (p : Program Op Ans ε ι) (s : σ) :
    (∀ n, (process.performs h n p s).length = n) ↔ ∃ i, (Program.exec h p s).1 = .ok i := by
  constructor
  · intro hforever
    induction p generalizing s with
    | done i => exact ⟨i, rfl⟩
    | fail e => cases hforever 1
    | call op next ih =>
      exact ih _ _ fun n => Nat.succ.inj (hforever (n + 1))
  · rintro ⟨i, hexec⟩ n
    induction n generalizing p s i with
    | zero => rfl
    | succ n ih =>
      cases p with
      | done j =>
        obtain ⟨k, hk⟩ := (hlasts j (h (process.turn j).1 s).1).exec h (h (process.turn j).1 s).2
        exact congrArg Nat.succ (ih _ _ k (congrArg Prod.fst hk))
      | fail e => cases hexec
      | call op next => exact congrArg Nat.succ (ih _ _ i hexec)

/-- What the turns perform, if every turn leads to a turn of the same kind and performs operations
of one kind only. -/
theorem forall_mem_performs {P : Op → Prop} {K : ι → Prop}
    (hturn : ∀ i, K i → P (process.turn i).1 ∧ ∀ answer, ((process.turn i).2 answer).Only P ∧
      ((process.turn i).2 answer).Ends fun r => ∀ j, r = .ok j → K j)
    {p : Program Op Ans ε ι} (honly : p.Only P) (hends : p.Ends fun r => ∀ j, r = .ok j → K j)
    (n : ℕ) (s : σ) : ∀ op ∈ process.performs h n p s, P op := by
  induction n generalizing p s with
  | zero => exact fun op hop => nomatch hop
  | succ n ih =>
    cases p with
    | done i =>
      obtain ⟨hop, hrest⟩ := hturn i (hends i rfl)
      obtain ⟨honly, hends⟩ := hrest (h (process.turn i).1 s).1
      exact List.forall_mem_cons.mpr ⟨hop, ih honly hends _⟩
    | fail e => exact fun op hop => nomatch hop
    | call op next =>
      exact List.forall_mem_cons.mpr ⟨honly.1, ih (honly.2 _) (hends _) _⟩

end

end Process

end Stormnetboot.Common

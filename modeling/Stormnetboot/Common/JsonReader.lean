import Stormnetboot.Common.JsonWriter

/-!
# Reading what was written

Different values are written differently, since they stand for different things. What a JSON
library is documented to do is stated once for all that is read in this development: the one value
a text stands for is read, unless it is nested deeper than the library goes or holds an integer
larger than it reads.
-/

namespace Stormnetboot.Common

open JsonGrammar JsonText

namespace Json

/-! ## Reading back -/

/-- Different integers have different texts. -/
theorem intText_injective : Function.Injective intText := by
  have hminus (n m : ℕ) : natText n ≠ '-' :: natText m := by
    intro h
    have hdigit := natText_isDigit n '-' (h ▸ List.mem_cons_self)
    exact absurd hdigit (by decide)
  intro n m h
  cases n with
  | ofNat n =>
    cases m with
    | ofNat m => exact congrArg Int.ofNat (natText_inj h)
    | negSucc m => exact absurd h (hminus n (m + 1))
  | negSucc n =>
    cases m with
    | ofNat m => exact absurd h.symm (hminus m (n + 1))
    | negSucc m =>
      have hnext := natText_inj (List.cons.inj h).2
      exact congrArg Int.negSucc (Nat.succ.inj hnext)

/-- Lists with the same images under a function that tells their elements apart are the same. -/
theorem map_inj_of_forall {α β : Type} {f : α → β} {xs ys : List α}
    (h : ∀ x ∈ xs, ∀ y, f x = f y → x = y) (heq : xs.map f = ys.map f) : xs = ys := by
  induction xs generalizing ys with
  | nil =>
    cases ys with
    | nil => rfl
    | cons y ys => cases heq
  | cons x xs ih =>
    cases ys with
    | nil => cases heq
    | cons y ys =>
      obtain ⟨hfirst, hrest⟩ := List.cons.inj heq
      rw [h x List.mem_cons_self y hfirst, ih (fun z hz => h z (List.mem_cons_of_mem _ hz)) hrest]

/-- Different values stand for different things. -/
theorem tree_injective : Function.Injective tree := by
  intro value
  induction value using Json.induction with
  | null =>
    intro other h
    cases other with
    | null => rfl
    | _ => simp [tree] at h
  | bool b =>
    intro other h
    cases other with
    | bool b' => rw [Tree.bool.inj h]
    | _ => simp [tree] at h
  | num n =>
    intro other h
    cases other with
    | num m => rw [intText_injective (Tree.number.inj h)]
    | _ => simp [tree] at h
  | str s =>
    intro other h
    cases other with
    | str t => rw [utf16_injective (Tree.string.inj h)]
    | _ => simp [tree] at h
  | arr items ih =>
    intro other h
    cases other with
    | arr others =>
      have hitems : items.map tree = others.map tree := by
        rw [← trees_eq_map, ← trees_eq_map]
        exact Tree.array.inj h
      rw [map_inj_of_forall (fun item hitem other heq => ih item hitem heq) hitems]
    | _ => simp [tree] at h
  | obj members ih =>
    intro other h
    cases other with
    | obj others =>
      have hmembers : members.map memberTree = others.map memberTree := by
        rw [← memberTrees_eq_map, ← memberTrees_eq_map]
        exact Tree.object.inj h
      rw [map_inj_of_forall (fun m hm other heq => ?_) hmembers]
      obtain ⟨name, value⟩ := m
      obtain ⟨name', value'⟩ := other
      obtain ⟨hname, hvalue⟩ := Prod.mk.inj heq
      exact Prod.ext (utf16_injective hname) (ih (name, value) hm hvalue)
    | _ => simp [tree] at h

/-- And are written differently. -/
theorem text_injective : Function.Injective text := by
  intro value other h
  refine tree_injective ?_
  rw [← document_text_iff other, ← h, document_text_iff]

/-- A text stands for a value, and for no other. -/
def StandsFor (text : Text) (value : Json) : Prop :=
  ∀ tree, Document text tree ↔ tree = value.tree

/-- What is written stands for what it was written from. -/
theorem standsFor_text (value : Json) : StandsFor value.text value :=
  document_text_iff value

/-- A text stands for one value. -/
theorem StandsFor.unique {text : Text} {value other : Json} (h : StandsFor text value)
    (hother : StandsFor text other) : value = other :=
  tree_injective ((hother value.tree).mp ((h value.tree).mpr rfl))

/-- A value nested at most so deep, with integers of 64 bits. -/
inductive Within : ℕ → Json → Prop where
  | null (n : ℕ) : Within n .null
  | bool (n : ℕ) (b : Bool) : Within n (.bool b)
  | num {i : ℤ} (n : ℕ) (hmin : -2 ^ 63 ≤ i) (hmax : i < 2 ^ 64) : Within n (.num i)
  | str (n : ℕ) (s : Text) : Within n (.str s)
  | arr {n : ℕ} {items : List Json} (h : ∀ item ∈ items, Within n item) :
      Within (n + 1) (.arr items)
  | obj {n : ℕ} {members : List (Text × Json)} (h : ∀ m ∈ members, Within n m.2) :
      Within (n + 1) (.obj members)

/-- A value nested no deeper than a depth is nested no deeper than a greater one. -/
theorem Within.mono {n m : ℕ} {value : Json} (h : Within n value) (hle : n ≤ m) :
    Within m value := by
  induction h generalizing m with
  | null n => exact .null m
  | bool n b => exact .bool m b
  | num n hmin hmax => exact .num m hmin hmax
  | str n s => exact .str m s
  | arr h ih =>
    obtain ⟨m, rfl⟩ := Nat.exists_eq_add_of_le' (Nat.one_le_of_lt hle)
    exact .arr fun item hitem => ih item hitem (Nat.le_of_succ_le_succ hle)
  | obj h ih =>
    obtain ⟨m, rfl⟩ := Nat.exists_eq_add_of_le' (Nat.one_le_of_lt hle)
    exact .obj fun member hmember => ih member hmember (Nat.le_of_succ_le_succ hle)

/-- A number of 64 bits is within every depth. -/
theorem within_nat {n : ℕ} (h : n < 2 ^ 64) (depth : ℕ) : Within depth (.num n) :=
  .num depth (by omega) (by exact_mod_cast h)

/-- Nothing is nested deeper than the fields of an object, and one level around them. -/
theorem within_ofFields {fields : List (String × Option Json)} {n : ℕ}
    (h : ∀ f ∈ fields, ∀ value, f.2 = some value → Within n value) :
    Within (n + 1) (ofFields fields) := by
  refine .obj fun m hm => ?_
  obtain ⟨f, hf, hvalue⟩ := List.mem_filterMap.mp hm
  obtain ⟨value, hsome, rfl⟩ := Option.map_eq_some_iff.mp hvalue
  exact h f hf value hsome

/-- What a JSON library is documented to do: the value a text stands for is read, unless it is
nested too deep or an integer in it has more than 64 bits. -/
structure Reads (read : Text → Option Json) : Prop where
  reads : ∀ text value, StandsFor text value → Within 127 value → read text = some value

/-- A value that was written is read back. -/
theorem Reads.read_text {read : Text → Option Json} (h : Reads read) {value : Json}
    (hwithin : Within 127 value) : read value.text = some value :=
  h.reads value.text value (standsFor_text value) hwithin

open Classical in
/-- Reading by the meaning of the grammar. -/
noncomputable def readMeaning (text : Text) : Option Json :=
  if h : ∃ value, StandsFor text value then some h.choose else none

/-- The reading by meaning is such a reading. -/
theorem reads_readMeaning : Reads readMeaning where
  reads text value hvalue _ := by
    have hexists : ∃ value, StandsFor text value := ⟨value, hvalue⟩
    rw [readMeaning, dif_pos hexists, hexists.choose_spec.unique hvalue]

end Json

end Stormnetboot.Common

import Stormnetboot.Common.HashMap
import Mathlib.Algebra.BigOperators.Group.List.Lemmas
import Mathlib.Algebra.GroupWithZero.Nat
import Mathlib.Order.Defs.LinearOrder

/-!
# Sorted and counted listings

A map is listed in no particular order. What is sorted from a listing is nevertheless one list
where the sorting ranks no two entries alike, a search through it finds the least entry there is
to find, and what is counted from a listing is one count for each key, which add up to the number
of entries.
-/

namespace Stormnetboot.Common

/-- Where no two entries rank alike, each of the sorted entries ranks before all that follow. -/
theorem strict_mergeSort {α : Type} {le : α → α → Bool}
    (htrans : ∀ a b c, le a b = true → le b c = true → le a c = true)
    (htotal : ∀ a b, (le a b || le b a) = true) {l : List α}
    (hdistinct : l.Pairwise fun a b => ¬(le a b = true ∧ le b a = true)) :
    (l.mergeSort le).Pairwise fun a b => le b a = false := by
  have hsorted := List.pairwise_mergeSort htrans htotal l
  have hapart : (l.mergeSort le).Pairwise fun a b => ¬(le a b = true ∧ le b a = true) :=
    ((List.mergeSort_perm l le).pairwise_iff fun h => mt And.symm h).mpr hdistinct
  refine (hsorted.and hapart).imp fun {a b} ⟨hle, hne⟩ => ?_
  exact Bool.eq_false_iff.mpr fun hge => hne ⟨hle, hge⟩

/-- What a search through sorted entries finds, it finds at the least entry that gives anything. -/
theorem findSome?_mergeSort {α β : Type} [LinearOrder α] {f : α → Option β} {l : List α} {b : β}
    (h : (l.mergeSort fun a b => decide (a ≤ b)).findSome? f = some b) :
    ∃ a ∈ l, f a = some b ∧ ∀ other ∈ l, other < a → f other = none := by
  have hsorted : (l.mergeSort fun a b => decide (a ≤ b)).Pairwise
      fun a b => decide (a ≤ b) = true := by
    refine List.pairwise_mergeSort (fun a b c hab hbc => ?_) (fun a b => ?_) _
    · exact decide_eq_true ((of_decide_eq_true hab).trans (of_decide_eq_true hbc))
    · rw [Bool.or_eq_true, decide_eq_true_eq, decide_eq_true_eq]
      exact le_total a b
  have hmem (a : α) : a ∈ l ↔ a ∈ l.mergeSort fun a b => decide (a ≤ b) :=
    List.mem_mergeSort.symm
  obtain ⟨before, a, after, hsplit, hfound, hbefore⟩ := List.findSome?_eq_some_iff.mp h
  rw [hsplit] at hsorted
  refine ⟨a, (hmem a).mpr (by rw [hsplit]; simp), hfound, fun other hother hlt => ?_⟩
  rw [hmem, hsplit, List.mem_append, List.mem_cons] at hother
  rcases hother with hother | rfl | hother
  · exact hbefore other hother
  · exact absurd hlt (lt_irrefl other)
  · -- What stands after an entry is not below it.
    have hle := (List.pairwise_cons.mp (List.pairwise_append.mp hsorted).2.1).1 other hother
    exact absurd hlt (not_lt.mpr (of_decide_eq_true hle))

namespace HashMap

variable {K V : Type} [DecidableEq K]

/-- How often each key comes. -/
def tally (keys : List K) : HashMap K ℕ :=
  keys.foldl (fun counts k => counts.insert k ((counts.lookup k).getD 0 + 1)) ∅

/-- One more key adds one to its own count. -/
theorem tally_concat (keys : List K) (k : K) :
    tally (keys ++ [k]) = (tally keys).insert k (((tally keys).lookup k).getD 0 + 1) :=
  List.foldl_concat ..

/-- A key that comes is found with how often it does. -/
theorem lookup_tally (keys : List K) (k : K) :
    (tally keys).lookup k = if k ∈ keys then some (keys.count k) else none := by
  induction keys using List.reverseRecOn with
  | nil => rfl
  | append_singleton rest last ih =>
    rw [tally_concat, List.count_append]
    by_cases hk : k = last
    · subst hk
      have hcount : ((tally rest).lookup k).getD 0 = rest.count k := by
        rw [ih]
        split_ifs with hmem
        · rfl
        · exact (List.count_eq_zero_of_not_mem hmem).symm
      rw [Finmap.lookup_insert, hcount, if_pos (by simp), List.count_singleton_self]
    · have hcount : [last].count k = 0 := List.count_eq_zero_of_not_mem (by simp [hk])
      have hmem : k ∈ rest ++ [last] ↔ k ∈ rest := by simp [hk]
      rw [Finmap.lookup_insert_of_ne _ hk, ih, hcount, Nat.add_zero]
      exact if_congr hmem.symm rfl rfl

/-- A tally lists each key that comes, once. -/
theorem Iteration.perm_tally (order : Iteration K ℕ) (keys : List K) :
    (order.list (tally keys)).Perm (keys.dedup.map fun k => ⟨k, keys.count k⟩) := by
  have hlisted : (order.list (tally keys)).Nodup := .of_map _ (order.nodup_keys _)
  have hcounted : (keys.dedup.map fun k => (⟨k, keys.count k⟩ : Σ _ : K, ℕ)).Nodup :=
    keys.nodup_dedup.map fun _ _ h => congrArg Sigma.fst h
  refine (List.perm_ext_iff_of_nodup hlisted hcounted).mpr fun ⟨k, count⟩ => ?_
  rw [order.mem_list_iff, lookup_tally, List.mem_map]
  constructor
  · intro h
    split_ifs at h with hmem
    obtain rfl := Option.some.inj h
    exact ⟨k, List.mem_dedup.mpr hmem, rfl⟩
  · rintro ⟨k', hmem, heq⟩
    cases heq
    rw [if_pos (List.mem_dedup.mp hmem)]

/-- The counts add up. -/
theorem Iteration.sum_tally (order : Iteration K ℕ) (keys : List K) :
    ((order.list (tally keys)).map (·.2)).sum = keys.length := by
  rw [((order.perm_tally keys).map _).sum_nat, List.map_map]
  exact List.sum_map_count_dedup_eq_length keys

omit [DecidableEq K] in
/-- As many values of a listing satisfy a predicate as entries are retained by it. -/
theorem Iteration.countP_values (order : Iteration K V) (p : V → Bool) (m : HashMap K V) :
    (order.values m).countP p = len (retain p m) := by
  have hretained : len (retain p m) = (m.entries.filter fun e => p e.2).card := rfl
  rw [hretained, ← order.list_perm, Multiset.filter_coe, Multiset.coe_card, values,
    List.countP_map, List.countP_eq_length_filter]
  simp [Function.comp_def]

end HashMap

end Stormnetboot.Common

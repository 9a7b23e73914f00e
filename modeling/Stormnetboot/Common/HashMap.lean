import Mathlib.Data.Finmap
import Mathlib.Data.List.MinMax

/-!
# Maps without an order

A `HashMap` is a finite map, equal to another when both look up the same. The order in
which a real map lists its entries is not part of it: where a program iterates, it is given
an `Iteration`, which may list the entries of each map in any order.
-/

namespace Stormnetboot.Common

/-- A finite map from keys to values. -/
abbrev HashMap (K V : Type) :=
  Finmap fun _ : K => V

namespace HashMap

variable {K V : Type} [DecidableEq K]

/-- How many keys the map holds. -/
def len (m : HashMap K V) : ℕ :=
  m.entries.card

/-- Keep the entries whose value satisfies the predicate. -/
def retain (p : V → Bool) (m : HashMap K V) : HashMap K V where
  entries := m.entries.filter fun e => p e.2
  nodupKeys := by
    obtain ⟨entries, hnodup⟩ := m
    induction entries using Quotient.inductionOn with
    | h l => exact List.NodupKeys.sublist List.filter_sublist hnodup

/-- Change the value of a key, if the map holds it. -/
def modify (k : K) (f : V → V) (m : HashMap K V) : HashMap K V :=
  match m.lookup k with
  | some v => m.insert k (f v)
  | none => m

/-- Collect pairs into a map; a later pair replaces an earlier one with its key. -/
def collect (pairs : List (K × V)) : HashMap K V :=
  pairs.foldl (fun m e => m.insert e.1 e.2) ∅

/-- A listing of each map's entries, in an order of its own. -/
structure Iteration (K V : Type) where
  list : HashMap K V → List (Σ _ : K, V)
  list_perm : ∀ m, (list m : Multiset (Σ _ : K, V)) = m.entries

/-- The values, in the order of the listing. -/
def Iteration.values (order : Iteration K V) (m : HashMap K V) : List V :=
  (order.list m).map (·.2)

/-- Every map can be listed in some order. -/
instance : Nonempty (Iteration K V) :=
  ⟨⟨fun m => m.entries.toList, fun m => Multiset.coe_toList m.entries⟩⟩

/-- A map lists the entries it looks up, each key once. -/
theorem Iteration.mem_list_iff (order : Iteration K V) (m : HashMap K V) (k : K) (v : V) :
    ⟨k, v⟩ ∈ order.list m ↔ m.lookup k = some v := by
  rw [← Multiset.mem_coe, order.list_perm, Finmap.lookup_eq_some_iff]

/-- The values listed are those that are looked up. -/
theorem Iteration.mem_values_iff (order : Iteration K V) (m : HashMap K V) (v : V) :
    v ∈ order.values m ↔ ∃ k, m.lookup k = some v := by
  constructor
  · intro hmem
    obtain ⟨⟨k, v⟩, hlisted, rfl⟩ := List.mem_map.mp hmem
    exact ⟨k, (order.mem_list_iff ..).mp hlisted⟩
  · rintro ⟨k, hlookup⟩
    exact List.mem_map.mpr ⟨⟨k, v⟩, (order.mem_list_iff ..).mpr hlookup, rfl⟩

omit [DecidableEq K] in

/-- An iteration visits no key twice. -/
theorem Iteration.nodup_keys (order : Iteration K V) (m : HashMap K V) :
    ((order.list m).map Sigma.fst).Nodup := by
  have hnodup := m.nodupKeys
  rw [← order.list_perm] at hnodup
  exact hnodup

omit [DecidableEq K] in

/-- It visits as many entries as there are. -/
theorem Iteration.length_list (order : Iteration K V) (m : HashMap K V) :
    (order.list m).length = len m := by
  rw [len, ← order.list_perm, Multiset.coe_card]

omit [DecidableEq K] in
/-- A map with one entry is listed in one way. -/
theorem Iteration.list_singleton (order : Iteration K V) (k : K) (v : V) :
    order.list (Finmap.singleton k v) = [⟨k, v⟩] := by
  have hperm := order.list_perm (Finmap.singleton k v)
  exact Multiset.coe_eq_singleton.mp hperm

/-- A retained entry is an entry whose value satisfies the predicate. -/
theorem lookup_retain_eq_some_iff (p : V → Bool) (m : HashMap K V) (k : K) (v : V) :
    (retain p m).lookup k = some v ↔ m.lookup k = some v ∧ p v = true := by
  rw [Finmap.lookup_eq_some_iff, Finmap.lookup_eq_some_iff]
  exact Multiset.mem_filter

/-- Only the modified key changes. -/
theorem lookup_modify (k k' : K) (f : V → V) (m : HashMap K V) :
    (modify k f m).lookup k' = if k' = k then (m.lookup k).map f else m.lookup k' := by
  unfold modify
  split_ifs with hk
  · subst hk
    cases hv : m.lookup k' with
    | some v => exact Finmap.lookup_insert m
    | none => exact hv
  · cases m.lookup k with
    | some v => exact Finmap.lookup_insert_of_ne m hk
    | none => rfl

/-! ## How many entries a map holds -/

omit [DecidableEq K] in

/-- The length is the number of keys. -/
theorem len_eq_card_keys (m : HashMap K V) : len m = m.keys.card := by
  obtain ⟨entries, hnodup⟩ := m
  exact (Multiset.card_map ..).symm

/-- An insertion adds its key. -/
theorem keys_insert (k : K) (v : V) (m : HashMap K V) : (m.insert k v).keys = insert k m.keys := by
  ext k'
  rw [Finmap.mem_keys, Finmap.mem_insert, Finset.mem_insert, Finmap.mem_keys]

/-- A key that is there is replaced. -/
theorem len_insert_of_mem {k : K} {m : HashMap K V} (h : k ∈ m) (v : V) :
    len (m.insert k v) = len m := by
  rw [len_eq_card_keys, len_eq_card_keys, keys_insert,
    Finset.insert_eq_of_mem (Finmap.mem_keys.mpr h)]

/-- It adds at most one entry. -/
theorem len_insert_le (k : K) (v : V) (m : HashMap K V) : len (m.insert k v) ≤ len m + 1 := by
  rw [len_eq_card_keys, len_eq_card_keys, keys_insert]
  exact Finset.card_insert_le ..

/-- Removing a key that is there removes one entry. -/
theorem len_erase_of_mem {k : K} {m : HashMap K V} (h : k ∈ m) : len (m.erase k) + 1 = len m := by
  rw [len_eq_card_keys, len_eq_card_keys, Finmap.keys_erase]
  exact Finset.card_erase_add_one (Finmap.mem_keys.mpr h)

omit [DecidableEq K] in
/-- Where as many are retained as there are, all are. -/
theorem retain_eq_self {p : V → Bool} {m : HashMap K V} (h : len m ≤ len (retain p m)) :
    retain p m = m :=
  Finmap.ext (Multiset.eq_of_le_of_card_le (Multiset.filter_le ..) h)

/-! ## Modified entries -/

/-- A replaced or removed entry was modified in vain. -/
theorem insert_modify_self (k : K) (f : V → V) (v : V) (m : HashMap K V) :
    (modify k f m).insert k v = m.insert k v := by
  refine Finmap.ext_lookup fun k' => ?_
  by_cases hk : k' = k
  · rw [hk, Finmap.lookup_insert, Finmap.lookup_insert]
  · rw [Finmap.lookup_insert_of_ne _ hk, Finmap.lookup_insert_of_ne _ hk, lookup_modify, if_neg hk]

/-- What was changed and then removed might as well not have been changed. -/
theorem erase_modify_self (k : K) (f : V → V) (m : HashMap K V) :
    (modify k f m).erase k = m.erase k := by
  refine Finmap.ext_lookup fun k' => ?_
  by_cases hk : k' = k
  · rw [hk, Finmap.lookup_erase, Finmap.lookup_erase]
  · rw [Finmap.lookup_erase_ne hk, Finmap.lookup_erase_ne hk, lookup_modify, if_neg hk]

/-- Entries under different keys do not disturb each other. -/
theorem insert_modify_of_ne {k k' : K} (h : k' ≠ k) (f : V → V) (v : V) (m : HashMap K V) :
    (modify k f m).insert k' v = modify k f (m.insert k' v) := by
  refine Finmap.ext_lookup fun k'' => ?_
  rw [lookup_modify, Finmap.lookup_insert_of_ne _ (Ne.symm h)]
  by_cases hk : k'' = k'
  · rw [hk, Finmap.lookup_insert, if_neg h, Finmap.lookup_insert]
  · rw [Finmap.lookup_insert_of_ne _ hk, Finmap.lookup_insert_of_ne _ hk, lookup_modify]

/-- Another entry is changed just as well after the removal. -/
theorem erase_modify_of_ne {k k' : K} (h : k' ≠ k) (f : V → V) (m : HashMap K V) :
    (modify k f m).erase k' = modify k f (m.erase k') := by
  refine Finmap.ext_lookup fun k'' => ?_
  rw [lookup_modify, Finmap.lookup_erase_ne (Ne.symm h)]
  by_cases hk : k'' = k'
  · rw [hk, Finmap.lookup_erase, if_neg h, Finmap.lookup_erase]
  · rw [Finmap.lookup_erase_ne hk, Finmap.lookup_erase_ne hk, lookup_modify]

/-- The last pair is inserted last. -/
theorem collect_concat (pairs : List (K × V)) (e : K × V) :
    collect (pairs ++ [e]) = (collect pairs).insert e.1 e.2 :=
  List.foldl_concat ..

/-- A collected map looks up only the pairs. -/
theorem mem_of_lookup_collect (pairs : List (K × V)) {k : K} {v : V}
    (h : (collect pairs).lookup k = some v) : (k, v) ∈ pairs := by
  induction pairs using List.reverseRecOn with
  | nil => cases h
  | append_singleton rest e ih =>
    rw [collect_concat] at h
    by_cases hk : k = e.1
    · subst hk
      rw [Finmap.lookup_insert, Option.some.injEq] at h
      subst h
      exact List.mem_append_right _ List.mem_cons_self
    · rw [Finmap.lookup_insert_of_ne _ hk] at h
      exact List.mem_append_left _ (ih h)

/-- It holds every key among the pairs. -/
theorem mem_collect {pairs : List (K × V)} {k : K} {v : V} (h : (k, v) ∈ pairs) :
    k ∈ collect pairs := by
  induction pairs using List.reverseRecOn with
  | nil => cases h
  | append_singleton rest e ih =>
    rw [collect_concat, Finmap.mem_insert]
    rcases List.mem_append.mp h with hrest | hlast
    · exact .inr (ih hrest)
    · exact .inl (congrArg Prod.fst (List.mem_singleton.mp hlast))

/-- Its keys are those among the pairs. -/
theorem keys_collect (pairs : List (K × V)) :
    (collect pairs).keys = (pairs.map Prod.fst).toFinset := by
  induction pairs using List.reverseRecOn with
  | nil => rfl
  | append_singleton rest e ih =>
    rw [collect_concat, keys_insert, ih, List.map_append, List.toFinset_append, Finset.union_comm]
    rfl

/-- It holds as many as there are pairs exactly where no key comes twice. -/
theorem len_collect_eq_iff (pairs : List (K × V)) :
    len (collect pairs) = pairs.length ↔ (pairs.map Prod.fst).Nodup := by
  rw [len_eq_card_keys, keys_collect, ← List.length_map (f := Prod.fst)]
  exact Multiset.toFinset_card_eq_card_iff_nodup

/-- Collecting pairs with other values. -/
theorem lookup_collect_map {W : Type} (f : V → W) (pairs : List (K × V)) (k : K) :
    (collect (pairs.map fun e => (e.1, f e.2))).lookup k = ((collect pairs).lookup k).map f := by
  induction pairs using List.reverseRecOn with
  | nil => rfl
  | append_singleton rest e ih =>
    have hmapped : collect ((rest ++ [e]).map fun e => (e.1, f e.2)) =
        (collect (rest.map fun e => (e.1, f e.2))).insert e.1 (f e.2) := by
      rw [List.map_append]
      exact List.foldl_concat ..
    rw [collect_concat, hmapped]
    by_cases hk : k = e.1
    · rw [hk, Finmap.lookup_insert, Finmap.lookup_insert, Option.map_some]
    · rw [Finmap.lookup_insert_of_ne _ hk, Finmap.lookup_insert_of_ne _ hk, ih]

/-- Where no key has two values, a collected map looks up exactly the pairs. -/
theorem lookup_collect_eq_some_iff (pairs : List (K × V))
    (h : ∀ k v v', (k, v) ∈ pairs → (k, v') ∈ pairs → v = v') (k : K) (v : V) :
    (collect pairs).lookup k = some v ↔ (k, v) ∈ pairs := by
  induction pairs using List.reverseRecOn with
  | nil => simp [collect]
  | append_singleton rest e ih =>
    have hrest := ih fun k v v' hv hv' => h k v v' (by simp [hv]) (by simp [hv'])
    rw [collect_concat]
    by_cases hk : k = e.1
    · subst hk
      rw [Finmap.lookup_insert, Option.some.injEq]
      constructor
      · rintro rfl
        simp
      · exact fun hmem => h e.1 e.2 v (by simp) hmem
    · rw [Finmap.lookup_insert_of_ne _ hk, hrest]
      have hne : (k, v) ≠ e := fun heq => hk (by rw [← heq])
      simp [hne]

/-! ## One map over another -/

/-- The entries of one map, and those of another under the keys the first does not hold. -/
def Iteration.overlay (order : Iteration K V) (upper lower : HashMap K V) : List (Σ _ : K, V) :=
  order.list upper ++ (order.list lower).filter fun e => e.1 ∉ upper

section Overlay

variable (order : Iteration K V) (upper lower : HashMap K V)

/-- The upper map answers first. -/
theorem Iteration.mem_overlay_iff (k : K) (v : V) :
    ⟨k, v⟩ ∈ order.overlay upper lower ↔ (upper.lookup k).or (lower.lookup k) = some v := by
  rw [overlay, List.mem_append, List.mem_filter, order.mem_list_iff, order.mem_list_iff,
    decide_eq_true_eq]
  cases hupper : upper.lookup k with
  | none => simp [Finmap.lookup_eq_none.mp hupper]
  | some w => simp [Finmap.mem_of_lookup_eq_some hupper]

/-- No key is listed twice. -/
theorem Iteration.nodup_overlay : ((order.overlay upper lower).map Sigma.fst).Nodup := by
  rw [overlay, List.map_append, List.nodup_append']
  refine ⟨order.nodup_keys upper, ?_, fun k hupper hlower => ?_⟩
  · exact (order.nodup_keys lower).sublist (List.filter_sublist.map _)
  · obtain ⟨⟨k', v⟩, hv, rfl⟩ := List.mem_map.mp hupper
    obtain ⟨⟨k'', w⟩, hw, hk⟩ := List.mem_map.mp hlower
    have hout := of_decide_eq_true (List.mem_filter.mp hw).2
    simp only at hk hout
    rw [hk] at hout
    exact hout (Finmap.mem_of_lookup_eq_some ((order.mem_list_iff ..).mp hv))

/-- As many are listed as the upper map holds, and keys of the lower one that it does not. -/
theorem Iteration.length_overlay : (order.overlay upper lower).length =
    len upper + (lower.keys.filter fun k => k ∉ upper).card := by
  have hkeys : (lower.keys.filter fun k => k ∉ upper) =
      (((order.list lower).filter fun e => e.1 ∉ upper).map Sigma.fst).toFinset := by
    ext k
    rw [Finset.mem_filter, List.mem_toFinset, List.mem_map, Finmap.mem_keys, Finmap.mem_iff]
    constructor
    · rintro ⟨⟨v, hv⟩, hout⟩
      exact ⟨⟨k, v⟩, List.mem_filter.mpr ⟨(order.mem_list_iff ..).mpr hv, decide_eq_true hout⟩, rfl⟩
    · rintro ⟨⟨k', v⟩, hmem, rfl⟩
      obtain ⟨hlist, hout⟩ := List.mem_filter.mp hmem
      exact ⟨⟨v, (order.mem_list_iff ..).mp hlist⟩, of_decide_eq_true hout⟩
  have hnodup : (((order.list lower).filter fun e => e.1 ∉ upper).map Sigma.fst).Nodup :=
    (order.nodup_keys lower).sublist (List.filter_sublist.map _)
  rw [hkeys, List.toFinset_card_of_nodup hnodup, List.length_map, overlay, List.length_append,
    order.length_list]

end Overlay

end HashMap

end Stormnetboot.Common

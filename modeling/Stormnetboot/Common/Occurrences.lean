import Stormnetboot.Common.Text

/-!
# Occurrences of one text in another

A text is split at the first place where a pattern stands. What is put together from parts around
a pattern is split there if the pattern stands nowhere before, also not across the seam.
-/

namespace Stormnetboot.Common

/-- There is no prefix to strip exactly when the text does not start with it. -/
theorem stripPrefix_eq_none_iff (p s : Text) : stripPrefix p s = none ↔ ¬p <+: s := by
  rw [Option.eq_none_iff_forall_ne_some]
  constructor
  · rintro h ⟨rest, hrest⟩
    exact h rest ((stripPrefix_eq_some_iff p s rest).mpr hrest.symm)
  · intro h rest hrest
    exact h ⟨rest, ((stripPrefix_eq_some_iff p s rest).mp hrest).symm⟩

/-- What starts two texts put together starts the first, or goes on into the second. -/
theorem prefix_append_cases {p s t : Text} (h : p <+: s ++ t) :
    p <+: s ∨ ∃ r, r ≠ [] ∧ p = s ++ r ∧ r <+: t := by
  rcases Nat.lt_or_ge s.length p.length with hshort | hlong
  · obtain ⟨r, rfl⟩ := List.prefix_of_prefix_length_le (List.prefix_append s t) h hshort.le
    refine .inr ⟨r, ?_, rfl, (List.prefix_append_right_inj s).mp h⟩
    rintro rfl
    simp at hshort
  · exact .inl (List.prefix_of_prefix_length_le h (List.prefix_append ..) hlong)

/-- Nothing is split where the pattern does not stand. -/
theorem splitOnceText_eq_none {pat s : Text} (hne : pat ≠ []) (h : ¬pat <:+: s) :
    splitOnceText pat s = none := by
  induction s with
  | nil => rw [splitOnceText, if_neg (by simpa using hne)]
  | cons c cs ih =>
    have hhead : stripPrefix pat (c :: cs) = none :=
      (stripPrefix_eq_none_iff ..).mpr fun hprefix => h hprefix.isInfix
    rw [splitOnceText, hhead, ih fun hinside => h (hinside.trans (List.suffix_cons c cs).isInfix)]
    rfl

/-- The pattern stands in a text that contains it. -/
theorem containsText_eq_false_iff {pat s : Text} (hne : pat ≠ []) :
    containsText pat s = false ↔ ¬pat <:+: s := by
  constructor
  · rintro h ⟨front, rest, rfl⟩
    induction front with
    | nil =>
      cases pat with
      | nil => exact hne rfl
      | cons c cs =>
        have hhead : stripPrefix (c :: cs) (c :: (cs ++ rest)) = some rest :=
          (stripPrefix_eq_some_iff ..).mpr rfl
        rw [containsText, List.nil_append, List.cons_append, splitOnceText, hhead] at h
        cases h
    | cons c cs ih =>
      refine ih ?_
      rw [containsText, List.cons_append, List.cons_append, splitOnceText] at h
      cases hhead : stripPrefix pat (c :: (cs ++ pat ++ rest)) with
      | some tail =>
        rw [hhead] at h
        cases h
      | none =>
        rw [hhead] at h
        simpa [containsText] using h
  · intro h
    rw [containsText, splitOnceText_eq_none hne h]
    rfl

/-- What is put together around a pattern is split there, if the pattern starts nowhere before. -/
theorem splitOnceText_append {pat : Text} (hne : pat ≠ []) {front : Text} (rest : Text)
    (h : ∀ s, s <:+ front → s ≠ [] → ¬pat <+: s ++ (pat ++ rest)) :
    splitOnceText pat (front ++ (pat ++ rest)) = some (front, rest) := by
  induction front with
  | nil =>
    obtain ⟨c, cs, rfl⟩ := List.exists_cons_of_ne_nil hne
    have hhead : stripPrefix (c :: cs) (c :: (cs ++ rest)) = some rest :=
      (stripPrefix_eq_some_iff ..).mpr rfl
    rw [List.nil_append, List.cons_append, splitOnceText, hhead]
  | cons c cs ih =>
    have hhead : stripPrefix pat (c :: (cs ++ (pat ++ rest))) = none :=
      (stripPrefix_eq_none_iff ..).mpr (h (c :: cs) (List.suffix_refl _) (List.cons_ne_nil _ _))
    rw [List.cons_append, splitOnceText, hhead,
      ih fun s hs => h s (hs.trans (List.suffix_cons c cs))]
    rfl

end Stormnetboot.Common

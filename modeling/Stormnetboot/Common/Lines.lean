import Stormnetboot.Common.Words

/-!
# Lines of a text

A text without a newline that is put into a longer one changes a single line of it. The line is
found once, from the text before and the text behind, whatever is put between them.
-/

namespace Stormnetboot.Common

variable {c : Char}

/-- What is written behind a text continues its last line. -/
theorem exists_last_line (before : Text) : ∃ lines start,
    (c ∉ before → lines = [] ∧ start = before) ∧
      ∀ rest : Text, (before ++ rest).splitOn c =
        lines ++ (rest.splitOn c).modifyHead (start ++ ·) := by
  induction before with
  | nil =>
    refine ⟨[], [], fun _ => ⟨rfl, rfl⟩, fun rest => ?_⟩
    cases h : rest.splitOn c with
    | nil => exact absurd h (List.splitOn_ne_nil c rest)
    | cons line lines => simp [h]
  | cons d before ih =>
    obtain ⟨lines, start, hclean, hsplit⟩ := ih
    by_cases hd : d = c
    · refine ⟨[] :: lines, start, fun h => absurd List.mem_cons_self (hd ▸ h), fun rest => ?_⟩
      rw [List.cons_append, List.splitOn_cons_eq_if_modifyHead, if_pos (beq_iff_eq.mpr hd),
        hsplit, List.cons_append]
    · have hne : ¬ (d == c) = true := fun h => hd (beq_iff_eq.mp h)
      cases lines with
      | nil =>
        refine ⟨[], d :: start, fun h => ⟨rfl, ?_⟩, fun rest => ?_⟩
        · rw [(hclean fun hmem => h (List.mem_cons_of_mem _ hmem)).2]
        · rw [List.cons_append, List.splitOn_cons_eq_if_modifyHead, if_neg hne, hsplit,
            List.nil_append, List.nil_append]
          cases rest.splitOn c <;> rfl
      | cons line lines =>
        refine ⟨(d :: line) :: lines, start, fun h => ?_, fun rest => ?_⟩
        · exact nomatch (hclean fun hmem => h (List.mem_cons_of_mem _ hmem)).1
        · rw [List.cons_append, List.splitOn_cons_eq_if_modifyHead, if_neg hne, hsplit,
            List.cons_append, List.modifyHead_cons, List.cons_append]

/-- What is written in front of a text starts its first line. -/
theorem exists_first_line (after : Text) : ∃ stop lines, stop <+: after ∧
    ∀ line : Text, c ∉ line → (line ++ after).splitOn c = (line ++ stop) :: lines := by
  have hline : ∃ lines, after.splitOn c = after.takeWhile (· ≠ c) :: lines := by
    induction after with
    | nil => exact ⟨[], rfl⟩
    | cons d after ih =>
      obtain ⟨lines, hsplit⟩ := ih
      rw [List.splitOn_cons_eq_if_modifyHead]
      by_cases hd : d = c
      · exact ⟨after.splitOn c, by simp [hd]⟩
      · exact ⟨lines, by simp [hd, hsplit]⟩
  obtain ⟨lines, hsplit⟩ := hline
  refine ⟨after.takeWhile (· ≠ c), lines, List.takeWhile_prefix _, fun line hclean => ?_⟩
  induction line with
  | nil => exact hsplit
  | cons d line ih =>
    have hne : ¬ (d == c) = true := fun h => hclean (beq_iff_eq.mp h ▸ List.mem_cons_self)
    rw [List.cons_append, List.splitOn_cons_eq_if_modifyHead, if_neg hne,
      ih fun h => hclean (List.mem_cons_of_mem _ h), List.modifyHead_cons, List.cons_append]

/-- A text put between two others changes one line. -/
theorem exists_line_around (before after : Text) : ∃ above start stop below,
    (c ∉ before → start = before) ∧ stop <+: after ∧
      ∀ line : Text, c ∉ line →
        (before ++ (line ++ after)).splitOn c = above ++ (start ++ (line ++ stop)) :: below := by
  obtain ⟨above, start, hclean, hlast⟩ := exists_last_line (c := c) before
  obtain ⟨stop, below, hstop, hfirst⟩ := exists_first_line (c := c) after
  refine ⟨above, start, stop, below, fun h => (hclean h).2, hstop, fun line hline => ?_⟩
  rw [hlast, hfirst line hline, List.modifyHead_cons]

end Stormnetboot.Common

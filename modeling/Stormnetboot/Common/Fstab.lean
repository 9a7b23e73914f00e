import Stormnetboot.Common.Words

/-!
# A table of filesystems

An fstab has an entry a line, in fields between blanks; a line that starts with a number sign is a
comment. What is appended to it as whole lines is read as what was there and the new entries, if
what was there ended with its line. The escapes a field may hold are left as they stand.
-/

namespace Stormnetboot.Common

/-- What stands between the fields. -/
def isBlank (c : Char) : Bool :=
  c = ' ' || c = '\t'

/-- The fields of a line that holds an entry. -/
def readFstabLine (line : Text) : Option (List Text) :=
  match wordsBy isBlank line with
  | [] => none
  | first :: rest => if first.head? = some '#' then none else some (first :: rest)

/-- The entries of a table, by their fields. -/
def readFstab (text : Text) : List (List Text) :=
  (wordsBy (· == '\n') text).filterMap readFstabLine

/-- An entry that is neither dumped nor checked. -/
structure FstabEntry where
  device : Text
  mountPoint : Text
  fstype : Text
  options : Text
  deriving DecidableEq, Repr

/-- A field is not empty, and neither blank nor newline is in it. -/
structure IsField (field : Text) : Prop where
  ne_nil : field ≠ []
  blank : Solid isBlank field
  newline : '\n' ∉ field

/-- What is neither empty nor has whitespace in it is a field. -/
theorem IsField.of_solid {field : Text} (hne : field ≠ []) (h : Solid isWhitespace field) :
    IsField field := by
  refine ⟨hne, fun c hc => ?_, fun hmem => absurd (h '\n' hmem) (by decide)⟩
  rw [Bool.eq_false_iff]
  intro hblank
  simp only [isBlank, Bool.or_eq_true, decide_eq_true_eq] at hblank
  rcases hblank with rfl | rfl
  · exact absurd (h ' ' hc) (by decide)
  · exact absurd (h '\t' hc) (by decide)

namespace FstabEntry

/-- The line that is written for it. -/
def text (entry : FstabEntry) : Text :=
  entry.device ++ " ".toList ++ entry.mountPoint ++ " ".toList ++ entry.fstype ++ " ".toList ++
    entry.options ++ " 0 0".toList

/-- The fields of its line; it is neither dumped nor checked. -/
def fields (entry : FstabEntry) : List Text :=
  [entry.device, entry.mountPoint, entry.fstype, entry.options, "0".toList, "0".toList]

/-- Its fields are fields, and it is no comment. -/
structure WellFormed (entry : FstabEntry) : Prop where
  device : IsField entry.device
  mountPoint : IsField entry.mountPoint
  fstype : IsField entry.fstype
  options : IsField entry.options
  entry : entry.device.head? ≠ some '#'

end FstabEntry

/-- A table that lines can be appended to. -/
def EndsLine (text : Text) : Prop :=
  text = [] ∨ text.getLast? = some '\n'

/-! ## Reading -/

/-- A table that ends with its line may be appended to. -/
theorem readFstab_append_newline (text rest : Text) :
    readFstab (text ++ '\n' :: rest) = readFstab text ++ readFstab rest := by
  rw [readFstab, @wordsBy_append_cons (· == '\n') text rest '\n' rfl, List.filterMap_append]
  rfl

/-- What follows whole lines is read by itself. -/
theorem readFstab_append {text : Text} (h : EndsLine text) (rest : Text) :
    readFstab (text ++ rest) = readFstab text ++ readFstab rest := by
  rcases h with rfl | hlast
  · rfl
  · obtain ⟨front, rfl⟩ := List.getLast?_eq_some_iff.mp hlast
    have hfront := readFstab_append_newline front []
    rw [List.append_assoc, List.singleton_append, readFstab_append_newline, hfront]
    exact congrArg (· ++ readFstab rest) (List.append_nil _).symm

namespace FstabEntry

variable {entry : FstabEntry}

/-- The fields of an entry's line are the entry's. -/
theorem wordsBy_text (h : entry.WellFormed) : wordsBy isBlank entry.text = entry.fields := by
  have hspace : isBlank ' ' = true := rfl
  have hline : entry.text = entry.device ++ ' ' :: (entry.mountPoint ++ ' ' :: (entry.fstype ++
      ' ' :: (entry.options ++ ' ' :: ("0".toList ++ ' ' :: "0".toList)))) := by
    simp only [text, List.append_assoc]
    rfl
  rw [hline, wordsBy_append_cons _ _ hspace, wordsBy_append_cons _ _ hspace,
    wordsBy_append_cons _ _ hspace, wordsBy_append_cons _ _ hspace, wordsBy_append_cons _ _ hspace,
    wordsBy_of_solid h.device.blank h.device.ne_nil,
    wordsBy_of_solid h.mountPoint.blank h.mountPoint.ne_nil,
    wordsBy_of_solid h.fstype.blank h.fstype.ne_nil,
    wordsBy_of_solid h.options.blank h.options.ne_nil]
  rfl

/-- An entry is on one line. -/
theorem newline_notMem_text (h : entry.WellFormed) : '\n' ∉ entry.text := by
  have hblank : '\n' ∉ " ".toList := by decide
  have hzeros : '\n' ∉ " 0 0".toList := by decide
  simp only [text, List.mem_append, not_or]
  exact ⟨⟨⟨⟨⟨⟨⟨h.device.newline, hblank⟩, h.mountPoint.newline⟩, hblank⟩, h.fstype.newline⟩, hblank⟩,
    h.options.newline⟩, hzeros⟩

/-- The line of an entry is read as the entry. -/
theorem readFstab_text (h : entry.WellFormed) : readFstab (entry.text ++ "\n".toList) =
    [entry.fields] := by
  have hsolid : Solid (· == '\n') entry.text := fun c hc =>
    beq_eq_false_iff_ne.mpr fun heq => newline_notMem_text h (heq ▸ hc)
  have hne : entry.text ≠ [] := by
    intro hnil
    have hwords := wordsBy_text h
    rw [hnil] at hwords
    cases hwords
  have hlast := readFstab_append_newline entry.text []
  refine hlast.trans ?_
  rw [readFstab, wordsBy_of_solid hsolid hne, List.filterMap_cons, readFstabLine, wordsBy_text h]
  simp only [fields, if_neg h.entry]
  rfl

/-- So are the lines of several, behind what was there. -/
theorem readFstab_append_entries {text : Text} (htext : EndsLine text) {entries : List FstabEntry}
    (h : ∀ entry ∈ entries, entry.WellFormed) :
    readFstab (text ++ entries.flatMap fun entry => entry.text ++ "\n".toList) =
      readFstab text ++ entries.map fields := by
  rw [readFstab_append htext]
  refine congrArg (readFstab text ++ ·) ?_
  induction entries with
  | nil => rfl
  | cons entry rest ih =>
    have hends : EndsLine (entry.text ++ "\n".toList) := .inr (List.getLast?_concat ..)
    rw [List.flatMap_cons, readFstab_append hends, readFstab_text (h entry List.mem_cons_self),
      ih fun other hother => h other (List.mem_cons_of_mem _ hother)]
    rfl

end FstabEntry

end Stormnetboot.Common

import Stormnetboot.Agent.LogPrefixes
import Stormnetboot.Common.Words

/-!
# The lines the engine prints

What the parser documents of the engine's lines, printed and read back. The counts come back from
the digits of a line; the disk comes back where no ` on ` stands in the slab's id or in the disk,
also not with the spaces that the format puts around them.
-/

namespace Stormnetboot.Agent

open Stormnetboot.Common

/-- A line of the log: one of the engine's formats, or anything else. -/
inductive LogLine where
  | started (id disk : Text)
  | onLocalDisk (moved : ℕ)
  | complete (moved failed : ℕ)
  | aborting (reason : Text)
  | extent (detail : Text)
  | other (line : Text)
  deriving DecidableEq, Repr

/-- A text on a line, without whitespace around it. -/
def Tidy (text : Text) : Prop :=
  '\n' ∉ text ∧ text ≠ [] ∧ trim text = text

/-- Tidiness is decided on the text. -/
instance (text : Text) : Decidable (Tidy text) :=
  inferInstanceAs (Decidable (_ ∧ _ ∧ _))

namespace LogLine

/-- The line as the engine writes it. -/
def print : LogLine → Text
  | .started id disk => "Flow-over: migrating to local slab ".toList ++ id ++ " on ".toList ++
      disk ++ " in background".toList
  | .onLocalDisk moved =>
    "Flow-over complete: ".toList ++ natText moved ++ " extent(s) now on local disk".toList
  | .complete moved failed => "flow-over complete: ".toList ++ natText moved ++
      " extent(s) migrated, ".toList ++ natText failed ++ " failed".toList
  | .aborting reason => "flow-over: aborting".toList ++ reason
  | .extent detail => "flow-over: extent ".toList ++ detail
  | .other line => line

/-- The text of a start. -/
theorem print_started (id disk : Text) : (started id disk).print =
    "Flow-over: migrating to local slab ".toList ++ id ++ " on ".toList ++ disk ++
      " in background".toList := rfl

/-- The text of a completion on the local disk. -/
theorem print_onLocalDisk (moved : ℕ) : (onLocalDisk moved).print =
    "Flow-over complete: ".toList ++ natText moved ++ " extent(s) now on local disk".toList := rfl

/-- The text of a completion with its count of failures. -/
theorem print_complete (moved failed : ℕ) : (complete moved failed).print =
    "flow-over complete: ".toList ++ natText moved ++ " extent(s) migrated, ".toList ++
      natText failed ++ " failed".toList := rfl

/-- What the line tells. -/
def event : LogLine → Option Event
  | .started _ disk => some (.started disk)
  | .onLocalDisk moved => some (.complete moved 0)
  | .complete moved failed => some (.complete moved failed)
  | .aborting _ => some .aborted
  | .extent detail => some (.extentFailed detail)
  | .other _ => none

/-- The parts of the line can be told apart, its counts fit a `u64`, and any other line starts
with none of the keys. -/
def WellFormed : LogLine → Prop
  | .started id disk => '\n' ∉ id ∧ Tidy disk ∧
      containsText " on ".toList (" ".toList ++ id ++ " ".toList) = false ∧
      containsText " on ".toList (disk ++ " ".toList) = false ∧
      containsText " in background".toList disk = false
  | .onLocalDisk moved => moved < 2 ^ 64
  | .complete moved failed => moved < 2 ^ 64 ∧ failed < 2 ^ 64
  | .aborting reason => '\n' ∉ reason
  | .extent detail => Tidy detail
  | .other line => '\n' ∉ line ∧ ∀ key ∈ eventKeys, ¬key <+: trim line

/-- Whether a line is well formed is decided on its values. -/
instance : (line : LogLine) → Decidable line.WellFormed
  | .started .. => inferInstanceAs (Decidable (_ ∧ _ ∧ _ ∧ _ ∧ _))
  | .onLocalDisk _ => inferInstanceAs (Decidable (_ < _))
  | .complete .. => inferInstanceAs (Decidable (_ ∧ _))
  | .aborting _ => inferInstanceAs (Decidable (_ ∉ _))
  | .extent _ => inferInstanceAs (Decidable (Tidy _))
  | .other _ => inferInstanceAs (Decidable (_ ∧ ∀ key ∈ eventKeys, _))

end LogLine

/-! ## What is trimmed -/

/-- Whitespace behind a text is trimmed away. -/
theorem trim_append_blank (s : Text) {b : Text} (hblank : ∀ c ∈ b, isWhitespace c = true) :
    trim (s ++ b) = trim s := by
  have hdrop : ∀ front : Text, (front ++ b).rdropWhile isWhitespace =
      front.rdropWhile isWhitespace := by
    intro front
    induction b using List.reverseRecOn with
    | nil => rw [List.append_nil]
    | append_singleton b c ih =>
      rw [List.forall_mem_append, List.forall_mem_singleton] at hblank
      rw [← List.append_assoc, List.rdropWhile_concat_pos _ _ _ hblank.2, ih hblank.1]
  rw [trim, trim, List.dropWhile_append]
  split_ifs with hempty
  · rw [List.isEmpty_iff.mp hempty, List.dropWhile_eq_nil_iff.mpr hblank]
  · exact hdrop _

/-- A key stays where it is when a line is trimmed. -/
theorem key_prefix_trim {key : Text} (hkey : key ∈ eventKeys)
    (hend : key.getLast?.any isWhitespace = false) (rest : Text) : key <+: trim (key ++ rest) := by
  have hstart : ∀ key ∈ eventKeys, key.dropWhile isWhitespace = key ∧ key ≠ [] := by decide
  obtain ⟨hdrop, hne⟩ := hstart key hkey
  have hself : key.rdropWhile isWhitespace = key := by
    rw [List.rdropWhile_eq_self_iff]
    intro hne'
    rw [List.getLast?_eq_some_getLast hne', Option.any_some] at hend
    simp [hend]
  have hkeep : ∀ rest : Text, key <+: (key ++ rest).rdropWhile isWhitespace := by
    intro rest
    induction rest using List.reverseRecOn with
    | nil => rw [List.append_nil, hself]
    | append_singleton rest c ih =>
      rw [← List.append_assoc, List.rdropWhile_concat]
      split_ifs
      · exact ih
      · exact (List.prefix_append ..).trans (List.prefix_append ..)
  rw [trim, List.dropWhile_append, hdrop, if_neg (by simpa using hne)]
  exact hkeep rest

/-- A line that starts with a key and does not end in whitespace is trimmed. -/
theorem trim_key_append {key : Text} (hkey : key ∈ eventKeys) {rest : Text} (hne : rest ≠ [])
    (hend : rest.getLast?.any isWhitespace = false) : trim (key ++ rest) = key ++ rest := by
  have hstart : ∀ key ∈ eventKeys, key.head?.any isWhitespace = false ∧ key ≠ [] := by decide
  obtain ⟨hhead, hkeyne⟩ := hstart key hkey
  refine trim_eq_self (fun c hc => ?_) fun c hc => ?_
  · rw [List.head?_append_of_ne_nil _ hkeyne] at hc
    rw [hc] at hhead
    exact hhead
  · rw [List.getLast?_append_of_ne_nil _ hne] at hc
    rw [hc] at hend
    exact hend

/-! ## Lines with a key -/

/-- A line starts with one key at most. -/
theorem key_unique {key other line : Text} (hkey : key ∈ eventKeys) (hother : other ∈ eventKeys)
    (h : key <+: line) (hne : other ≠ key) : ¬other <+: line := by
  have hapart : ∀ key ∈ eventKeys, ∀ other ∈ eventKeys, other <+: key → other = key := by decide
  intro h'
  rcases List.prefix_or_prefix_of_prefix h h' with hle | hle
  · exact hne (hapart other hother key hkey hle).symm
  · exact hne (hapart key hkey other hother hle)

section Keyed

variable {line : Text}

/-- A line that starts with the start's key is read as a start, of the disk it names. -/
theorem parseLine_started {rest : Text}
    (h : trim line = "Flow-over: migrating to local slab".toList ++ rest) :
    parseLine line = some (.started (startedDisk rest)) := by
  simp only [parseLine, (stripPrefix_eq_some_iff ..).mpr h]

/-- A line with the first completion key has one count and no failures. -/
theorem parseLine_onLocalDisk (h : "Flow-over complete:".toList <+: trim line) :
    parseLine line = some (.complete ((firstNumber (trim line)).getD 0) 0) := by
  have hstart : ¬"Flow-over: migrating to local slab".toList <+: trim line :=
    key_unique (by decide) (by decide) h (by decide)
  simp only [parseLine, (stripPrefix_eq_none_iff ..).mpr hstart, List.isPrefixOf_iff_prefix, if_pos h]

/-- A line with the second has its first two numbers as its counts. -/
theorem parseLine_complete (h : "flow-over complete:".toList <+: trim line) :
    parseLine line = some (.complete ((allNumbers (trim line))[0]?.getD 0)
      ((allNumbers (trim line))[1]?.getD 0)) := by
  have hstart : ¬"Flow-over: migrating to local slab".toList <+: trim line :=
    key_unique (by decide) (by decide) h (by decide)
  have hlocal : ¬"Flow-over complete:".toList <+: trim line :=
    key_unique (by decide) (by decide) h (by decide)
  simp only [parseLine, (stripPrefix_eq_none_iff ..).mpr hstart, List.isPrefixOf_iff_prefix,
    if_neg hlocal, if_pos h]

/-- A line with the abort key is an abort. -/
theorem parseLine_aborting (h : "flow-over: aborting".toList <+: trim line) :
    parseLine line = some .aborted := by
  have hstart : ¬"Flow-over: migrating to local slab".toList <+: trim line :=
    key_unique (by decide) (by decide) h (by decide)
  have hlocal : ¬"Flow-over complete:".toList <+: trim line :=
    key_unique (by decide) (by decide) h (by decide)
  have hcomplete : ¬"flow-over complete:".toList <+: trim line :=
    key_unique (by decide) (by decide) h (by decide)
  simp only [parseLine, (stripPrefix_eq_none_iff ..).mpr hstart, List.isPrefixOf_iff_prefix,
    if_neg hlocal, if_neg hcomplete, if_pos h]

/-- A line with the extent key is a failure with the rest as its detail. -/
theorem parseLine_extent {detail : Text} (h : trim line = "flow-over: extent ".toList ++ detail) :
    parseLine line = some (.extentFailed (trim detail)) := by
  have hextent : "flow-over: extent ".toList <+: trim line := ⟨detail, h.symm⟩
  have hstart : ¬"Flow-over: migrating to local slab".toList <+: trim line :=
    key_unique (by decide) (by decide) hextent (by decide)
  have hlocal : ¬"Flow-over complete:".toList <+: trim line :=
    key_unique (by decide) (by decide) hextent (by decide)
  have hcomplete : ¬"flow-over complete:".toList <+: trim line :=
    key_unique (by decide) (by decide) hextent (by decide)
  have habort : ¬"flow-over: aborting".toList <+: trim line :=
    key_unique (by decide) (by decide) hextent (by decide)
  simp only [parseLine, (stripPrefix_eq_none_iff ..).mpr hstart, List.isPrefixOf_iff_prefix,
    if_neg hlocal, if_neg hcomplete, if_neg habort, (stripPrefix_eq_some_iff ..).mpr h,
    Option.map_some]

/-- A line with none of the keys is no event. -/
theorem parseLine_other (h : ∀ key ∈ eventKeys, ¬key <+: trim line) : parseLine line = none := by
  cases hparse : parseLine line with
  | none => rfl
  | some event =>
    obtain ⟨key, hkey, hprefix⟩ := exists_key_of_event hparse
    exact absurd hprefix (h key hkey)

end Keyed

/-! ## Counts -/

/-- A number with other characters around it is read as it is. -/
theorem allNumbers_around (front rest : Text) {c d : Char} (hc : c.isDigit = false)
    (hd : d.isDigit = false) {n : ℕ} (hn : n < 2 ^ 64) :
    allNumbers (front ++ c :: (natText n ++ d :: rest)) =
      allNumbers front ++ n :: allNumbers rest := by
  have hwords : ∀ line, allNumbers line =
      (wordsBy (fun c => !c.isDigit) line).filterMap (parseUnsigned 64) := fun _ => rfl
  have hsolid : Solid (fun c => !c.isDigit) (natText n) := by
    intro c hdigit
    simp [natText_isDigit n c hdigit]
  simp only [hwords]
  rw [wordsBy_append_cons _ _ (by simp [hc]), wordsBy_append_cons _ _ (by simp [hd]),
    wordsBy_of_solid hsolid (natText_ne_nil n), List.filterMap_append, List.filterMap_append]
  simp [parseUnsigned_natText 64 n hn]

/-! ## The disk -/

/-- The pattern ` on ` reaches one space into what follows at most. -/
theorem on_prefix_append {front rest : Text} (hne : front ≠ [])
    (h : " on ".toList <+: front ++ ' ' :: rest) : " on ".toList <+: front ++ " ".toList := by
  have hseam : ∀ n < " on ".toList.length, 0 < n → (" on ".toList.drop n).head? = some ' ' →
      " on ".toList = " on ".toList.take n ++ " ".toList := by decide
  rcases prefix_append_cases h with hwhole | ⟨r, hr, heq, hprefix⟩
  · exact hwhole.trans (List.prefix_append ..)
  · have hlen : front.length < " on ".toList.length := by
      rw [heq, List.length_append]
      exact Nat.lt_add_of_pos_right (List.length_pos_iff.mpr hr)
    have hdrop : " on ".toList.drop front.length = r := by rw [heq, List.drop_left]
    have htake : " on ".toList.take front.length = front := by rw [heq, List.take_left]
    have hhead : r.head? = some ' ' := by
      obtain ⟨c, more, rfl⟩ := List.exists_cons_of_ne_nil hr
      obtain ⟨rfl, -⟩ := List.cons_prefix_cons.mp hprefix
      rfl
    have hwhole := hseam _ hlen (List.length_pos_iff.mpr hne) (by rw [hdrop, hhead])
    rw [htake] at hwhole
    rw [hwhole]

/-- An ` on ` in a text with a space lies on one side of the space. -/
theorem on_infix_append {front rest : Text} (h : " on ".toList <:+: front ++ ' ' :: rest) :
    " on ".toList <:+: front ++ " ".toList ∨ " on ".toList <:+: ' ' :: rest := by
  induction front with
  | nil => exact .inr h
  | cons c cs ih =>
    rcases List.infix_cons_iff.mp h with hprefix | hinside
    · exact .inl (on_prefix_append (List.cons_ne_nil c cs) hprefix).isInfix
    · rcases ih hinside with hfront | hrest
      · exact .inl (hfront.trans (List.suffix_cons c _).isInfix)
      · exact .inr hrest

/-- The pattern ` in background` does not overlap itself. -/
theorem background_prefix_append {front rest : Text} (hne : front ≠ [])
    (h : " in background".toList <+: front ++ (" in background".toList ++ rest)) :
    " in background".toList <+: front := by
  have hborder : ∀ n < " in background".toList.length, 0 < n →
      ¬" in background".toList.drop n <+: " in background".toList := by decide
  rcases prefix_append_cases h with hwhole | ⟨r, hr, heq, hprefix⟩
  · exact hwhole
  · have hlen : front.length < " in background".toList.length := by
      rw [heq, List.length_append]
      exact Nat.lt_add_of_pos_right (List.length_pos_iff.mpr hr)
    have hdrop : " in background".toList.drop front.length = r := by rw [heq, List.drop_left]
    have hshort : r.length ≤ " in background".toList.length := by
      rw [← hdrop, List.length_drop]
      exact Nat.sub_le _ _
    have hown : r <+: " in background".toList :=
      List.prefix_of_prefix_length_le hprefix (List.prefix_append ..) hshort
    exact absurd (hdrop ▸ hown) (hborder _ hlen (List.length_pos_iff.mpr hne))

/-- The disk of a start line comes back. -/
theorem startedDisk_print {id disk : Text} (htrim : trim disk = disk)
    (hid : containsText " on ".toList (" ".toList ++ id ++ " ".toList) = false)
    (hdisk : containsText " on ".toList (disk ++ " ".toList) = false)
    (hbackground : containsText " in background".toList disk = false) :
    startedDisk (" ".toList ++ id ++ (" on ".toList ++ (disk ++ " in background".toList))) = disk := by
  rw [containsText_eq_false_iff (by decide)] at hid hdisk hbackground
  have hsplit : splitOnceText " on ".toList
      (" ".toList ++ id ++ (" on ".toList ++ (disk ++ " in background".toList))) =
        some (" ".toList ++ id, disk ++ " in background".toList) := by
    refine splitOnceText_append (by decide) _ fun s hs hne hprefix => hid ?_
    obtain ⟨front, hfront⟩ := hs
    have hspace : s ++ " ".toList <:+ " ".toList ++ id ++ " ".toList :=
      ⟨front, by rw [← List.append_assoc, hfront]⟩
    exact (on_prefix_append hne hprefix).isInfix.trans hspace.isInfix
  have hpart : beforeText " on ".toList (disk ++ " in background".toList) =
      disk ++ " in background".toList := by
    rw [beforeText, splitOnceText_eq_none (by decide)]
    · rfl
    · intro hinside
      have hspace : " in background".toList = ' ' :: "in background".toList := rfl
      rw [hspace] at hinside
      rcases on_infix_append hinside with hown | hrest
      · exact hdisk hown
      · revert hrest
        decide
  have hbefore : beforeText " in background".toList (disk ++ " in background".toList) = disk := by
    have hfirst : splitOnceText " in background".toList
        (disk ++ (" in background".toList ++ [])) = some (disk, []) :=
      splitOnceText_append (by decide) [] fun s hs hne hprefix =>
        hbackground ((background_prefix_append hne hprefix).isInfix.trans hs.isInfix)
    rw [List.append_nil] at hfirst
    rw [beforeText, hfirst]
    rfl
  simp only [startedDisk, hsplit, hpart, hbefore, htrim]

/-! ## Printed and read back -/

namespace LogLine

/-- A start is read back from its text. -/
theorem parseLine_print_started {id disk : Text} (h : (started id disk).WellFormed) :
    parseLine (started id disk).print = (started id disk).event := by
  obtain ⟨-, ⟨-, -, htidy⟩, hid, hdisk, hbackground⟩ := h
  have hkey : "Flow-over: migrating to local slab ".toList =
      "Flow-over: migrating to local slab".toList ++ " ".toList := by decide
  have hshape : ∀ key space on background : Text,
      key ++ space ++ id ++ on ++ disk ++ background =
        key ++ (space ++ id ++ (on ++ (disk ++ background))) := by simp
  have hends : ∀ front middle last : Text, front ++ (middle ++ (disk ++ last)) =
      (front ++ middle ++ disk) ++ last := by simp
  have hline : (started id disk).print = "Flow-over: migrating to local slab".toList ++
      (" ".toList ++ id ++ (" on ".toList ++ (disk ++ " in background".toList))) := by
    rw [print_started, hkey]
    exact hshape ..
  have htrim : trim (started id disk).print = (started id disk).print := by
    rw [hline, hends]
    exact trim_key_append (by decide) (List.append_ne_nil_of_right_ne_nil _ (by decide)) (by
      rw [List.getLast?_append_of_ne_nil _ (by decide)]
      decide)
  rw [parseLine_started (htrim.trans hline), startedDisk_print htidy hid hdisk hbackground, event]

/-- A completion on the local disk is read back. -/
theorem parseLine_print_onLocalDisk {moved : ℕ} (h : moved < 2 ^ 64) :
    parseLine (onLocalDisk moved).print = (onLocalDisk moved).event := by
  have hkey : "Flow-over complete: ".toList = "Flow-over complete:".toList ++ [' '] ∧
      " extent(s) now on local disk".toList = ' ' :: "extent(s) now on local disk".toList := by
    decide
  have hshape : ∀ key number rest : Text, key ++ [' '] ++ number ++ ' ' :: rest =
      key ++ ' ' :: (number ++ ' ' :: rest) := by simp
  have hends : ∀ key number rest : Text, key ++ ' ' :: (number ++ ' ' :: rest) =
      key ++ ((' ' :: number ++ [' ']) ++ rest) := by simp
  have hline : (onLocalDisk moved).print = "Flow-over complete:".toList ++
      ' ' :: (natText moved ++ ' ' :: "extent(s) now on local disk".toList) := by
    rw [print_onLocalDisk, hkey.1, hkey.2]
    exact hshape ..
  have htrim : trim (onLocalDisk moved).print = (onLocalDisk moved).print := by
    rw [hline, hends]
    exact trim_key_append (by decide) (List.append_ne_nil_of_right_ne_nil _ (by decide)) (by
      rw [List.getLast?_append_of_ne_nil _ (by decide)]
      decide)
  have hnumbers : allNumbers (onLocalDisk moved).print = [moved] := by
    have hnone : allNumbers "Flow-over complete:".toList = [] ∧
        allNumbers "extent(s) now on local disk".toList = [] := by decide
    rw [hline, allNumbers_around _ _ (by decide) (by decide) h, hnone.1, hnone.2]
    rfl
  have hprefix : "Flow-over complete:".toList <+: trim (onLocalDisk moved).print := by
    rw [htrim, hline]
    exact List.prefix_append ..
  rw [parseLine_onLocalDisk hprefix, htrim, firstNumber, hnumbers]
  rfl

/-- A completion with its failures is read back, if both counts fit 64 bits. -/
theorem parseLine_print_complete {moved failed : ℕ} (hmoved : moved < 2 ^ 64)
    (hfailed : failed < 2 ^ 64) :
    parseLine (complete moved failed).print = (complete moved failed).event := by
  have hkey : "flow-over complete: ".toList = "flow-over complete:".toList ++ [' '] ∧
      " extent(s) migrated, ".toList = ' ' :: ("extent(s) migrated,".toList ++ [' ']) ∧
      " failed".toList = ' ' :: "failed".toList := by
    decide
  have hshape : ∀ key number middle count last : Text,
      key ++ [' '] ++ number ++ ' ' :: (middle ++ [' ']) ++ count ++ ' ' :: last =
        key ++ ' ' :: (number ++ ' ' :: (middle ++ ' ' :: (count ++ ' ' :: last))) := by simp
  have hends : ∀ key number middle count last : Text,
      key ++ ' ' :: (number ++ ' ' :: (middle ++ ' ' :: (count ++ ' ' :: last))) =
        key ++ ((' ' :: number ++ ' ' :: middle ++ ' ' :: count ++ [' ']) ++ last) := by simp
  have hline : (complete moved failed).print = "flow-over complete:".toList ++
      ' ' :: (natText moved ++ ' ' :: ("extent(s) migrated,".toList ++
        ' ' :: (natText failed ++ ' ' :: "failed".toList))) := by
    rw [print_complete, hkey.1, hkey.2.1, hkey.2.2]
    exact hshape ..
  have htrim : trim (complete moved failed).print = (complete moved failed).print := by
    rw [hline, hends]
    exact trim_key_append (by decide) (List.append_ne_nil_of_right_ne_nil _ (by decide)) (by
      rw [List.getLast?_append_of_ne_nil _ (by decide)]
      decide)
  have hnumbers : allNumbers (complete moved failed).print = [moved, failed] := by
    have hnone : allNumbers "flow-over complete:".toList = [] ∧
        allNumbers "extent(s) migrated,".toList = [] ∧ allNumbers "failed".toList = [] := by
      decide
    rw [hline, allNumbers_around _ _ (by decide) (by decide) hmoved,
      allNumbers_around _ _ (by decide) (by decide) hfailed, hnone.1, hnone.2.1, hnone.2.2]
    rfl
  have hprefix : "flow-over complete:".toList <+: trim (complete moved failed).print := by
    rw [htrim, hline]
    exact List.prefix_append ..
  rw [parseLine_complete hprefix, htrim, hnumbers]
  rfl

/-- A failed extent is read back with its detail. -/
theorem parseLine_print_extent {detail : Text} (h : Tidy detail) :
    parseLine (extent detail).print = (extent detail).event := by
  obtain ⟨-, hne, htidy⟩ := h
  have hend : detail.getLast?.any isWhitespace = false := by
    cases hlast : detail.getLast? with
    | none => rfl
    | some c => exact isWhitespace_of_getLast?_trim (htidy.symm ▸ hlast)
  have htrim : trim (extent detail).print = "flow-over: extent ".toList ++ detail :=
    trim_key_append (by decide) hne hend
  rw [parseLine_extent htrim, htidy]
  rfl

/-- What is printed is read back. -/
theorem parseLine_print {line : LogLine} (h : line.WellFormed) :
    parseLine line.print = line.event := by
  cases line with
  | started id disk => exact parseLine_print_started h
  | onLocalDisk moved => exact parseLine_print_onLocalDisk h
  | complete moved failed => exact parseLine_print_complete h.1 h.2
  | aborting reason => exact parseLine_aborting (key_prefix_trim (by decide) (by decide) reason)
  | extent detail => exact parseLine_print_extent h
  | other line => exact parseLine_other h.2

/-- The end of the line changes nothing. -/
theorem parseLine_print_newline {line : LogLine} (h : line.WellFormed) :
    parseLine (line.print ++ ['\n']) = line.event := by
  rw [← parseLine_print h]
  unfold parseLine
  rw [trim_append_blank _ (by decide)]

/-- A printed line is one line. -/
theorem newline_notMem_print {line : LogLine} (h : line.WellFormed) : '\n' ∉ line.print := by
  have hnumber : ∀ n, '\n' ∉ natText n := fun n hmem =>
    absurd (natText_isDigit n _ hmem) (by decide)
  have hclean : ∀ text ∈ ["Flow-over: migrating to local slab ", " on ", " in background",
      "Flow-over complete: ", " extent(s) now on local disk", "flow-over complete: ",
      " extent(s) migrated, ", " failed", "flow-over: aborting", "flow-over: extent "],
      '\n' ∉ text.toList := by decide
  have happend : ∀ {a b : Text}, '\n' ∉ a → '\n' ∉ b → '\n' ∉ a ++ b := fun ha hb hmem =>
    (List.mem_append.mp hmem).elim ha hb
  cases line with
  | started id disk =>
    exact happend (happend (happend (happend (hclean _ (by decide)) h.1) (hclean _ (by decide)))
      h.2.1.1) (hclean _ (by decide))
  | onLocalDisk moved =>
    exact happend (happend (hclean _ (by decide)) (hnumber moved)) (hclean _ (by decide))
  | complete moved failed =>
    exact happend (happend (happend (happend (hclean _ (by decide)) (hnumber moved))
      (hclean _ (by decide))) (hnumber failed)) (hclean _ (by decide))
  | aborting reason => exact happend (hclean _ (by decide)) h
  | extent detail => exact happend (hclean _ (by decide)) h.1
  | other line => exact h.1

end LogLine

end Stormnetboot.Agent

import Mathlib.Algebra.GroupWithZero.Nat
import Mathlib.Data.Char
import Mathlib.Data.List.DropRight
import Mathlib.Data.List.Infix
import Mathlib.Data.List.Lex
import Mathlib.Tactic.SplitIfs

/-!
# Rust string operations on lists of scalar values

A `String` or `&str` is the list of its Unicode scalar values, so that the functions of
the standard library used on it are structural recursions. Whitespace is the `White_Space`
property, which is what `char::is_whitespace` tests; the ASCII case maps leave every
other character alone.
-/

namespace Stormnetboot.Common

/-- A Rust string, as the list of its scalar values. -/
abbrev Text := List Char

/-- What holds of every character of a text is decided along the text, not along all of
Unicode. -/
instance (priority := 1100) decidableForallChar (s : Text) (p : Char → Prop) [DecidablePred p] :
    Decidable (∀ c ∈ s, p c) :=
  List.decidableBAll p s

/-- `char::is_whitespace`: the Unicode `White_Space` property. -/
def isWhitespace (c : Char) : Bool :=
  let n := c.toNat
  (0x09 ≤ n && n ≤ 0x0D) || n == 0x20 || n == 0x85 || n == 0xA0 || n == 0x1680 ||
    (0x2000 ≤ n && n ≤ 0x200A) || n == 0x2028 || n == 0x2029 || n == 0x202F ||
    n == 0x205F || n == 0x3000

/-- `str::trim`. -/
def trim (s : Text) : Text :=
  (s.dropWhile isWhitespace).rdropWhile isWhitespace

/-- `str::to_ascii_lowercase`. -/
def toAsciiLowercase (s : Text) : Text :=
  s.map Char.toLower

/-- The decimal text of an unsigned integer. -/
def natText (n : ℕ) : Text :=
  Nat.toDigits 10 n

/-- `str::strip_prefix`. -/
def stripPrefix : Text → Text → Option Text
  | [], s => some s
  | _ :: _, [] => none
  | p :: ps, c :: cs => if p = c then stripPrefix ps cs else none

/-- `[Text]::join`. -/
def joinWith (separator : Text) (parts : List Text) : Text :=
  separator.intercalate parts

/-- The number written by a non-empty run of decimal digits. -/
def parseDigits (s : Text) : Option ℕ :=
  if s.isEmpty || !s.all Char.isDigit then none
  else some (s.foldl (fun n c => 10 * n + (c.toNat - 48)) 0)

/-- `str::parse` into an unsigned integer of the given width: an optional plus sign, then
digits whose number fits. -/
def parseUnsigned (width : ℕ) (s : Text) : Option ℕ :=
  let digits := match s with
    | '+' :: rest => rest
    | _ => s
  (parseDigits digits).filter (· < 2 ^ width)

/-- `str::split_whitespace`. -/
def splitWhitespace (s : Text) : List Text :=
  (s.splitOnP isWhitespace).filter (!·.isEmpty)

/-- `str::split_once` on a character: what stands before its first occurrence, and after. -/
def splitOnce (c : Char) (s : Text) : Option (Text × Text) :=
  match s.dropWhile (· ≠ c) with
  | [] => none
  | _ :: rest => some (s.takeWhile (· ≠ c), rest)

/-- Split at the last occurrence of a character, as `str::rfind` and the slices around it do. -/
def splitLast (c : Char) (s : Text) : Option (Text × Text) :=
  match s.rdropWhile (· ≠ c) with
  | [] => none
  | front => some (front.dropLast, s.rtakeWhile (· ≠ c))

/-- `str::replace` of one character by another. -/
def replaceChar (old new : Char) (s : Text) : Text :=
  s.map fun c => if c = old then new else c

/-- `str::split_once` on a string. -/
def splitOnceText (pat : Text) : Text → Option (Text × Text)
  | [] => if pat.isEmpty then some ([], []) else none
  | c :: cs =>
    match stripPrefix pat (c :: cs) with
    | some rest => some ([], rest)
    | none => (splitOnceText pat cs).map fun (front, rest) => (c :: front, rest)

/-- The first part of `str::split` on a string. -/
def beforeText (pat s : Text) : Text :=
  ((splitOnceText pat s).map Prod.fst).getD s

/-- `str::contains` of a string. -/
def containsText (pat s : Text) : Bool :=
  (splitOnceText pat s).isSome

/-- `str::split_inclusive`: every part with the separator that ends it. -/
def splitInclusive {α : Type} [DecidableEq α] (separator : α) : List α → List (List α)
  | [] => []
  | c :: cs =>
    if c = separator then [c] :: splitInclusive separator cs
    else
      match splitInclusive separator cs with
      | [] => [[c]]
      | part :: rest => (c :: part) :: rest

/-- Strip the terminator of a line: a newline and, before it, a carriage return. -/
def stripLineEnd (line : Text) : Text :=
  match line.getLast? with
  | some '\n' =>
    let line := line.dropLast
    if line.getLast? = some '\r' then line.dropLast else line
  | _ => line

/-- `str::lines`. -/
def lines (s : Text) : List Text :=
  (splitInclusive '\n' s).map stripLineEnd

/-- `str::len`: the number of bytes of the UTF-8 encoding. -/
def utf8Len (s : Text) : ℕ :=
  (s.map Char.utf8Size).sum

/-- The slice of the first `n` bytes; `none` is the panic of a slice that ends inside a
character or beyond the end. -/
def takeBytes : ℕ → Text → Option Text
  | 0, _ => some []
  | _ + 1, [] => none
  | n + 1, c :: cs =>
    if c.utf8Size ≤ n + 1 then (takeBytes (n + 1 - c.utf8Size) cs).map (c :: ·) else none
termination_by structural _ s => s

/-- `Debug` of a list of strings that hold no control characters. -/
def debugTexts (parts : List Text) : Text :=
  let quoted := parts.map fun s =>
    ['"'] ++ s.flatMap (fun c => if c = '"' || c = '\\' then ['\\', c] else [c]) ++ ['"']
  "[".toList ++ joinWith ", ".toList quoted ++ "]".toList

/-- Whether the last character is a decimal digit. -/
def endsWithDigit (s : Text) : Bool :=
  s.getLast?.any Char.isDigit

/-- Remove the pattern from the front at most `fuel` times. -/
def trimStartMatchesUpTo (pat : Text) : ℕ → Text → Text
  | 0, s => s
  | fuel + 1, s =>
    match stripPrefix pat s with
    | some rest => trimStartMatchesUpTo pat fuel rest
    | none => s

/-- `str::trim_start_matches` with a non-empty string pattern, which is removed as often as
it stands at the front; a string cannot start with it more often than it has characters. -/
def trimStartMatches (pat s : Text) : Text :=
  trimStartMatchesUpTo pat s.length s

/-- `Path::join` of a directory, written without a final slash, and a relative path. -/
def joinPath (dir file : Text) : Text :=
  dir ++ "/".toList ++ file

/-- Lowercasing moves exactly the code points of the upper-case ASCII letters. -/
theorem toNat_toLower (c : Char) :
    c.toLower.toNat = if 65 ≤ c.toNat ∧ c.toNat ≤ 90 then c.toNat + 32 else c.toNat := by
  by_cases h : c.val ≥ 'A'.val ∧ c.val ≤ 'Z'.val
  · have hn : 65 ≤ c.toNat ∧ c.toNat ≤ 90 := h
    have hlower : c.toLower.val = c.val + 32 := congrArg Char.val (dif_pos h)
    rw [if_pos hn, Char.toNat, hlower, UInt32.toNat_add]
    change (c.toNat + 32) % 2 ^ 32 = c.toNat + 32
    omega
  · have hn : ¬ (65 ≤ c.toNat ∧ c.toNat ≤ 90) := h
    have hlower : c.toLower = c := dif_neg h
    rw [hlower, if_neg hn]

/-- ASCII lowercasing of a character is idempotent. -/
@[simp] theorem toLower_toLower (c : Char) : c.toLower.toLower = c.toLower := by
  apply Char.toNat_inj.mp
  rw [toNat_toLower c.toLower, toNat_toLower c]
  split_ifs <;> omega

/-- Lowercasing a second time changes nothing. -/
@[simp] theorem toAsciiLowercase_idem (s : Text) :
    toAsciiLowercase (toAsciiLowercase s) = toAsciiLowercase s := by
  simp [toAsciiLowercase]

/-- What ends with a separator is split apart from what follows it. -/
theorem splitInclusive_append {α : Type} [DecidableEq α] (separator : α) (a b : List α)
    (h : a = [] ∨ a.getLast? = some separator) :
    splitInclusive separator (a ++ b) =
      splitInclusive separator a ++ splitInclusive separator b := by
  induction a with
  | nil => rfl
  | cons c cs ih =>
    have hcs : cs = [] ∨ cs.getLast? = some separator := by
      cases cs with
      | nil => exact .inl rfl
      | cons d ds => exact .inr (by simpa [List.getLast?_cons_cons] using h)
    rw [List.cons_append, splitInclusive, splitInclusive, ih hcs]
    split_ifs with hc
    · rfl
    · -- The last element is not this one, so something follows it.
      cases hsplit : splitInclusive separator cs with
      | nil =>
        have hnil : cs = [] := by
          cases cs with
          | nil => rfl
          | cons d ds =>
            rw [splitInclusive] at hsplit
            split_ifs at hsplit
            cases hrest : splitInclusive separator ds <;> rw [hrest] at hsplit <;> cases hsplit
        subst hnil
        simp at h
        exact absurd h hc
      | cons part rest => rfl

/-- A part without its separator is one part. -/
theorem splitInclusive_singleton {α : Type} [DecidableEq α] (separator : α) (a : List α)
    (h : separator ∉ a) : splitInclusive separator (a ++ [separator]) = [a ++ [separator]] := by
  induction a with
  | nil => simp [splitInclusive]
  | cons c cs ih =>
    have hc : c ≠ separator := fun heq => h (heq ▸ List.mem_cons_self)
    rw [List.cons_append, splitInclusive, if_neg hc, ih fun hmem => h (List.mem_cons_of_mem _ hmem)]

/-- The separator stands at the end of a part or not in it at all. -/
theorem exists_of_mem_splitInclusive {α : Type} [DecidableEq α] {separator : α} {s part : List α}
    (h : part ∈ splitInclusive separator s) :
    ∃ a, separator ∉ a ∧ (part = a ∨ part = a ++ [separator]) := by
  induction s generalizing part with
  | nil => cases h
  | cons c cs ih =>
    rw [splitInclusive] at h
    split_ifs at h with hc
    · rcases List.mem_cons.mp h with rfl | hmem
      · exact ⟨[], List.not_mem_nil, .inr (by rw [hc, List.nil_append])⟩
      · exact ih hmem
    · cases hsplit : splitInclusive separator cs with
      | nil =>
        rw [hsplit] at h
        obtain rfl := List.mem_singleton.mp h
        exact ⟨[c], by simpa using Ne.symm hc, .inl rfl⟩
      | cons first rest =>
        rw [hsplit] at h
        rcases List.mem_cons.mp h with rfl | hmem
        · obtain ⟨a, ha, hfirst⟩ := ih (hsplit ▸ List.mem_cons_self)
          refine ⟨c :: a, by simpa [Ne.symm hc] using ha, ?_⟩
          rcases hfirst with rfl | rfl
          · exact .inl rfl
          · exact .inr rfl
        · exact ih (hsplit ▸ List.mem_cons_of_mem _ hmem)

/-- A line's terminator is stripped, and a carriage return before it. -/
theorem stripLineEnd_append_newline (line : Text) (h : line.getLast? ≠ some '\r') :
    stripLineEnd (line ++ ['\n']) = line := by
  simp [stripLineEnd, h]

/-- A line holds no newline. -/
theorem newline_notMem_of_mem_lines {s line : Text} (h : line ∈ lines s) : '\n' ∉ line := by
  obtain ⟨part, hpart, rfl⟩ := List.mem_map.mp h
  obtain ⟨a, ha, rfl | rfl⟩ := exists_of_mem_splitInclusive hpart
  · unfold stripLineEnd
    split
    · rename_i hlast
      exact absurd (List.mem_of_getLast? hlast) ha
    · exact ha
  · unfold stripLineEnd
    rw [List.getLast?_concat, List.dropLast_concat]
    simp only
    split_ifs
    · exact fun hmem => ha (List.dropLast_subset _ hmem)
    · exact ha

/-- A prefix is stripped exactly where it stands. -/
theorem stripPrefix_eq_some_iff (p s rest : Text) :
    stripPrefix p s = some rest ↔ s = p ++ rest := by
  induction p generalizing s with
  | nil => exact ⟨fun h => Option.some.inj h, fun h => congrArg some h⟩
  | cons c cs ih =>
    cases s with
    | nil => simp only [stripPrefix, reduceCtorEq, List.cons_append]
    | cons d ds =>
      rw [stripPrefix]
      split_ifs with hc
      · rw [ih, hc, List.cons_append, List.cons.injEq, and_iff_right rfl]
      · simp only [List.cons_append, List.cons.injEq, false_iff, not_and]
        exact fun heq => absurd heq.symm hc

/-! ## Trimming -/

/-- Trimming only takes characters away. -/
theorem mem_of_mem_trim {c : Char} {s : Text} (h : c ∈ trim s) : c ∈ s :=
  (List.dropWhile_suffix _).subset ((List.rdropWhile_prefix _ _).subset h)

/-- A trimmed text does not end in whitespace. -/
theorem isWhitespace_of_getLast?_trim {c : Char} {s : Text} (h : (trim s).getLast? = some c) :
    isWhitespace c = false := by
  have hne : trim s ≠ [] := by
    rintro heq
    rw [heq] at h
    cases h
  have hnot := List.rdropWhile_last_not isWhitespace (s.dropWhile isWhitespace) hne
  rw [List.getLast?_eq_some_getLast hne, Option.some.injEq] at h
  rw [← h]
  simpa [trim] using hnot

/-- A trimmed text does not start with whitespace. -/
theorem isWhitespace_of_head?_trim {c : Char} {s : Text} (h : (trim s).head? = some c) :
    isWhitespace c = false := by
  have hhead : (s.dropWhile isWhitespace).head? = some c := by
    obtain ⟨rest, hrest⟩ := List.rdropWhile_prefix isWhitespace (s.dropWhile isWhitespace)
    rw [← hrest, List.head?_append]
    rw [trim] at h
    rw [h]
    rfl
  have hnot := List.head?_dropWhile_not isWhitespace s
  rw [hhead] at hnot
  simpa using hnot

/-- A text that neither starts nor ends with whitespace is trimmed. -/
theorem trim_eq_self {s : Text} (hfirst : ∀ c, s.head? = some c → isWhitespace c = false)
    (hlast : ∀ c, s.getLast? = some c → isWhitespace c = false) : trim s = s := by
  have hdrop : s.dropWhile isWhitespace = s := by
    cases s with
    | nil => rfl
    | cons c cs => exact List.dropWhile_cons_of_neg (by simp [hfirst c rfl])
  rw [trim, hdrop, List.rdropWhile_eq_self_iff]
  intro hne
  simp [hlast _ (List.getLast?_eq_some_getLast hne)]

/-! ## Decimal numbers -/

/-- The digits of a number are digits. -/
theorem natText_isDigit (n : ℕ) : ∀ c ∈ natText n, c.isDigit = true :=
  fun _ hc => Nat.isDigit_of_mem_toDigits (by decide) (by decide) hc

/-- A number is written with at least one digit. -/
theorem natText_ne_nil (n : ℕ) : natText n ≠ [] :=
  Nat.toDigits_ne_nil

/-- Different numbers are written differently. -/
theorem natText_inj {n m : ℕ} (h : natText n = natText m) : n = m := by
  rw [← Nat.ofDigitChars_ten_toDigits (n := n), ← Nat.ofDigitChars_ten_toDigits (n := m)]
  exact congrArg (Nat.ofDigitChars 10 · 0) h

/-- Where something other than a digit follows, a number and what follows it can be told
apart. -/
theorem natText_append_inj {n m : ℕ} {c d : Char} {s t : Text} (hc : c.isDigit = false)
    (hd : d.isDigit = false) (h : natText n ++ c :: s = natText m ++ d :: t) :
    n = m ∧ c :: s = d :: t := by
  have htake : ∀ (k : ℕ) (e : Char) (u : Text), e.isDigit = false →
      (natText k ++ e :: u).takeWhile Char.isDigit = natText k := fun k e u he => by
    rw [List.takeWhile_append_of_pos (natText_isDigit k), List.takeWhile_cons_of_neg (by simp [he]),
      List.append_nil]
  have hdigits : natText n = natText m := by
    rw [← htake n c s hc, h, htake m d t hd]
  obtain rfl := natText_inj hdigits
  exact ⟨rfl, List.append_cancel_left h⟩

end Stormnetboot.Common

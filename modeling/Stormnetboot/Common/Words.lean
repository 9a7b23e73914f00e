import Stormnetboot.Common.Text

/-!
# Words of a text

A text is read as the words between its whitespace, whatever counts as whitespace. Joining
texts with spaces joins their words; a key put before a value keeps the value's first word, and
the words after it stand on their own.
-/

namespace Stormnetboot.Common

/-- The words between the separators. -/
def wordsBy (space : Char → Bool) (s : Text) : List Text :=
  (s.splitOnP space).filter (!·.isEmpty)

/-- The words of `str::split_whitespace` are those between Unicode whitespace. -/
theorem splitWhitespace_eq (s : Text) : splitWhitespace s = wordsBy isWhitespace s := rfl

variable {space : Char → Bool}

/-- The text has no whitespace. -/
def Solid (space : Char → Bool) (s : Text) : Prop :=
  ∀ c ∈ s, space c = false

/-- Whether a text is one word is decided on its characters. -/
instance (space : Char → Bool) (s : Text) : Decidable (Solid space s) :=
  inferInstanceAs (Decidable (∀ c ∈ s, space c = false))

/-- What stands before the first whitespace. -/
def firstWord (space : Char → Bool) (s : Text) : Text :=
  s.takeWhile fun c => !space c

/-- The words after the first whitespace. -/
def strayWords (space : Char → Bool) (s : Text) : List Text :=
  wordsBy space (s.dropWhile fun c => !space c)

/-- Two words without a space between them are one. -/
theorem solid_append {a b : Text} (ha : Solid space a) (hb : Solid space b) :
    Solid space (a ++ b) :=
  fun c hc => (List.mem_append.mp hc).elim (ha c) (hb c)

/-- A first word is a word. -/
theorem solid_firstWord (s : Text) : Solid space (firstWord space s) :=
  fun c hc => by simpa using List.mem_takeWhile_imp hc

/-- A number is a word. -/
theorem solid_natText (n : ℕ) : Solid isWhitespace (natText n) := by
  intro c hc
  have hdigit := natText_isDigit n c hc
  simp only [Char.isDigit, Bool.and_eq_true, decide_eq_true_eq] at hdigit
  have hlow : 48 ≤ c.toNat := hdigit.1
  have hhigh : c.toNat ≤ 57 := hdigit.2
  simp only [isWhitespace, Bool.or_eq_false_iff, Bool.and_eq_false_iff, decide_eq_false_iff_not,
    beq_eq_false_iff_ne]
  omega

/-! ## Splitting -/

/-- The words around a whitespace are those before it and those after it. -/
theorem wordsBy_append_cons (a b : Text) {c : Char} (hc : space c = true) :
    wordsBy space (a ++ c :: b) = wordsBy space a ++ wordsBy space b := by
  unfold wordsBy
  rw [List.splitOnP_append_cons a b hc, List.filter_append]

/-- An empty text has no words. -/
@[simp] theorem wordsBy_nil : wordsBy space [] = [] := rfl

/-- A space in front of a text adds no word. -/
theorem wordsBy_cons (s : Text) {c : Char} (hc : space c = true) :
    wordsBy space (c :: s) = wordsBy space s := by
  have hsplit := wordsBy_append_cons [] s hc
  rwa [List.nil_append, wordsBy_nil, List.nil_append] at hsplit

/-- A text that is empty or starts with whitespace adds its own words. -/
theorem wordsBy_append_of_head (a : Text) {b : Text} (hb : ∀ c ∈ b.head?, space c = true) :
    wordsBy space (a ++ b) = wordsBy space a ++ wordsBy space b := by
  cases b with
  | nil => rw [List.append_nil, wordsBy_nil, List.append_nil]
  | cons c cs =>
    have hc := hb c rfl
    rw [wordsBy_append_cons a cs hc, wordsBy_cons cs hc]

/-- The words of the first line of a text are words of the text. -/
theorem wordsBy_takeWhile_subset (hspace : space '\n' = true) (s : Text) :
    wordsBy space (s.takeWhile (· ≠ '\n')) ⊆ wordsBy space s := by
  have hsplit : s.takeWhile (· ≠ '\n') ++ s.dropWhile (· ≠ '\n') = s :=
    List.takeWhile_append_dropWhile
  cases hdrop : s.dropWhile (· ≠ '\n') with
  | nil =>
    rw [hdrop, List.append_nil] at hsplit
    rw [hsplit]
    exact List.Subset.refl _
  | cons c cs =>
    have hc : c = '\n' := by
      have hnot := List.head?_dropWhile_not (· ≠ '\n') s
      rw [hdrop] at hnot
      simpa using hnot
    rw [hdrop] at hsplit
    nth_rewrite 2 [← hsplit]
    rw [wordsBy_append_cons _ _ (hc ▸ hspace)]
    exact List.subset_append_left _ _

/-- A text without whitespace is one word, if it is not empty. -/
theorem wordsBy_of_solid {s : Text} (hs : Solid space s) (hne : s ≠ []) :
    wordsBy space s = [s] := by
  unfold wordsBy
  rw [List.splitOnP_eq_singleton hs]
  cases s with
  | nil => exact absurd rfl hne
  | cons c cs => rfl

/-- A key keeps the first word of its value. -/
theorem wordsBy_append_of_solid {key : Text} (value : Text) (hkey : Solid space key)
    (hne : key ≠ []) :
    wordsBy space (key ++ value) = (key ++ firstWord space value) :: strayWords space value := by
  have hfirst : Solid space (key ++ firstWord space value) :=
    solid_append hkey (solid_firstWord value)
  have hnonempty : key ++ firstWord space value ≠ [] :=
    fun h => hne (List.append_eq_nil_iff.mp h).1
  have hsplit : key ++ value =
      key ++ firstWord space value ++ value.dropWhile fun c => !space c := by
    rw [List.append_assoc, firstWord, List.takeWhile_append_dropWhile]
  rw [hsplit, strayWords]
  cases hrest : value.dropWhile fun c => !space c with
  | nil => rw [List.append_nil, wordsBy_of_solid hfirst hnonempty, wordsBy_nil]
  | cons c cs =>
    have hc : space c = true := by
      have hnot := List.head?_dropWhile_not (fun c => !space c) value
      rw [hrest] at hnot
      simpa using hnot
    rw [wordsBy_append_cons _ _ hc, wordsBy_of_solid hfirst hnonempty,
      ← List.nil_append (c :: cs), wordsBy_append_cons _ _ hc]
    rfl

/-- A word is its own first word. -/
theorem firstWord_of_solid {s : Text} (hs : Solid space s) : firstWord space s = s :=
  List.takeWhile_eq_self_iff.mpr fun c hc => by rw [hs c hc]; rfl

/-- The first word ends where its line does, at the latest. -/
theorem firstWord_takeWhile_newline (hspace : space '\n' = true) (s : Text) :
    firstWord space (s.takeWhile (· ≠ '\n')) = firstWord space s := by
  induction s with
  | nil => rfl
  | cons c cs ih =>
    unfold firstWord at ih ⊢
    by_cases hc : c = '\n'
    · simp [hc, hspace]
    · have hkept : (c :: cs).takeWhile (· ≠ '\n') = c :: cs.takeWhile (· ≠ '\n') :=
        List.takeWhile_cons_of_pos (decide_eq_true hc)
      rw [hkept, List.takeWhile_cons, List.takeWhile_cons, ih]

/-- Nothing follows in one word. -/
theorem strayWords_of_solid {s : Text} (hs : Solid space s) : strayWords space s = [] := by
  have hnil : s.dropWhile (fun c => !space c) = [] :=
    List.dropWhile_eq_nil_iff.mpr fun c hc => by rw [hs c hc]; rfl
  rw [strayWords, hnil, wordsBy_nil]

/-- One part is joined with nothing. -/
theorem joinWith_singleton (separator part : Text) : joinWith separator [part] = part := by
  simp [joinWith, List.intercalate]

/-- Two parts are joined by the separator. -/
theorem joinWith_cons_next (separator part next : Text) (rest : List Text) :
    joinWith separator (part :: next :: rest) =
      part ++ (separator ++ joinWith separator (next :: rest)) := by
  simp [joinWith, List.intercalate]

/-- Joined by spaces, two parts have one between them. -/
theorem joinWith_cons_cons (part next : Text) (rest : List Text) :
    joinWith " ".toList (part :: next :: rest) =
      part ++ ' ' :: joinWith " ".toList (next :: rest) :=
  joinWith_cons_next ..

/-- A joined text has the characters of its parts and of the separator. -/
theorem mem_joinWith {separator : Text} {parts : List Text} {c : Char}
    (h : c ∈ joinWith separator parts) : c ∈ separator ∨ ∃ part ∈ parts, c ∈ part := by
  induction parts with
  | nil => cases h
  | cons part rest ih =>
    cases rest with
    | nil =>
      rw [joinWith_singleton] at h
      exact .inr ⟨part, List.mem_cons_self, h⟩
    | cons next rest =>
      rw [joinWith_cons_next, List.mem_append, List.mem_append] at h
      rcases h with hpart | hsep | hrest
      · exact .inr ⟨part, List.mem_cons_self, hpart⟩
      · exact .inl hsep
      · rcases ih hrest with hsep | ⟨found, hfound, hmem⟩
        · exact .inl hsep
        · exact .inr ⟨found, List.mem_cons_of_mem _ hfound, hmem⟩

/-- Parts joined with spaces, with a space in front, are the parts each behind a space. -/
theorem cons_joinWith {parts : List Text} (hne : parts ≠ []) :
    ' ' :: joinWith " ".toList parts = parts.flatMap (' ' :: ·) := by
  induction parts with
  | nil => exact absurd rfl hne
  | cons part rest ih =>
    cases rest with
    | nil => rw [joinWith_singleton, List.flatMap_singleton]
    | cons next rest =>
      rw [joinWith_cons_cons, List.flatMap_cons, ih (List.cons_ne_nil _ _), List.cons_append]

/-- Words have no whitespace in them. -/
theorem solid_of_mem_wordsBy {s word : Text} (h : word ∈ wordsBy space s) : Solid space word := by
  have hparts : ∀ (s : Text), ∀ part ∈ s.splitOnP space, Solid space part := by
    intro s
    induction s with
    | nil =>
      intro part hpart
      rw [List.splitOnP_nil, List.mem_singleton] at hpart
      exact hpart ▸ fun c hc => nomatch hc
    | cons c cs ih =>
      intro part hpart
      rw [List.splitOnP_cons_eq_if_modifyHead] at hpart
      split_ifs at hpart with hc
      · rcases List.mem_cons.mp hpart with rfl | hmem
        · exact fun d hd => nomatch hd
        · exact ih part hmem
      · cases hsplit : cs.splitOnP space with
        | nil => exact absurd hsplit (List.splitOnP_ne_nil space cs)
        | cons first rest =>
          rw [hsplit, List.modifyHead_cons] at hpart
          rw [hsplit] at ih
          rcases List.mem_cons.mp hpart with rfl | hmem
          · intro d hd
            rcases List.mem_cons.mp hd with rfl | hd
            · exact Bool.not_eq_true _ ▸ hc
            · exact ih first List.mem_cons_self d hd
          · exact ih part (List.mem_cons_of_mem _ hmem)
  exact hparts s word (List.mem_of_mem_filter h)

/-- A text splits into no more parts than it has characters, and one. -/
theorem length_splitOnP_le (s : Text) : (s.splitOnP space).length ≤ s.length + 1 := by
  induction s with
  | nil => exact le_rfl
  | cons c cs ih =>
    rw [List.splitOnP_cons_eq_if_modifyHead]
    split_ifs
    · exact Nat.succ_le_succ ih
    · rw [List.length_modifyHead, List.length_cons]
      omega

/-- A part holds nothing that the text does not. -/
theorem subset_of_mem_splitOnP {s part : Text} (h : part ∈ s.splitOnP space) : part ⊆ s := by
  induction s generalizing part with
  | nil =>
    rw [List.splitOnP_nil, List.mem_singleton] at h
    exact h ▸ List.Subset.refl _
  | cons c cs ih =>
    rw [List.splitOnP_cons_eq_if_modifyHead] at h
    cases hsplit : cs.splitOnP space with
    | nil => exact absurd hsplit (List.splitOnP_ne_nil space cs)
    | cons first rest =>
      rw [hsplit, List.modifyHead_cons] at h
      rw [hsplit] at ih
      split_ifs at h
      · rcases List.mem_cons.mp h with rfl | hmem
        · exact List.nil_subset _
        · exact List.subset_cons_of_subset c (ih hmem)
      · rcases List.mem_cons.mp h with rfl | hmem
        · exact List.cons_subset_cons c (ih List.mem_cons_self)
        · exact List.subset_cons_of_subset c (ih (List.mem_cons_of_mem _ hmem))

/-- A part is no longer than the text. -/
theorem length_le_of_mem_splitOnP {s part : Text} (h : part ∈ s.splitOnP space) :
    part.length ≤ s.length := by
  induction s generalizing part with
  | nil =>
    rw [List.splitOnP_nil, List.mem_singleton] at h
    exact h ▸ le_rfl
  | cons c cs ih =>
    rw [List.splitOnP_cons_eq_if_modifyHead] at h
    cases hsplit : cs.splitOnP space with
    | nil => exact absurd hsplit (List.splitOnP_ne_nil space cs)
    | cons first rest =>
      rw [hsplit, List.modifyHead_cons] at h
      rw [hsplit] at ih
      split_ifs at h
      · rcases List.mem_cons.mp h with rfl | hmem
        · exact Nat.zero_le _
        · exact (ih hmem).trans (Nat.le_succ _)
      · rcases List.mem_cons.mp h with rfl | hmem
        · exact Nat.succ_le_succ (ih List.mem_cons_self)
        · exact (ih (List.mem_cons_of_mem _ hmem)).trans (Nat.le_succ _)

/-- Joining with spaces joins the words. -/
theorem wordsBy_joinWith (hspace : space ' ' = true) (parts : List Text) :
    wordsBy space (joinWith " ".toList parts) = parts.flatMap (wordsBy space) := by
  induction parts with
  | nil => rfl
  | cons part rest ih =>
    cases rest with
    | nil => rw [joinWith_singleton, List.flatMap_singleton]
    | cons next rest =>
      rw [joinWith_cons_cons, wordsBy_append_cons _ _ hspace, ih]
      rfl

/-- Parts behind spaces have the words of the parts. -/
theorem wordsBy_flatMap_space (hspace : space ' ' = true) (parts : List Text) :
    wordsBy space (parts.flatMap (' ' :: ·)) = parts.flatMap (wordsBy space) := by
  induction parts with
  | nil => rfl
  | cons part rest ih =>
    have hhead : ∀ c ∈ (rest.flatMap (' ' :: ·)).head?, space c = true := by
      cases rest with
      | nil => exact fun c hc => nomatch hc
      | cons next rest => exact fun c hc => Option.some.inj hc ▸ hspace
    rw [List.flatMap_cons, wordsBy_append_of_head _ hhead, wordsBy_cons _ hspace, ih,
      List.flatMap_cons]

/-! ## Keys and values -/

/-- A word splits at its first occurrence of the character. -/
theorem splitOnce_append (key value : Text) {c : Char} (hkey : c ∉ key) :
    splitOnce c (key ++ c :: value) = some (key, value) := by
  have hpos : ∀ d ∈ key, decide (d ≠ c) = true := fun d hd => by
    simpa using fun h : d = c => hkey (h ▸ hd)
  unfold splitOnce
  rw [List.dropWhile_append_of_pos hpos, List.takeWhile_append_of_pos hpos]
  simp

/-- What a word gives to a key of a kind; an empty value says nothing. -/
def settingOf (isKey : Text → Bool) (word : Text) : Option Text :=
  match splitOnce '=' word with
  | some (key, value) => if isKey key && !value.isEmpty then some value else none
  | none => none

/-- What the last word that gives something to a key of the kind gives it. -/
def lastSetting (isKey : Text → Bool) : List Text → Option Text
  | [] => none
  | word :: rest => (lastSetting isKey rest).or (settingOf isKey word)

/-- A word of a key and a value sets the value, if the key counts and the value is not empty. -/
theorem settingOf_append (isKey : Text → Bool) (key value : Text) (hkey : '=' ∉ key) :
    settingOf isKey (key ++ '=' :: value) =
      if isKey key && !value.isEmpty then some value else none := by
  rw [settingOf, splitOnce_append key value hkey]

/-- Later words count first. -/
theorem lastSetting_append (isKey : Text → Bool) (first rest : List Text) :
    lastSetting isKey (first ++ rest) =
      (lastSetting isKey rest).or (lastSetting isKey first) := by
  induction first with
  | nil => rw [List.nil_append, lastSetting, Option.or_none]
  | cons word first ih => rw [List.cons_append, lastSetting, ih, lastSetting, Option.or_assoc]

/-- Nothing is set exactly when no word gives anything. -/
theorem lastSetting_eq_none_iff {isKey : Text → Bool} {words : List Text} :
    lastSetting isKey words = none ↔ ∀ word ∈ words, settingOf isKey word = none := by
  induction words with
  | nil => simp [lastSetting]
  | cons word rest ih => rw [lastSetting, Option.or_eq_none_iff, ih, List.forall_mem_cons, and_comm]

/-- What is set is the end of a word. -/
theorem suffix_of_lastSetting {isKey : Text → Bool} {words : List Text} {value : Text}
    (h : lastSetting isKey words = some value) : ∃ word ∈ words, value <:+ word := by
  induction words with
  | nil => cases h
  | cons word rest ih =>
    rw [lastSetting, Option.or_eq_some_iff] at h
    rcases h with hrest | ⟨-, hword⟩
    · obtain ⟨found, hfound, hsuffix⟩ := ih hrest
      exact ⟨found, List.mem_cons_of_mem _ hfound, hsuffix⟩
    · have hsuffix : ∀ pair, splitOnce '=' word = some pair → pair.2 <:+ word := by
        intro pair hpair
        unfold splitOnce at hpair
        split at hpair
        · cases hpair
        · rename_i c tail htail
          cases hpair
          exact ((List.suffix_cons c tail).trans (htail ▸ List.dropWhile_suffix _))
      unfold settingOf at hword
      split at hword
      · rename_i key found hsplit
        split_ifs at hword
        cases hword
        exact ⟨word, List.mem_cons_self, hsuffix _ hsplit⟩
      · cases hword

/-- What is set has no whitespace in it. -/
theorem solid_of_lastSetting {isKey : Text → Bool} {words : List Text} {value : Text}
    (hwords : ∀ word ∈ words, Solid space word) (h : lastSetting isKey words = some value) :
    Solid space value := by
  obtain ⟨word, hword, hsuffix⟩ := suffix_of_lastSetting h
  exact fun c hc => hwords word hword c (hsuffix.subset hc)

/-! ## Texts in pieces -/

/-- A piece of a line: a setting, or text of any other kind. -/
inductive Piece where
  | setting (name value : Text)
  | free (text : Text)

namespace Piece

/-- The text of a piece. -/
def text : Piece → Text
  | .setting name value => name ++ '=' :: value
  | .free text => text

/-- Pieces, each behind a space. -/
def spaced (ps : List Piece) : Text :=
  ps.flatMap fun piece => ' ' :: piece.text

/-- The words of a piece other than the one that names a setting. -/
def strays (space : Char → Bool) : Piece → List Text
  | .setting _ value => strayWords space value
  | .free text => wordsBy space text

/-- The setting's name is a word without an equals sign. -/
def Named (space : Char → Bool) : Piece → Prop
  | .setting name _ => Solid space name ∧ '=' ∉ name
  | .free _ => True

/-- The piece up to the end of its line. -/
def cut : Piece → Piece
  | .setting name value => .setting name (value.takeWhile (· ≠ '\n'))
  | .free text => .free (text.takeWhile (· ≠ '\n'))

/-- They are joined piece by piece. -/
theorem spaced_append (first rest : List Piece) :
    spaced (first ++ rest) = spaced first ++ spaced rest :=
  List.flatMap_append

/-- The words of spaced pieces are those of the pieces. -/
theorem wordsBy_spaced (hspace : space ' ' = true) (ps : List Piece) :
    wordsBy space (spaced ps) = ps.flatMap fun piece => wordsBy space piece.text := by
  have hmap : spaced ps = (ps.map Piece.text).flatMap (' ' :: ·) := by
    rw [List.flatMap_map]
    rfl
  rw [hmap, wordsBy_flatMap_space hspace, List.flatMap_map]

/-- A setting is a word up to the first space of its value, and then its stray words. -/
theorem words_setting (name value : Text) (hname : Solid space name) (heq : space '=' = false) :
    wordsBy space (setting name value).text =
      (name ++ '=' :: firstWord space value) :: strayWords space value := by
  have hkey : Solid space (name ++ ['=']) :=
    solid_append hname fun c hc => List.mem_singleton.mp hc ▸ heq
  have htext : (setting name value).text = (name ++ ['=']) ++ value := by simp [text]
  rw [htext, wordsBy_append_of_solid value hkey (by simp), List.append_assoc]
  rfl

/-- Where no setting has a key of the kind, only the stray words count. -/
theorem lastSetting_words {isKey : Text → Bool} (heq : space '=' = false) {pieces : List Piece}
    (hnamed : ∀ piece ∈ pieces, piece.Named space)
    (hkeys : ∀ name value, .setting name value ∈ pieces → isKey name = false) :
    lastSetting isKey (pieces.flatMap fun piece => wordsBy space piece.text) =
      lastSetting isKey (pieces.flatMap (strays space)) := by
  induction pieces with
  | nil => rfl
  | cons piece rest ih =>
    have hrest := ih (fun p hp => hnamed p (List.mem_cons_of_mem _ hp))
      fun name value hp => hkeys name value (List.mem_cons_of_mem _ hp)
    rw [List.flatMap_cons, List.flatMap_cons, lastSetting_append, lastSetting_append, hrest]
    congr 1
    cases piece with
    | free text => rfl
    | setting name value =>
      obtain ⟨hsolid, hno⟩ := hnamed _ List.mem_cons_self
      rw [words_setting name value hsolid heq, lastSetting, settingOf_append _ _ _ hno,
        hkeys name value List.mem_cons_self, Bool.false_and, if_neg Bool.false_ne_true,
        Option.or_none, strays]

/-- What holds of everything the words set under keys of the kind: it holds of the first words of
the settings' values, and of what the stray words set. -/
theorem forall_settingOf_words {isKey : Text → Bool} (heq : space '=' = false)
    {pieces : List Piece} (hnamed : ∀ piece ∈ pieces, piece.Named space) (P : Text → Prop) :
    (∀ word ∈ pieces.flatMap fun piece => wordsBy space piece.text,
      ∀ value ∈ settingOf isKey word, P value) ↔
    (∀ name value, .setting name value ∈ pieces → isKey name = true →
      firstWord space value ≠ [] → P (firstWord space value)) ∧
    ∀ word ∈ pieces.flatMap (strays space), ∀ value ∈ settingOf isKey word, P value := by
  induction pieces with
  | nil => simp
  | cons piece rest ih =>
    have hrest := ih fun p hp => hnamed p (List.mem_cons_of_mem _ hp)
    rw [List.flatMap_cons, List.flatMap_cons, List.forall_mem_append, List.forall_mem_append, hrest]
    cases piece with
    | free text =>
      simp only [List.mem_cons, reduceCtorEq, false_or, strays, Piece.text]
      exact and_left_comm
    | setting name value =>
      obtain ⟨hsolid, hno⟩ := hnamed _ List.mem_cons_self
      have hown : (∀ found ∈ settingOf isKey (name ++ '=' :: firstWord space value), P found) ↔
          (isKey name = true → firstWord space value ≠ [] → P (firstWord space value)) := by
        rw [settingOf_append _ _ _ hno]
        split_ifs with hset
        · simp_all
        · simp_all
      have hsettings : (∀ n v, setting n v ∈ setting name value :: rest → isKey n = true →
            firstWord space v ≠ [] → P (firstWord space v)) ↔
          (isKey name = true → firstWord space value ≠ [] → P (firstWord space value)) ∧
          ∀ n v, setting n v ∈ rest → isKey n = true → firstWord space v ≠ [] →
            P (firstWord space v) := by
        constructor
        · exact fun h => ⟨h _ _ List.mem_cons_self, fun n v hv => h n v (List.mem_cons_of_mem _ hv)⟩
        · rintro ⟨hfirst, hlater⟩ n v hv
          rcases List.mem_cons.mp hv with heq | hmem
          · cases heq
            exact hfirst
          · exact hlater n v hmem
      rw [words_setting name value hsolid heq, List.forall_mem_cons, hown, hsettings, strays]
      exact ⟨fun ⟨⟨ha, hb⟩, hc, hd⟩ => ⟨⟨ha, hc⟩, hb, hd⟩, fun ⟨⟨ha, hc⟩, hb, hd⟩ => ⟨⟨ha, hb⟩, hc, hd⟩⟩

/-- What the last non-empty setting under a key of the kind says. -/
def lastValue (isKey : Text → Bool) : List Piece → Option Text
  | [] => none
  | .setting name value :: rest =>
    (lastValue isKey rest).or (if isKey name && !value.isEmpty then some value else none)
  | .free _ :: rest => lastValue isKey rest

/-- A later piece says last what it says. -/
theorem lastValue_append (isKey : Text → Bool) (first rest : List Piece) :
    lastValue isKey (first ++ rest) = (lastValue isKey rest).or (lastValue isKey first) := by
  induction first with
  | nil => rw [List.nil_append, lastValue, Option.or_none]
  | cons piece first ih =>
    cases piece with
    | setting name value => rw [List.cons_append, lastValue, ih, lastValue, Option.or_assoc]
    | free text => rw [List.cons_append, lastValue, ih, lastValue]

/-- Text of any other kind has no value. -/
theorem lastValue_free (isKey : Text → Bool) (texts : List Text) :
    lastValue isKey (texts.map .free) = none := by
  induction texts with
  | nil => rfl
  | cons text rest ih => exact ih

/-- Where the values have no whitespace and the other text sets nothing, the words set what the
settings say. -/
theorem lastSetting_eq_lastValue {isKey : Text → Bool} (heq : space '=' = false)
    {pieces : List Piece} (hnamed : ∀ piece ∈ pieces, piece.Named space)
    (hsolid : ∀ name value, .setting name value ∈ pieces → Solid space value)
    (hfree : ∀ text, .free text ∈ pieces → lastSetting isKey (wordsBy space text) = none) :
    lastSetting isKey (pieces.flatMap fun piece => wordsBy space piece.text) =
      lastValue isKey pieces := by
  induction pieces with
  | nil => rfl
  | cons piece rest ih =>
    have hrest := ih (fun p hp => hnamed p (List.mem_cons_of_mem _ hp))
      (fun name value hp => hsolid name value (List.mem_cons_of_mem _ hp))
      fun text hp => hfree text (List.mem_cons_of_mem _ hp)
    rw [List.flatMap_cons, lastSetting_append, hrest]
    cases piece with
    | setting name value =>
      obtain ⟨hname, hno⟩ := hnamed _ List.mem_cons_self
      have hvalue := hsolid name value List.mem_cons_self
      rw [words_setting name value hname heq, firstWord_of_solid hvalue,
        strayWords_of_solid hvalue, lastSetting, settingOf_append _ _ _ hno, lastValue]
      rfl
    | free line =>
      rw [text, hfree line List.mem_cons_self, Option.or_none, lastValue]

end Piece

/-- The pieces that stand on the first line of a text, the last of them up to its end. -/
def firstLine : List Piece → List Piece
  | [] => []
  | piece :: rest => if '\n' ∈ piece.text then [piece.cut] else piece :: firstLine rest

/-- The first line of pieces joined with spaces. -/
theorem takeWhile_joinWith (pieces : List Piece)
    (hnamed : ∀ name value, .setting name value ∈ pieces → '\n' ∉ name) :
    (joinWith " ".toList (pieces.map Piece.text)).takeWhile (· ≠ '\n') =
      joinWith " ".toList ((firstLine pieces).map Piece.text) := by
  have hcut : ∀ piece ∈ pieces, piece.cut.text = piece.text.takeWhile (· ≠ '\n') := by
    intro piece hmem
    cases piece with
    | free text => rfl
    | setting name value =>
      have hpos : ∀ c ∈ name, decide (c ≠ '\n') = true := fun c hc => by
        simpa using fun h : c = '\n' => hnamed name value hmem (h ▸ hc)
      rw [Piece.cut, Piece.text, Piece.text, List.takeWhile_append_of_pos hpos,
        List.takeWhile_cons_of_pos (by decide)]
  induction pieces with
  | nil => rfl
  | cons piece rest ih =>
    have hrest := ih (fun name value hp => hnamed name value (List.mem_cons_of_mem _ hp))
      fun p hp => hcut p (List.mem_cons_of_mem _ hp)
    rw [firstLine]
    by_cases hnewline : '\n' ∈ piece.text
    · have htail : ∃ tail, joinWith " ".toList ((piece :: rest).map Piece.text) =
          piece.text ++ tail := by
        cases rest with
        | nil => exact ⟨[], by rw [List.map_singleton, joinWith_singleton, List.append_nil]⟩
        | cons next rest => exact ⟨_, joinWith_cons_cons ..⟩
      obtain ⟨tail, htail⟩ := htail
      rw [if_pos hnewline, List.map_singleton, joinWith_singleton, hcut piece List.mem_cons_self,
        htail, List.takeWhile_append, if_neg]
      intro hlength
      have hself := (List.takeWhile_prefix _).eq_of_length hlength
      have hall := List.takeWhile_eq_self_iff.mp hself '\n' hnewline
      exact absurd rfl (of_decide_eq_true hall)
    · have hpos : ∀ c ∈ piece.text, decide (c ≠ '\n') = true := fun c hc => by
        simpa using fun h : c = '\n' => hnewline (h ▸ hc)
      rw [if_neg hnewline]
      cases rest with
      | nil =>
        rw [firstLine, List.map_singleton, joinWith_singleton]
        exact List.takeWhile_eq_self_iff.mpr hpos
      | cons next rest =>
        obtain ⟨first, others, hfirst⟩ : ∃ first others, firstLine (next :: rest) = first :: others := by
          rw [firstLine]
          split_ifs
          · exact ⟨_, _, rfl⟩
          · exact ⟨_, _, rfl⟩
        rw [hfirst, List.map_cons, List.map_cons] at hrest ⊢
        rw [List.map_cons, List.map_cons, joinWith_cons_cons, joinWith_cons_cons,
          List.takeWhile_append_of_pos hpos, List.takeWhile_cons_of_pos (by decide), ← hrest]

/-- A piece on the first line is one of the pieces, or one of them up to its end. -/
theorem exists_of_mem_firstLine {pieces : List Piece} {piece : Piece}
    (h : piece ∈ firstLine pieces) : ∃ whole ∈ pieces, piece = whole ∨ piece = whole.cut := by
  induction pieces with
  | nil => cases h
  | cons first rest ih =>
    rw [firstLine] at h
    split_ifs at h with hnewline
    · exact ⟨first, List.mem_cons_self, .inr (List.mem_singleton.mp h)⟩
    · rcases List.mem_cons.mp h with rfl | hmem
      · exact ⟨piece, List.mem_cons_self, .inl rfl⟩
      · obtain ⟨whole, hwhole, hcases⟩ := ih hmem
        exact ⟨whole, List.mem_cons_of_mem _ hwhole, hcases⟩

/-- Pieces without a newline all stand on the first line. -/
theorem firstLine_append {first rest : List Piece} (h : ∀ piece ∈ first, '\n' ∉ piece.text) :
    firstLine (first ++ rest) = first ++ firstLine rest := by
  induction first with
  | nil => rfl
  | cons piece first ih =>
    rw [List.cons_append, firstLine, if_neg (h piece List.mem_cons_self),
      ih fun p hp => h p (List.mem_cons_of_mem _ hp), List.cons_append]

/-- A piece with a newline ends the line, whatever follows. -/
theorem firstLine_append_of_mem {first : List Piece} (rest : List Piece) {piece : Piece}
    (hpiece : piece ∈ first) (hnewline : '\n' ∈ piece.text) :
    firstLine (first ++ rest) = firstLine first := by
  induction first with
  | nil => cases hpiece
  | cons next first ih =>
    rw [List.cons_append, firstLine, firstLine]
    by_cases hnext : '\n' ∈ next.text
    · rw [if_pos hnext, if_pos hnext]
    · rw [if_neg hnext, if_neg hnext, ih]
      exact (List.mem_cons.mp hpiece).resolve_left fun heq => hnext (heq ▸ hnewline)

/-- What follows a newline is, up to the next one, a line of the text. -/
theorem mem_splitOn_newline (before start rest after : Text) (hstart : '\n' ∉ start) :
    start ++ rest.takeWhile (· ≠ '\n') ∈
      (before ++ '\n' :: (start ++ (rest ++ '\n' :: after))).splitOn '\n' := by
  have hline : ∃ after', rest ++ '\n' :: after =
      rest.takeWhile (· ≠ '\n') ++ '\n' :: after' := by
    have hsplit : rest = rest.takeWhile (· ≠ '\n') ++ rest.dropWhile (· ≠ '\n') :=
      List.takeWhile_append_dropWhile.symm
    cases hdrop : rest.dropWhile (· ≠ '\n') with
    | nil =>
      rw [hdrop, List.append_nil] at hsplit
      exact ⟨after, by rw [← hsplit]⟩
    | cons c cs =>
      have hc : c = '\n' := by
        have hnot := List.head?_dropWhile_not (· ≠ '\n') rest
        rw [hdrop] at hnot
        simpa using hnot
      refine ⟨cs ++ '\n' :: after, ?_⟩
      rw [hdrop, hc] at hsplit
      rw [← List.cons_append, ← List.append_assoc, ← hsplit]
  obtain ⟨after', hafter⟩ := hline
  have hclean : ∀ c ∈ start ++ rest.takeWhile (· ≠ '\n'), (c == '\n') = false := by
    intro c hc
    rw [beq_eq_false_iff_ne]
    rcases List.mem_append.mp hc with hmem | hmem
    · exact fun heq => hstart (heq ▸ hmem)
    · simpa using List.mem_takeWhile_imp hmem
  rw [List.splitOn_eq_splitOnP, List.splitOnP_append_cons (p := (· == '\n')) before _ rfl, hafter,
    ← List.append_assoc, List.splitOnP_append_cons_of_forall_mem hclean _ rfl]
  exact List.mem_append_right _ List.mem_cons_self

/-! ## Printed numbers -/

/-- A printed number is read back. -/
theorem parseDigits_natText (n : ℕ) : parseDigits (natText n) = some n := by
  unfold parseDigits
  rw [if_neg]
  · exact congrArg some Nat.ofDigitChars_ten_toDigits
  · rw [Bool.or_eq_true, not_or, Bool.not_eq_true', Bool.not_eq_false, List.isEmpty_iff,
      List.all_eq_true]
    exact ⟨natText_ne_nil n, natText_isDigit n⟩

/-- So is one of a fixed width, where it fits. -/
theorem parseUnsigned_natText (width n : ℕ) (h : n < 2 ^ width) :
    parseUnsigned width (natText n) = some n := by
  have hplus : ∀ rest, natText n ≠ '+' :: rest := by
    intro rest heq
    have hdigit := natText_isDigit n '+' (by rw [heq]; exact List.mem_cons_self)
    revert hdigit
    decide
  unfold parseUnsigned
  split
  · rename_i rest heq
    exact absurd heq (hplus rest)
  · change (parseDigits (natText n)).filter _ = _
    rw [parseDigits_natText, Option.filter_some, decide_eq_true h, if_pos rfl]

end Stormnetboot.Common

import Mathlib.Data.List.Nodup
import Stormnetboot.Common.Words

/-!
# Expositions of metrics

A scraper reads an exposition line by line. A family of samples opens with its help and its type,
each given once, and its samples follow; no series of a family is given twice. What is written of
families that keep these rules is read back as it was.
-/

namespace Stormnetboot.Common.Exposition

/-- What the values of a family are. -/
inductive Kind where
  | counter
  | gauge
  deriving DecidableEq, Repr

/-- The word for the kind. -/
def Kind.word : Kind → Text
  | .counter => "counter".toList
  | .gauge => "gauge".toList

/-- One series of a family, by its labels, and its value. -/
structure Sample where
  labels : List (Text × Text)
  value : ℕ
  deriving DecidableEq, Repr

/-- A metric with its help, its kind and its series. -/
structure Family where
  name : Text
  help : Text
  kind : Kind
  samples : List Sample
  deriving DecidableEq, Repr

/-! ## Writing -/

/-- A label with its value in quotes. -/
def labelText (label : Text × Text) : Text :=
  label.1 ++ "=\"".toList ++ label.2 ++ "\"".toList

/-- The labels in braces; nothing where there are none. -/
def labelsText (labels : List (Text × Text)) : Text :=
  if labels = [] then [] else '{' :: joinWith [','] (labels.map labelText) ++ ['}']

/-- How a line of help starts. -/
def helpMarker : Text :=
  ['#', ' ', 'H', 'E', 'L', 'P', ' ']

/-- How a line of type starts. -/
def typeMarker : Text :=
  ['#', ' ', 'T', 'Y', 'P', 'E', ' ']

/-- The line that explains a metric. -/
def helpLine (name help : Text) : Text :=
  helpMarker ++ name ++ ' ' :: help

/-- The line that names its kind. -/
def typeLine (name : Text) (kind : Kind) : Text :=
  typeMarker ++ name ++ ' ' :: kind.word

/-- The line of one series. -/
def sampleLine (name : Text) (sample : Sample) : Text :=
  name ++ labelsText sample.labels ++ ' ' :: natText sample.value

/-- The lines of a metric: its help, its type and its series. -/
def Family.lines (family : Family) : List Text :=
  helpLine family.name family.help :: typeLine family.name family.kind ::
    family.samples.map (sampleLine family.name)

/-- Every line ends with a newline. -/
def text (families : List Family) : Text :=
  (families.flatMap Family.lines).flatMap (· ++ ['\n'])

/-! ## Reading -/

/-- What a line says. -/
inductive Line where
  | help (name help : Text)
  | type (name : Text) (kind : Kind)
  | sample (name : Text) (sample : Sample)

/-- What the names of metrics and labels are made of. -/
def isNameChar (c : Char) : Bool :=
  c.isAlphanum || c == '_' || c == ':'

/-- The name at the front, if there is one, and what follows it. -/
def readName (s : Text) : Option (Text × Text) :=
  if s.takeWhile isNameChar = [] then none
  else some (s.takeWhile isNameChar, s.dropWhile isNameChar)

/-- A label's value up to the quote that ends it, and what follows. -/
def readQuoted : Text → Option (Text × Text)
  | '"' :: rest => some ([], rest)
  | '\\' :: 'n' :: rest => (readQuoted rest).map fun (value, rest) => ('\n' :: value, rest)
  | '\\' :: '\\' :: rest => (readQuoted rest).map fun (value, rest) => ('\\' :: value, rest)
  | '\\' :: '"' :: rest => (readQuoted rest).map fun (value, rest) => ('"' :: value, rest)
  | '\\' :: _ => none
  | c :: rest => (readQuoted rest).map fun (value, rest) => (c :: value, rest)
  | [] => none

/-- At most `fuel` labels up to the brace that closes them, and what follows. -/
def readLabels : ℕ → Text → Option (List (Text × Text) × Text)
  | 0, _ => none
  | fuel + 1, s => do
    let (name, rest) ← readName s
    let rest ← stripPrefix "=\"".toList rest
    let (value, rest) ← readQuoted rest
    match rest with
    | '}' :: rest => some ([(name, value)], rest)
    | ',' :: rest => (readLabels fuel rest).map fun (labels, rest) => ((name, value) :: labels, rest)
    | _ => none

/-- The kind with this word. -/
def readKind (s : Text) : Option Kind :=
  if s = Kind.counter.word then some .counter
  else if s = Kind.gauge.word then some .gauge
  else none

/-- What follows a name in a line about it. -/
def readAbout (s : Text) : Option (Text × Text) := do
  let (name, rest) ← readName s
  let rest ← stripPrefix [' '] rest
  some (name, rest)

/-- A line with a sample: no label is named twice in it. -/
def readSample (s : Text) : Option Line := do
  let (name, rest) ← readName s
  let (labels, rest) ←
    match rest with
    | '{' :: rest => readLabels rest.length rest
    | _ => some ([], rest)
  let rest ← stripPrefix [' '] rest
  let value ← parseDigits rest
  if (labels.map Prod.fst).Nodup then some (.sample name ⟨labels, value⟩) else none

/-- A line is a comment of one of the two kinds or a sample. -/
def readLine (s : Text) : Option Line :=
  match stripPrefix helpMarker s, stripPrefix typeMarker s with
  | some rest, _ => (readAbout rest).map fun (name, help) => .help name help
  | none, some rest => do
    let (name, word) ← readAbout rest
    let kind ← readKind word
    some (.type name kind)
  | none, none => readSample s

/-- The families read so far, the last one first, and the one whose help was given last while
its type is to come. -/
structure Reading where
  families : List Family
  opened : Option (Text × Text)

/-- The next line: a family is opened once, gets its type next, and its samples after that. -/
def Reading.next (reading : Reading) : Line → Option Reading
  | .help name help =>
    if reading.opened = none ∧ reading.families.all (fun family => family.name ≠ name) then
      some { reading with opened := some (name, help) }
    else none
  | .type name kind => do
    let (openedName, help) ← reading.opened
    if name = openedName then some ⟨⟨name, help, kind, []⟩ :: reading.families, none⟩ else none
  | .sample name sample =>
    match reading.opened, reading.families with
    | none, family :: families =>
      if name = family.name ∧ family.samples.all (fun other => other.labels ≠ sample.labels) then
        some ⟨{ family with samples := family.samples ++ [sample] } :: families, none⟩
      else none
    | _, _ => none

/-- The families of an exposition, in order. -/
def read (s : Text) : Option (List Family) := do
  let lines ← (lines s).mapM readLine
  let reading ← lines.foldlM Reading.next ⟨[], none⟩
  if reading.opened = none then some reading.families.reverse else none

/-! ## What can be written -/

/-- A name of a metric or a label. -/
def PlainName (s : Text) : Prop :=
  s ≠ [] ∧ ∀ c ∈ s, isNameChar c = true

/-- Whether a name is plain is decided on it. -/
instance (s : Text) : Decidable (PlainName s) :=
  inferInstanceAs (Decidable (_ ∧ _))

/-- A value that needs no escapes. -/
def PlainValue (s : Text) : Prop :=
  ∀ c ∈ s, c ≠ '"' ∧ c ≠ '\\' ∧ c ≠ '\n'

/-- Whether a value needs no escapes is decided on it. -/
instance (s : Text) : Decidable (PlainValue s) :=
  inferInstanceAs (Decidable (∀ c ∈ s, _))

/-- A family that follows the rules. -/
structure Family.Regular (family : Family) : Prop where
  name : PlainName family.name
  help : '\n' ∉ family.help ∧ family.help.getLast? ≠ some '\r'
  label : ∀ sample ∈ family.samples, ∀ label ∈ sample.labels, PlainName label.1 ∧ PlainValue label.2
  labels : ∀ sample ∈ family.samples, (sample.labels.map Prod.fst).Nodup
  series : (family.samples.map Sample.labels).Nodup

/-! ## Reading back -/

/-- A name ends where its characters do. -/
theorem readName_append {name : Text} (hname : PlainName name) (rest : Text)
    (hrest : ∀ c ∈ rest.head?, isNameChar c = false) :
    readName (name ++ rest) = some (name, rest) := by
  have htake : (name ++ rest).takeWhile isNameChar = name := by
    rw [List.takeWhile_append_of_pos hname.2]
    cases rest with
    | nil => rw [List.takeWhile_nil, List.append_nil]
    | cons c cs =>
      rw [List.takeWhile_cons_of_neg (Bool.not_eq_true _ ▸ hrest c rfl), List.append_nil]
  have hdrop : (name ++ rest).dropWhile isNameChar = rest := by
    rw [List.dropWhile_append_of_pos hname.2]
    cases rest with
    | nil => rfl
    | cons c cs => exact List.dropWhile_cons_of_neg (Bool.not_eq_true _ ▸ hrest c rfl)
  rw [readName, htake, hdrop, if_neg hname.1]

/-- A value ends with its quote. -/
theorem readQuoted_append {value : Text} (hvalue : PlainValue value) (rest : Text) :
    readQuoted (value ++ '"' :: rest) = some (value, rest) := by
  induction value with
  | nil => rfl
  | cons c cs ih =>
    obtain ⟨hquote, hescape, -⟩ := hvalue c List.mem_cons_self
    have hread := ih fun d hd => hvalue d (List.mem_cons_of_mem _ hd)
    simp [readQuoted, hescape, hread]

/-- One label, whatever follows it. -/
theorem readLabels_label {label : Text × Text} (hname : PlainName label.1)
    (hvalue : PlainValue label.2) (fuel : ℕ) (rest : Text) :
    readLabels (fuel + 1) (labelText label ++ rest) =
      match rest with
      | '}' :: rest => some ([label], rest)
      | ',' :: rest => (readLabels fuel rest).map fun (labels, rest) => (label :: labels, rest)
      | _ => none := by
  have hsplit : labelText label ++ rest =
      label.1 ++ ("=\"".toList ++ (label.2 ++ '"' :: rest)) := by
    simp [labelText]
  have hstrip : stripPrefix "=\"".toList ("=\"".toList ++ (label.2 ++ '"' :: rest)) =
      some (label.2 ++ '"' :: rest) := (stripPrefix_eq_some_iff _ _ _).mpr rfl
  have hread : readName (label.1 ++ ("=\"".toList ++ (label.2 ++ '"' :: rest))) =
      some (label.1, "=\"".toList ++ (label.2 ++ '"' :: rest)) :=
    readName_append hname _ (by simp; decide)
  rw [readLabels, hsplit, hread]
  simp only [Option.bind_eq_bind, Option.bind_some, hstrip, readQuoted_append hvalue]

/-- The labels in braces are read back. -/
theorem readLabels_joinWith {labels : List (Text × Text)} (hne : labels ≠ [])
    (hplain : ∀ label ∈ labels, PlainName label.1 ∧ PlainValue label.2) {fuel : ℕ}
    (hfuel : labels.length ≤ fuel) (rest : Text) :
    readLabels fuel (joinWith [','] (labels.map labelText) ++ '}' :: rest) =
      some (labels, rest) := by
  induction labels generalizing fuel with
  | nil => exact absurd rfl hne
  | cons label labels ih =>
    obtain ⟨hname, hvalue⟩ := hplain label List.mem_cons_self
    obtain ⟨fuel, rfl⟩ : ∃ n, fuel = n + 1 := ⟨fuel - 1, by simp at hfuel; omega⟩
    cases labels with
    | nil =>
      rw [List.map_singleton, joinWith_singleton]
      exact readLabels_label hname hvalue fuel ('}' :: rest)
    | cons next labels =>
      have hrest := ih (by simp) (fun l hl => hplain l (List.mem_cons_of_mem _ hl))
        (Nat.le_of_succ_le_succ hfuel)
      rw [List.map_cons, List.map_cons, joinWith_cons_next, List.append_assoc,
        readLabels_label hname hvalue]
      rw [List.map_cons] at hrest
      simp [hrest]

/-- What begins with a name is no comment. -/
theorem stripPrefix_comment {name : Text} (hname : PlainName name) (marker rest : Text) :
    stripPrefix ('#' :: marker) (name ++ rest) = none := by
  obtain ⟨hne, hchars⟩ := hname
  cases name with
  | nil => exact absurd rfl hne
  | cons c cs =>
    have hc : '#' ≠ c := by
      rintro rfl
      exact absurd (hchars '#' List.mem_cons_self) (by decide)
    rw [List.cons_append, stripPrefix, if_neg hc]

/-- A name and what follows it are read back. -/
theorem readAbout_append {name : Text} (hname : PlainName name) (rest : Text) :
    readAbout (name ++ ' ' :: rest) = some (name, rest) := by
  have hread : readName (name ++ ' ' :: rest) = some (name, ' ' :: rest) :=
    readName_append hname _ (by simp; decide)
  have hstrip : stripPrefix [' '] (' ' :: rest) = some rest :=
    (stripPrefix_eq_some_iff _ _ _).mpr rfl
  rw [readAbout, hread, Option.bind_eq_bind, Option.bind_some]
  simp only [hstrip]
  rfl

/-- A line of help is read back. -/
theorem readLine_helpLine {name : Text} (hname : PlainName name) (help : Text) :
    readLine (helpLine name help) = some (.help name help) := by
  have hstrip : stripPrefix helpMarker (helpLine name help) = some (name ++ ' ' :: help) :=
    (stripPrefix_eq_some_iff _ _ _).mpr (List.append_assoc ..)
  simp only [readLine, hstrip, readAbout_append hname, Option.map_some]

/-- A kind is read back from its word. -/
theorem readKind_word (kind : Kind) : readKind kind.word = some kind := by
  cases kind <;> decide

/-- A line of type is read back. -/
theorem readLine_typeLine {name : Text} (hname : PlainName name) (kind : Kind) :
    readLine (typeLine name kind) = some (.type name kind) := by
  have hhelp : stripPrefix helpMarker (typeLine name kind) = none := rfl
  have hstrip : stripPrefix typeMarker (typeLine name kind) = some (name ++ ' ' :: kind.word) :=
    (stripPrefix_eq_some_iff _ _ _).mpr (List.append_assoc ..)
  simp only [readLine, hhelp, hstrip, readAbout_append hname, Option.bind_eq_bind,
    Option.bind_some, readKind_word]

/-- There is a separator between any two parts. -/
theorem length_le_joinWith {separator : Text} (hne : separator ≠ []) (parts : List Text) :
    parts.length ≤ (joinWith separator parts).length + 1 := by
  have hseparator : 0 < separator.length := List.length_pos_iff.mpr hne
  induction parts with
  | nil => exact Nat.zero_le _
  | cons part parts ih =>
    cases parts with
    | nil => exact Nat.le_add_left _ _
    | cons next rest =>
      rw [joinWith_cons_next, List.length_cons, List.length_append, List.length_append]
      omega

/-- A series is read back with its labels and its value. -/
theorem readSample_sampleLine {name : Text} (hname : PlainName name) {sample : Sample}
    (hplain : ∀ label ∈ sample.labels, PlainName label.1 ∧ PlainValue label.2)
    (hnodup : (sample.labels.map Prod.fst).Nodup) :
    readSample (sampleLine name sample) = some (.sample name sample) := by
  obtain ⟨labels, value⟩ := sample
  have hstrip : stripPrefix [' '] (' ' :: natText value) = some (natText value) :=
    (stripPrefix_eq_some_iff _ _ _).mpr rfl
  by_cases hlabels : labels = []
  · subst hlabels
    have hread : readName (name ++ ' ' :: natText value) = some (name, ' ' :: natText value) :=
      readName_append hname _ (by simp; decide)
    have hline : sampleLine name ⟨[], value⟩ = name ++ ' ' :: natText value := by
      simp [sampleLine, labelsText]
    simp [readSample, hline, hread, hstrip, parseDigits_natText]
  · have hline : sampleLine name ⟨labels, value⟩ =
        name ++ '{' :: (joinWith [','] (labels.map labelText) ++ '}' :: ' ' :: natText value) := by
      simp [sampleLine, labelsText, hlabels]
    have hread := readName_append hname ('{' ::
      (joinWith [','] (labels.map labelText) ++ '}' :: ' ' :: natText value)) (by simp; decide)
    have hlength : labels.length ≤
        (joinWith [','] (labels.map labelText) ++ '}' :: ' ' :: natText value).length := by
      have hjoined := length_le_joinWith (List.cons_ne_nil ',' []) (labels.map labelText)
      rw [List.length_map] at hjoined
      rw [List.length_append, List.length_cons]
      omega
    have hbody := readLabels_joinWith hlabels hplain hlength (' ' :: natText value)
    simp only [readSample, hline, hread, hbody, hstrip, parseDigits_natText, Option.bind_eq_bind,
      Option.bind_some, if_pos hnodup]

/-- And its line is read as that series. -/
theorem readLine_sampleLine {name : Text} (hname : PlainName name) {sample : Sample}
    (hplain : ∀ label ∈ sample.labels, PlainName label.1 ∧ PlainValue label.2)
    (hnodup : (sample.labels.map Prod.fst).Nodup) :
    readLine (sampleLine name sample) = some (.sample name sample) := by
  have hcomment (marker : Text) : stripPrefix ('#' :: marker) (sampleLine name sample) = none := by
    rw [sampleLine, List.append_assoc]
    exact stripPrefix_comment hname _ _
  have hhelp : stripPrefix helpMarker (sampleLine name sample) = none := hcomment _
  have htype : stripPrefix typeMarker (sampleLine name sample) = none := hcomment _
  simp only [readLine, hhelp, htype, readSample_sampleLine hname hplain hnodup]

/-- Lines that are written are the lines that are read. -/
theorem lines_flatMap {ls : List Text}
    (h : ∀ line ∈ ls, '\n' ∉ line ∧ line.getLast? ≠ some '\r') :
    Common.lines (ls.flatMap (· ++ ['\n'])) = ls := by
  induction ls with
  | nil => rfl
  | cons line rest ih =>
    obtain ⟨hline, hreturn⟩ := h line List.mem_cons_self
    have hrest : (splitInclusive '\n' (rest.flatMap (· ++ ['\n']))).map stripLineEnd = rest :=
      ih fun l hl => h l (List.mem_cons_of_mem _ hl)
    rw [Common.lines, List.flatMap_cons, splitInclusive_append _ _ _ (.inr (List.getLast?_concat ..)),
      splitInclusive_singleton _ _ hline, List.map_append, hrest, List.map_singleton,
      stripLineEnd_append_newline _ hreturn, List.singleton_append]

/-- A plain name is on one line. -/
theorem newline_notMem_of_plainName {name : Text} (h : PlainName name) : '\n' ∉ name :=
  fun hmem => absurd (h.2 _ hmem) (by decide)

/-- A number is on one line. -/
theorem newline_notMem_natText (n : ℕ) : '\n' ∉ natText n :=
  fun hmem => absurd (natText_isDigit n _ hmem) (by decide)

/-- So are plain labels. -/
theorem newline_notMem_labelsText {labels : List (Text × Text)}
    (hplain : ∀ label ∈ labels, PlainName label.1 ∧ PlainValue label.2) :
    '\n' ∉ labelsText labels := by
  unfold labelsText
  split_ifs
  · exact List.not_mem_nil
  · intro hmem
    rcases List.mem_append.mp hmem with hmem | hmem
    · rcases List.mem_cons.mp hmem with hbrace | hmem
      · cases hbrace
      · rcases mem_joinWith hmem with hmem | ⟨part, hpart, hmem⟩
        · exact absurd hmem (by decide)
        · obtain ⟨label, hlabel, rfl⟩ := List.mem_map.mp hpart
          obtain ⟨hname, hvalue⟩ := hplain label hlabel
          simp only [labelText, List.mem_append] at hmem
          rcases hmem with ((hmem | hmem) | hmem) | hmem
          · exact newline_notMem_of_plainName hname hmem
          · exact absurd hmem (by decide)
          · exact (hvalue _ hmem).2.2 rfl
          · exact absurd hmem (by decide)
    · exact absurd hmem (by decide)

/-- What is written of a regular family is lines. -/
theorem Family.Regular.lines_plain {family : Family} (h : family.Regular) :
    ∀ line ∈ family.lines, '\n' ∉ line ∧ line.getLast? ≠ some '\r' := by
  have hname := newline_notMem_of_plainName h.name
  intro line hline
  rcases List.mem_cons.mp hline with rfl | hline
  · constructor
    · simp [helpLine, helpMarker, hname, h.help.1]
    · rw [helpLine, List.getLast?_append_cons, List.getLast?_cons]
      intro hlast
      cases hhelp : family.help.getLast? with
      | none => rw [hhelp] at hlast; exact absurd hlast (by decide)
      | some c => rw [hhelp] at hlast; exact h.help.2 (hhelp.trans hlast)
  · rcases List.mem_cons.mp hline with rfl | hline
    · constructor
      · simp only [typeLine, List.mem_append, List.mem_cons, not_or]
        exact ⟨⟨by decide, hname⟩, by decide, by cases family.kind <;> decide⟩
      · rw [typeLine, List.getLast?_append_cons]
        cases family.kind <;> decide
    · obtain ⟨sample, hsample, rfl⟩ := List.mem_map.mp hline
      constructor
      · simp only [sampleLine, List.mem_append, List.mem_cons, not_or]
        exact ⟨⟨hname, newline_notMem_labelsText (h.label sample hsample)⟩, by decide,
          newline_notMem_natText _⟩
      · rw [sampleLine, List.getLast?_append_cons,
          List.getLast?_cons_of_ne_nil (natText_ne_nil _)]
        intro hlast
        exact absurd (natText_isDigit _ _ (List.mem_of_getLast? hlast)) (by decide)

/-! ## The families -/

/-- What the lines of a family say. -/
def Family.said (family : Family) : List Line :=
  .help family.name family.help :: .type family.name family.kind ::
    family.samples.map (.sample family.name)

/-- The lines of a regular family say the family. -/
theorem Family.Regular.mapM_readLine {family : Family} (h : family.Regular) :
    family.lines.mapM readLine = some family.said := by
  have hsamples : ∀ samples : List Sample, (∀ sample ∈ samples, sample ∈ family.samples) →
      (samples.map (sampleLine family.name)).mapM readLine =
        some (samples.map (.sample family.name)) := by
    intro samples hmem
    induction samples with
    | nil => rfl
    | cons sample rest ih =>
      have hsample := hmem sample List.mem_cons_self
      rw [List.map_cons, List.mapM_cons,
        readLine_sampleLine h.name (h.label sample hsample) (h.labels sample hsample),
        ih fun s hs => hmem s (List.mem_cons_of_mem _ hs)]
      rfl
  rw [Family.lines, List.mapM_cons, List.mapM_cons, readLine_helpLine h.name,
    readLine_typeLine h.name, hsamples family.samples fun _ hs => hs]
  rfl

/-- The lines of a family that is not there yet add it. -/
theorem foldlM_said {family : Family} (hseries : (family.samples.map Sample.labels).Nodup)
    {families : List Family} (hnew : family.name ∉ families.map Family.name) :
    family.said.foldlM Reading.next ⟨families, none⟩ = some ⟨family :: families, none⟩ := by
  obtain ⟨name, help, kind, samples⟩ := family
  have hsamples : ∀ added samples : List Sample, ((added ++ samples).map Sample.labels).Nodup →
      (samples.map (Line.sample name)).foldlM Reading.next
          ⟨⟨name, help, kind, added⟩ :: families, none⟩ =
        some ⟨⟨name, help, kind, added ++ samples⟩ :: families, none⟩ := by
    intro added samples
    induction samples generalizing added with
    | nil => intro _; rw [List.append_nil]; rfl
    | cons sample rest ih =>
      intro hnodup
      have hfresh : added.all (fun other => other.labels ≠ sample.labels) = true := by
        rw [List.map_append, List.map_cons] at hnodup
        exact List.all_eq_true.mpr fun other hother => decide_eq_true <|
          (List.nodup_append.mp hnodup).2.2 _ (List.mem_map_of_mem hother) _ List.mem_cons_self
      have hstep : Reading.next ⟨⟨name, help, kind, added⟩ :: families, none⟩ (.sample name sample) =
          some ⟨⟨name, help, kind, added ++ [sample]⟩ :: families, none⟩ :=
        if_pos ⟨rfl, hfresh⟩
      have hrest := ih (added ++ [sample])
      rw [List.append_assoc] at hrest
      rw [List.map_cons, List.foldlM_cons, hstep]
      exact hrest hnodup
  have hothers : families.all (fun family => family.name ≠ name) = true :=
    List.all_eq_true.mpr fun other hother =>
      decide_eq_true fun heq => hnew (List.mem_map.mpr ⟨other, hother, heq⟩)
  have hopen : Reading.next ⟨families, none⟩ (.help name help) =
      some ⟨families, some (name, help)⟩ := if_pos ⟨rfl, hothers⟩
  have htype : Reading.next ⟨families, some (name, help)⟩ (.type name kind) =
      some ⟨⟨name, help, kind, []⟩ :: families, none⟩ := if_pos rfl
  rw [Family.said, List.foldlM_cons, hopen, Option.bind_eq_bind, Option.bind_some,
    List.foldlM_cons, htype]
  exact hsamples [] samples hseries

/-- Families that follow the rules, none of them twice, are read back as they were written. -/
theorem read_text {families : List Family} (hregular : ∀ family ∈ families, family.Regular)
    (hnames : (families.map Family.name).Nodup) : read (text families) = some families := by
  have hlines : Common.lines (text families) = families.flatMap Family.lines := by
    refine lines_flatMap fun line hline => ?_
    obtain ⟨family, hfamily, hmem⟩ := List.mem_flatMap.mp hline
    exact (hregular family hfamily).lines_plain line hmem
  have hsaid : (families.flatMap Family.lines).mapM readLine =
      some (families.flatMap Family.said) := by
    clear hlines hnames
    induction families with
    | nil => rfl
    | cons family rest ih =>
      rw [List.flatMap_cons, List.mapM_append, (hregular family List.mem_cons_self).mapM_readLine,
        ih fun f hf => hregular f (List.mem_cons_of_mem _ hf)]
      rfl
  have hfold : ∀ done rest : List Family, (∀ family ∈ rest, family.Regular) →
      ((done ++ rest).map Family.name).Nodup →
      (rest.flatMap Family.said).foldlM Reading.next ⟨done.reverse, none⟩ =
        some ⟨(done ++ rest).reverse, none⟩ := by
    intro done rest
    induction rest generalizing done with
    | nil => intro _ _; rw [List.append_nil]; rfl
    | cons family rest ih =>
      intro hregular hnodup
      have hnew : family.name ∉ done.reverse.map Family.name := by
        rw [List.map_append, List.map_cons] at hnodup
        rw [List.map_reverse, List.mem_reverse]
        exact fun hmem => (List.nodup_append.mp hnodup).2.2 _ hmem _ List.mem_cons_self rfl
      have hrest := ih (done ++ [family]) (fun f hf => hregular f (List.mem_cons_of_mem _ hf))
      rw [List.append_assoc, List.reverse_concat] at hrest
      rw [List.flatMap_cons, List.foldlM_append,
        foldlM_said (hregular family List.mem_cons_self).series hnew]
      exact hrest hnodup
  have hread := hfold [] families hregular hnames
  rw [List.reverse_nil, List.nil_append] at hread
  simp only [read, hlines, hsaid, hread, Option.bind_eq_bind, Option.bind_some, List.reverse_reverse,
    if_true]

/-! ## The series -/

/-- The value of a series. -/
def value (families : List Family) (name : Text) (labels : List (Text × Text)) : Option ℕ := do
  let family ← families.find? fun family => family.name = name
  let sample ← family.samples.find? fun sample => sample.labels = labels
  some sample.value

/-- Among elements with different keys the first with a key is the only one. -/
theorem find?_eq_some_iff_of_nodup {α κ : Type} [DecidableEq κ] {key : α → κ} {xs : List α}
    (h : (xs.map key).Nodup) (k : κ) (x : α) :
    xs.find? (fun y => key y = k) = some x ↔ x ∈ xs ∧ key x = k := by
  constructor
  · intro hfind
    have hkey := List.find?_some hfind
    exact ⟨List.mem_of_find?_eq_some hfind, of_decide_eq_true hkey⟩
  · rintro ⟨hmem, rfl⟩
    cases hfind : xs.find? fun y => key y = key x with
    | none => exact absurd (decide_eq_true rfl) (List.find?_eq_none.mp hfind x hmem)
    | some y =>
      have hkey := List.find?_some hfind
      exact congrArg some
        (List.inj_on_of_nodup_map h (List.mem_of_find?_eq_some hfind) hmem (of_decide_eq_true hkey))

/-- Where nothing is given twice, a series has the value that one of its samples gives it. -/
theorem value_eq_some_iff {families : List Family} (hnames : (families.map Family.name).Nodup)
    (hregular : ∀ family ∈ families, family.Regular) (name : Text) (labels : List (Text × Text))
    (v : ℕ) : value families name labels = some v ↔
      ∃ family ∈ families, family.name = name ∧ ⟨labels, v⟩ ∈ family.samples := by
  simp only [value, Option.bind_eq_bind, Option.bind_eq_some_iff,
    find?_eq_some_iff_of_nodup hnames]
  constructor
  · rintro ⟨family, ⟨hfamily, hname⟩, sample, hsample, hvalue⟩
    obtain ⟨hmem, rfl⟩ :=
      (find?_eq_some_iff_of_nodup (hregular family hfamily).series labels sample).mp hsample
    obtain rfl := Option.some.inj hvalue
    exact ⟨family, hfamily, hname, hmem⟩
  · rintro ⟨family, hfamily, hname, hmem⟩
    have hsample := (find?_eq_some_iff_of_nodup (hregular family hfamily).series labels _).mpr
      ⟨hmem, rfl⟩
    exact ⟨family, ⟨hfamily, hname⟩, _, hsample, rfl⟩

end Stormnetboot.Common.Exposition

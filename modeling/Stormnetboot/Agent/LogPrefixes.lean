import Stormnetboot.Agent.TextLog
import Stormnetboot.Common.Occurrences

/-!
# Prefixes of log lines

A line is trimmed before it is classified, and classified by how it starts. Whitespace before a
line changes nothing; a timestamp or the name of a unit does, and the event of the line is lost.
-/

namespace Stormnetboot.Agent

open Stormnetboot.Common

/-- How the lines with an event start. -/
def eventKeys : List Text :=
  ["Flow-over: migrating to local slab", "Flow-over complete:", "flow-over complete:",
    "flow-over: aborting", "flow-over: extent "].map String.toList

/-- What a trimmed line is classified as. -/
inductive Classified (line : Text) : Option Event → Prop where
  | started (rest : Text) (h : "Flow-over: migrating to local slab".toList ++ rest = line) :
    Classified line (some (.started (startedDisk rest)))
  | onLocalDisk (h : "Flow-over complete:".toList <+: line) :
    Classified line (some (.complete ((firstNumber line).getD 0) 0))
  | complete (h : "flow-over complete:".toList <+: line) :
    Classified line
      (some (.complete ((allNumbers line)[0]?.getD 0) ((allNumbers line)[1]?.getD 0)))
  | aborted (h : "flow-over: aborting".toList <+: line) : Classified line (some .aborted)
  | extentFailed (detail : Text) (h : "flow-over: extent ".toList ++ detail = line) :
    Classified line (some (.extentFailed (trim detail)))
  | other (h : ∀ key ∈ eventKeys, ¬key <+: line) : Classified line none

/-- The parser gives each line the event of its class. -/
theorem classified_parseLine (line : Text) : Classified (trim line) (parseLine line) := by
  unfold parseLine
  simp only
  cases hstart : stripPrefix "Flow-over: migrating to local slab".toList (trim line) with
  | some rest => exact .started rest ((stripPrefix_eq_some_iff ..).mp hstart).symm
  | none =>
    simp only
    split_ifs with hlocal hcomplete habort
    · exact .onLocalDisk (List.isPrefixOf_iff_prefix.mp hlocal)
    · exact .complete (List.isPrefixOf_iff_prefix.mp hcomplete)
    · exact .aborted (List.isPrefixOf_iff_prefix.mp habort)
    · cases hextent : stripPrefix "flow-over: extent ".toList (trim line) with
      | some detail => exact .extentFailed detail ((stripPrefix_eq_some_iff ..).mp hextent).symm
      | none =>
        refine .other fun key hkey => ?_
        simp only [eventKeys, List.map_cons, List.map_nil, List.mem_cons, List.not_mem_nil,
          or_false] at hkey
        rw [List.isPrefixOf_iff_prefix] at hlocal hcomplete habort
        rcases hkey with rfl | rfl | rfl | rfl | rfl
        · exact (stripPrefix_eq_none_iff ..).mp hstart
        · exact hlocal
        · exact hcomplete
        · exact habort
        · exact (stripPrefix_eq_none_iff ..).mp hextent

/-- A line with an event starts with one of the keys. -/
theorem exists_key_of_event {line : Text} {event : Event} (h : parseLine line = some event) :
    ∃ key ∈ eventKeys, key <+: trim line := by
  have hclass := classified_parseLine line
  rw [h] at hclass
  cases hclass with
  | started rest hline => exact ⟨_, by simp [eventKeys], _, hline⟩
  | onLocalDisk hline => exact ⟨_, by simp [eventKeys], hline⟩
  | complete hline => exact ⟨_, by simp [eventKeys], hline⟩
  | aborted hline => exact ⟨_, by simp [eventKeys], hline⟩
  | extentFailed detail hline => exact ⟨_, by simp [eventKeys], _, hline⟩

/-! ## What stands before a line -/

/-- Whitespace before a line is trimmed away. -/
theorem trim_blank_append {p : Text} (hblank : ∀ c ∈ p, isWhitespace c = true) (line : Text) :
    trim (p ++ line) = trim line := by
  rw [trim, List.dropWhile_append_of_pos hblank, trim]

/-- Blanks in front of a line do not change its event. -/
theorem parseLine_blank_append {p : Text} (hblank : ∀ c ∈ p, isWhitespace c = true)
    (line : Text) : parseLine (p ++ line) = parseLine line := by
  unfold parseLine
  rw [trim_blank_append hblank]

/-- Anything else stands at the start of the trimmed line. -/
theorem trim_append_prefix_drop {p : Text} (hp : p.dropWhile isWhitespace ≠ []) (line : Text) :
    trim (p ++ line) <+: p.dropWhile isWhitespace ++ line := by
  rw [trim, List.dropWhile_append, if_neg (by simpa using hp)]
  exact List.rdropWhile_prefix _ _

/-- A line with an event starts with whitespace or with the first letter of a key. -/
theorem head_of_event {line : Text} {event : Event} (h : parseLine line = some event) :
    ∃ c rest, line = c :: rest ∧ (isWhitespace c = true ∨ c = 'F' ∨ c = 'f') := by
  obtain ⟨key, hkey, hprefix⟩ := exists_key_of_event h
  have hletter : ∀ key ∈ eventKeys, key.head? = some 'F' ∨ key.head? = some 'f' := by decide
  cases line with
  | nil =>
    have hnil : key = [] := List.prefix_nil.mp hprefix
    rcases hletter key hkey with hhead | hhead
    all_goals
      rw [hnil] at hhead
      cases hhead
  | cons c rest =>
    refine ⟨c, rest, rfl, ?_⟩
    cases hc : isWhitespace c with
    | true => exact .inl rfl
    | false =>
      have htrim : trim (c :: rest) <+: c :: rest := by
        rw [trim, List.dropWhile_cons_of_neg (by simp [hc])]
        exact List.rdropWhile_prefix _ _
      obtain ⟨tail, htail⟩ := hprefix.trans htrim
      refine .inr ?_
      rcases hletter key hkey with hhead | hhead
      · obtain ⟨more, rfl⟩ := List.head?_eq_some_iff.mp hhead
        exact .inl (List.cons.inj htail).1.symm
      · obtain ⟨more, rfl⟩ := List.head?_eq_some_iff.mp hhead
        exact .inr (List.cons.inj htail).1.symm

/-- Where a key could end in whitespace early, it goes on with another letter. -/
theorem not_head_of_key : ∀ key ∈ eventKeys, ∀ n < key.length,
    (key.take n).getLast?.any isWhitespace = true →
      (key.drop n).head?.any (fun c => isWhitespace c || c == 'F' || c == 'f') = false := by
  decide

/-- A key at the start of a line with an event, behind a prefix, stands in the prefix. -/
theorem key_prefix_of_append {key front line : Text} {event : Event} (hkey : key ∈ eventKeys)
    (hfront : front.getLast?.any isWhitespace = true) (hevent : parseLine line = some event)
    (h : key <+: front ++ line) : key <+: front := by
  rcases prefix_append_cases h with hwhole | ⟨tail, hne, rfl, htail⟩
  · exact hwhole
  · have hnot := not_head_of_key _ hkey front.length (by simp [List.length_pos_iff.mpr hne])
    rw [List.take_left, List.drop_left] at hnot
    have hother := hnot hfront
    obtain ⟨c, rest, rfl, hc⟩ := head_of_event hevent
    obtain ⟨d, more, rfl⟩ := List.exists_cons_of_ne_nil hne
    obtain ⟨rfl, -⟩ := List.cons_prefix_cons.mp htail
    rw [List.head?_cons, Option.any_some] at hother
    rcases hc with hspace | rfl | rfl
    · rw [hspace] at hother
      cases hother
    · cases hother
    · cases hother

section Prefixed

variable {p : Text} (hend : p.getLast?.any isWhitespace = true)
  (hp : p.dropWhile isWhitespace ≠ [])

include hend hp

/-- The same with the prefix as it is trimmed. -/
theorem key_prefix_of_trim {key line : Text} {event : Event} (hkey : key ∈ eventKeys)
    (hevent : parseLine line = some event) (h : key <+: trim (p ++ line)) :
    key <+: p.dropWhile isWhitespace := by
  have hlast : (p.dropWhile isWhitespace).getLast?.any isWhitespace = true := by
    have hsplit : p.takeWhile isWhitespace ++ p.dropWhile isWhitespace = p :=
      List.takeWhile_append_dropWhile
    rw [← hsplit, List.getLast?_append_of_ne_nil _ hp] at hend
    exact hend
  exact key_prefix_of_append hkey hlast hevent (h.trans (trim_append_prefix_drop hp line))

/-- A prefix that is not blank, and does not start like an event itself, hides every event. -/
theorem parseLine_prefixed (hkeys : ∀ key ∈ eventKeys, ¬key <+: p.dropWhile isWhitespace)
    {line : Text} {event : Event} (hevent : parseLine line = some event) :
    parseLine (p ++ line) = none := by
  cases hparse : parseLine (p ++ line) with
  | none => rfl
  | some other =>
    obtain ⟨key, hkey, hprefix⟩ := exists_key_of_event hparse
    exact absurd (key_prefix_of_trim hend hp hkey hevent hprefix) (hkeys key hkey)

/-- One that starts like an event hides some: it cannot start like two. -/
theorem not_forall_parseLine_prefixed :
    ¬∀ line event, parseLine line = some event → parseLine (p ++ line) = some event := by
  intro h
  have habort : parseLine "flow-over: aborting".toList = some .aborted := by decide
  have hlocal : parseLine "Flow-over complete: 0".toList = some (.complete 0 0) := by
    decide
  have habortKey : "flow-over: aborting".toList <+: p.dropWhile isWhitespace := by
    have hclass := classified_parseLine (p ++ "flow-over: aborting".toList)
    rw [h _ _ habort] at hclass
    cases hclass with
    | aborted hline => exact key_prefix_of_trim hend hp (by simp [eventKeys]) habort hline
  have hcompleteKey : ∃ key ∈ ["Flow-over complete:".toList, "flow-over complete:".toList],
      key <+: p.dropWhile isWhitespace := by
    have hclass := classified_parseLine (p ++ "Flow-over complete: 0".toList)
    rw [h _ _ hlocal] at hclass
    generalize hresult : some (Event.complete 0 0) = result at hclass
    cases hclass with
    | onLocalDisk hline =>
      exact ⟨_, by simp, key_prefix_of_trim hend hp (by simp [eventKeys]) hlocal hline⟩
    | complete hline =>
      exact ⟨_, by simp, key_prefix_of_trim hend hp (by simp [eventKeys]) hlocal hline⟩
    | _ => cases hresult
  obtain ⟨key, hkey, hprefix⟩ := hcompleteKey
  have hapart : ∀ key ∈ ["Flow-over complete:".toList, "flow-over complete:".toList],
      ¬key <+: "flow-over: aborting".toList ∧ ¬"flow-over: aborting".toList <+: key := by decide
  rcases Nat.le_total key.length "flow-over: aborting".toList.length with hle | hle
  · exact (hapart key hkey).1 (List.prefix_of_prefix_length_le hprefix habortKey hle)
  · exact (hapart key hkey).2 (List.prefix_of_prefix_length_le habortKey hprefix hle)

end Prefixed

/-! ## Whole logs -/

/-- Whitespace before a text changes no event, wherever the lines end. -/
theorem textEvents_blank_append {p : Text} (hblank : ∀ c ∈ p, isWhitespace c = true)
    (text : Text) : textEvents (p ++ text) = textEvents text := by
  have hblankLine : ∀ line : Text, (∀ c ∈ line, isWhitespace c = true) → parseLine line = none := by
    intro line hline
    have hsame := parseLine_blank_append hline []
    rw [List.append_nil] at hsame
    rw [hsame]
    decide
  have hone : ∀ c, isWhitespace c = true → ∀ text, textEvents (c :: text) = textEvents text := by
    intro c hc text
    have hchar : ∀ d ∈ [c], isWhitespace d = true := by simpa using hc
    unfold textEvents
    rw [splitInclusive]
    split_ifs with hnewline
    · rw [List.map_cons, eventsOf, hblankLine [c] hchar]
    · cases splitInclusive '\n' text with
      | nil => rw [List.map_cons, eventsOf, hblankLine [c] hchar]
      | cons part rest =>
        have hpart : parseLine (c :: part) = parseLine part := parseLine_blank_append hchar part
        simp only [List.map_cons, eventsOf, hpart]
  induction p with
  | nil => rfl
  | cons c cs ih =>
    obtain ⟨hc, hcs⟩ := List.forall_mem_cons.mp hblank
    rw [List.cons_append, hone c hc, ih hcs]

/-- With blank prefixes a log has the events it has without. -/
theorem textEvents_blank_prefixes {entries : List (Text × Text)}
    (hblank : ∀ entry ∈ entries, ∀ c ∈ entry.1, isWhitespace c = true) :
    textEvents (logText (entries.map fun entry => entry.1 ++ entry.2)) =
      textEvents (logText (entries.map Prod.snd)) := by
  induction entries with
  | nil => rfl
  | cons entry rest ih =>
    obtain ⟨hentry, hrest⟩ := List.forall_mem_cons.mp hblank
    have hline : ∀ line tail, logText (line :: tail) = (line ++ ['\n']) ++ logText tail :=
      fun _ _ => List.flatMap_cons
    rw [List.map_cons, List.map_cons, hline, hline, List.append_assoc, List.append_assoc,
      textEvents_blank_append hentry, ← List.append_assoc]
    exact textEvents_append_congr (.inr (List.getLast?_concat ..)) (ih hrest)

/-- No prefix of the kind hides an event: a line has its event behind one, and a log is reported
with one before each line as without. -/
structure HidesNothing (prefixes : Text → Prop) : Prop where
  lines : ∀ p line event, prefixes p → parseLine line = some event →
    parseLine (p ++ line) = some event
  logs : ∀ entries : List (Text × Text), (∀ entry ∈ entries, prefixes entry.1) →
    (followEngineLog [utf8Encode (logText (entries.map fun entry => entry.1 ++ entry.2))]).reports =
      (followEngineLog [utf8Encode (logText (entries.map Prod.snd))]).reports

/-- Prefixes that end in whitespace hide nothing exactly when they are whitespace. -/
theorem hidesNothing_iff (prefixes : Text → Prop)
    (hend : ∀ p, prefixes p → p.getLast?.any isWhitespace = true) :
    HidesNothing prefixes ↔ ∀ p, prefixes p → ∀ c ∈ p, isWhitespace c = true := by
  constructor
  · intro h p hp
    by_contra hblank
    refine not_forall_parseLine_prefixed (hend p hp) (fun hdrop => hblank ?_)
      fun line event => h.lines p line event hp
    exact List.dropWhile_eq_nil_iff.mp hdrop
  · intro h
    refine ⟨fun p line event hp hevent => ?_, fun entries hentries => ?_⟩
    · rw [parseLine_blank_append (h p hp), hevent]
    · rw [reports_utf8Encode, reports_utf8Encode,
        textEvents_blank_prefixes fun entry hentry => h entry.1 (hentries entry hentry)]

/-- Indentation hides nothing. -/
theorem hidesNothing_indented : HidesNothing (· = "   ".toList) :=
  (hidesNothing_iff (· = "   ".toList) (fun p hp => by rw [hp]; decide)).mpr
    fun p hp => by rw [hp]; decide

/-- A timestamp does: the completion is no event, and is not reported. -/
theorem not_hidesNothing_timestamp :
    parseLine "Flow-over complete: 5 extent(s) now on local disk".toList = some (.complete 5 0) ∧
      parseLine ("2026-09-01T08:00:00Z ".toList ++
        "Flow-over complete: 5 extent(s) now on local disk".toList) = none ∧
      ¬HidesNothing (· = "2026-09-01T08:00:00Z ".toList) := by
  have hevent : parseLine "Flow-over complete: 5 extent(s) now on local disk".toList =
      some (.complete 5 0) := by decide
  have hnone : parseLine ("2026-09-01T08:00:00Z ".toList ++
      "Flow-over complete: 5 extent(s) now on local disk".toList) = none :=
    parseLine_prefixed (by decide) (by decide) (by decide) hevent
  refine ⟨hevent, hnone, fun h => ?_⟩
  have hsame := h.lines _ _ _ rfl hevent
  rw [hnone] at hsame
  cases hsame

end Stormnetboot.Agent

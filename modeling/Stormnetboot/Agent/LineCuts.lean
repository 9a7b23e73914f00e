import Stormnetboot.Agent.TextLog

/-!
# Lines that are cut

The reader meets a line in pieces if it gets to the end of the file inside that line. The cut is
harmless if the reader finds in the pieces, one after the other, what it would find in the line. A
log is reported as when it is read at once if its cuts are harmless, up to the line the loop stops
at. Any other cut of a line shows in some log: lines can be put before it and behind it so that the
reports differ.
-/

namespace Stormnetboot.Agent

open Stormnetboot.Common

/-- The pieces the reader meets, between ends of the file and of lines. -/
def piecesOf (appends : List Bytes) : List Bytes :=
  appends.flatMap (splitInclusive newline)

/-- The pieces of a line say what the line says: the same events in the same order, if any, and
the loop stops in them if it stops at the line. -/
def Harmless (pieces : List Bytes) : Prop :=
  eventsOf (pieces.map readLine) = eventsOf [readLine pieces.flatten] ∧
    (pieces.map readLine).any Read.stops = (readLine pieces.flatten).stops

/-- Every line up to the first at which the loop stops, that one included, is cut harmlessly. -/
def HarmlessCuts (appends : List Bytes) : Prop :=
  ∀ before pieces after, piecesByPart newline (piecesOf appends) = before ++ pieces :: after →
    (∀ earlier ∈ before, (readLine earlier.flatten).stops = false) → Harmless pieces

/-! ## Harmless cuts -/

/-- A line in one piece is not cut. -/
theorem harmless_singleton (piece : Bytes) : Harmless [piece] := by
  simp [Harmless]

/-- Ends of the file are no events. -/
theorem eventsOf_flatMap_readsOf (appends : List Bytes) :
    eventsOf (appends.flatMap readsOf) = eventsOf ((piecesOf appends).map readLine) := by
  induction appends with
  | nil => rfl
  | cons append rest ih =>
    have hpieces : piecesOf (append :: rest) = splitInclusive newline append ++ piecesOf rest :=
      List.flatMap_cons
    have hskip : eventsOf ([.endOfFile] ++ rest.flatMap readsOf) =
        eventsOf (rest.flatMap readsOf) := rfl
    rw [List.flatMap_cons, readsOf, List.append_assoc, hpieces, List.map_append,
      eventsOf_append ((splitInclusive newline append).map readLine), hskip, ih, ← eventsOf_append]

/-- The lines of a log, from the pieces the reader meets. -/
theorem eventsOf_readsOf_flatten (appends : List Bytes) :
    eventsOf (readsOf appends.flatten) =
      eventsOf ((piecesByPart newline (piecesOf appends)).map fun line =>
        readLine line.flatten) := by
  rw [readsOf, eventsOf_append_endOfFile, ← map_flatten_piecesByPart, List.map_map]
  rfl

/-- Lines that are cut harmlessly have the events they have uncut. -/
theorem eventsOf_of_harmless (lines : List (List Bytes))
    (h : ∀ before pieces after, lines = before ++ pieces :: after →
      (∀ earlier ∈ before, (readLine earlier.flatten).stops = false) → Harmless pieces) :
    eventsOf (lines.flatten.map readLine) =
      eventsOf (lines.map fun line => readLine line.flatten) := by
  induction lines with
  | nil => rfl
  | cons pieces rest ih =>
    obtain ⟨hevents, hstops⟩ := h [] pieces rest rfl fun _ hmem => absurd hmem List.not_mem_nil
    have hline : (pieces :: rest).map (fun line => readLine line.flatten) =
        [readLine pieces.flatten] ++ rest.map fun line => readLine line.flatten := rfl
    rw [List.flatten_cons, List.map_append, hline, eventsOf_append, eventsOf_append, hevents, hstops,
      List.any_cons, List.any_nil, Bool.or_false]
    cases hstop : (readLine pieces.flatten).stops with
    | true => rfl
    | false =>
      have hrest := ih fun before next after heq hbefore =>
        h (pieces :: before) next after (by rw [heq]; rfl) fun earlier hmem =>
          (List.mem_cons.mp hmem).elim (fun heq => heq ▸ hstop) (hbefore earlier)
      rw [hrest]

/-- A log whose cuts are harmless is reported as when it is read at once. -/
theorem reportedAsWhole_of_harmlessCuts {appends : List Bytes} (h : HarmlessCuts appends) :
    ReportedAsWhole appends := by
  have hlines := eventsOf_of_harmless _ h
  rw [flatten_piecesByPart] at hlines
  rw [reportedAsWhole_iff, SameSignificance, eventsOf_flatMap_readsOf, eventsOf_readsOf_flatten,
    hlines]

/-- Nothing or complete lines. -/
def WholeLines (append : Bytes) : Prop :=
  append = [] ∨ append.getLast? = some newline

/-- The pieces of complete lines are complete lines. -/
theorem WholeLines.getLast?_piece {append piece : Bytes} (h : WholeLines append)
    (hpiece : piece ∈ splitInclusive newline append) : piece.getLast? = some newline := by
  rcases h with rfl | h
  · cases hpiece
  · exact getLast?_of_mem_splitInclusive h hpiece

/-- A log that is appended to by whole lines, but for its end, has no line that is cut. -/
theorem harmlessCuts_of_whole_lines {appends : List Bytes}
    (h : ∀ append ∈ appends.dropLast, WholeLines append) : HarmlessCuts appends := by
  cases appends using List.reverseRecOn with
  | nil =>
    intro before pieces after hlines _
    exact absurd hlines.symm (List.append_ne_nil_of_right_ne_nil before (List.cons_ne_nil _ _))
  | append_singleton front tail =>
    rw [List.dropLast_concat] at h
    have hwhole : ∀ piece ∈ piecesOf front, piece.getLast? = some newline := by
      intro piece hpiece
      obtain ⟨append, happend, hmem⟩ := List.mem_flatMap.mp hpiece
      exact (h append happend).getLast?_piece hmem
    have hpieces : piecesOf (front ++ [tail]) = piecesOf front ++ splitInclusive newline tail := by
      rw [piecesOf, List.flatMap_append, List.flatMap_singleton]
      rfl
    intro before pieces after hlines _
    rw [hpieces, piecesByPart_append_splitInclusive newline hwhole] at hlines
    have hmem : pieces ∈ (piecesOf front ++ splitInclusive newline tail).map fun piece => [piece] :=
      hlines ▸ List.mem_append_right _ List.mem_cons_self
    obtain ⟨piece, -, rfl⟩ := List.mem_map.mp hmem
    exact harmless_singleton piece

/-! ## Cuts that do harm -/

/-- What does not stop the loop and is read before a line that is cut harmlessly, or after it, does
not care for the cut. -/
theorem Harmless.eventsOf_between {pieces : List Bytes} (h : Harmless pieces)
    (before after : List Read) :
    eventsOf (before ++ (pieces.map readLine ++ after)) =
      eventsOf (before ++ ([readLine pieces.flatten] ++ after)) := by
  rw [eventsOf_append before, eventsOf_append before, eventsOf_append (pieces.map readLine),
    eventsOf_append [readLine pieces.flatten], h.1, h.2, List.any_cons, List.any_nil, Bool.or_false]

/-- The numbers of the extent failures come from how many there were before. -/
theorem significant_append_failures (n : ℕ) (count : UInt32) (detail : Text) (later : List Event) :
    significant count (List.replicate n (.extentFailed detail) ++ later) =
      significant count (List.replicate n (.extentFailed detail)) ++
        significant (count + UInt32.ofNat n) later := by
  induction n generalizing count with
  | zero => simp [significant]
  | succ n ih =>
    have hcount : count + 1 + UInt32.ofNat n = count + UInt32.ofNat (n + 1) := by
      rw [UInt32.ofNat_add, UInt32.add_assoc, UInt32.add_comm 1]
      rfl
    rw [List.replicate_succ, List.cons_append, significant, significant, ih, hcount]
    split_ifs <;> rfl

/-- Events are told apart by what is significant of them behind any number of extent failures. -/
theorem eq_of_significant {events events' : List Event}
    (h : ∀ count, significant count events = significant count events') : events = events' := by
  induction events generalizing events' with
  | nil =>
    cases events' with
    | nil => rfl
    | cons event rest =>
      have hthird := h 3
      cases event <;> simp [significant] at hthird
  | cons event rest ih =>
    -- The fourth failure is significant, so the first events are told apart behind three others.
    have hthird := h 3
    cases events' with
    | nil => cases event <;> simp [significant] at hthird
    | cons event' rest' =>
      cases event with
      | started disk =>
        cases event' with
        | started disk' =>
          simp only [significant, List.cons.injEq, Significant.started.injEq] at h
          rw [(h 0).1, ih fun count => (h count).2]
        | _ => simp [significant] at hthird
      | complete moved failed =>
        cases event' with
        | complete moved' failed' =>
          simp only [significant, List.cons.injEq, Significant.complete.injEq] at h
          rw [(h 0).1.1, (h 0).1.2, ih fun count => (h count).2]
        | _ => simp [significant] at hthird
      | aborted =>
        cases event' with
        | aborted =>
          simp only [significant, List.cons.injEq, true_and] at h
          rw [ih h]
        | _ => simp [significant] at hthird
      | extentFailed detail =>
        cases event' with
        | extentFailed detail' =>
          have hfourth : (3 + 1 : UInt32) % 4 = 0 := by decide
          simp only [significant, hfourth, if_true, List.cons.injEq, Significant.failures.injEq,
            true_and] at hthird
          rw [hthird.1, ih fun count => ?_]
          have hbefore := h (count - 1)
          simp only [significant, UInt32.sub_add_cancel] at hbefore
          split_ifs at hbefore
          · exact (List.cons.inj hbefore).2
          · exact hbefore
        | _ => simp [significant] at hthird

/-- A line about an extent that failed, and one about the start of a flow-over. -/
def failureLine : Text :=
  "flow-over: extent 1: device busy".toList

/-- A line that starts the migration. -/
def startLine : Text :=
  "Flow-over: migrating to local slab 7 on /dev/sda in background".toList

/-- The failure is read from its line. -/
theorem parseLine_failureLine : parseLine (failureLine ++ ['\n']) =
    some (.extentFailed "1: device busy".toList) := by
  decide

/-- The start is read from its line. -/
theorem parseLine_startLine : parseLine (startLine ++ ['\n']) =
    some (.started "/dev/sda".toList) := by
  decide

/-- What is read of so many failures. -/
theorem map_readLine_failures (n : ℕ) :
    (splitInclusive newline (utf8Encode (logText (List.replicate n failureLine)))).map readLine =
      List.replicate n (.line (failureLine ++ ['\n'])) := by
  have hclean : ∀ line ∈ List.replicate n failureLine, '\n' ∉ line := by
    intro line hline
    rw [List.eq_of_mem_replicate hline]
    decide
  rw [map_readLine_utf8Encode, splitInclusive_logText hclean, List.map_map, List.map_replicate]
  rfl

/-- They do not stop the loop. -/
theorem eventsOf_failures (n : ℕ) (later : List Read) :
    eventsOf (List.replicate n (.line (failureLine ++ ['\n'])) ++ later) =
      List.replicate n (.extentFailed "1: device busy".toList) ++ eventsOf later := by
  induction n with
  | zero => rfl
  | succ n ih =>
    rw [List.replicate_succ, List.cons_append, eventsOf, parseLine_failureLine, ih]
    rfl

/-- Complete lines of text are complete lines. -/
theorem wholeLines_logText (lines : List Text) : WholeLines (utf8Encode (logText lines)) := by
  induction lines using List.reverseRecOn with
  | nil => exact .inl rfl
  | append_singleton front line _ =>
    have hbytes : utf8Encode (logText (front ++ [line])) =
        utf8Encode (logText front ++ line) ++ [newline] := by
      rw [logText, List.flatMap_append, List.flatMap_singleton, ← List.append_assoc, utf8Encode,
        List.flatMap_append]
      rfl
    exact .inr (by rw [hbytes, List.getLast?_concat])

section Line

variable {appends : List Bytes} {line : Bytes}

/-- A line that arrives in appends, among complete lines, is read in its pieces. -/
theorem eventsOf_delivered (before after : Bytes) :
    eventsOf ((before :: appends ++ [after]).flatMap readsOf) =
      eventsOf ((splitInclusive newline before).map readLine ++
        ((piecesOf appends).map readLine ++ (splitInclusive newline after).map readLine)) := by
  have hpieces : piecesOf (before :: appends ++ [after]) =
      splitInclusive newline before ++ (piecesOf appends ++ splitInclusive newline after) := by
    rw [piecesOf, List.cons_append, List.flatMap_cons, List.flatMap_append, List.flatMap_singleton]
    rfl
  rw [eventsOf_flatMap_readsOf, hpieces, List.map_append, List.map_append]

/-- In the log it is one line. -/
theorem eventsOf_logged (hline : appends.flatten = line ++ [newline]) (hone : newline ∉ line)
    {before : Bytes} (hbefore : WholeLines before) (after : Bytes) :
    eventsOf (readsOf (before :: appends ++ [after]).flatten) =
      eventsOf ((splitInclusive newline before).map readLine ++
        ([readLine (piecesOf appends).flatten] ++ (splitInclusive newline after).map readLine)) := by
  have hflatten : (before :: appends ++ [after]).flatten =
      before ++ ((line ++ [newline]) ++ after) := by
    rw [List.cons_append, List.flatten_cons, List.flatten_append, hline, List.flatten_singleton]
  have hpieces : (piecesOf appends).flatten = line ++ [newline] := by
    rw [piecesOf, flatten_flatMap_splitInclusive, hline]
  rw [readsOf, eventsOf_append_endOfFile, hflatten, splitInclusive_append newline _ _ hbefore,
    splitInclusive_append newline _ _ (.inr (List.getLast?_concat ..)),
    splitInclusive_singleton newline line hone, List.map_append, List.map_append, hpieces]
  rfl

/-- A line that arrives in appends is reported as when it is read at once, whatever complete lines
stand before it and behind it, exactly if it is cut harmlessly. -/
theorem harmless_iff_everywhere (hline : appends.flatten = line ++ [newline])
    (hone : newline ∉ line) :
    Harmless (piecesOf appends) ↔ ∀ before after, WholeLines before → WholeLines after →
      ReportedAsWhole (before :: appends ++ [after]) := by
  constructor
  · intro h before after hbefore _
    rw [reportedAsWhole_iff, SameSignificance, eventsOf_delivered,
      eventsOf_logged hline hone hbefore, h.eventsOf_between]
  · intro h
    -- Behind any number of failures the same is significant, so the events are the same.
    have hsame : ∀ lines,
        eventsOf ((piecesOf appends).map readLine ++
          (splitInclusive newline (utf8Encode (logText lines))).map readLine) =
        eventsOf ([readLine (piecesOf appends).flatten] ++
          (splitInclusive newline (utf8Encode (logText lines))).map readLine) := by
      intro lines
      refine eq_of_significant fun count => ?_
      have hbefore := wholeLines_logText (List.replicate count.toNat failureLine)
      have hreported := h _ _ hbefore (wholeLines_logText lines)
      rw [reportedAsWhole_iff, SameSignificance, eventsOf_delivered,
        eventsOf_logged hline hone hbefore, map_readLine_failures, eventsOf_failures,
        eventsOf_failures, significant_append_failures, significant_append_failures,
        UInt32.zero_add, UInt32.ofNat_toNat] at hreported
      exact List.append_cancel_left hreported
    have hevents : eventsOf ((piecesOf appends).map readLine) =
        eventsOf [readLine (piecesOf appends).flatten] := by
      simpa [logText, utf8Encode, splitInclusive] using hsame []
    refine ⟨hevents, ?_⟩
    -- Behind a line that stops the loop a start is not read, behind any other it is.
    have hstart := hsame [startLine]
    have hread : (splitInclusive newline (utf8Encode (logText [startLine]))).map readLine =
        [.line (startLine ++ ['\n'])] := by
      rw [map_readLine_utf8Encode, splitInclusive_logText (by decide)]
      rfl
    have hstarted : eventsOf [.line (startLine ++ ['\n'])] = [.started "/dev/sda".toList] := by
      rw [eventsOf, parseLine_startLine]
      rfl
    rw [hread, eventsOf_append, eventsOf_append, hevents, hstarted, List.any_cons, List.any_nil,
      Bool.or_false] at hstart
    have htail := List.append_cancel_left hstart
    cases hpieces : ((piecesOf appends).map readLine).any Read.stops <;>
      cases hwhole : (readLine (piecesOf appends).flatten).stops <;>
      simp [hpieces, hwhole] at htail ⊢

end Line

/-- A log whose cuts are harmless is reported as when it is read at once, and its cuts are harmless
if all of its appends but the last end where a line ends. If a line is cut and is reported as when
it is read at once, whatever complete lines stand before it and behind it, the cut is harmless. -/
theorem reportedAsWhole_cuts (appends : List Bytes) :
    (HarmlessCuts appends → ReportedAsWhole appends) ∧
      ((∀ append ∈ appends.dropLast, WholeLines append) → HarmlessCuts appends) ∧
      ∀ line, appends.flatten = line ++ [newline] → newline ∉ line →
        (∀ before after, WholeLines before → WholeLines after →
          ReportedAsWhole (before :: appends ++ [after])) → Harmless (piecesOf appends) :=
  ⟨reportedAsWhole_of_harmlessCuts, harmlessCuts_of_whole_lines,
    fun _ hline hone => (harmless_iff_everywhere hline hone).mpr⟩

/-- A line that is no event is cut in the middle, and the completion after it is not. -/
theorem reportedAsWhole_cut_chatter : ReportedAsWhole [asciiBytes "INFO serving ",
    asciiBytes "volume\nflow-over complete: 100 extent(s) migrated, 3 failed\n"] := by
  refine (reportedAsWhole_cuts _).1 fun before pieces after hlines _ => ?_
  have hparts : piecesByPart newline (piecesOf [asciiBytes "INFO serving ",
      asciiBytes "volume\nflow-over complete: 100 extent(s) migrated, 3 failed\n"]) =
        [[asciiBytes "INFO serving ", asciiBytes "volume\n"],
          [asciiBytes "flow-over complete: 100 extent(s) migrated, 3 failed\n"]] := by
    decide
  have hmem : pieces ∈ before ++ pieces :: after := List.mem_append_right _ List.mem_cons_self
  rw [← hlines, hparts, List.mem_cons, List.mem_singleton] at hmem
  rcases hmem with rfl | rfl
  · constructor <;> decide
  · exact harmless_singleton _

end Stormnetboot.Agent

import Stormnetboot.Agent.EngineLines

/-!
# What is reported of a log of whole lines

A log of complete lines is reported up to the first completion or abort: each start and every
fourth extent failure before it as progress, then how it ended. `local` is reported for a
completion without failures only, and `failed` for an abort only.
-/

namespace Stormnetboot.Agent

open Stormnetboot.Common

namespace LogLine

/-- The loop returns on the line. -/
def ends : LogLine → Bool
  | .onLocalDisk _ => true
  | .complete _ _ => true
  | .aborting _ => true
  | _ => false

/-- The line starts the migration. -/
def isStart : LogLine → Bool
  | .started _ _ => true
  | _ => false

/-- The line is about one extent. -/
def isExtent : LogLine → Bool
  | .extent _ => true
  | _ => false

/-- How many extents a completion says have failed. -/
def failed : LogLine → Option ℕ
  | .onLocalDisk _ => some 0
  | .complete _ failed => some failed
  | _ => none

/-- What is posted of a line before the end, after so many extent failures; their count wraps. -/
def progress (failures : ℕ) : LogLine → List Report
  | .started _ disk => [⟨"assimilating".toList, "flow-over onto ".toList ++ disk⟩]
  | .extent detail =>
    if (failures + 1) % 4 = 0 then
      [⟨"assimilating".toList,
        natText ((failures + 1) % 2 ^ 32) ++ " extent failures: ".toList ++ detail⟩]
    else []
  | _ => []

/-- What is posted of a completion. -/
def closingDetail (moved failed : ℕ) : Text :=
  natText moved ++ " extent(s) local, ".toList ++ natText failed ++ " failed".toList

/-- What is posted of the line the loop returns on. -/
def closing : LogLine → List Report
  | .onLocalDisk moved => [⟨"local".toList, closingDetail moved 0⟩]
  | .complete moved failed =>
    [⟨if failed > 0 then "assimilating".toList else "local".toList, closingDetail moved failed⟩]
  | .aborting _ => [⟨"failed".toList, "flow-over aborted after repeated failures".toList⟩]
  | _ => []

end LogLine

/-- A line whose parts can be told apart. -/
abbrev EngineLine := {line : LogLine // line.WellFormed}

namespace EngineLine

/-- The engine starts to migrate onto a slab. -/
def migrating : EngineLine :=
  ⟨.started "s1".toList "/dev/sda".toList, by decide⟩

/-- One extent could not be migrated. -/
def extentFailed : EngineLine :=
  ⟨.extent "7 failed: timed out".toList, by decide⟩

/-- All are there. -/
def migrated : EngineLine :=
  ⟨.onLocalDisk 100, by decide⟩

end EngineLine

/-- The lines before the first that ends the run, and that line. -/
def linesBefore (lines : List LogLine) : List LogLine :=
  lines.takeWhile (!·.ends)

/-- The first line that ends the migration. -/
def closingLine (lines : List LogLine) : Option LogLine :=
  lines.find? LogLine.ends

/-- What is posted of lines before the end. -/
def progressReports (failures : ℕ) : List LogLine → List Report
  | [] => []
  | line :: rest =>
    line.progress failures ++
      progressReports (if line.isExtent then failures + 1 else failures) rest

/-- The reports of a log: progress, then the end; one for each start and every fourth extent
failure. -/
structure TerminalReports (lines : List LogLine) (reports : List Report) : Prop where
  posted : reports = progressReports 0 (linesBefore lines) ++
    (closingLine lines).elim [] LogLine.closing
  onLocal : (∃ report ∈ reports, report.phase = "local".toList) ↔
    ∃ line, closingLine lines = some line ∧ line.failed = some 0
  onFailed : (∃ report ∈ reports, report.phase = "failed".toList) ↔
    ∃ reason, closingLine lines = some (.aborting reason)
  assimilating : ∀ report ∈ progressReports 0 (linesBefore lines),
    report.phase = "assimilating".toList
  count : (progressReports 0 (linesBefore lines)).length =
    (linesBefore lines).countP LogLine.isStart + (linesBefore lines).countP LogLine.isExtent / 4

/-! ## The events of the lines -/

/-- The events of the lines, up to the one the loop returns on. -/
def lineEvents : List LogLine → List Event
  | [] => []
  | line :: rest =>
    match line.event with
    | none => lineEvents rest
    | some event => if event.ends then [event] else event :: lineEvents rest

/-- Lines that are read before others come first. -/
theorem eventsOf_lines (lines : List EngineLine) {reads : List Read} {later : List LogLine}
    (h : eventsOf reads = lineEvents later) :
    eventsOf ((lines.map fun line => .line (line.1.print ++ ['\n'])) ++ reads) =
      lineEvents (lines.map Subtype.val ++ later) := by
  induction lines with
  | nil => exact h
  | cons line rest ih =>
    have hparse := LogLine.parseLine_print_newline line.2
    cases hevent : line.1.event with
    | none =>
      rw [hevent] at hparse
      simp only [List.map_cons, List.cons_append, eventsOf, lineEvents, hparse, hevent, ih]
    | some event =>
      rw [hevent] at hparse
      simp only [List.map_cons, List.cons_append, eventsOf, lineEvents, hparse, hevent, ih]

/-- The log in appends of complete lines has the events of its lines. -/
theorem eventsOf_chunks (chunks : List (List EngineLine)) :
    eventsOf ((chunks.map fun chunk => utf8Encode (logText (chunk.map (·.1.print)))).flatMap
      readsOf) = lineEvents (chunks.flatten.map Subtype.val) := by
  induction chunks with
  | nil => rfl
  | cons chunk rest ih =>
    have hclean : ∀ text ∈ chunk.map fun line => line.1.print, '\n' ∉ text := by
      intro text hmem
      obtain ⟨line, -, rfl⟩ := List.mem_map.mp hmem
      exact LogLine.newline_notMem_print line.2
    have hreads : readsOf (utf8Encode (logText (chunk.map fun line => line.1.print))) =
        (chunk.map fun line => .line (line.1.print ++ ['\n'])) ++ [.endOfFile] := by
      rw [readsOf_utf8Encode, splitInclusive_logText hclean, List.map_map, List.map_map]
      rfl
    rw [List.map_cons, List.flatMap_cons, hreads, List.append_assoc, List.flatten_cons,
      List.map_append]
    exact eventsOf_lines chunk ih

/-! ## The reports of the lines -/

/-- The counter of the loop is the number of failures, as far as it goes. -/
theorem ofNat_succ_mod_four (n : ℕ) : (UInt32.ofNat n + 1) % 4 = 0 ↔ (n + 1) % 4 = 0 := by
  rw [← UInt32.toNat_inj, UInt32.toNat_mod, UInt32.toNat_add, UInt32.toNat_ofNat']
  change ((n % 2 ^ 32 + 1) % 2 ^ 32) % 4 = 0 ↔ _
  omega

/-- What is significant in the lines is posted as progress or as the end. -/
theorem significant_lineEvents (lines : List LogLine) (failures : ℕ) :
    (significant (UInt32.ofNat failures) (lineEvents lines)).map Significant.report =
      progressReports failures (linesBefore lines) ++
        (closingLine lines).elim [] LogLine.closing := by
  induction lines generalizing failures with
  | nil => rfl
  | cons line rest ih =>
    cases line with
    | started id disk => exact congrArg ((Significant.started disk).report :: ·) (ih failures)
    | onLocalDisk moved => rfl
    | complete moved failed => rfl
    | aborting reason => rfl
    | extent detail =>
      have hcount : UInt32.ofNat failures + 1 = UInt32.ofNat (failures + 1) :=
        (UInt32.ofNat_add ..).symm
      change (significant (UInt32.ofNat failures) (.extentFailed detail :: lineEvents rest)).map
        Significant.report = (LogLine.extent detail).progress failures ++
          progressReports (failures + 1) (linesBefore rest) ++ _
      rw [List.append_assoc]
      change _ = _ ++ (progressReports (failures + 1) (linesBefore rest) ++
        (closingLine rest).elim [] LogLine.closing)
      rw [← ih (failures + 1), significant, LogLine.progress]
      simp only [ofNat_succ_mod_four]
      rw [hcount]
      split_ifs with hfourth
      · rw [List.map_cons, report_failures, UInt32.toNat_ofNat']
        rfl
      · rfl
    | other line => exact ih failures

/-- Progress is all that is posted before the end. -/
theorem phase_of_mem_progressReports (lines : List LogLine) (failures : ℕ) :
    ∀ report ∈ progressReports failures lines, report.phase = "assimilating".toList := by
  induction lines generalizing failures with
  | nil => exact fun _ h => nomatch h
  | cons line rest ih =>
    rw [progressReports, List.forall_mem_append]
    refine ⟨fun report hmem => ?_, ih _⟩
    cases line with
    | started id disk =>
      obtain rfl := List.mem_singleton.mp hmem
      rfl
    | extent detail =>
      rw [LogLine.progress] at hmem
      split_ifs at hmem
      · obtain rfl := List.mem_singleton.mp hmem
        rfl
      · cases hmem
    | _ => cases hmem

/-- One report for each start, and one for every fourth failure. -/
theorem length_progressReports (lines : List LogLine) (failures : ℕ) :
    (progressReports failures lines).length + failures / 4 =
      lines.countP LogLine.isStart + (failures + lines.countP LogLine.isExtent) / 4 := by
  induction lines generalizing failures with
  | nil => simp [progressReports]
  | cons line rest ih =>
    rw [progressReports, List.length_append, List.countP_cons, List.countP_cons]
    cases line with
    | started id disk =>
      have hrest := ih failures
      simp only [LogLine.progress, LogLine.isStart, LogLine.isExtent, if_true, Bool.false_eq_true,
        if_false, List.length_singleton]
      omega
    | extent detail =>
      have hrest := ih (failures + 1)
      simp only [LogLine.progress, LogLine.isStart, LogLine.isExtent, if_true, Bool.false_eq_true,
        if_false]
      split_ifs with hfourth
      · rw [List.length_singleton]
        omega
      · rw [List.length_nil]
        omega
    | _ =>
      have hrest := ih failures
      simp only [LogLine.progress, LogLine.isStart, LogLine.isExtent, Bool.false_eq_true, if_false,
        List.length_nil]
      omega

/-- How the end is posted. -/
theorem closing_phases {line : LogLine} (h : line.ends = true) :
    ((∃ report ∈ line.closing, report.phase = "local".toList) ↔ line.failed = some 0) ∧
      ((∃ report ∈ line.closing, report.phase = "failed".toList) ↔
        ∃ reason, line = .aborting reason) := by
  cases line with
  | onLocalDisk moved => simp [LogLine.closing, LogLine.failed]
  | complete moved failed =>
    simp only [LogLine.closing, LogLine.failed, List.mem_singleton, exists_eq_left]
    split_ifs with hfailed
    · simp [Nat.ne_of_gt hfailed]
    · simp [Nat.eq_zero_of_not_pos hfailed]
  | aborting reason => simp [LogLine.closing, LogLine.failed]
  | started id disk => cases h
  | extent detail => cases h
  | other line => cases h

/-- A report that is no progress is that of the end. -/
theorem exists_report_iff (lines : List LogLine) {phase : Text}
    (hphase : phase ≠ "assimilating".toList) :
    (∃ report ∈ progressReports 0 (linesBefore lines) ++
        (closingLine lines).elim [] LogLine.closing, report.phase = phase) ↔
      ∃ line, closingLine lines = some line ∧ ∃ report ∈ line.closing, report.phase = phase := by
  constructor
  · rintro ⟨report, hmem, hreport⟩
    rcases List.mem_append.mp hmem with hprogress | hclosing
    · exact absurd (hreport.symm.trans (phase_of_mem_progressReports _ _ report hprogress)) hphase
    · cases hline : closingLine lines with
      | none =>
        rw [hline] at hclosing
        cases hclosing
      | some line =>
        rw [hline] at hclosing
        exact ⟨line, rfl, report, hclosing, hreport⟩
  · rintro ⟨line, hline, report, hclosing, hreport⟩
    rw [hline]
    exact ⟨report, List.mem_append_right _ hclosing, hreport⟩

/-- What is printed is read back, and a log of complete lines, in whatever appends, is reported up
to its end. -/
theorem terminalReports (chunks : List (List EngineLine)) :
    (∀ line : EngineLine, parseLine line.1.print = line.1.event) ∧
      TerminalReports (chunks.flatten.map Subtype.val)
        (followEngineLog (chunks.map fun chunk =>
          utf8Encode (logText (chunk.map (·.1.print))))).reports := by
  refine ⟨fun line => LogLine.parseLine_print line.2, ?_⟩
  generalize hlines : chunks.flatten.map Subtype.val = lines
  have hposted : (followEngineLog (chunks.map fun chunk =>
      utf8Encode (logText (chunk.map (·.1.print))))).reports =
        progressReports 0 (linesBefore lines) ++ (closingLine lines).elim [] LogLine.closing := by
    rw [reports_followEngineLog, eventsOf_chunks, hlines]
    exact significant_lineEvents lines 0
  have hends : ∀ line, closingLine lines = some line → line.ends = true :=
    fun line hline => List.find?_some hline
  refine ⟨hposted, ?_, ?_, phase_of_mem_progressReports _ _, ?_⟩
  · rw [hposted, exists_report_iff lines (by decide)]
    exact exists_congr fun line => and_congr_right fun hline => (closing_phases (hends line hline)).1
  · rw [hposted, exists_report_iff lines (by decide)]
    constructor
    · rintro ⟨line, hline, hreport⟩
      obtain ⟨reason, rfl⟩ := (closing_phases (hends line hline)).2.mp hreport
      exact ⟨reason, hline⟩
    · rintro ⟨reason, hline⟩
      exact ⟨_, hline, (closing_phases (hends _ hline)).2.mpr ⟨reason, rfl⟩⟩
  · have hlength := length_progressReports (linesBefore lines) 0
    simpa using hlength

-- A log that is reported as local, and one extent failure in it as nothing.
example : (followEngineLog [utf8Encode (logText
    ([EngineLine.migrating, .extentFailed, .migrated].map (·.1.print)))]).reports =
      [⟨"assimilating".toList, "flow-over onto /dev/sda".toList⟩,
        ⟨"local".toList, "100 extent(s) local, 0 failed".toList⟩] := by
  decide

/-! ## A slab that is called `on` -/

/-- The id and the disk hold neither of the separators, and the disk is read back with the id in
front of it. -/
theorem not_parseLine_print_on :
    containsText " on ".toList "on".toList = false ∧
      containsText " in background".toList "on".toList = false ∧ Tidy "/dev/sda".toList ∧
      containsText " on ".toList "/dev/sda".toList = false ∧
      containsText " in background".toList "/dev/sda".toList = false ∧
      parseLine (LogLine.started "on".toList "/dev/sda".toList).print =
        some (.started "on /dev/sda".toList) := by
  decide

end Stormnetboot.Agent

import Stormnetboot.Agent.EngineLog
import Mathlib.Tactic.SplitIfs

/-!
# Reports and the way the log arrives

Two ways of delivering one log lead to the same reports exactly when the pieces the reader
meets have the same significant events. What is significant is read off the loop: each start,
every fourth extent failure, and the event it returns on. The reports are these events,
written out, and what is written can be told apart.
-/

namespace Stormnetboot.Agent

open Stormnetboot.Common

/-! ## Significant events -/

/-- The loop returns on the event. -/
def Event.ends : Event → Bool
  | .complete _ _ => true
  | .aborted => true
  | _ => false

/-- The events in what is read, up to the one the loop returns on or the error it fails on. -/
def eventsOf : List Read → List Event
  | [] => []
  | .endOfFile :: rest => eventsOf rest
  | .error :: _ => []
  | .line line :: rest =>
    match parseLine line with
    | none => eventsOf rest
    | some event => if event.ends then [event] else event :: eventsOf rest

/-- The loop does not go on after this. -/
def Read.stops : Read → Bool
  | .endOfFile => false
  | .error => true
  | .line text => (parseLine text).any Event.ends

/-- What is read adds its events to those before it, if nothing before it stopped the loop. -/
theorem eventsOf_append (first later : List Read) :
    eventsOf (first ++ later) =
      eventsOf first ++ if first.any Read.stops then [] else eventsOf later := by
  induction first with
  | nil => rfl
  | cons read rest ih =>
    rw [List.cons_append, List.any_cons]
    cases read with
    | endOfFile => exact ih
    | error => rfl
    | line line =>
      cases hparse : parseLine line with
      | none =>
        simp only [eventsOf, Read.stops, hparse, Option.any_none, Bool.false_or]
        exact ih
      | some event =>
        simp only [eventsOf, Read.stops, hparse, Option.any_some]
        cases event.ends with
        | true => simp only [Bool.true_or, if_true, List.append_nil]
        | false => simp only [Bool.false_or, if_false, Bool.false_eq_true, ih, List.cons_append]

/-- The end of the file is no event. -/
theorem eventsOf_append_endOfFile (reads : List Read) :
    eventsOf (reads ++ [.endOfFile]) = eventsOf reads := by
  rw [eventsOf_append, eventsOf, eventsOf, ite_self, List.append_nil]

/-- An event that is reported, with the number of an extent failure. -/
inductive Significant where
  | started (disk : Text)
  | failures (count : UInt32) (detail : Text)
  | complete (moved failed : ℕ)
  | aborted
  deriving DecidableEq, Repr

/-- Leave out the extent failures that are not a fourth one, after `count` of them. -/
def significant (count : UInt32) : List Event → List Significant
  | [] => []
  | .started disk :: rest => .started disk :: significant count rest
  | .complete moved failed :: rest => .complete moved failed :: significant count rest
  | .aborted :: rest => .aborted :: significant count rest
  | .extentFailed detail :: rest =>
    if (count + 1) % 4 = 0 then .failures (count + 1) detail :: significant (count + 1) rest
    else significant (count + 1) rest

/-- How a significant event is reported. -/
def Significant.report : Significant → Report
  | .started disk => ⟨"assimilating".toList, "flow-over onto ".toList ++ disk⟩
  | .failures count detail =>
    ⟨"assimilating".toList, natText count.toNat ++ " extent failures: ".toList ++ detail⟩
  | .complete moved failed =>
    ⟨if failed > 0 then "assimilating".toList else "local".toList,
      natText moved ++ " extent(s) local, ".toList ++ natText failed ++ " failed".toList⟩
  | .aborted => ⟨"failed".toList, "flow-over aborted after repeated failures".toList⟩

/-- The report of a start. -/
theorem report_started (disk : Text) : (Significant.started disk).report =
    ⟨"assimilating".toList, "flow-over onto ".toList ++ disk⟩ := rfl

/-- The report of a count of failures. -/
theorem report_failures (count : UInt32) (detail : Text) :
    (Significant.failures count detail).report =
      ⟨"assimilating".toList, natText count.toNat ++ " extent failures: ".toList ++ detail⟩ := rfl

/-- The report of a completion, by whether anything failed. -/
theorem report_complete (moved failed : ℕ) : (Significant.complete moved failed).report =
    ⟨if failed > 0 then "assimilating".toList else "local".toList,
      natText moved ++ " extent(s) local, ".toList ++ natText failed ++ " failed".toList⟩ := rfl

/-! ## The reports of a run -/

/-- A loop that has returned reads nothing more. -/
theorem foldl_turn_of_stopped (reads : List Read) (f : Follower) (h : f.progress ≠ .reading) :
    reads.foldl Follower.turn f = f := by
  induction reads with
  | nil => rfl
  | cons read rest ih =>
    have hturn : f.turn read = f := by
      unfold Follower.turn
      cases hprogress : f.progress with
      | reading => exact absurd hprogress h
      | returned => rfl
      | failed => rfl
    rw [List.foldl_cons, hturn, ih]

/-- An event the loop returns on is reported, and nothing after it. -/
theorem act_of_ends (f : Follower) (event : Event) (h : event.ends = true) :
    (f.act event).progress = .returned ∧
      (f.act event).reports =
        f.reports ++ (significant f.extentFailures [event]).map Significant.report := by
  cases event with
  | started disk => cases h
  | extentFailed detail => cases h
  | aborted =>
    refine ⟨rfl, ?_⟩
    simp only [Follower.act, Follower.report, significant, List.map_cons, List.map_nil]
    rfl
  | complete moved failed =>
    refine ⟨rfl, ?_⟩
    simp only [Follower.act, significant, List.map_cons, List.map_nil, report_complete]
    split_ifs <;> simp only [Follower.report]

/-- Any other event is reported if it is significant, and counted if it is a failure. -/
theorem act_of_not_ends (f : Follower) (event : Event) (rest : List Event)
    (h : event.ends = false) :
    (f.act event).progress = f.progress ∧
      (f.act event).reports ++
          (significant (f.act event).extentFailures rest).map Significant.report =
        f.reports ++ (significant f.extentFailures (event :: rest)).map Significant.report := by
  cases event with
  | complete moved failed => cases h
  | aborted => cases h
  | started disk =>
    refine ⟨rfl, ?_⟩
    simp only [Follower.act, Follower.report, significant, List.map_cons, report_started,
      List.append_assoc, List.singleton_append]
  | extentFailed detail =>
    simp only [Follower.act, significant]
    split_ifs
    · refine ⟨rfl, ?_⟩
      simp only [Follower.report, List.map_cons, report_failures, List.append_assoc,
        List.singleton_append]
    · exact ⟨rfl, rfl⟩

/-- What a loop reports is what it had reported and the significant events it goes on to read. -/
theorem reports_foldl_turn (reads : List Read) (f : Follower) (h : f.progress = .reading) :
    (reads.foldl Follower.turn f).reports =
      f.reports ++ (significant f.extentFailures (eventsOf reads)).map Significant.report := by
  induction reads generalizing f with
  | nil => simp [eventsOf, significant]
  | cons read rest ih =>
    rw [List.foldl_cons]
    cases read with
    | endOfFile =>
      have hturn : f.turn .endOfFile = f := by simp only [Follower.turn, h]
      rw [hturn, ih f h, eventsOf]
    | error =>
      have hturn : f.turn .error = { f with progress := .failed } := by
        simp only [Follower.turn, h]
      rw [hturn, foldl_turn_of_stopped _ _ (by simp)]
      simp [eventsOf, significant]
    | line line =>
      rw [eventsOf]
      cases hparse : parseLine line with
      | none =>
        have hturn : f.turn (.line line) = f := by
          simp only [Follower.turn, h, hparse]
        rw [hturn, ih f h]
      | some event =>
        have hturn : f.turn (.line line) = f.act event := by
          simp only [Follower.turn, h, hparse]
        rw [hturn]
        simp only
        split_ifs with hends
        · obtain ⟨hprogress, hreports⟩ := act_of_ends f event hends
          rw [foldl_turn_of_stopped _ _ (by simp [hprogress]), hreports]
        · obtain ⟨hprogress, hreports⟩ :=
            act_of_not_ends f event (eventsOf rest) (by simpa using hends)
          rw [ih _ (hprogress.trans h), hreports]

/-- The reports of a log are its significant events, written out. -/
theorem reports_followEngineLog (appends : List Bytes) :
    (followEngineLog appends).reports =
      (significant 0 (eventsOf (appends.flatMap readsOf))).map Significant.report := by
  rw [followEngineLog, reports_foldl_turn _ _ rfl]
  rfl

/-! ## Telling reports apart -/

/-- The report of a start does not start with a number. -/
theorem natText_append_ne_started (n : ℕ) (s disk : Text) :
    natText n ++ s ≠ "flow-over onto ".toList ++ disk := by
  have hletter : "flow-over onto ".toList = 'f' :: "low-over onto ".toList := by decide
  intro h
  rw [hletter] at h
  cases hn : natText n with
  | nil => exact natText_ne_nil n hn
  | cons d digits =>
    rw [hn, List.cons_append, List.cons_append, List.cons.injEq] at h
    have hd := natText_isDigit n d (by rw [hn]; simp)
    rw [h.1] at hd
    cases hd

/-- A count of failures and its detail can be told from the report. -/
theorem failures_report_inj {n m : ℕ} {s t : Text}
    (h : natText n ++ " extent failures: ".toList ++ s =
      natText m ++ " extent failures: ".toList ++ t) : n = m ∧ s = t := by
  have hspace : " extent failures: ".toList = ' ' :: "extent failures: ".toList := by decide
  rw [List.append_assoc, List.append_assoc, hspace] at h
  obtain ⟨hnum, hrest⟩ := natText_append_inj (by decide) (by decide) h
  exact ⟨hnum, List.append_cancel_left (List.cons.inj hrest).2⟩

/-- The two counts of a completion can be told from the report. -/
theorem complete_report_inj {n m k l : ℕ}
    (h : natText n ++ " extent(s) local, ".toList ++ natText k ++ " failed".toList =
      natText m ++ " extent(s) local, ".toList ++ natText l ++ " failed".toList) :
    n = m ∧ k = l := by
  have hspace : " extent(s) local, ".toList = ' ' :: "extent(s) local, ".toList := by decide
  have hspace' : " failed".toList = ' ' :: "failed".toList := by decide
  rw [List.append_assoc, List.append_assoc, List.append_assoc, List.append_assoc, hspace] at h
  obtain ⟨hnum, hrest⟩ := natText_append_inj (by decide) (by decide) h
  have hcounts := List.append_cancel_left (List.cons.inj hrest).2
  rw [hspace'] at hcounts
  exact ⟨hnum, (natText_append_inj (by decide) (by decide) hcounts).1⟩

/-- A count of failures is not reported as a completion. -/
theorem failures_report_ne_complete (n m k : ℕ) (s : Text) :
    natText n ++ " extent failures: ".toList ++ s ≠
      natText m ++ " extent(s) local, ".toList ++ natText k ++ " failed".toList := by
  have hfailures : " extent failures: ".toList = ' ' :: 'e' :: "xtent failures: ".toList := by decide
  have hcomplete : " extent(s) local, ".toList = ' ' :: 'e' :: "xtent(s) local, ".toList := by decide
  intro h
  rw [List.append_assoc, List.append_assoc, List.append_assoc, hfailures, hcomplete] at h
  obtain ⟨-, hrest⟩ := natText_append_inj (by decide) (by decide) h
  have htail := (List.cons.inj (List.cons.inj hrest).2).2
  have hsixth := congrArg (·[5]?) htail
  simp at hsixth

/-- Only an abort is reported as a failure. -/
theorem report_phase_eq_failed_iff (a : Significant) :
    a.report.phase = "failed".toList ↔ a = .aborted := by
  cases a with
  | started disk => simp [report_started]
  | failures count detail => simp [report_failures]
  | complete moved failed =>
    rw [report_complete]
    split_ifs
    · simp
    · simp
  | aborted => exact ⟨fun _ => rfl, fun _ => rfl⟩

/-- Different significant events are reported differently. -/
theorem report_injective : Function.Injective Significant.report := by
  intro a b h
  have hphase := congrArg Report.phase h
  have hdetail := congrArg Report.detail h
  cases a with
  | started disk =>
    cases b with
    | started disk' => exact congrArg _ (List.append_cancel_left hdetail)
    | failures count detail =>
      rw [report_failures, report_started, List.append_assoc] at hdetail
      exact absurd hdetail.symm (natText_append_ne_started _ _ _)
    | complete moved failed =>
      rw [report_complete, report_started, List.append_assoc, List.append_assoc] at hdetail
      exact absurd hdetail.symm (natText_append_ne_started _ _ _)
    | aborted => exact (report_phase_eq_failed_iff _).mp hphase
  | failures count detail =>
    cases b with
    | started disk =>
      rw [report_failures, report_started, List.append_assoc] at hdetail
      exact absurd hdetail (natText_append_ne_started _ _ _)
    | failures count' detail' =>
      obtain ⟨hcount, rfl⟩ := failures_report_inj hdetail
      rw [UInt32.toNat_inj.mp hcount]
    | complete moved failed => exact absurd hdetail (failures_report_ne_complete _ _ _ _)
    | aborted => exact (report_phase_eq_failed_iff _).mp hphase
  | complete moved failed =>
    cases b with
    | started disk =>
      rw [report_complete, report_started, List.append_assoc, List.append_assoc] at hdetail
      exact absurd hdetail (natText_append_ne_started _ _ _)
    | failures count detail => exact absurd hdetail.symm (failures_report_ne_complete _ _ _ _)
    | complete moved' failed' =>
      obtain ⟨rfl, rfl⟩ := complete_report_inj hdetail
      rfl
    | aborted => exact (report_phase_eq_failed_iff _).mp hphase
  | aborted => exact ((report_phase_eq_failed_iff b).mp hphase.symm).symm

/-! ## Every way of delivering a log -/

/-- The log delivered in appends is reported as when it is read at once, and `local` is only
reported if a line of the log completes without failures. -/
def ReportedAsWhole (appends : List Bytes) : Prop :=
  (followEngineLog appends).reports = (followEngineLog [appends.flatten]).reports ∧
    ∀ report ∈ (followEngineLog appends).reports, report.phase = "local".toList →
      ∃ line ∈ splitInclusive newline appends.flatten, ∃ text moved,
        utf8Decode line = some text ∧ parseLine text = some (.complete moved 0)

/-- The pieces the reader meets have the significant events of the lines: the same starts, the
same fourth failures with their details, and the same end. -/
def SameSignificance (appends : List Bytes) : Prop :=
  significant 0 (eventsOf (appends.flatMap readsOf)) =
    significant 0 (eventsOf (readsOf appends.flatten))

/-- A significant completion is the event of a line that was read. -/
theorem exists_line_of_complete (count : UInt32) (reads : List Read) (moved failed : ℕ)
    (h : Significant.complete moved failed ∈ significant count (eventsOf reads)) :
    ∃ line, Read.line line ∈ reads ∧ parseLine line = some (.complete moved failed) := by
  have hevents : ∀ (events : List Event) (count : UInt32),
      Significant.complete moved failed ∈ significant count events →
        Event.complete moved failed ∈ events := by
    intro events
    induction events with
    | nil => exact fun _ h => absurd h (by simp [significant])
    | cons event rest ih =>
      intro count hmem
      cases event with
      | extentFailed detail =>
        rw [significant] at hmem
        split_ifs at hmem
        · exact List.mem_cons_of_mem _ (ih _ (by simpa using hmem))
        · exact List.mem_cons_of_mem _ (ih _ hmem)
      | started disk => exact List.mem_cons_of_mem _ (ih _ (by simpa [significant] using hmem))
      | aborted => exact List.mem_cons_of_mem _ (ih _ (by simpa [significant] using hmem))
      | complete moved' failed' =>
        rcases List.mem_cons.mp hmem with heq | hmem
        · cases heq
          exact List.mem_cons_self
        · exact List.mem_cons_of_mem _ (ih _ hmem)
  have hmem := hevents _ _ h
  clear h hevents
  induction reads with
  | nil => cases hmem
  | cons read rest ih =>
    cases read with
    | endOfFile =>
      obtain ⟨line, hline, hparse⟩ := ih hmem
      exact ⟨line, List.mem_cons_of_mem _ hline, hparse⟩
    | error => cases hmem
    | line line =>
      rw [eventsOf] at hmem
      cases hparse : parseLine line with
      | none =>
        rw [hparse] at hmem
        obtain ⟨line', hline, hparse'⟩ := ih hmem
        exact ⟨line', List.mem_cons_of_mem _ hline, hparse'⟩
      | some event =>
        rw [hparse] at hmem
        simp only at hmem
        have hsplit : Event.complete moved failed = event ∨
            Event.complete moved failed ∈ eventsOf rest := by
          split_ifs at hmem
          · exact .inl (List.mem_singleton.mp hmem)
          · exact List.mem_cons.mp hmem
        rcases hsplit with heq | hmem
        · exact ⟨line, List.mem_cons_self, heq ▸ hparse⟩
        · obtain ⟨line', hline, hparse'⟩ := ih hmem
          exact ⟨line', List.mem_cons_of_mem _ hline, hparse'⟩

/-- Read at once, a log is only reported local if one of its lines completes without
failures. -/
theorem exists_line_of_local (log : Bytes) (report : Report)
    (hmem : report ∈ (followEngineLog [log]).reports) (hlocal : report.phase = "local".toList) :
    ∃ line ∈ splitInclusive newline log, ∃ text moved,
      utf8Decode line = some text ∧ parseLine text = some (.complete moved 0) := by
  rw [reports_followEngineLog, List.mem_map] at hmem
  obtain ⟨event, hevent, rfl⟩ := hmem
  obtain ⟨moved, rfl⟩ : ∃ moved, event = .complete moved 0 := by
    have hassimilating : "assimilating".toList ≠ "local".toList := by decide
    cases event with
    | started disk => exact absurd hlocal hassimilating
    | failures count detail => exact absurd hlocal hassimilating
    | aborted =>
      have hfailed := (report_phase_eq_failed_iff .aborted).mpr rfl
      rw [hfailed] at hlocal
      exact absurd hlocal (by decide)
    | complete moved failed =>
      rw [report_complete] at hlocal
      split_ifs at hlocal with hpos
      · exact absurd hlocal hassimilating
      · exact ⟨moved, by rw [Nat.eq_zero_of_not_pos hpos]⟩
  obtain ⟨text, htext, hparse⟩ := exists_line_of_complete _ _ _ _ hevent
  simp only [List.flatMap_cons, List.flatMap_nil, List.append_nil, readsOf, List.mem_append,
    List.mem_map, List.mem_singleton, reduceCtorEq, or_false] at htext
  obtain ⟨line, hline, hread⟩ := htext
  unfold readLine at hread
  cases hdecode : utf8Decode line with
  | none =>
    rw [hdecode] at hread
    cases hread
  | some text' =>
    rw [hdecode] at hread
    cases hread
    exact ⟨line, hline, text, moved, hdecode, hparse⟩

/-- A log is reported as when it is read at once exactly when the pieces it is read in have
the significant events of its lines. -/
theorem reportedAsWhole_iff (appends : List Bytes) :
    ReportedAsWhole appends ↔ SameSignificance appends := by
  have hsame : (followEngineLog appends).reports = (followEngineLog [appends.flatten]).reports ↔
      SameSignificance appends := by
    rw [reports_followEngineLog, reports_followEngineLog, SameSignificance, List.flatMap_singleton]
    exact (List.map_injective_iff.mpr report_injective).eq_iff
  rw [ReportedAsWhole, hsame, and_iff_left_iff_imp]
  intro h report hmem hlocal
  rw [hsame.mpr h] at hmem
  exact exists_line_of_local _ report hmem hlocal

/-! ## Appends of whole lines -/

/-- A completion line read in two pieces is reported local although extents failed. -/
theorem not_reportedAsWhole_of_cut_completion :
    ¬ReportedAsWhole [asciiBytes "flow-over complete: 100 extent(s) migrated, ",
      asciiBytes "3 failed\n"] := by
  rintro ⟨hsame, -⟩
  revert hsame
  decide

end Stormnetboot.Agent

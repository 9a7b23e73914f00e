import Stormnetboot.Agent.LogDelivery

/-!
# A log of text

The bytes of a text are read back as its lines, so that what the agent reports of a log of text
is decided by the texts of the lines.
-/

namespace Stormnetboot.Agent

open Stormnetboot.Common

/-- Complete lines, one after the other. -/
def logText (lines : List Text) : Text :=
  lines.flatMap (· ++ ['\n'])

/-- The events of a text, up to the one the loop returns on. -/
def textEvents (text : Text) : List Event :=
  eventsOf ((splitInclusive '\n' text).map .line)

/-- Complete lines are read as they are. -/
theorem splitInclusive_logText {lines : List Text} (h : ∀ line ∈ lines, '\n' ∉ line) :
    splitInclusive '\n' (logText lines) = lines.map (· ++ ['\n']) := by
  induction lines with
  | nil => rfl
  | cons line rest ih =>
    obtain ⟨hline, hrest⟩ := List.forall_mem_cons.mp h
    have hcons : logText (line :: rest) = (line ++ ['\n']) ++ logText rest := List.flatMap_cons
    rw [hcons, splitInclusive_append '\n' _ _ (.inr (List.getLast?_concat ..)),
      splitInclusive_singleton '\n' line hline, ih hrest]
    rfl

/-- The pieces of a text's bytes are read as its lines. -/
theorem map_readLine_utf8Encode (text : Text) :
    (splitInclusive newline (utf8Encode text)).map readLine =
      (splitInclusive '\n' text).map .line := by
  have hread : ∀ line, readLine (utf8Encode line) = .line line := by
    intro line
    rw [readLine, utf8Decode_utf8Encode]
  rw [newline, splitInclusive_utf8Encode, List.map_map]
  exact List.map_congr_left fun line _ => hread line

/-- What is read of a text's bytes is its lines. -/
theorem readsOf_utf8Encode (text : Text) :
    readsOf (utf8Encode text) = (splitInclusive '\n' text).map .line ++ [.endOfFile] := by
  rw [readsOf, map_readLine_utf8Encode]

/-- The reports of a log of text are its significant events, written out. -/
theorem reports_utf8Encode (text : Text) :
    (followEngineLog [utf8Encode text]).reports =
      (significant 0 (textEvents text)).map Significant.report := by
  rw [reports_followEngineLog, List.flatMap_singleton, readsOf_utf8Encode,
    eventsOf_append_endOfFile]
  rfl

/-- What ends with a newline is read before the rest. -/
theorem textEvents_append_congr {front rest rest' : Text}
    (hfront : front = [] ∨ front.getLast? = some '\n') (h : textEvents rest = textEvents rest') :
    textEvents (front ++ rest) = textEvents (front ++ rest') := by
  unfold textEvents at h ⊢
  rw [splitInclusive_append '\n' _ _ hfront, splitInclusive_append '\n' _ _ hfront, List.map_append,
    List.map_append, eventsOf_append, eventsOf_append, h]

end Stormnetboot.Agent

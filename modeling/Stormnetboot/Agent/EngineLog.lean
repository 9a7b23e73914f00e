import Stormnetboot.Agent.Flowover
import Stormnetboot.Common.Utf8

/-!
# Following the engine's log

The agent reads line by line to the end of the file, waits, and reads on. A line that is
only partly written when the reader gets to the end is handed over as it stands, and the rest
of it later as a line of its own. What the agent reports is therefore decided by the pieces
the reader meets, and agrees with the log exactly when the pieces and the lines have the same
significant events.
-/

namespace Stormnetboot.Agent

open Stormnetboot.Common

/-- The byte a line ends with. -/
def newline : UInt8 := 10

/-- What one `read_line` returns. -/
inductive Read where
  | endOfFile
  | line (line : Text)
  | error

/-- The bytes up to a newline or to the end of the file, read as text. -/
def readLine (piece : Bytes) : Read :=
  match utf8Decode piece with
  | some line => .line line
  | none => .error

/-- A phase report. -/
structure Report where
  phase : Text
  detail : Text
  deriving DecidableEq, Repr

/-- How far the loop is: still reading, or returned. -/
inductive Progress where
  | reading
  | returned
  | failed
  deriving DecidableEq, Repr

/-- The loop's state. -/
structure Follower where
  progress : Progress
  extentFailures : UInt32
  reports : List Report
  deriving DecidableEq, Repr

namespace Follower

/-- Nothing read and nothing reported. -/
def start : Follower where
  progress := .reading
  extentFailures := 0
  reports := []

/-- Send a report. -/
def report (f : Follower) (phase : String) (detail : Text) : Follower :=
  { f with reports := f.reports ++ [⟨phase.toList, detail⟩] }

/-- Act on an event. -/
def act (f : Follower) : Event → Follower
  | .started disk => f.report "assimilating" ("flow-over onto ".toList ++ disk)
  | .complete moved failed =>
    let detail := natText moved ++ " extent(s) local, ".toList ++ natText failed ++ " failed".toList
    let f := if failed > 0 then f.report "assimilating" detail else f.report "local" detail
    { f with progress := .returned }
  | .aborted =>
    let f := f.report "failed" "flow-over aborted after repeated failures".toList
    { f with progress := .returned }
  | .extentFailed detail =>
    let count := f.extentFailures + 1
    let f := { f with extentFailures := count }
    if count % 4 = 0 then
      f.report "assimilating" (natText count.toNat ++ " extent failures: ".toList ++ detail)
    else f

/-- One turn of the loop. -/
def turn (f : Follower) (read : Read) : Follower :=
  match f.progress, read with
  | .reading, .endOfFile => f
  | .reading, .error => { f with progress := .failed }
  | .reading, .line line =>
    match parseLine line with
    | some event => f.act event
    | none => f
  | _, _ => f

end Follower

/-- The pieces the reader meets in an append, up to the end of the file it reaches after it. -/
def readsOf (append : Bytes) : List Read :=
  (splitInclusive newline append).map readLine ++ [.endOfFile]

/-- Follow a log that is written in successive appends. -/
def followEngineLog (appends : List Bytes) : Follower :=
  (appends.flatMap readsOf).foldl Follower.turn Follower.start

end Stormnetboot.Agent

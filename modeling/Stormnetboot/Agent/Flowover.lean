import Stormnetboot.Common.Text

/-!
# Reading flow-over progress out of the engine's output

The engine has no status interface; what it prints is the only evidence of a flow-over. A
line is classified by the words it starts with, and anything else about it is read as far as
it goes.
-/

namespace Stormnetboot.Agent

open Stormnetboot.Common

/-- What a line of engine output told us. -/
inductive Event where
  | started (disk : Text)
  | complete (moved failed : ℕ)
  | aborted
  | extentFailed (detail : Text)
  deriving DecidableEq, Repr

/-- The runs of digits in a line that fit a `u64`. -/
def allNumbers (line : Text) : List ℕ :=
  ((line.splitOnP fun c => !c.isDigit).filter fun s => !s.isEmpty).filterMap (parseUnsigned 64)

/-- The first of them. -/
def firstNumber (line : Text) : Option ℕ :=
  (allNumbers line).head?

/-- The disk a start line names: what stands between ` on ` and ` in background`. -/
def startedDisk (rest : Text) : Text :=
  match splitOnceText " on ".toList rest with
  | some (_, after) => trim (beforeText " in background".toList (beforeText " on ".toList after))
  | none => []

/-- Classify one line of engine output. -/
def parseLine (line : Text) : Option Event :=
  let line := trim line
  match stripPrefix "Flow-over: migrating to local slab".toList line with
  | some rest => some (.started (startedDisk rest))
  | none =>
    if "Flow-over complete:".toList.isPrefixOf line then
      some (.complete ((firstNumber line).getD 0) 0)
    else if "flow-over complete:".toList.isPrefixOf line then
      let numbers := allNumbers line
      some (.complete (numbers[0]?.getD 0) (numbers[1]?.getD 0))
    else if "flow-over: aborting".toList.isPrefixOf line then some .aborted
    else
      (stripPrefix "flow-over: extent ".toList line).map fun detail => .extentFailed (trim detail)

end Stormnetboot.Agent

import Stormnetboot.Common.Program
import Stormnetboot.Common.Text

/-!
# What the initramfs asks of the system

The operations the boot sequence and the media refresh perform, with the answers they look
at. File and command failures are answers like any other, so that a property of every
execution is a property for every outcome of every step. Console output and reports are
operations too, because some of what is verified is what they contain.
-/

namespace Stormnetboot.Init

open Stormnetboot.Common

/-- How running a command to its end went. -/
inductive CommandResult where
  | notStarted (err : Text)
  | exited (success : Bool) (status stdout : Text)

/-- `matches!(status, Ok(s) if s.success())`. -/
def CommandResult.succeeded : CommandResult → Bool
  | .notStarted _ => false
  | .exited success _ _ => success

/-- How appending a line to a file went. -/
inductive AppendResult where
  | appended
  | notOpened (err : Text)
  | notWritten (err : Text)

/-- What the boot asks of the system it runs on. -/
inductive SysOp where
  | stamp (message : Text)
  | warn (message : Text)
  | report (phase : Text) (detail : Option Text)
  | pathExists (path : Text)
  | createDirAll (path : Text)
  | readFile (path : Text)
  | readDir (path : Text)
  | writeFile (path content : Text)
  | appendLine (path line : Text)
  | copyFile (source target : Text)
  | rename (source target : Text)
  | syncFile (path : Text)
  | command (argv : List Text) (env : List (Text × Text))
  | spawnEngine (argv : List Text) (env : List (Text × Text))
  | killEngine
  | waitFor (path : Text) (seconds : ℕ)
  | execReplace (argv : List Text)

/-- The answer of each operation. A file that is absent, unreadable or not UTF-8 is read with
an error. An `exec` that succeeds has no outcome here: there is no program left that could look at
it. The one answer is the error of an `exec` that failed, so a run of these programs is one in which
every `exec` does. -/
def SysOp.Ans : SysOp → Type
  | .stamp _ => Unit
  | .warn _ => Unit
  | .report _ _ => Unit
  | .pathExists _ => Bool
  | .createDirAll _ => Except Text Unit
  | .readFile _ => Except Text Text
  | .readDir _ => Option (List Text)
  | .writeFile _ _ => Except Text Unit
  | .appendLine _ _ => AppendResult
  | .copyFile _ _ => Except Text Unit
  | .rename _ _ => Except Text Unit
  | .syncFile _ => Except Text Unit
  | .command _ _ => CommandResult
  | .spawnEngine _ _ => Except Text Unit
  | .killEngine => Unit
  | .waitFor _ _ => Bool
  | .execReplace _ => Text

/-- Why a boot program stops early: an error that is reported with its context, or a panic,
which nothing catches. -/
inductive Stop where
  | error (message : Text)
  | panic
  deriving DecidableEq, Repr

/-- A program of the initramfs. -/
abbrev Boot := Program SysOp SysOp.Ans Stop

/-- A line on the console. -/
def stamp (message : Text) : Boot Unit := Program.perform (SysOp.stamp message)

/-- `tracing::warn!`. -/
def tracingWarn (message : Text) : Boot Unit := Program.perform (SysOp.warn message)

/-- `report::phase`. -/
def reportPhase (phase : String) (detail : Option Text) : Boot Unit :=
  Program.perform (SysOp.report phase.toList detail)

/-- `Path::exists`. -/
def pathExists (path : Text) : Boot Bool := Program.perform (SysOp.pathExists path)

/-- `bail!`. -/
def bail {α : Type} (message : Text) : Boot α := .fail (.error message)

/-- Raise the error of an answered operation. -/
def orFail {α : Type} : Except Text α → Boot α
  | .ok a => .done a
  | .error e => bail e

/-- `anyhow`'s `context`, in the form `{err:#}` prints the chain. -/
def withContext {α : Type} (context : Text) (p : Boot α) : Boot α :=
  p.mapError fun
    | .error message => .error (context ++ ": ".toList ++ message)
    | .panic => .panic

/-- Create a directory and its parents, ignoring a failure. -/
def createDirAllOk (path : Text) : Boot Unit := do
  let _ ← Program.perform (SysOp.createDirAll path)
  .done ()

/-- Run a command given by its words. -/
def runCommand (argv : List Text) : Boot CommandResult :=
  Program.perform (SysOp.command argv [])

/-- The words of a fixed command line. -/
def words (argv : List String) : List Text :=
  argv.map String.toList

end Stormnetboot.Init

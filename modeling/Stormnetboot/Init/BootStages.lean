import Stormnetboot.Init.Steps
import Mathlib.Tactic.SplitIfs

/-!
# The stages of the boot

The boot sequence taken apart where its failures and its reports differ: the steps before
anything is attached, the root source with the network it may need, the attachment of the root
device, the preparation of the mounted root, and the handover.
-/

namespace Stormnetboot.Init

open Stormnetboot.Common

/-- The mounts, the modules and the guard on the flow-over. -/
def earlySteps (params : BootParams) : Boot Unit := do
  stamp "stormnetboot-init starting".toList
  mountPseudoFilesystems
  loadModules
  match params.checkLocalDisk with
  | .error err => bail err
  | .ok () => .done ()

/-- What the network boot waits for, or the check that a local boot names a slab. -/
def rootSource (params : BootParams) (network : Boot Unit) : Boot Unit :=
  if params.isNetworkBoot then network
  else if params.slabs.isEmpty then
    bail ("no root source on the command line: missing ".toList ++
      joinWith ", ".toList params.missing ++ " (and no rd.stormblock.slab for a local boot)".toList)
  else .done ()

/-- The command line passes that check, whether or not the network comes up. -/
def BootParams.HasRootSource (params : BootParams) : Prop :=
  params.isNetworkBoot = true ∨ params.slabs ≠ []

/-- The engine on the resolved slabs, and the root device it exports. -/
def attachRoot (params : BootParams) : Boot Unit := do
  reportPhase "assets-fetched" none
  let slabs ← withContext "resolving the root slab".toList (resolveSlabs params)
  withContext "starting stormblock".toList (startEngine params slabs params.exportPlan)
  match ← (waitForDevice rootDev 60).attempt with
  | .ok () => .done ()
  | .error e =>
    Program.perform SysOp.killEngine
    .fail e

/-- The root mounted and made ready, with what is reported on the way. -/
def prepareRoot (params : BootParams) : Boot Unit := do
  reportPhase "root-attached" none
  stamp "root device present".toList
  mountRoot params
  applyExports params.exportPlan
  writeIdentity params
  let _ ← refresh params sysroot
  reportPhase "running" none
  if params.localDisk.isSome then
    reportPhase "assimilating" (some "flow-over started".toList)

/-- The sequence with a given network step. -/
def runWith (network : Boot Unit) (params : BootParams) : Boot Unit := do
  earlySteps params
  rootSource params network
  attachRoot params
  prepareRoot params
  switchRoot

/-- The guard raises its error. -/
theorem earlySteps_eq (params : BootParams) :
    earlySteps params = (do
      stamp "stormnetboot-init starting".toList
      mountPseudoFilesystems
      loadModules
      orFail params.checkLocalDisk) := by
  unfold earlySteps
  cases params.checkLocalDisk <;> rfl

/-- What follows the attachment follows the appearance of the root device. -/
theorem attachRoot_bind (params : BootParams) (next : Unit → Boot Unit) :
    (attachRoot params >>= next) = (do
      reportPhase "assets-fetched" none
      let slabs ← withContext "resolving the root slab".toList (resolveSlabs params)
      withContext "starting stormblock".toList (startEngine params slabs params.exportPlan)
      match ← (waitForDevice rootDev 60).attempt with
      | .ok () => next ()
      | .error e =>
        Program.perform SysOp.killEngine
        .fail e) := by
  unfold attachRoot
  simp only [Program.bind_assoc]
  refine congrArg _ (funext fun _ => congrArg _ (funext fun _ => congrArg _ (funext fun _ => ?_)))
  refine congrArg _ (funext fun result => ?_)
  match result with
  | .ok () => rfl
  | .error e => rfl

/-- What follows the preparation follows its last report. -/
theorem prepareRoot_bind (params : BootParams) (next : Unit → Boot Unit) :
    (prepareRoot params >>= next) = (do
      reportPhase "root-attached" none
      stamp "root device present".toList
      mountRoot params
      applyExports params.exportPlan
      writeIdentity params
      let _ ← refresh params sysroot
      reportPhase "running" none
      if params.localDisk.isSome then
        reportPhase "assimilating" (some "flow-over started".toList)
      next ()) := by
  unfold prepareRoot
  simp only [Program.bind_assoc]
  split_ifs <;> rfl

/-- The boot sequence is its stages in order. -/
theorem run_eq_runWith (params : BootParams) :
    run params = runWith (bringUpNetwork params) params := by
  unfold run runWith earlySteps
  simp only [Program.bind_assoc]
  refine congrArg _ (funext fun _ => congrArg _ (funext fun _ => congrArg _ (funext fun _ => ?_)))
  cases params.checkLocalDisk with
  | error err => rfl
  | ok _ =>
    unfold attachAndHandOver rootSource
    extract_lets plan handOver prepare attach
    have hattach : attach = fun _ => attachRoot params >>= fun _ => prepareRoot params >>= fun _ =>
        switchRoot := by
      refine funext fun _ => ?_
      rw [attachRoot_bind, prepareRoot_bind]
      unfold attach
      refine congrArg _ (funext fun _ => congrArg _ (funext fun _ => congrArg _ (funext fun _ => ?_)))
      refine congrArg _ (funext fun result => ?_)
      rcases result with e | _ <;> rfl
    rw [hattach, Program.bind_done]
    split_ifs <;> rfl

/-- Everything before the handover. -/
def beforeHandover (params : BootParams) : Boot Unit := do
  earlySteps params
  rootSource params (bringUpNetwork params)
  attachRoot params
  prepareRoot params

/-- The sequence is what comes before the handover, and the handover. -/
theorem run_eq_beforeHandover (params : BootParams) :
    run params = beforeHandover params >>= fun _ => switchRoot := by
  rw [run_eq_runWith, runWith, beforeHandover]
  simp only [Program.bind_assoc]

/-- What `main` does with the sequence: a failure is reported before the console is held. -/
def reportRun (params : BootParams) : Boot Unit := do
  match ← (run params).attempt with
  | .ok () => .done ()
  | .error (.error message) => reportPhase "failed" (some message)
  | .error .panic => .fail .panic

end Stormnetboot.Init

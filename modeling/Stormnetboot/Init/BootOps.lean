import Stormnetboot.Init.MediaVerdict
import Stormnetboot.Init.SlabResolution

/-!
# What the boot does before the handover

Two things are said of every operation the sequence performs up to `switch_root`, whatever the
system answers: a report names one of five phases, and a command neither moves nor unmounts
`/dev`, `/proc` or `/run`. There is one lemma for each step.
-/

namespace Stormnetboot.Init

open Stormnetboot.Common

/-- The mounts an operator's console needs. -/
def consolePoints : List Text :=
  words ["/dev", "/proc", "/run"]

/-- The phases the sequence reports before the handover. -/
def bootPhases : List Text :=
  words ["assets-fetched", "root-attached", "media-updated", "running", "assimilating"]

/-- The command takes none of the console's mounts away. -/
def LeavesConsole (argv : List Text) : Prop :=
  ∀ point ∈ consolePoints, (∀ target, argv ≠ words ["/bin/mount", "--move"] ++ [point, target]) ∧
    argv ≠ ["/bin/umount".toList, point]

/-- What an operation before the handover may be. -/
def BootOp : SysOp → Prop
  | .command argv _ => LeavesConsole argv
  | .report phase _ => phase ∈ bootPhases
  | _ => True

/-- A program other than `mount` and `umount` takes nothing away. -/
theorem leavesConsole_of_head {program : Text} {rest : List Text}
    (hmount : program ≠ "/bin/mount".toList) (humount : program ≠ "/bin/umount".toList) :
    LeavesConsole (program :: rest) := by
  refine fun point _ => ⟨fun target h => ?_, fun h => ?_⟩
  · exact hmount (List.cons.inj h).1
  · exact humount (List.cons.inj h).1

/-- Neither does a mount that is not a move. -/
theorem leavesConsole_of_flag {flag : Text} {rest : List Text} (hflag : flag ≠ "--move".toList) :
    LeavesConsole ("/bin/mount".toList :: flag :: rest) := by
  refine fun point _ => ⟨fun target h => ?_, fun h => ?_⟩
  · exact hflag (List.cons.inj (List.cons.inj h).2).1
  · exact absurd (List.cons.inj h).1 (by decide)

/-- A mount of one device on one place is too short to be a move. -/
theorem leavesConsole_of_pair (source target : Text) :
    LeavesConsole ["/bin/mount".toList, source, target] := by
  refine fun point _ => ⟨fun target' h => ?_, fun h => ?_⟩
  · exact absurd (congrArg List.length h) (by simp [words])
  · exact absurd (congrArg List.length h) (by simp)

/-- The ESP is not one of the console's mounts. -/
theorem leavesConsole_umountEsp : LeavesConsole ["/bin/umount".toList, espMount] := by
  intro point hpoint
  refine ⟨fun target h => absurd (congrArg List.length h) (by simp [words]), fun h => ?_⟩
  obtain rfl : espMount = point := (List.cons.inj (List.cons.inj h).2).1
  exact absurd hpoint (by decide)

/-! ## Steps -/

/-- A line on the console is such an operation. -/
theorem stamp_bootOp (message : Text) : (stamp message).Only BootOp :=
  Program.only_perform _ trivial

/-- So is a warning. -/
theorem tracingWarn_bootOp (message : Text) : (tracingWarn message).Only BootOp :=
  Program.only_perform _ trivial

/-- So is asking whether a path exists. -/
theorem pathExists_bootOp (path : Text) : (pathExists path).Only BootOp :=
  Program.only_perform _ trivial

/-- So is making a directory. -/
theorem createDirAllOk_bootOp (path : Text) : (createDirAllOk path).Only BootOp :=
  ⟨trivial, fun _ => trivial⟩

/-- A command is one if it leaves the console's mounts alone. -/
theorem runCommand_bootOp {argv : List Text} (hargv : LeavesConsole argv) :
    (runCommand argv).Only BootOp :=
  Program.only_perform _ hargv

/-- A report is one if its phase is one of the five. -/
theorem reportPhase_bootOp {phase : String} (hphase : phase.toList ∈ bootPhases)
    (detail : Option Text) : (reportPhase phase detail).Only BootOp :=
  Program.only_perform _ hphase

/-- Asking for a mount only reads the table. -/
theorem isMounted_bootOp (target : Text) : (isMounted target).Only BootOp := by
  refine ⟨trivial, fun answer => ?_⟩
  cases answer with
  | ok mounts => trivial
  | error err => trivial

/-- A pseudo filesystem is mounted, not moved. -/
theorem mountPseudoFilesystem_bootOp (source target fstype : Text) :
    (mountPseudoFilesystem source target fstype).Only BootOp := by
  refine Program.only_bind (createDirAllOk_bootOp target) fun _ => ?_
  refine Program.only_bind (isMounted_bootOp target) fun mounted => ?_
  split_ifs
  · trivial
  refine Program.only_bind (runCommand_bootOp (leavesConsole_of_flag (by decide))) fun result => ?_
  match result with
  | .exited true _ _ => trivial
  | .exited false _ _ => exact tracingWarn_bootOp _
  | .notStarted _ => exact tracingWarn_bootOp _

/-- None of the four is. -/
theorem mountPseudoFilesystems_bootOp : mountPseudoFilesystems.Only BootOp :=
  Program.only_forEach fun _ => mountPseudoFilesystem_bootOp _ _ _

/-- Modules are loaded by `modprobe`, and one control file is written. -/
theorem loadModules_bootOp : loadModules.Only BootOp := by
  refine Program.only_bind (Program.only_forEach fun module => ?_) fun _ => ?_
  · refine Program.only_bind (runCommand_bootOp ?_) fun _ => trivial
    exact leavesConsole_of_head (by decide) (by decide)
  refine Program.only_bind (pathExists_bootOp _) fun sysctl => ?_
  extract_lets rest
  have hrest : ∀ r, (rest r).Only BootOp := by
    intro r
    refine Program.only_bind (pathExists_bootOp _) fun control => ?_
    split_ifs
    · exact tracingWarn_bootOp _
    · trivial
  split_ifs
  · exact Program.only_bind (Program.only_perform _ trivial) fun _ => hrest ()
  · exact hrest ()

/-- The network is configured by `ip` and `udhcpc`. -/
theorem bringUpNetwork_bootOp (params : BootParams) : (bringUpNetwork params).Only BootOp := by
  have hip : ∀ rest, LeavesConsole ("/bin/ip".toList :: rest) :=
    fun _ => leavesConsole_of_head (by decide) (by decide)
  refine Program.only_bind (stamp_bootOp _) fun _ => ?_
  refine Program.only_bind (runCommand_bootOp (hip _)) fun _ => ?_
  refine Program.only_bind (p := firstEthernet) ⟨trivial, fun entries => ?_⟩ fun iface => ?_
  · cases entries with
    | none => trivial
    | some entries => trivial
  cases iface with
  | none => trivial
  | some iface =>
    refine Program.only_bind (runCommand_bootOp (hip _)) fun _ => ?_
    refine Program.only_bind (runCommand_bootOp ?_) fun result => ?_
    · exact leavesConsole_of_head (by decide) (by decide)
    extract_lets announce
    have hannounce : ∀ r, (announce r).Only BootOp := by
      intro r
      unfold announce
      cases params.portal with
      | none => trivial
      | some portal => exact stamp_bootOp _
    split_ifs
    · exact Program.only_bind (stamp_bootOp _) hannounce
    · exact Program.only_bind (tracingWarn_bootOp _) hannounce

/-- A slab is recognised by the engine's listing. -/
theorem isSlab_bootOp (dev : Text) : (isSlab dev).Only BootOp := by
  refine Program.only_bind (pathExists_bootOp dev) fun present => ?_
  split_ifs
  · trivial
  refine Program.only_bind (runCommand_bootOp ?_) fun result => ?_
  · exact leavesConsole_of_head (by decide) (by decide)
  match result with
  | .exited true _ _ => trivial
  | .exited false _ _ => trivial
  | .notStarted _ => trivial

/-- A named slab that is a URL is trusted unseen, the others are listed. -/
theorem trusts_bootOp (slab : Text) : (trusts slab).Only BootOp := by
  unfold trusts
  split_ifs
  · trivial
  · exact isSlab_bootOp slab

/-- So the named slabs that survive are found by listing them. -/
theorem survivingSlabs_bootOp (boothost : Text) (slabs : List Text) :
    (survivingSlabs boothost slabs).Only BootOp := by
  induction slabs with
  | nil => trivial
  | cons slab rest ih =>
    rw [survivingSlabs_cons]
    refine Program.only_bind (trusts_bootOp slab) fun trusted => ?_
    cases trusted with
    | true => exact Program.only_bind ih fun _ => trivial
    | false => exact ⟨trivial, fun _ => ih⟩

/-- A claim is one command of the engine. -/
theorem bootClaim_bootOp (boothost tag claimNamespace : Text) (hostnqn : Option Text) :
    (bootClaim boothost tag claimNamespace hostnqn).Only BootOp := by
  refine Program.only_bind (Program.only_perform _ ?_) fun result => ?_
  · exact leavesConsole_of_head (by decide) (by decide)
  match result with
  | .notStarted _ => trivial
  | .exited success _ stdout =>
    simp only
    split_ifs
    all_goals trivial

/-- The slabs are resolved by listing and by claiming. -/
theorem resolveSlabs_bootOp (params : BootParams) : (resolveSlabs params).Only BootOp := by
  unfold resolveSlabs
  cases params.boothostClaim with
  | none => trivial
  | some claim =>
    obtain ⟨boothost, tag, claimNamespace⟩ := claim
    refine Program.only_bind (survivingSlabs_bootOp boothost _) fun kept => ?_
    extract_lets attachData
    have hdata : ∀ slabs, (attachData slabs).Only BootOp := by
      intro slabs
      unfold attachData
      cases params.dataSlab with
      | none => trivial
      | some data => trivial
    split_ifs
    · refine Program.only_bind (stamp_bootOp _) fun _ => ?_
      refine Program.only_bind (bootClaim_bootOp _ _ _ _) fun uri => ?_
      exact Program.only_bind (stamp_bootOp _) fun _ => hdata _
    · exact hdata kept

/-- An answer that is passed on performs nothing. -/
theorem orFail_bootOp {α : Type} (answer : Except Text α) : (orFail answer : Boot α).Only BootOp := by
  cases answer with
  | ok a => trivial
  | error err => trivial

/-- The engine is started by its own command line. -/
theorem startEngine_bootOp (params : BootParams) (slabs : List Text) (plan : ExportPlan) :
    (startEngine params slabs plan).Only BootOp := by
  unfold startEngine
  extract_lets spawn
  have hspawn : ∀ r, (spawn r).Only BootOp := by
    intro r
    exact Program.only_mapError ⟨trivial, fun answer => orFail_bootOp answer⟩
  split_ifs
  · trivial
  refine Program.only_bind (stamp_bootOp _) fun _ => ?_
  cases params.dataSlab with
  | none => exact hspawn ()
  | some data => exact Program.only_bind (stamp_bootOp _) hspawn

/-- A block device is waited for. -/
theorem waitForBlock_bootOp (dev : Text) : (waitForBlock dev).Only BootOp :=
  Program.only_perform _ trivial

/-- So is any device, for some seconds. -/
theorem waitForDevice_bootOp (path : Text) (seconds : ℕ) :
    (waitForDevice path seconds).Only BootOp := by
  refine Program.only_bind (Program.only_perform _ trivial) fun appeared => ?_
  split_ifs
  · trivial
  · exact Program.only_bind (Program.only_perform _ trivial) fun _ => trivial

/-- A filesystem is mounted as one device on one place. -/
theorem mountFs_bootOp (dev mnt : Text) : (mountFs dev mnt).Only BootOp := by
  refine Program.only_bind (runCommand_bootOp (leavesConsole_of_flag (by decide))) fun erofs => ?_
  split_ifs
  · trivial
  refine Program.only_bind (runCommand_bootOp (leavesConsole_of_flag (by decide))) fun ext4 => ?_
  split_ifs
  · trivial
  · exact Program.only_bind (runCommand_bootOp (leavesConsole_of_pair dev mnt)) fun _ => trivial

/-- The upper layer of an overlay is mounted. -/
theorem mountOverlayUpper_bootOp (overlay : Text) : (mountOverlayUpper overlay).Only BootOp := by
  unfold mountOverlayUpper
  cases stripPrefix "tmpfs".toList overlay with
  | some size =>
    refine Program.only_bind (runCommand_bootOp (leavesConsole_of_flag (by decide))) fun result => ?_
    split_ifs
    all_goals trivial
  | none =>
    refine Program.only_bind (waitForBlock_bootOp _) fun _ => ?_
    refine Program.only_bind (runCommand_bootOp (leavesConsole_of_pair _ _)) fun result => ?_
    split_ifs
    all_goals trivial

/-- The overlay is mounted as one. -/
theorem mountOverlayRoot_bootOp (overlay : Text) : (mountOverlayRoot overlay).Only BootOp := by
  refine Program.only_bind (createDirAllOk_bootOp _) fun _ => ?_
  refine Program.only_bind (createDirAllOk_bootOp _) fun _ => ?_
  refine Program.only_bind (createDirAllOk_bootOp _) fun _ => ?_
  refine Program.only_bind (mountFs_bootOp _ _) fun lower => ?_
  split_ifs
  · trivial
  refine Program.only_bind (mountOverlayUpper_bootOp overlay) fun _ => ?_
  refine Program.only_bind (createDirAllOk_bootOp _) fun _ => ?_
  refine Program.only_bind (createDirAllOk_bootOp _) fun _ => ?_
  refine Program.only_bind (runCommand_bootOp (leavesConsole_of_flag (by decide))) fun result => ?_
  extract_lets announce
  split_ifs
  · trivial
  · exact stamp_bootOp _

/-- The root is mounted, with its overlay if it has one. -/
theorem mountRoot_bootOp (params : BootParams) : (mountRoot params).Only BootOp := by
  unfold mountRoot
  cases params.overlay with
  | some overlay => exact mountOverlayRoot_bootOp overlay
  | none =>
    refine Program.only_bind (createDirAllOk_bootOp _) fun _ => ?_
    refine Program.only_bind (mountFs_bootOp _ _) fun mounted => ?_
    split_ifs
    · exact stamp_bootOp _
    · trivial

/-- A line of the fstab is appended. -/
theorem appendFstab_bootOp (line : Text) : (appendFstab line).Only BootOp := by
  refine Program.only_bind (Program.only_perform _ trivial) fun result => ?_
  match result with
  | .appended => trivial
  | .notWritten _ => exact tracingWarn_bootOp _
  | .notOpened _ => exact tracingWarn_bootOp _

/-- A planned mount is waited for and mounted. -/
theorem applyMount_bootOp (dev mnt : Text) : (applyMount dev mnt).Only BootOp := by
  refine Program.only_bind (waitForBlock_bootOp dev) fun appeared => ?_
  split_ifs
  · exact tracingWarn_bootOp _
  refine Program.only_bind (createDirAllOk_bootOp _) fun _ => ?_
  refine Program.only_bind (runCommand_bootOp (leavesConsole_of_pair _ _)) fun result => ?_
  split_ifs
  · exact stamp_bootOp _
  · exact tracingWarn_bootOp _

/-- A planned writable is waited for and written to the fstab. -/
theorem applyWritable_bootOp (dev mnt : Text) : (applyWritable dev mnt).Only BootOp := by
  refine Program.only_bind (waitForBlock_bootOp dev) fun appeared => ?_
  split_ifs
  · exact Program.only_bind (appendFstab_bootOp _) fun _ => stamp_bootOp _
  · exact tracingWarn_bootOp _

/-- So is the image store. -/
theorem applyImageStore_bootOp (dev mnt : Text) : (applyImageStore dev mnt).Only BootOp := by
  refine Program.only_bind (waitForBlock_bootOp dev) fun appeared => ?_
  split_ifs
  · refine Program.only_bind (createDirAllOk_bootOp _) fun _ => ?_
    exact Program.only_bind (appendFstab_bootOp _) fun _ => stamp_bootOp _
  · exact tracingWarn_bootOp _

/-- The exports are applied one by one. -/
theorem applyExports_bootOp (plan : ExportPlan) : (applyExports plan).Only BootOp := by
  refine Program.only_bind (Program.only_forEach fun _ => applyMount_bootOp _ _) fun _ => ?_
  refine Program.only_bind (Program.only_forEach fun _ => applyWritable_bootOp _ _) fun _ => ?_
  match plan.imageStore with
  | some (dev, mnt) => exact applyImageStore_bootOp dev mnt
  | none => trivial

/-- The identity is written into the root. -/
theorem writeIdentity_bootOp (params : BootParams) : (writeIdentity params).Only BootOp := by
  unfold writeIdentity
  extract_lets copyResolver dir writeRole path
  have hcopy : ∀ r, (copyResolver r).Only BootOp := by
    intro r
    refine Program.only_bind (pathExists_bootOp _) fun present => ?_
    split_ifs
    · exact Program.only_bind (Program.only_perform _ trivial) fun _ => trivial
    · trivial
  have hrole : ∀ r, (writeRole r).Only BootOp := by
    intro r
    unfold writeRole
    cases params.role with
    | none => exact hcopy ()
    | some role =>
      refine Program.only_bind (createDirAllOk_bootOp _) fun _ => ?_
      refine Program.only_bind (Program.only_perform _ trivial) fun answer => ?_
      match answer with
      | .ok () => exact hcopy ()
      | .error err => exact Program.only_bind (tracingWarn_bootOp _) hcopy
  cases params.hostname with
  | none => exact hrole ()
  | some hostname =>
    refine Program.only_bind (Program.only_perform _ trivial) fun answer => ?_
    match answer with
    | .ok () => exact hrole ()
    | .error err => exact Program.only_bind (tracingWarn_bootOp _) hrole

/-! ## The media pass -/

/-- An install copies, renames and stamps. -/
theorem install_bootOp (payloadUkiPath wanted : Text) :
    (install payloadUkiPath wanted).Only BootOp := by
  have hchecked : ∀ (op : SysOp) (f : SysOp.Ans op → Boot Unit) (next : Unit → Boot Unit),
      BootOp op → (∀ answer, (f answer).Only BootOp) → (∀ r, (next r).Only BootOp) →
        (Program.perform op >>= fun answer => f answer >>= next).Only BootOp :=
    fun op f next hop hf hnext =>
      Program.only_bind (Program.only_perform op hop) fun answer => Program.only_bind (hf answer) hnext
  refine hchecked _ _ _ trivial orFail_bootOp fun _ => ?_
  refine hchecked _ _ _ trivial orFail_bootOp fun _ => ?_
  refine hchecked _ _ _ trivial orFail_bootOp fun _ => ?_
  refine hchecked _ _ _ trivial orFail_bootOp fun _ => ?_
  refine hchecked _ _ _ trivial orFail_bootOp fun _ => ?_
  refine hchecked _ _ _ trivial orFail_bootOp fun _ => ?_
  refine hchecked _ _ _ trivial orFail_bootOp fun _ => ?_
  refine Program.only_bind (runCommand_bootOp ?_) fun _ => trivial
  exact leavesConsole_of_head (by decide) (by decide)

/-- The media step mounts the ESP and unmounts it again. -/
theorem mediaRun_bootOp (params : BootParams) (sysroot : Text) :
    (mediaRun params sysroot).Only BootOp := by
  have hops : Examining BootOp :=
    ⟨fun _ => trivial, fun _ => trivial, trivial, fun _ => leavesConsole_of_flag (by decide)⟩
  rw [mediaRun_eq]
  refine Program.only_bind (hops.examine _ _) fun verdict => ?_
  cases verdict with
  | settled outcome => trivial
  | rewrite device wanted installed =>
    exact Program.only_bind (Program.only_mapError (install_bootOp _ _)) fun _ => trivial

/-- Its outcome is reported if there was an update. -/
theorem concludeRefresh_bootOp (outcome : Outcome) : (concludeRefresh outcome).Only BootOp :=
  concludeRefresh_only leavesConsole_umountEsp (fun _ => trivial)
    (fun _ => show "media-updated".toList ∈ bootPhases by decide) outcome

/-- The refresh is the media step and its report. -/
theorem refresh_bootOp (params : BootParams) (sysroot : Text) :
    (refresh params sysroot).Only BootOp := by
  refine Program.only_bind (Program.only_attempt (mediaRun_bootOp _ _)) fun result => ?_
  match result with
  | .ok outcome => exact concludeRefresh_bootOp outcome
  | .error (.error err) => exact concludeRefresh_bootOp (.skipped err)
  | .error .panic => trivial

/-! ## Everything before the handover -/

/-- The early steps mount, load and check. -/
theorem earlySteps_bootOp (params : BootParams) : (earlySteps params).Only BootOp := by
  refine Program.only_bind (stamp_bootOp _) fun _ => ?_
  refine Program.only_bind mountPseudoFilesystems_bootOp fun _ => ?_
  refine Program.only_bind loadModules_bootOp fun _ => ?_
  cases params.checkLocalDisk with
  | error err => trivial
  | ok _ => trivial

/-- The root's source is the network, if it is needed. -/
theorem rootSource_bootOp (params : BootParams) :
    (rootSource params (bringUpNetwork params)).Only BootOp := by
  unfold rootSource
  split_ifs
  · exact bringUpNetwork_bootOp params
  all_goals trivial

/-- The root is attached by the engine, after the first report. -/
theorem attachRoot_bootOp (params : BootParams) : (attachRoot params).Only BootOp := by
  refine Program.only_bind (reportPhase_bootOp (by decide) _) fun _ => ?_
  refine Program.only_bind (Program.only_mapError (resolveSlabs_bootOp params)) fun slabs => ?_
  refine Program.only_bind (Program.only_mapError (startEngine_bootOp _ _ _)) fun _ => ?_
  refine Program.only_bind (Program.only_attempt (waitForDevice_bootOp _ _)) fun result => ?_
  match result with
  | .ok () => trivial
  | .error e => exact Program.only_bind (Program.only_perform _ trivial) fun _ => trivial

/-- The root is mounted, filled and refreshed. -/
theorem prepareRoot_bootOp (params : BootParams) : (prepareRoot params).Only BootOp := by
  refine Program.only_bind (reportPhase_bootOp (by decide) _) fun _ => ?_
  refine Program.only_bind (stamp_bootOp _) fun _ => ?_
  refine Program.only_bind (mountRoot_bootOp params) fun _ => ?_
  refine Program.only_bind (applyExports_bootOp _) fun _ => ?_
  refine Program.only_bind (writeIdentity_bootOp params) fun _ => ?_
  refine Program.only_bind (refresh_bootOp params sysroot) fun _ => ?_
  refine Program.only_bind (reportPhase_bootOp (by decide) _) fun _ => ?_
  split_ifs
  · exact reportPhase_bootOp (by decide) _
  · trivial

/-- All of it is. -/
theorem beforeHandover_bootOp (params : BootParams) : (beforeHandover params).Only BootOp := by
  refine Program.only_bind (earlySteps_bootOp params) fun _ => ?_
  refine Program.only_bind (rootSource_bootOp params) fun _ => ?_
  exact Program.only_bind (attachRoot_bootOp params) fun _ => prepareRoot_bootOp params

/-! ## The reports of a boot -/

/-- Every phase the initramfs reports. -/
def initPhases : List Text :=
  bootPhases ++ words ["failed"]

/-- A report names one of them. -/
def ReportsPhase : SysOp → Prop
  | .report phase _ => phase ∈ initPhases
  | _ => True

/-- Before the handover a report names one of the phases. -/
theorem reportsPhase_of_bootOp {op : SysOp} (hop : BootOp op) : ReportsPhase op := by
  cases op with
  | report phase detail => exact List.mem_append_left _ hop
  | _ => trivial

/-- The handover reports nothing. -/
theorem switchRoot_reportsPhase : switchRoot.Only ReportsPhase := by
  refine Program.only_bind (Program.only_forEach fun point => ?_) fun _ => ?_
  · refine Program.only_bind ⟨trivial, fun _ => trivial⟩ fun _ => ?_
    exact Program.only_bind (Program.only_perform _ trivial) fun _ => trivial
  have hfind : ∀ candidates, (findInit candidates).Only ReportsPhase := by
    intro candidates
    induction candidates with
    | nil => trivial
    | cons candidate rest ih =>
      refine Program.only_bind (Program.only_perform _ trivial) fun present => ?_
      split_ifs
      · trivial
      · exact ih
  refine Program.only_bind (hfind _) fun init => ?_
  cases init with
  | none => trivial
  | some init =>
    refine Program.only_bind (Program.only_perform _ trivial) fun _ => ?_
    exact Program.only_bind (Program.only_perform _ trivial) fun _ => trivial

/-- A boot reports these phases and no other. -/
theorem reportRun_reportsPhase (params : BootParams) : (reportRun params).Only ReportsPhase := by
  have hbefore : (beforeHandover params).Only ReportsPhase :=
    (beforeHandover_bootOp params).mono fun _ => reportsPhase_of_bootOp
  have hrun : (run params).Only ReportsPhase := by
    rw [run_eq_beforeHandover]
    exact Program.only_bind hbefore fun _ => switchRoot_reportsPhase
  refine Program.only_bind (Program.only_attempt hrun) fun result => ?_
  match result with
  | .ok () => trivial
  | .error (.error message) => exact Program.only_perform _ (by decide : _ ∈ initPhases)
  | .error .panic => trivial

end Stormnetboot.Init

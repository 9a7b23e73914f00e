import Stormnetboot.Common.Ends
import Stormnetboot.Init.BootStages

/-!
# How each step of the boot can end

One lemma for each step of the sequence, over every answer of the system: the steps that only
warn end with a value, the media pass ends with an outcome or in a panic, and each of the others
ends in an error with a text of its own. Put together, the sequence ends in one of ten errors or
in that panic.
-/

namespace Stormnetboot.Init

open Stormnetboot.Common

/-! ## Steps that only warn -/

/-- Making a directory ends. -/
theorem createDirAllOk_succeeds (path : Text) : (createDirAllOk path).Succeeds :=
  fun _ => ⟨(), rfl⟩

/-- A line on the console ends. -/
theorem stamp_succeeds (message : Text) : (stamp message).Succeeds :=
  fun _ => ⟨(), rfl⟩

/-- A warning ends. -/
theorem tracingWarn_succeeds (message : Text) : (tracingWarn message).Succeeds :=
  fun _ => ⟨(), rfl⟩

/-- A report ends, whether it is lost or not. -/
theorem reportPhase_succeeds (phase : String) (detail : Option Text) :
    (reportPhase phase detail).Succeeds :=
  fun _ => ⟨(), rfl⟩

/-- A command ends, whatever comes of it. -/
theorem runCommand_succeeds (argv : List Text) : (runCommand argv).Succeeds :=
  fun result => ⟨result, rfl⟩

/-- Asking whether a path exists ends. -/
theorem pathExists_succeeds (path : Text) : (pathExists path).Succeeds :=
  fun present => ⟨present, rfl⟩

/-- Asking for a mount ends. -/
theorem isMounted_succeeds (target : Text) : (isMounted target).Succeeds := by
  intro answer
  cases answer with
  | ok mounts => exact ⟨_, rfl⟩
  | error err => exact ⟨_, rfl⟩

/-- A pallet file that cannot be read is none. -/
theorem readPallet_succeeds (path : Text) : (readPallet path).Succeeds := by
  intro answer
  cases answer with
  | ok text => exact ⟨_, rfl⟩
  | error err => exact ⟨none, rfl⟩

/-- Mounting the media ends with an answer. -/
theorem mountVfat_succeeds (device target : Text) : (mountVfat device target).Succeeds :=
  (runCommand_succeeds _).ends_bind fun _ => ⟨_, rfl⟩

/-- A loop of steps that end with a value ends with one. -/
theorem forEach_succeeds {β : Type} (xs : List β) {body : β → Boot Unit}
    (hbody : ∀ x, (body x).Succeeds) : (Program.forEach xs body).Succeeds :=
  Program.ends_forEach ⟨(), rfl⟩ hbody

/-- A pseudo filesystem that cannot be mounted is warned of. -/
theorem mountPseudoFilesystem_succeeds (source target fstype : Text) :
    (mountPseudoFilesystem source target fstype).Succeeds := by
  refine (createDirAllOk_succeeds target).ends_bind fun _ => ?_
  refine (isMounted_succeeds target).ends_bind fun mounted => ?_
  split_ifs
  · exact ⟨(), rfl⟩
  refine (runCommand_succeeds _).ends_bind fun result => ?_
  match result with
  | .exited true _ _ => exact ⟨(), rfl⟩
  | .exited false _ _ => exact tracingWarn_succeeds _
  | .notStarted _ => exact tracingWarn_succeeds _

/-- So the boot gets past all of them. -/
theorem mountPseudoFilesystems_succeeds : mountPseudoFilesystems.Succeeds :=
  forEach_succeeds _ fun _ => mountPseudoFilesystem_succeeds _ _ _

/-- Modules that cannot be loaded are passed over. -/
theorem loadModules_succeeds : loadModules.Succeeds := by
  refine (forEach_succeeds _ fun _ => ?_).ends_bind fun _ => ?_
  · exact (runCommand_succeeds _).ends_bind fun _ => ⟨(), rfl⟩
  refine (pathExists_succeeds _).ends_bind fun sysctl => ?_
  -- What follows the optional write to the sysctl.
  extract_lets rest
  have hrest : ∀ r, (rest r).Succeeds := by
    intro r
    refine (pathExists_succeeds _).ends_bind fun control => ?_
    split_ifs
    · exact tracingWarn_succeeds _
    · exact ⟨(), rfl⟩
  split_ifs
  · exact fun _ => hrest ()
  · exact hrest ()

/-- Looking for an interface ends with one or none. -/
theorem firstEthernet_succeeds : firstEthernet.Succeeds := by
  intro entries
  cases entries with
  | none => exact ⟨none, rfl⟩
  | some entries => exact ⟨_, rfl⟩

/-- A mount ends with an answer. -/
theorem mountFs_succeeds (dev mnt : Text) : (mountFs dev mnt).Succeeds := by
  refine (runCommand_succeeds _).ends_bind fun erofs => ?_
  split_ifs
  · exact ⟨true, rfl⟩
  refine (runCommand_succeeds _).ends_bind fun ext4 => ?_
  split_ifs
  · exact ⟨true, rfl⟩
  · exact (runCommand_succeeds _).ends_bind fun auto => ⟨_, rfl⟩

/-- So does waiting for a block device. -/
theorem waitForBlock_succeeds (dev : Text) : (waitForBlock dev).Succeeds :=
  fun (appeared : Bool) => ⟨appeared, rfl⟩

/-- A line that cannot be appended is warned of. -/
theorem appendFstab_succeeds (line : Text) : (appendFstab line).Succeeds := by
  intro result
  match result with
  | .appended => exact ⟨(), rfl⟩
  | .notWritten _ => exact tracingWarn_succeeds _
  | .notOpened _ => exact tracingWarn_succeeds _

/-- So is a mount that fails. -/
theorem applyMount_succeeds (dev mnt : Text) : (applyMount dev mnt).Succeeds := by
  refine (waitForBlock_succeeds dev).ends_bind fun appeared => ?_
  split_ifs
  · exact tracingWarn_succeeds _
  refine (createDirAllOk_succeeds _).ends_bind fun _ => ?_
  refine (runCommand_succeeds _).ends_bind fun result => ?_
  split_ifs
  · exact stamp_succeeds _
  · exact tracingWarn_succeeds _

/-- So is a writable whose device does not appear. -/
theorem applyWritable_succeeds (dev mnt : Text) : (applyWritable dev mnt).Succeeds := by
  refine (waitForBlock_succeeds dev).ends_bind fun appeared => ?_
  split_ifs
  · exact (appendFstab_succeeds _).ends_bind fun _ => stamp_succeeds _
  · exact tracingWarn_succeeds _

/-- So is an image store. -/
theorem applyImageStore_succeeds (dev mnt : Text) : (applyImageStore dev mnt).Succeeds := by
  refine (waitForBlock_succeeds dev).ends_bind fun appeared => ?_
  split_ifs
  · refine (createDirAllOk_succeeds _).ends_bind fun _ => ?_
    exact (appendFstab_succeeds _).ends_bind fun _ => stamp_succeeds _
  · exact tracingWarn_succeeds _

/-- The boot gets past the exports. -/
theorem applyExports_succeeds (plan : ExportPlan) : (applyExports plan).Succeeds := by
  refine (forEach_succeeds _ fun _ => applyMount_succeeds _ _).ends_bind fun _ => ?_
  refine (forEach_succeeds _ fun _ => applyWritable_succeeds _ _).ends_bind fun _ => ?_
  match plan.imageStore with
  | some (dev, mnt) => exact applyImageStore_succeeds dev mnt
  | none => exact ⟨(), rfl⟩

/-- It gets past the identity. -/
theorem writeIdentity_succeeds (params : BootParams) : (writeIdentity params).Succeeds := by
  unfold writeIdentity
  extract_lets copyResolver dir writeRole path
  have hcopy : ∀ r, (copyResolver r).Succeeds := by
    intro r
    refine (pathExists_succeeds _).ends_bind fun present => ?_
    split_ifs
    · exact fun _ => ⟨(), rfl⟩
    · exact ⟨(), rfl⟩
  have hrole : ∀ r, (writeRole r).Succeeds := by
    intro r
    unfold writeRole
    cases params.role with
    | none => exact hcopy ()
    | some role =>
      refine (createDirAllOk_succeeds _).ends_bind fun _ => ?_
      intro answer
      match answer with
      | .ok () => exact hcopy ()
      | .error err => exact (tracingWarn_succeeds _).ends_bind hcopy
  cases params.hostname with
  | none => exact hrole ()
  | some hostname =>
    intro answer
    match answer with
    | .ok () => exact hrole ()
    | .error err => exact (tracingWarn_succeeds _).ends_bind hrole

/-! ## The media pass -/

/-- The step ends with a value or in a panic. -/
def EndsOrPanics {α : Type} (p : Boot α) : Prop :=
  p.Ends fun r => (∃ a, r = .ok a) ∨ r = .error .panic

/-- Two steps that end or panic do so in sequence. -/
theorem EndsOrPanics.bind {α β : Type} {p : Boot α} {f : α → Boot β} (hp : EndsOrPanics p)
    (hf : ∀ a, EndsOrPanics (f a)) : EndsOrPanics (p >>= f) := by
  refine Program.ends_bind hp (fun a _ => hf a) fun e he => ?_
  rcases he with ⟨a, ha⟩ | hpanic
  · cases ha
  · cases hpanic
    exact .inr rfl

/-- A step that ends with a value does not panic. -/
theorem endsOrPanics_of_succeeds {α : Type} {p : Boot α} (hp : p.Succeeds) : EndsOrPanics p :=
  hp.mono fun _ h => .inl h

/-- Abbreviating a digest ends or panics. -/
theorem short_endsOrPanics (digest : Text) : EndsOrPanics (short digest) := by
  unfold short
  extract_lets bare
  split_ifs
  · cases takeBytes 12 bare with
    | some head => exact .inl ⟨_, rfl⟩
    | none => exact .inr rfl
  · exact .inl ⟨_, rfl⟩

/-- So does the conclusion, which abbreviates two. -/
theorem concludeRefresh_endsOrPanics (outcome : Outcome) :
    EndsOrPanics (concludeRefresh outcome) := by
  refine (endsOrPanics_of_succeeds (runCommand_succeeds _)).bind fun _ => ?_
  have hlast : EndsOrPanics (.done outcome : Boot Outcome) := .inl ⟨_, rfl⟩
  cases outcome with
  | disabled => exact hlast
  | current digest =>
    refine (short_endsOrPanics digest).bind fun _ => ?_
    exact (endsOrPanics_of_succeeds (stamp_succeeds _)).bind fun _ => hlast
  | updated fromDigest toDigest =>
    refine (short_endsOrPanics fromDigest).bind fun _ => ?_
    refine (short_endsOrPanics toDigest).bind fun _ => ?_
    refine (endsOrPanics_of_succeeds (stamp_succeeds _)).bind fun _ => ?_
    refine (short_endsOrPanics fromDigest).bind fun _ => ?_
    refine (short_endsOrPanics toDigest).bind fun _ => ?_
    exact (endsOrPanics_of_succeeds (reportPhase_succeeds _ _)).bind fun _ => hlast
  | skipped why => exact (endsOrPanics_of_succeeds (stamp_succeeds _)).bind fun _ => hlast

/-- The media pass never ends in an error: there is an outcome, or a panic. -/
theorem refresh_endsOrPanics (params : BootParams) (sysroot : Text) :
    EndsOrPanics (refresh params sysroot) := by
  refine (Program.attempt_succeeds (mediaRun params sysroot)).ends_bind fun result => ?_
  match result with
  | .ok outcome => exact concludeRefresh_endsOrPanics outcome
  | .error (.error err) => exact concludeRefresh_endsOrPanics (.skipped err)
  | .error .panic => exact .inr rfl

/-! ## Steps that fail -/

/-- How the errors of the sequence begin. -/
def bootErrors : List String :=
  ["refusing flow-over onto ", "no ethernet interface found",
    "no root source on the command line: missing ", "resolving the root slab: ",
    "starting stormblock: spawning ", "/dev/ublkb0 did not appear within ", "overlay: could not ",
    "could not mount ", "no init found in the new root", "switch_root failed: "]

/-- The error begins like one of the texts. -/
def BeginsLike (openings : List String) (message : Text) : Prop :=
  ∃ opening ∈ openings, opening.toList <+: message

/-- An error of the step begins like one of the texts. -/
def RaisesOnly {α : Type} (openings : List String) (p : Boot α) : Prop :=
  p.Ends fun r => ∀ message, r = .error (.error message) → BeginsLike openings message

variable {α β : Type} {openings : List String}

/-- Steps that raise only some errors raise only those in sequence. -/
theorem RaisesOnly.bind {p : Boot α} {f : α → Boot β} (hp : RaisesOnly openings p)
    (hf : ∀ a, RaisesOnly openings (f a)) : RaisesOnly openings (p >>= f) :=
  Program.ends_bind hp (fun a _ => hf a) fun e he message heq => by
    cases heq
    exact he message rfl

/-- A step that is done raises nothing. -/
theorem raisesOnly_done (a : α) : RaisesOnly openings (.done a) := by
  intro message h
  cases h

/-- A step that fails raises what it says. -/
theorem raisesOnly_bail {message : Text} (h : BeginsLike openings message) :
    RaisesOnly openings (bail message : Boot α) := by
  intro message' h'
  cases h'
  exact h

/-- A step that ends with a value, or in a panic, raises nothing. -/
theorem EndsOrPanics.raisesOnly {p : Boot α} (hp : EndsOrPanics p) : RaisesOnly openings p := by
  refine hp.mono fun r hr message heq => ?_
  rcases hr with ⟨a, ha⟩ | hpanic
  · cases ha.symm.trans heq
  · cases hpanic.symm.trans heq

/-- A step that ends with a value raises nothing. -/
theorem raisesOnly_of_succeeds {p : Boot α} (hp : p.Succeeds) : RaisesOnly openings p :=
  (endsOrPanics_of_succeeds hp).raisesOnly

/-- A context stands before whatever fails under it. -/
theorem RaisesOnly.withContext {inner : List String} {context : Text} {p : Boot α}
    (hp : RaisesOnly inner p)
    (hcontext : ∀ message, BeginsLike inner message →
      BeginsLike openings (context ++ ": ".toList ++ message)) :
    RaisesOnly openings (withContext context p) := by
  refine Program.ends_mapError hp (fun a _ message h => ?_) fun e he message h => ?_
  · cases h
  · cases e with
    | panic => cases h
    | error message' =>
      cases h
      exact hcontext message' (he message' rfl)

/-- Every error begins like the empty text. -/
theorem raisesOnly_empty (p : Boot α) : RaisesOnly [""] p :=
  p.ends_true.mono fun _ _ message _ => ⟨"", by decide, List.nil_prefix⟩

/-- A text that goes on from one of the beginnings. -/
theorem beginsLike_append {opening text : String} (hmem : opening ∈ openings)
    (htext : opening.toList <+: text.toList) (rest : Text) :
    BeginsLike openings (text.toList ++ rest) :=
  ⟨opening, hmem, htext.trans (List.prefix_append _ _)⟩

/-- The network step raises that there is no interface. -/
theorem bringUpNetwork_raisesOnly (params : BootParams) :
    RaisesOnly bootErrors (bringUpNetwork params) := by
  refine (raisesOnly_of_succeeds (stamp_succeeds _)).bind fun _ => ?_
  refine (raisesOnly_of_succeeds (runCommand_succeeds _)).bind fun _ => ?_
  refine (raisesOnly_of_succeeds firstEthernet_succeeds).bind fun iface => ?_
  cases iface with
  | none => exact raisesOnly_bail ⟨"no ethernet interface found", by decide, List.prefix_rfl⟩
  | some iface =>
    refine (raisesOnly_of_succeeds (runCommand_succeeds _)).bind fun _ => ?_
    refine (raisesOnly_of_succeeds (runCommand_succeeds _)).bind fun result => ?_
    extract_lets announce
    have hannounce : ∀ r, RaisesOnly bootErrors (announce r) := by
      intro r
      unfold announce
      cases params.portal with
      | none => exact raisesOnly_done ()
      | some portal => exact raisesOnly_of_succeeds (stamp_succeeds _)
    split_ifs
    · exact (raisesOnly_of_succeeds (stamp_succeeds _)).bind hannounce
    · exact (raisesOnly_of_succeeds (tracingWarn_succeeds _)).bind hannounce

/-- Waiting for the root raises that it did not appear. -/
theorem waitForDevice_raisesOnly (seconds : ℕ) :
    RaisesOnly bootErrors (waitForDevice rootDev seconds) := by
  intro appeared
  cases appeared with
  | true => exact raisesOnly_done ()
  | false =>
    intro entries
    refine raisesOnly_bail ⟨"/dev/ublkb0 did not appear within ", by decide, ?_⟩
    have hopening : "/dev/ublkb0 did not appear within ".toList =
        rootDev ++ " did not appear within ".toList := by decide
    rw [hopening, List.append_assoc, List.append_assoc]
    exact List.prefix_append _ _

/-- What begins like an overlay's error is one of the boot's. -/
theorem beginsLike_overlay {text : String} (htext : "overlay: could not ".toList <+: text.toList)
    (rest : Text) : BeginsLike bootErrors (text.toList ++ rest) :=
  beginsLike_append (by decide) htext rest

/-- The upper layer raises that it could not be mounted. -/
theorem mountOverlayUpper_raisesOnly (overlay : Text) :
    RaisesOnly bootErrors (mountOverlayUpper overlay) := by
  unfold mountOverlayUpper
  cases stripPrefix "tmpfs".toList overlay with
  | some size =>
    refine (raisesOnly_of_succeeds (runCommand_succeeds _)).bind fun result => ?_
    split_ifs
    · refine raisesOnly_bail ?_
      rw [List.append_assoc]
      exact beginsLike_overlay (by decide) _
    · exact raisesOnly_done ()
  | none =>
    refine (raisesOnly_of_succeeds (waitForBlock_succeeds _)).bind fun _ => ?_
    refine (raisesOnly_of_succeeds (runCommand_succeeds _)).bind fun result => ?_
    split_ifs
    · exact raisesOnly_bail (beginsLike_overlay (by decide) _)
    · exact raisesOnly_done ()

/-- The overlay raises the same of its parts. -/
theorem mountOverlayRoot_raisesOnly (overlay : Text) :
    RaisesOnly bootErrors (mountOverlayRoot overlay) := by
  refine (raisesOnly_of_succeeds (createDirAllOk_succeeds _)).bind fun _ => ?_
  refine (raisesOnly_of_succeeds (createDirAllOk_succeeds _)).bind fun _ => ?_
  refine (raisesOnly_of_succeeds (createDirAllOk_succeeds _)).bind fun _ => ?_
  refine (raisesOnly_of_succeeds (mountFs_succeeds _ _)).bind fun lower => ?_
  split_ifs
  · exact raisesOnly_bail (beginsLike_overlay (by decide) _)
  refine (mountOverlayUpper_raisesOnly overlay).bind fun _ => ?_
  refine (raisesOnly_of_succeeds (createDirAllOk_succeeds _)).bind fun _ => ?_
  refine (raisesOnly_of_succeeds (createDirAllOk_succeeds _)).bind fun _ => ?_
  refine (raisesOnly_of_succeeds (runCommand_succeeds _)).bind fun result => ?_
  extract_lets announce
  split_ifs
  · exact (raisesOnly_bail (beginsLike_overlay (by decide) _)).bind fun _ =>
      raisesOnly_of_succeeds (stamp_succeeds _)
  · exact raisesOnly_of_succeeds (stamp_succeeds _)

/-- The root raises what its mount raises. -/
theorem mountRoot_raisesOnly (params : BootParams) : RaisesOnly bootErrors (mountRoot params) := by
  unfold mountRoot
  cases params.overlay with
  | some overlay => exact mountOverlayRoot_raisesOnly overlay
  | none =>
    refine (raisesOnly_of_succeeds (createDirAllOk_succeeds _)).bind fun _ => ?_
    refine (raisesOnly_of_succeeds (mountFs_succeeds _ _)).bind fun mounted => ?_
    split_ifs
    · exact raisesOnly_of_succeeds (stamp_succeeds _)
    · refine raisesOnly_bail ?_
      simp only [List.append_assoc]
      exact beginsLike_append (by decide) List.prefix_rfl _

/-- Starting the engine on slabs that are there fails only with the engine. -/
theorem startEngine_raisesOnly (params : BootParams) {slabs : List Text} (hslabs : slabs ≠ [])
    (plan : ExportPlan) :
    RaisesOnly bootErrors
      (withContext "starting stormblock".toList (startEngine params slabs plan)) := by
  have hstart : RaisesOnly ["spawning "] (startEngine params slabs plan) := by
    unfold startEngine
    rw [if_neg (by simpa using hslabs)]
    refine (raisesOnly_of_succeeds (stamp_succeeds _)).bind fun _ => ?_
    extract_lets spawn
    have hspawn : ∀ r, RaisesOnly ["spawning "] (spawn r) := by
      intro r
      refine (raisesOnly_empty _).withContext fun message _ => ?_
      simp only [List.append_assoc]
      exact beginsLike_append (by decide) List.prefix_rfl _
    cases params.dataSlab with
    | some data => exact (raisesOnly_of_succeeds (stamp_succeeds _)).bind hspawn
    | none => exact hspawn ()
  refine hstart.withContext fun message hmessage => ?_
  obtain ⟨opening, hmem, rest, rfl⟩ := hmessage
  obtain rfl : opening = "spawning " := by simpa using hmem
  rw [← List.append_assoc]
  have hopening : "starting stormblock: spawning ".toList <+:
      "starting stormblock: spawning ".toList := List.prefix_rfl
  exact beginsLike_append (by decide) hopening rest

/-- Looking for an init ends with one or none. -/
theorem findInit_succeeds (candidates : List Text) : (findInit candidates).Succeeds := by
  induction candidates with
  | nil => exact ⟨none, rfl⟩
  | cons candidate rest ih =>
    refine (pathExists_succeeds _).ends_bind fun present => ?_
    split_ifs
    · exact ⟨_, rfl⟩
    · exact ih

/-- The handover raises that there is no init, or that it could not be entered. -/
theorem switchRoot_raisesOnly : RaisesOnly bootErrors switchRoot := by
  refine (raisesOnly_of_succeeds (forEach_succeeds _ fun point => ?_)).bind fun _ => ?_
  · refine (createDirAllOk_succeeds _).ends_bind fun _ => ?_
    exact (runCommand_succeeds _).ends_bind fun _ => ⟨(), rfl⟩
  refine (raisesOnly_of_succeeds (findInit_succeeds _)).bind fun init => ?_
  cases init with
  | none => exact raisesOnly_bail ⟨"no init found in the new root", by decide, List.prefix_rfl⟩
  | some init =>
    refine (raisesOnly_of_succeeds (stamp_succeeds _)).bind fun _ => ?_
    exact fun err => raisesOnly_bail (beginsLike_append (by decide) List.prefix_rfl _)

/-! ## Stages -/

/-- The early steps raise what the guard says. -/
theorem earlySteps_raisesOnly (params : BootParams) :
    RaisesOnly bootErrors (earlySteps params) := by
  refine (raisesOnly_of_succeeds (stamp_succeeds _)).bind fun _ => ?_
  refine (raisesOnly_of_succeeds mountPseudoFilesystems_succeeds).bind fun _ => ?_
  refine (raisesOnly_of_succeeds loadModules_succeeds).bind fun _ => ?_
  unfold BootParams.checkLocalDisk
  cases params.localDisk with
  | none => exact raisesOnly_done ()
  | some disk =>
    cases params.dataSlab with
    | none => exact raisesOnly_done ()
    | some data =>
      simp only
      split_ifs
      · refine raisesOnly_bail ?_
        simp only [List.append_assoc]
        exact beginsLike_append (by decide) List.prefix_rfl _
      · exact raisesOnly_done ()

/-- The root's source raises what the network step raises. -/
theorem rootSource_raisesOnly (params : BootParams) :
    RaisesOnly bootErrors (rootSource params (bringUpNetwork params)) := by
  unfold rootSource
  split_ifs
  · exact bringUpNetwork_raisesOnly params
  · refine raisesOnly_bail ?_
    simp only [List.append_assoc]
    exact beginsLike_append (by decide) List.prefix_rfl _
  · exact raisesOnly_done ()

/-- Preparing the root raises what mounting it raises. -/
theorem prepareRoot_raisesOnly (params : BootParams) :
    RaisesOnly bootErrors (prepareRoot params) := by
  refine (raisesOnly_of_succeeds (reportPhase_succeeds _ _)).bind fun _ => ?_
  refine (raisesOnly_of_succeeds (stamp_succeeds _)).bind fun _ => ?_
  refine (mountRoot_raisesOnly params).bind fun _ => ?_
  refine (raisesOnly_of_succeeds (applyExports_succeeds _)).bind fun _ => ?_
  refine (raisesOnly_of_succeeds (writeIdentity_succeeds _)).bind fun _ => ?_
  refine (refresh_endsOrPanics params sysroot).raisesOnly.bind fun _ => ?_
  refine (raisesOnly_of_succeeds (reportPhase_succeeds _ _)).bind fun _ => ?_
  split_ifs
  · exact raisesOnly_of_succeeds (reportPhase_succeeds _ _)
  · exact raisesOnly_done ()

end Stormnetboot.Init

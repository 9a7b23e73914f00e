import Stormnetboot.Common.Instrument
import Stormnetboot.Common.Process
import Stormnetboot.Common.Runs
import Stormnetboot.Init.MediaReturns
import Stormnetboot.Init.SlabResolution

/-!
# The first process

The boot sequence runs in PID 1, which may not exit: the kernel would panic and take the console's
last message with it. Whatever fails, `main` says so and hands out shells, or holds the console
where there is none. What can still end it is a panic of the boot sequence, and only the
abbreviation of a digest panics.
-/

namespace Stormnetboot.Init

open Stormnetboot.Common
set_option maxRecDepth 8192

/-- What PID 1 does besides booting. -/
inductive ConsoleOp where
  | readCmdline
  | print (line : Text)
  | exists (path : Text)
  | runShell (shell : Text)
  | writeKmsg (line : Text)
  | sleep (milliseconds : ℕ)
  deriving DecidableEq

/-- What is answered: a command line or an error, and how a shell exited or why it was not
started. -/
def ConsoleOp.Ans : ConsoleOp → Type
  | .readCmdline => Except Text Text
  | .print _ => Unit
  | .exists _ => Bool
  | .runShell _ => Except Text Text
  | .writeKmsg _ => Unit
  | .sleep _ => Unit

/-- A part of PID 1. -/
abbrev PidOne := Program.Instrumented SysOp ConsoleOp SysOp.Ans ConsoleOp.Ans Stop

/-- An operation of PID 1 itself. -/
def console (op : ConsoleOp) : PidOne op.Ans :=
  Program.perform (Sum.inl op)

/-- `eprintln!`, with what every line begins with. -/
def eprintln (message : Text) : PidOne Unit :=
  console (.print ("stormnetboot-init: ".toList ++ message))

/-- Where PID 1 goes round for good. -/
inductive Loop where
  | shell (shell : Text)
  | held (why : Text) (minutes : UInt64)

/-- The first of the shells that is there. -/
def findShell : List Text → PidOne (Option Text)
  | [] => .done none
  | candidate :: rest => do
    let present : Bool ← console (.exists candidate)
    if present then .done (some candidate) else findShell rest

/-- The shells that are tried, in their order. -/
def shells : List Text :=
  words ["/bin/sh", "/bin/busybox", "/bin/ash"]

/-- `emergency_shell`, up to its loop. -/
def emergencyShell : PidOne Loop := do
  eprintln "dropping to a shell; the boot cannot continue".toList
  eprintln "this shell is PID 1's child; exiting it starts another".toList
  match ← findShell shells with
  | some shell => .done (.shell shell)
  | none =>
    .done (.held ("no shell in this initramfs - nothing left to hand you. ".toList ++
      "This is a build fault: busybox should be at /bin/sh".toList) 0)

/-- After a shell: another one, or no more if it could not be started. -/
def afterShell (shell : Text) : Except Text Text → PidOne Loop
  | .ok status => do
    eprintln ("shell exited (".toList ++ status ++ "); starting another".toList)
    console (.sleep 500)
    .done (.shell shell)
  | .error err => .done (.held ("cannot start ".toList ++ shell ++ ": ".toList ++ err) 0)

/-- One turn of the loop of `emergency_shell`, or of `hold`. -/
def turn : Loop → (op : ConsoleOp ⊕ SysOp) × (Sum.elim ConsoleOp.Ans SysOp.Ans op → PidOne Loop)
  | .shell shell => ⟨.inl (.runShell shell), afterShell shell⟩
  | .held why minutes =>
    ⟨.inl (.print ("stormnetboot-init: HELD (".toList ++ natText minutes.toNat ++ "m): ".toList ++
        why)), fun _ => do
      console (.writeKmsg ("stormnetboot-init: HELD: ".toList ++ why))
      console (.sleep 60000)
      .done (.held why (minutes + 1))⟩

/-- What `main` does about the end of the boot sequence. -/
def conclude (cmdline : Text) : Except Stop Unit → PidOne Loop
  | .ok () => do
    eprintln "boot finished without switch_root; nothing left to do".toList
    emergencyShell
  | .error (.error message) => do
    eprintln message
    eprintln ("cmdline was: ".toList ++ cmdline)
    (reportPhase "failed" (some message)).lift
    emergencyShell
  | .error .panic => .fail .panic

/-- What `main` does with the command line. -/
def bootWith : Except Text Text → PidOne Loop
  | .error err => do
    eprintln ("cannot read /proc/cmdline: ".toList ++ err)
    emergencyShell
  | .ok cmdline => do
    let result ← (run (BootParams.parse cmdline)).lift.attempt
    conclude cmdline result

/-- `main`, up to a loop. -/
def main : PidOne Loop := do
  bootWith (← console .readCmdline)

/-- PID 1. -/
def pidOne : Process (ConsoleOp ⊕ SysOp) (Sum.elim ConsoleOp.Ans SysOp.Ans) Stop Loop where
  start := main
  turn := turn

/-! ## What can panic -/

/-- The network step does not panic. -/
theorem bringUpNetwork_neverPanics (params : BootParams) : NeverPanics (bringUpNetwork params) := by
  refine (neverPanics_of_succeeds (stamp_succeeds _)).bind fun _ => ?_
  refine (neverPanics_of_succeeds (runCommand_succeeds _)).bind fun _ => ?_
  refine (neverPanics_of_succeeds firstEthernet_succeeds).bind fun iface => ?_
  cases iface with
  | none => exact neverPanics_bail _
  | some iface =>
    refine (neverPanics_of_succeeds (runCommand_succeeds _)).bind fun _ => ?_
    refine (neverPanics_of_succeeds (runCommand_succeeds _)).bind fun result => ?_
    extract_lets announce
    have hannounce (r : Unit) : NeverPanics (announce r) := by
      unfold announce
      cases params.portal with
      | none => exact neverPanics_of_succeeds ⟨_, rfl⟩
      | some portal => exact neverPanics_of_succeeds (stamp_succeeds _)
    split_ifs
    · exact (neverPanics_of_succeeds (stamp_succeeds _)).bind hannounce
    · exact (neverPanics_of_succeeds (tracingWarn_succeeds _)).bind hannounce

/-- The early steps do not. -/
theorem earlySteps_neverPanics (params : BootParams) : NeverPanics (earlySteps params) := by
  rw [earlySteps_eq]
  refine (neverPanics_of_succeeds (stamp_succeeds _)).bind fun _ => ?_
  refine (neverPanics_of_succeeds mountPseudoFilesystems_succeeds).bind fun _ => ?_
  exact (neverPanics_of_succeeds loadModules_succeeds).bind fun _ => neverPanics_orFail _

/-- The root's source does not. -/
theorem rootSource_neverPanics (params : BootParams) :
    NeverPanics (rootSource params (bringUpNetwork params)) := by
  unfold rootSource
  split_ifs
  · exact bringUpNetwork_neverPanics params
  · exact neverPanics_bail _
  · exact neverPanics_of_succeeds ⟨_, rfl⟩

/-- Probing the named slabs ends with those that survive. -/
theorem survivingSlabs_succeeds (boothost : Text) (slabs : List Text) :
    (survivingSlabs boothost slabs).Succeeds := by
  induction slabs with
  | nil => exact ⟨_, rfl⟩
  | cons slab rest ih =>
    rw [survivingSlabs_cons]
    refine (trusts_succeeds slab).ends_bind fun trusted => ?_
    cases trusted with
    | true => exact ih.ends_bind fun kept => ⟨_, rfl⟩
    | false => exact (stamp_succeeds _).ends_bind fun _ => ih

/-- A claim may fail, but does not panic. -/
theorem bootClaim_neverPanics (boothost tag claimNamespace : Text) (hostnqn : Option Text) :
    NeverPanics (bootClaim boothost tag claimNamespace hostnqn) := by
  have hcommand (op : SysOp) : (Program.perform op : Boot _).Succeeds := fun answer => ⟨answer, rfl⟩
  refine (neverPanics_of_succeeds (hcommand _)).bind fun result => ?_
  match result with
  | .notStarted err => exact neverPanics_bail _
  | .exited success _ stdout =>
    simp only
    split_ifs
    · exact neverPanics_bail _
    · exact neverPanics_bail _
    · exact neverPanics_of_succeeds ⟨_, rfl⟩

/-- Neither does resolving the slabs. -/
theorem resolveSlabs_neverPanics (params : BootParams) : NeverPanics (resolveSlabs params) := by
  unfold resolveSlabs
  cases params.boothostClaim with
  | none => exact neverPanics_of_succeeds ⟨_, rfl⟩
  | some claim =>
    obtain ⟨boothost, tag, claimNamespace⟩ := claim
    refine (neverPanics_of_succeeds (survivingSlabs_succeeds _ _)).bind fun kept => ?_
    extract_lets attachData
    have hdata (slabs : List Text) : NeverPanics (attachData slabs) := by
      unfold attachData
      cases params.dataSlab with
      | none => exact neverPanics_of_succeeds ⟨_, rfl⟩
      | some data => exact neverPanics_of_succeeds ⟨_, rfl⟩
    split_ifs
    · refine (neverPanics_of_succeeds (stamp_succeeds _)).bind fun _ => ?_
      refine (bootClaim_neverPanics _ _ _ _).bind fun uri => ?_
      exact (neverPanics_of_succeeds (stamp_succeeds _)).bind fun _ => hdata _
    · exact hdata kept

/-- Nor starting the engine. -/
theorem startEngine_neverPanics (params : BootParams) (slabs : List Text) (plan : ExportPlan) :
    NeverPanics (startEngine params slabs plan) := by
  unfold startEngine
  extract_lets spawn
  have hspawn (r : Unit) : NeverPanics (spawn r) :=
    neverPanics_withContext fun answer => neverPanics_orFail answer
  split_ifs
  · exact neverPanics_bail _
  refine (neverPanics_of_succeeds (stamp_succeeds _)).bind fun _ => ?_
  cases params.dataSlab with
  | none => exact hspawn ()
  | some data => exact (neverPanics_of_succeeds (stamp_succeeds _)).bind hspawn

/-- Nor waiting for a device. -/
theorem waitForDevice_neverPanics (path : Text) (seconds : ℕ) :
    NeverPanics (waitForDevice path seconds) := by
  intro (appeared : Bool)
  cases appeared with
  | true => exact neverPanics_of_succeeds ⟨_, rfl⟩
  | false => exact fun entries => neverPanics_bail _

/-- Nor attaching the root. -/
theorem attachRoot_neverPanics (params : BootParams) : NeverPanics (attachRoot params) := by
  refine (neverPanics_of_succeeds (reportPhase_succeeds _ _)).bind fun _ => ?_
  refine (neverPanics_withContext (resolveSlabs_neverPanics params)).bind fun slabs => ?_
  refine (neverPanics_withContext (startEngine_neverPanics _ _ _)).bind fun _ => ?_
  refine Program.ends_bind (Program.ends_attempt (waitForDevice_neverPanics rootDev 60))
    (fun result hresult => ?_) fun e he => ?_
  · obtain ⟨_, heq, hresult⟩ := hresult
    cases heq
    match result with
    | .ok () => exact neverPanics_of_succeeds ⟨_, rfl⟩
    | .error e => exact fun _ heq => hresult (congrArg _ (Except.error.inj heq))
  · obtain ⟨_, heq, -⟩ := he
    cases heq

/-- Nor mounting an overlay's upper layer. -/
theorem mountOverlayUpper_neverPanics (overlay : Text) :
    NeverPanics (mountOverlayUpper overlay) := by
  unfold mountOverlayUpper
  cases stripPrefix "tmpfs".toList overlay with
  | some size =>
    refine (neverPanics_of_succeeds (runCommand_succeeds _)).bind fun result => ?_
    split_ifs
    · exact neverPanics_bail _
    · exact neverPanics_of_succeeds ⟨_, rfl⟩
  | none =>
    refine (neverPanics_of_succeeds (waitForBlock_succeeds _)).bind fun _ => ?_
    refine (neverPanics_of_succeeds (runCommand_succeeds _)).bind fun result => ?_
    split_ifs
    · exact neverPanics_bail _
    · exact neverPanics_of_succeeds ⟨_, rfl⟩

/-- Nor mounting the root. -/
theorem mountRoot_neverPanics (params : BootParams) : NeverPanics (mountRoot params) := by
  have hcreate (path : Text) : NeverPanics (createDirAllOk path) :=
    neverPanics_of_succeeds (createDirAllOk_succeeds path)
  unfold mountRoot
  cases params.overlay with
  | none =>
    refine (hcreate _).bind fun _ => ?_
    refine (neverPanics_of_succeeds (mountFs_succeeds _ _)).bind fun mounted => ?_
    split_ifs
    · exact neverPanics_of_succeeds (stamp_succeeds _)
    · exact neverPanics_bail _
  | some overlay =>
    refine (hcreate _).bind fun _ => (hcreate _).bind fun _ => (hcreate _).bind fun _ => ?_
    refine (neverPanics_of_succeeds (mountFs_succeeds _ _)).bind fun lower => ?_
    split_ifs
    · exact neverPanics_bail _
    refine (mountOverlayUpper_neverPanics overlay).bind fun _ => ?_
    refine (hcreate _).bind fun _ => (hcreate _).bind fun _ => ?_
    refine (neverPanics_of_succeeds (runCommand_succeeds _)).bind fun result => ?_
    split_ifs
    · exact neverPanics_bail _
    · exact neverPanics_of_succeeds (stamp_succeeds _)

/-- The handover fails with an error, not with a panic. -/
theorem switchRoot_neverPanics : NeverPanics switchRoot := by
  refine (neverPanics_of_succeeds (forEach_succeeds _ fun _ => ?_)).bind fun _ => ?_
  · refine (createDirAllOk_succeeds _).ends_bind fun _ => ?_
    exact (runCommand_succeeds _).ends_bind fun _ => ⟨_, rfl⟩
  refine (neverPanics_of_succeeds (findInit_succeeds _)).bind fun init => ?_
  cases init with
  | none => exact neverPanics_bail _
  | some init =>
    exact (neverPanics_of_succeeds (stamp_succeeds _)).bind fun _ err => neverPanics_bail _

section

variable {σ : Type} {h : Handler SysOp SysOp.Ans σ} {s : σ}

/-- A sequence whose first part does not panic panics in its second part. -/
theorem exec_panics_of_bind {α β : Type} {p : Boot α} {f : α → Boot β} (hp : NeverPanics p)
    (hpanics : (Program.exec h (p >>= f) s).1 = .error .panic) :
    ∃ a t, (Program.exec h (f a) t).1 = .error .panic := by
  have hnot := hp.exec h s
  rw [Program.exec_bind] at hpanics
  rcases hexec : Program.exec h p s with ⟨_ | a, t⟩
  · rw [hexec] at hpanics hnot
    cases hpanics
    exact absurd rfl hnot
  · rw [hexec] at hpanics
    exact ⟨a, t, hpanics⟩

/-- A boot that panics does so in the media pass. -/
theorem refresh_panics_of_run {params : BootParams}
    (hpanics : (Program.exec h (run params) s).1 = .error .panic) :
    ∃ t, (Program.exec h (refresh params sysroot) t).1 = .error .panic := by
  have hsucceeds {α β : Type} {p : Boot α} {f : α → Boot β} (hp : p.Succeeds) {s : σ}
      (hpanics : (Program.exec h (p >>= f) s).1 = .error .panic) :=
    exec_panics_of_bind (neverPanics_of_succeeds hp) hpanics
  rw [run_eq_runWith] at hpanics
  obtain ⟨_, _, hpanics⟩ := exec_panics_of_bind (earlySteps_neverPanics params) hpanics
  obtain ⟨_, _, hpanics⟩ := exec_panics_of_bind (rootSource_neverPanics params) hpanics
  obtain ⟨_, _, hpanics⟩ := exec_panics_of_bind (attachRoot_neverPanics params) hpanics
  rw [prepareRoot_bind] at hpanics
  obtain ⟨_, _, hpanics⟩ := hsucceeds (reportPhase_succeeds _ _) hpanics
  obtain ⟨_, _, hpanics⟩ := hsucceeds (stamp_succeeds _) hpanics
  obtain ⟨_, _, hpanics⟩ := exec_panics_of_bind (mountRoot_neverPanics params) hpanics
  obtain ⟨_, _, hpanics⟩ := hsucceeds (applyExports_succeeds _) hpanics
  obtain ⟨_, t, hpanics⟩ := hsucceeds (writeIdentity_succeeds params) hpanics
  rw [Program.exec_bind] at hpanics
  rcases hrefresh : Program.exec h (refresh params sysroot) t with ⟨_ | _, u⟩
  · rw [hrefresh] at hpanics
    cases hpanics
    exact ⟨t, congrArg Prod.fst hrefresh⟩
  · have hrest : NeverPanics (do
        reportPhase "running" none
        if params.localDisk.isSome then
          reportPhase "assimilating" (some "flow-over started".toList)
        switchRoot) := by
      refine (neverPanics_of_succeeds (reportPhase_succeeds _ _)).bind fun _ => ?_
      split_ifs
      · exact (neverPanics_of_succeeds (reportPhase_succeeds _ _)).bind fun _ =>
          switchRoot_neverPanics
      · exact switchRoot_neverPanics
    rw [hrefresh] at hpanics
    exact absurd hpanics (hrest.exec h u)

end

/-! ## How it goes on -/

/-- Looking for a shell ends. -/
theorem findShell_succeeds (candidates : List Text) : (findShell candidates).Succeeds := by
  induction candidates with
  | nil => exact ⟨_, rfl⟩
  | cons candidate rest ih =>
    intro (present : Bool)
    cases present with
    | true => exact ⟨_, rfl⟩
    | false => exact ih

/-- The emergency shell is reached whatever the console answers. -/
theorem emergencyShell_succeeds : emergencyShell.Succeeds := by
  intro _ _
  refine (findShell_succeeds shells).ends_bind fun shell => ?_
  cases shell with
  | some shell => exact ⟨_, rfl⟩
  | none => exact ⟨_, rfl⟩

/-- PID 1 ends in one of its loops. -/
theorem pidOne_lasts : pidOne.Lasts := by
  intro loop answer
  cases loop with
  | shell shell =>
    cases answer with
    | ok status => exact fun _ _ => ⟨_, rfl⟩
    | error err => exact ⟨_, rfl⟩
  | held why minutes => exact fun _ _ => ⟨_, rfl⟩

section

variable {σ : Type} (h : Handler (ConsoleOp ⊕ SysOp) (Sum.elim ConsoleOp.Ans SysOp.Ans) σ)

/-- The system the boot sequence runs on. -/
def system : Handler SysOp SysOp.Ans σ :=
  fun op s => h (.inr op) s

/-- The sequence runs in PID 1 as it runs on the system. -/
theorem exec_lift {α : Type} (p : Boot α) (s : σ) :
    Program.exec h (p.lift : PidOne α) s = Program.exec (system h) p s := by
  induction p generalizing s with
  | done a => rfl
  | fail e => rfl
  | call op next ih => exact ih _ _

/-- After a boot that did not panic PID 1 concludes. -/
theorem conclude_succeeds (cmdline : Text) {result : Except Stop Unit}
    (hresult : result ≠ .error .panic) : (conclude cmdline result).Succeeds := by
  match result with
  | .ok () => exact fun _ => emergencyShell_succeeds
  | .error (.error message) => exact fun _ _ _ => emergencyShell_succeeds
  | .error .panic => exact absurd rfl hresult

/-- The command line, if it can be read, and the end of the boot sequence it starts. -/
def bootEnd (s : σ) : Except Text (Text × Except Stop Unit) :=
  match (h (.inl .readCmdline) s).1 with
  | .error err => .error err
  | .ok cmdline => .ok (cmdline,
      (Program.exec (system h) (run (BootParams.parse cmdline)) (h (.inl .readCmdline) s).2).1)

variable {h} in

/-- If the boot has no command line, there was none to read. -/
theorem readCmdline_of_bootEnd_error {s : σ} {err : Text} (hend : bootEnd h s = .error err) :
    (h (.inl .readCmdline) s).1 = .error err := by
  unfold bootEnd at hend
  split at hend
  · rename_i err' hread
    cases hend
    exact hread
  · cases hend

variable {h} in

/-- If it has one, it was read, and the boot is the run on it. -/
theorem readCmdline_of_bootEnd_ok {s : σ} {cmdline : Text} {result : Except Stop Unit}
    (hend : bootEnd h s = .ok (cmdline, result)) :
    (h (.inl .readCmdline) s).1 = .ok cmdline ∧
      (Program.exec (system h) (run (BootParams.parse cmdline))
        (h (.inl .readCmdline) s).2).1 = result := by
  unfold bootEnd at hend
  split at hend
  · cases hend
  · rename_i cmdline' hread
    cases hend
    exact ⟨hread, rfl⟩

/-- The program reads the command line and goes by the answer. -/
theorem exec_main (s : σ) : Program.exec h main s =
    Program.exec h (bootWith (h (.inl .readCmdline) s).1) (h (.inl .readCmdline) s).2 :=
  rfl

/-- With a command line it runs the sequence and concludes from its result. -/
theorem exec_bootWith_ok (cmdline : Text) (s : σ) :
    Program.exec h (bootWith (.ok cmdline)) s =
      Program.exec h
        (conclude cmdline (Program.exec (system h) (run (BootParams.parse cmdline)) s).1)
        (Program.exec (system h) (run (BootParams.parse cmdline)) s).2 := by
  rw [bootWith, Program.exec_bind, Program.exec_attempt, exec_lift]

/-- Where the boot sequence does not panic, PID 1 comes to a loop. -/
theorem exec_main_ok {s : σ} (hend : ∀ cmdline result, bootEnd h s = .ok (cmdline, result) →
    result ≠ .error .panic) : ∃ loop, (Program.exec h main s).1 = .ok loop := by
  unfold bootEnd at hend
  rw [exec_main]
  rcases hread : h (.inl .readCmdline) s with ⟨err | cmdline, t⟩
  · have hshell : (bootWith (.error err)).Succeeds := fun _ => emergencyShell_succeeds
    exact (hshell.exec h t).imp fun _ => congrArg Prod.fst
  · rw [hread] at hend
    have hconclude := conclude_succeeds cmdline (hend cmdline _ rfl)
    rw [exec_bootWith_ok]
    exact (hconclude.exec h _).imp fun _ => congrArg Prod.fst

/-- Wherever the media pass reads a digest, the digest can be abbreviated. -/
def ShortDigests (boot : Handler SysOp SysOp.Ans σ) : Prop :=
  ∀ path, path = confPath ∨ path = stampPath → ∀ s text digest,
    (boot (.readFile path) s).1 = .ok text → palletOfText text = some digest → Abbreviable digest

/-- What is read of the golden or the media can be abbreviated. -/
theorem ShortDigests.of_readPallet {boot : Handler SysOp SysOp.Ans σ} (hshort : ShortDigests boot)
    {path : Text} (hpath : path = confPath ∨ path = stampPath) {s : σ} {digest : Text}
    (hread : (Program.exec boot (readPallet path) s).1 = .ok (some digest)) :
    Abbreviable digest := by
  rw [readPallet, Program.bind_perform, Program.exec_call] at hread
  rcases hanswer : (boot (.readFile path) s).1 with err | text
  · rw [hanswer] at hread
    cases hread
  · rw [hanswer] at hread
    exact hshort path hpath s text digest hanswer (Except.ok.inj hread)

/-- The pass names only what it read, or nothing that was declared. -/
theorem ShortDigests.loggable_of_mediaRun {boot : Handler SysOp SysOp.Ans σ}
    (hshort : ShortDigests boot) {params : BootParams} {s : σ} {outcome : Outcome}
    (hexec : (Program.exec boot (mediaRun params sysroot) s).1 = .ok outcome) :
    Loggable outcome := by
  rw [mediaRun_eq] at hexec
  obtain ⟨verdict, t, hverdict, hexec⟩ := Program.exec_bind_eq_ok hexec
  have hexamined : Examined boot (fun _ => True) params sysroot verdict :=
    examined_of_exec ⟨fun _ => trivial, fun _ => trivial, trivial, fun _ => trivial⟩
      (fun _ _ (_ : True) _ => trivial) trivial (congrArg Prod.fst hverdict)
  cases hexamined with
  | disabled hdevice =>
    cases hexec
    trivial
  | skipped why =>
    cases hexec
    trivial
  | compared device wanted declared hdevice huki hconf hstamp =>
    obtain ⟨_, -, hconf⟩ := hconf
    obtain ⟨_, -, -, hstamp⟩ := hstamp
    have hwanted : Abbreviable wanted := hshort.of_readPallet (.inl rfl) hconf
    unfold Verdict.compare at hexec
    split_ifs at hexec
    · cases hexec
      exact hwanted
    · obtain ⟨_, t, -, hexec⟩ := Program.exec_bind_eq_ok hexec
      cases hexec
      refine ⟨?_, hwanted⟩
      cases declared with
      | none => exact abbreviable_unknown
      | some installed => exact hshort.of_readPallet (.inr rfl) hstamp

/-- A boot that reads only digests that can be abbreviated does not panic. -/
theorem bootEnd_neverPanics (hshort : ShortDigests (system h)) {s : σ} {cmdline : Text}
    {result : Except Stop Unit} (hend : bootEnd h s = .ok (cmdline, result)) :
    result ≠ .error .panic := by
  rintro rfl
  obtain ⟨-, hrun⟩ := readCmdline_of_bootEnd_ok hend
  obtain ⟨u, hpanics⟩ := refresh_panics_of_run hrun
  have hloggable : Loggable
      (decided (Program.exec (system h) (mediaRun (BootParams.parse cmdline) sysroot) u).1) := by
    rcases hmedia : (Program.exec (system h) (mediaRun (BootParams.parse cmdline) sysroot) u).1 with
      (message | _) | outcome
    · trivial
    · trivial
    · exact hshort.loggable_of_mediaRun hmedia
  obtain ⟨outcome, hreturns⟩ := (refresh_returns_iff (system h) _ u).mpr hloggable
  cases hreturns.symm.trans hpanics

end

/-! ## What it performs -/

/-- The operation starts no shell. -/
def NoShell (op : ConsoleOp ⊕ SysOp) : Prop :=
  ∀ shell, op ≠ .inl (.runShell shell)

/-- What the sequence performs are operations of the system. -/
theorem only_lift {α : Type} {P : ConsoleOp ⊕ SysOp → Prop} (hP : ∀ op, P (.inr op))
    (p : Boot α) : (p.lift : PidOne α).Only P := by
  induction p with
  | done a => trivial
  | fail e => trivial
  | call op next ih => exact ⟨hP op, ih⟩

/-- The emergency shell prints and looks for shells. -/
theorem emergencyShell_only {P : ConsoleOp ⊕ SysOp → Prop} (hprint : ∀ line, P (.inl (.print line)))
    (hexists : ∀ path, P (.inl (.exists path))) : emergencyShell.Only P := by
  have hfind (candidates : List Text) : (findShell candidates).Only P := by
    induction candidates with
    | nil => trivial
    | cons candidate rest ih =>
      refine ⟨hexists candidate, fun (present : Bool) => ?_⟩
      cases present with
      | true => trivial
      | false => exact ih
  refine Program.only_bind (Program.only_perform _ (hprint _)) fun _ => ?_
  refine Program.only_bind (Program.only_perform _ (hprint _)) fun _ => ?_
  refine Program.only_bind (hfind shells) fun shell => ?_
  cases shell with
  | some shell => trivial
  | none => trivial

/-- No shell is started before the loop. -/
theorem main_noShell : main.Only NoShell := by
  have hshell : emergencyShell.Only NoShell :=
    emergencyShell_only (fun line shell h => by cases h) fun path shell h => by cases h
  have hboot (op : SysOp) : NoShell (.inr op) := fun shell h => by cases h
  have hprint (message : Text) : (eprintln message).Only NoShell :=
    Program.only_perform _ fun shell h => by cases h
  refine Program.only_bind (Program.only_perform _ fun shell h => by cases h) fun read => ?_
  match read with
  | .error err => exact Program.only_bind (hprint _) fun _ => hshell
  | .ok cmdline =>
    refine Program.only_bind (Program.only_attempt (only_lift hboot _)) fun result => ?_
    match result with
    | .ok () => exact Program.only_bind (hprint _) fun _ => hshell
    | .error (.error message) =>
      refine Program.only_bind (hprint _) fun _ => Program.only_bind (hprint _) fun _ => ?_
      exact Program.only_bind (only_lift hboot _) fun _ => hshell
    | .error .panic => trivial

section

variable {σ : Type} {h : Handler (ConsoleOp ⊕ SysOp) (Sum.elim ConsoleOp.Ans SysOp.Ans) σ}

/-- What stands before a shell begins with everything `main` performed. -/
theorem main_before_shell {s t : σ} {loop : Loop} (hexec : Program.exec h main s = (.ok loop, t))
    {n : ℕ} {before after : List (ConsoleOp ⊕ SysOp)} {shell : Text}
    (hops : pidOne.operations h n s = before ++ .inl (.runShell shell) :: after) :
    ∃ rest after', before = Program.trace h main s ++ rest ∧
      pidOne.performs h n (.done loop) t = rest ++ .inl (.runShell shell) :: after' := by
  have hprefix : pidOne.performs h n main s <+:
      pidOne.performs h (n + (Program.trace h main s).length) main s :=
    Process.performs_prefix n _ main s
  obtain ⟨more, hmore⟩ := hprefix
  have hfirst : Sum.inl (.runShell shell) ∉ Program.trace h main s :=
    fun hmem => main_noShell.of_mem_trace hmem shell rfl
  rw [Nat.add_comm, Process.performs_of_exec hexec] at hmore
  have hall : Program.trace h main s ++ pidOne.performs h n (.done loop) t =
      before ++ .inl (.runShell shell) :: (after ++ more) := by
    rw [← hmore]
    exact (congrArg (· ++ more) hops).trans (List.append_assoc ..)
  obtain ⟨rest, hbefore, hrest⟩ := exists_of_append_eq hall hfirst
  exact ⟨rest, _, hbefore, hrest⟩

/-- While the console is held no shell is started. -/
theorem held_noShell (why : Text) (minutes : UInt64) (n : ℕ) (s : σ) :
    ∀ op ∈ pidOne.performs h n (.done (.held why minutes)) s, NoShell op := by
  have hdone : (.done (.held why minutes) : PidOne Loop).Only NoShell := trivial
  refine Process.forall_mem_performs (K := fun loop => ∃ why minutes, loop = .held why minutes) ?_
    hdone ?_ n s
  · rintro _ ⟨why, minutes, rfl⟩
    have hnoShell (op : ConsoleOp) (hop : ∀ shell, op ≠ .runShell shell) : NoShell (.inl op) :=
      fun shell heq => hop shell (Sum.inl.inj heq)
    refine ⟨hnoShell _ (by simp), fun answer => ⟨?_, fun _ _ loop heq => ?_⟩⟩
    · exact ⟨hnoShell _ (by simp), fun _ => ⟨hnoShell _ (by simp), fun _ => trivial⟩⟩
    · exact ⟨_, _, (Except.ok.inj heq).symm⟩
  · exact fun loop heq => ⟨_, _, (Except.ok.inj heq).symm⟩

/-- In the shell's loop the shell is run again and again. -/
theorem performs_shell (n : ℕ) (shell : Text) (s : σ) :
    pidOne.performs h (n + 1) (.done (.shell shell)) s = .inl (.runShell shell) ::
      pidOne.performs h n (afterShell shell (h (.inl (.runShell shell)) s).1)
        (h (.inl (.runShell shell)) s).2 :=
  rfl

/-- A shell that could be started is followed by a line, a pause, and the loop again. -/
theorem performs_afterShell (n : ℕ) (shell status : Text) (s : σ) : ∃ line t,
    pidOne.performs h n (afterShell shell (.ok status)) s <+:
      Sum.inl (.print line) :: Sum.inl (.sleep 500) ::
        pidOne.performs h n (.done (.shell shell)) t :=
  ⟨_, _, Process.performs_prefix n 2 (afterShell shell (.ok status)) s⟩

/-- In the loop every shell but the first is started after a pause. -/
theorem paced_loop {n : ℕ} {loop : Loop} {s : σ} {before after : List (ConsoleOp ⊕ SysOp)}
    {started : Text} (hops : pidOne.performs h n (.done loop) s =
      before ++ .inl (.runShell started) :: after) :
    before = [] ∨ before.getLast? = some (.inl (.sleep 500)) := by
  have hheld (n : ℕ) (why : Text) (minutes : UInt64) (t : σ)
      (before after : List (ConsoleOp ⊕ SysOp)) :
      pidOne.performs h n (.done (.held why minutes)) t ≠
        before ++ .inl (.runShell started) :: after :=
    fun heq => held_noShell why minutes n t _ (heq ▸ List.mem_append_right _ List.mem_cons_self)
      started rfl
  induction n generalizing loop s before after with
  | zero => cases before <;> cases hops
  | succ n ih =>
    cases loop with
    | held why minutes => exact absurd hops (hheld _ _ _ _ _ _)
    | shell shell =>
      rw [performs_shell] at hops
      cases before with
      | nil => exact .inl rfl
      | cons first before =>
        obtain ⟨-, hrest⟩ := List.cons.inj hops
        refine .inr ?_
        rcases hanswer : h (.inl (.runShell shell)) s with ⟨err | status, t⟩
        · rw [hanswer] at hrest
          exact absurd hrest (hheld n _ _ _ _ _)
        · rw [hanswer] at hrest
          obtain ⟨line, u, more, hmore⟩ := performs_afterShell (h := h) n shell status t
          have hall : Sum.inl (.print line) :: Sum.inl (.sleep 500) ::
              pidOne.performs h n (.done (.shell shell)) u =
                before ++ .inl (.runShell started) :: (after ++ more) := by
            rw [← hmore]
            exact (congrArg (· ++ more) hrest).trans (List.append_assoc ..)
          match before with
          | [] => cases hall
          | [_] => cases hall
          | _ :: second :: before =>
            obtain ⟨-, htail⟩ := List.cons.inj hall
            obtain ⟨rfl, hloop⟩ := List.cons.inj htail
            rw [List.getLast?_cons_cons, List.getLast?_cons_cons]
            rcases ih hloop with rfl | hlast
            · rfl
            · rw [List.getLast?_cons, hlast]
              rfl

end

/-- PID 1 goes on for good. Without a command line it does nothing of the boot; after a boot that
failed it has said why, on the console and to the server, before it starts a shell; and it never
starts a second shell without a pause. -/
structure StaysUp {σ : Type} (h : Handler (ConsoleOp ⊕ SysOp) (Sum.elim ConsoleOp.Ans SysOp.Ans) σ)
    (s : σ) : Prop where
  forever : ∀ n, (pidOne.operations h n s).length = n
  unread : ∀ err, bootEnd h s = .error err → ∀ n op, Sum.inr op ∉ pidOne.operations h n s
  told : ∀ cmdline message, bootEnd h s = .ok (cmdline, .error (.error message)) →
    ∀ n before shell after,
      pidOne.operations h n s = before ++ .inl (.runShell shell) :: after →
        Sum.inl (.print ("stormnetboot-init: ".toList ++ message)) ∈ before ∧
          Sum.inl (.print ("stormnetboot-init: ".toList ++
            ("cmdline was: ".toList ++ cmdline))) ∈ before ∧
          Sum.inr (.report "failed".toList (some message)) ∈ before
  paced : ∀ n before shell after,
    pidOne.operations h n s = before ++ .inl (.runShell shell) :: after →
      (∃ other, Sum.inl (.runShell other) ∈ before) →
        before.getLast? = some (Sum.inl (.sleep 500))

section

variable {σ : Type} {h : Handler (ConsoleOp ⊕ SysOp) (Sum.elim ConsoleOp.Ans SysOp.Ans) σ} {s : σ}

/-- Without a command line nothing is done to the system. -/
theorem operations_unread {err : Text} (hend : bootEnd h s = .error err) (n : ℕ) (op : SysOp) :
    Sum.inr op ∉ pidOne.operations h n s := by
  have hread := readCmdline_of_bootEnd_error hend
  have hconsole (op : ConsoleOp) : ∀ boot, Sum.inl op ≠ (Sum.inr boot : ConsoleOp ⊕ SysOp) :=
    fun _ heq => nomatch heq
  have hshell : (bootWith (.error err)).Only fun op => ∀ boot, op ≠ Sum.inr boot :=
    Program.only_bind (Program.only_perform _ (hconsole _)) fun _ =>
      emergencyShell_only (fun _ => hconsole _) fun _ => hconsole _
  have hturn (loop : Loop) (_ : True) : (∀ boot, (pidOne.turn loop).1 ≠ Sum.inr boot) ∧
      ∀ answer, ((pidOne.turn loop).2 answer).Only (fun op => ∀ boot, op ≠ Sum.inr boot) ∧
        ((pidOne.turn loop).2 answer).Ends fun r => ∀ next, r = .ok next → True := by
    cases loop with
    | shell shell =>
      refine ⟨hconsole _, fun answer => ⟨?_, (Program.ends_true _).mono fun _ _ _ _ => trivial⟩⟩
      cases answer with
      | ok status =>
        exact Program.only_bind (Program.only_perform _ (hconsole _)) fun _ =>
          Program.only_bind (Program.only_perform _ (hconsole _)) fun _ => trivial
      | error err => trivial
    | held why minutes =>
      refine ⟨hconsole _, fun answer => ⟨?_, (Program.ends_true _).mono fun _ _ _ _ => trivial⟩⟩
      exact Program.only_bind (Program.only_perform _ (hconsole _)) fun _ =>
        Program.only_bind (Program.only_perform _ (hconsole _)) fun _ => trivial
  have hends : (bootWith (.error err)).Ends fun r => ∀ next, r = .ok next → True :=
    (Program.ends_true _).mono fun _ _ _ _ => trivial
  cases n with
  | zero => exact List.not_mem_nil
  | succ n =>
    have hops : pidOne.operations h (n + 1) s = .inl .readCmdline ::
        pidOne.performs h n (bootWith (.error err)) (h (.inl .readCmdline) s).2 := by
      rw [← hread]
      rfl
    rw [hops, List.mem_cons, not_or]
    refine ⟨fun heq => (nomatch heq), fun hmem => ?_⟩
    exact Process.forall_mem_performs hturn hshell hends n _ _ hmem op rfl

/-- What `main` performs after a boot that failed. -/
theorem mem_trace_main {cmdline message : Text}
    (hend : bootEnd h s = .ok (cmdline, .error (.error message))) {op : ConsoleOp ⊕ SysOp}
    (hop : op ∈ Program.trace h (conclude cmdline (.error (.error message)))
      (Program.exec (system h) (run (BootParams.parse cmdline)) (h (.inl .readCmdline) s).2).2) :
    op ∈ Program.trace h main s := by
  obtain ⟨hread, hrun⟩ := readCmdline_of_bootEnd_ok hend
  have htrace : Program.trace h main s = .inl .readCmdline ::
      Program.trace h (bootWith (.ok cmdline)) (h (.inl .readCmdline) s).2 := by
    rw [← hread]
    rfl
  rw [htrace, bootWith]
  refine List.mem_cons_of_mem _ ((Program.mem_trace_bind_iff ..).mpr (.inr ⟨_, _, ?_, hop⟩))
  rw [Program.exec_attempt, exec_lift, hrun]

/-- PID 1 stays up on every system whose digests can be abbreviated, whatever else it answers. -/
theorem staysUp_of_shortDigests (hshort : ShortDigests (system h)) (s : σ) : StaysUp h s := by
  obtain ⟨loop, hloop⟩ := exec_main_ok h fun _ _ hend => bootEnd_neverPanics h hshort hend
  have hexec : Program.exec h main s = (.ok loop, (Program.exec h main s).2) := Prod.ext hloop rfl
  refine ⟨(Process.goesOn_iff pidOne_lasts main s).mpr ⟨loop, hloop⟩,
    fun _ hend => operations_unread hend, fun cmdline message hend n before shell after hops => ?_,
    fun n before shell after hops => ?_⟩
  · obtain ⟨rest, _, rfl, -⟩ := main_before_shell hexec hops
    refine ⟨List.mem_append_left _ (mem_trace_main hend ?_),
      List.mem_append_left _ (mem_trace_main hend ?_),
      List.mem_append_left _ (mem_trace_main hend ?_)⟩
    · exact List.mem_cons_self
    · exact List.mem_cons_of_mem _ List.mem_cons_self
    · exact List.mem_cons_of_mem _ (List.mem_cons_of_mem _ List.mem_cons_self)
  · rintro ⟨other, hother⟩
    obtain ⟨rest, _, rfl, hrest⟩ := main_before_shell hexec hops
    rcases paced_loop hrest with rfl | hlast
    · rw [List.append_nil] at hother
      exact absurd rfl (main_noShell.of_mem_trace hother other)
    · rw [List.getLast?_append, hlast]
      rfl

end

/-- The kernel command line of a node that boots from a slab and has a medium to refresh. -/
def benchCmdline : Text :=
  ("rd.stormblock.slab=/dev/sda rd.stormnetboot.media=/dev/sdb1 storm.mac=aa-bb-cc-dd-ee-01 " ++
    "storm.report=http://10.0.0.5:8080").toList

/-- A node on which PID 1 is kept busy: every step of the boot goes well, the refresh of a medium
that holds an older pallet among them, until the exec of the init fails, and then every shell is
left at once. -/
def bench : Handler (ConsoleOp ⊕ SysOp) (Sum.elim ConsoleOp.Ans SysOp.Ans) Unit
  | .inl .readCmdline, _ => (.ok benchCmdline, ())
  | .inl (.print _), _ => ((), ())
  | .inl (.exists _), _ => (true, ())
  | .inl (.runShell _), _ => (.ok "exit status: 0".toList, ())
  | .inl (.writeKmsg _), _ => ((), ())
  | .inl (.sleep _), _ => ((), ())
  | .inr op, s =>
    obliging (some "pallet=sha256:b\n".toList) (some "pallet=sha256:a\n".toList) op s

-- The boot is local, reports to the server and gets to the medium.
example : (BootParams.parse benchCmdline).slabs = ["/dev/sda".toList] ∧
    (BootParams.parse benchCmdline).mediaDev = some "/dev/sdb1".toList ∧
    (BootParams.parse benchCmdline).reportUrl = some "http://10.0.0.5:8080".toList := by
  decide

/-- PID 1 stays up there. -/
theorem staysUp_bench : StaysUp bench () := by
  refine staysUp_of_shortDigests (fun path hpath _ text digest hread hdigest => ?_) ()
  rcases hpath with rfl | rfl
  · cases hread
    cases hdigest
    exact fun hlong => absurd hlong (by decide)
  · cases hread
    cases hdigest
    exact fun hlong => absurd hlong (by decide)

end Stormnetboot.Init

import Stormnetboot.Common.Ends
import Stormnetboot.Init.Media
import Mathlib.Tactic.SplitIfs

/-!
# What the media pass decides, and what it does about it

The pass up to its comparison reads and mounts, and writes to no file of the media; what it comes
to is a verdict, and an install only follows a verdict to rewrite. A verdict on compared digests
says what was answered on the way to it. Which operations each part can perform at all is stated
here once, for any kind of operations that has them.
-/

namespace Stormnetboot.Init

open Stormnetboot.Common

/-- What the pass comes to before it writes to the media. -/
inductive Verdict where
  | settled (outcome : Outcome)
  | rewrite (device wanted installed : Text)

/-- The verdict on two digests. -/
def Verdict.compare (device wanted installed : Text) : Verdict :=
  if installed = wanted then .settled (.current wanted) else .rewrite device wanted installed

/-- The pass up to its comparison. -/
def examine (params : BootParams) (sysroot : Text) : Boot Verdict :=
  match params.mediaDev with
  | none => .done (.settled .disabled)
  | some device => do
    let payload := joinPath sysroot payloadDir
    let noPayload := Outcome.skipped ("golden carries no ".toList ++ payloadDir ++ " payload".toList)
    if !(← pathExists (joinPath payload payloadUki)) then .done (.settled noPayload)
    else if !(← pathExists (joinPath payload payloadConf)) then .done (.settled noPayload)
    else
      match ← readPallet (joinPath payload payloadConf) with
      | none => bail (payloadDir ++ "/".toList ++ payloadConf ++ " names no pallet digest".toList)
      | some wanted =>
        createDirAllOk espMount
        if !(← mountVfat device espMount) then
          .done (.settled (.skipped
            ("could not mount ".toList ++ device ++ " as vfat on ".toList ++ espMount)))
        else if !(← pathExists stampPath) then
          .done (.settled (.skipped (device ++ " carries no ".toList ++ espConf ++
            "; not stormnetboot media, refusing to write".toList)))
        else
          let installed := (← readPallet stampPath).getD "unknown".toList
          .done (.compare device wanted installed)

/-- What is done about a verdict. -/
def carryOut (sysroot : Text) : Verdict → Boot Outcome
  | .settled outcome => .done outcome
  | .rewrite device wanted installed => do
    withContext ("rewriting ".toList ++ espUki ++ " on ".toList ++ device ++ " failed".toList)
      (install (joinPath (joinPath sysroot payloadDir) payloadUki) wanted)
    .done (.updated installed wanted)

/-- The pass is the one after the other. -/
theorem mediaRun_eq (params : BootParams) (sysroot : Text) :
    mediaRun params sysroot = examine params sysroot >>= carryOut sysroot := by
  unfold mediaRun examine
  cases params.mediaDev with
  | none => rfl
  | some device =>
    refine Program.bind_eq_bind_bind _ fun hasUki => ?_
    split_ifs
    · rfl
    refine Program.bind_eq_bind_bind _ fun hasConf => ?_
    split_ifs
    · rfl
    refine Program.bind_eq_bind_bind _ fun declared => ?_
    cases declared with
    | none => rfl
    | some wanted =>
      refine Program.bind_eq_bind_bind _ fun _ => ?_
      refine Program.bind_eq_bind_bind _ fun mounted => ?_
      split_ifs
      · rfl
      refine Program.bind_eq_bind_bind _ fun hasStamp => ?_
      split_ifs
      · rfl
      refine Program.bind_eq_bind_bind _ fun installed => ?_
      rw [Program.bind_done, Verdict.compare]
      simp only
      split_ifs <;> rfl

/-! ## Which operations it can perform -/

/-- Operations among which are those of an examination. -/
structure Examining (P : SysOp → Prop) : Prop where
  pathExists : ∀ path, P (.pathExists path)
  readFile : ∀ path, P (.readFile path)
  mountPoint : P (.createDirAll espMount)
  mount : ∀ device, P (.command (words ["/bin/mount", "-t", "vfat"] ++ [device, espMount]) [])

section Only

variable {P : SysOp → Prop}

/-- Reading a digest reads one file. -/
theorem readPallet_only {path : Text} (hread : P (.readFile path)) : (readPallet path).Only P := by
  refine Program.only_bind (Program.only_perform _ hread) fun answer => ?_
  cases answer with
  | ok text => trivial
  | error err => trivial

/-- Making the mount point is part of an examination. -/
theorem Examining.createEspMount (h : Examining P) : (createDirAllOk espMount).Only P :=
  Program.only_bind (Program.only_perform _ h.mountPoint) fun _ => trivial

/-- So is mounting the media. -/
theorem Examining.mountVfat (h : Examining P) (device : Text) :
    (mountVfat device espMount).Only P :=
  Program.only_bind (Program.only_perform _ (h.mount device)) fun _ => trivial

/-- So is everything up to the verdict. -/
theorem Examining.examine (h : Examining P) (params : BootParams) (sysroot : Text) :
    (examine params sysroot).Only P := by
  unfold Init.examine
  cases params.mediaDev with
  | none => trivial
  | some device =>
    refine Program.only_bind (Program.only_perform _ (h.pathExists _)) fun hasUki => ?_
    split_ifs
    · trivial
    refine Program.only_bind (Program.only_perform _ (h.pathExists _)) fun hasConf => ?_
    split_ifs
    · trivial
    refine Program.only_bind (readPallet_only (h.readFile _)) fun declared => ?_
    cases declared with
    | none => trivial
    | some wanted =>
      refine Program.only_bind h.createEspMount fun _ => ?_
      refine Program.only_bind (h.mountVfat device) fun mounted => ?_
      split_ifs
      · trivial
      refine Program.only_bind (Program.only_perform _ (h.pathExists _)) fun hasStamp => ?_
      split_ifs
      · trivial
      exact Program.only_bind (readPallet_only (h.readFile _)) fun installed => trivial

/-- Abbreviating performs nothing. -/
theorem short_only (digest : Text) : (short digest).Only P := by
  unfold short
  extract_lets bare
  split_ifs
  · cases takeBytes 12 bare with
    | some head => trivial
    | none => trivial
  · trivial

/-- All that the pass does about its outcome is to unmount, to log and to report. -/
theorem concludeRefresh_only (humount : P (.command ["/bin/umount".toList, espMount] []))
    (hstamp : ∀ message, P (.stamp message))
    (hreport : ∀ detail, P (.report "media-updated".toList detail)) (outcome : Outcome) :
    (concludeRefresh outcome).Only P := by
  have hlog : ∀ message : Text, (stamp message).Only P :=
    fun message => Program.only_perform _ (hstamp message)
  refine Program.only_bind (Program.only_perform _ humount) fun _ => ?_
  cases outcome with
  | disabled => trivial
  | current digest =>
    exact Program.only_bind (short_only _) fun _ => Program.only_bind (hlog _) fun _ => trivial
  | updated fromDigest toDigest =>
    refine Program.only_bind (short_only _) fun _ => Program.only_bind (short_only _) fun _ =>
      Program.only_bind (hlog _) fun _ => ?_
    exact Program.only_bind (short_only _) fun _ => Program.only_bind (short_only _) fun _ =>
      Program.only_bind (Program.only_perform _ (hreport _)) fun _ => trivial
  | skipped why => exact Program.only_bind (hlog _) fun _ => trivial

end Only

/-! ## What a verdict tells -/

/-- What has been answered when the pass comes to a verdict, in states with some property. -/
inductive Examined {σ : Type} (h : Handler SysOp SysOp.Ans σ) (inv : σ → Prop)
    (params : BootParams) (sysroot : Text) : Verdict → Prop where
  | disabled (hdevice : params.mediaDev = none) : Examined h inv params sysroot (.settled .disabled)
  | skipped (why : Text) : Examined h inv params sysroot (.settled (.skipped why))
  | compared (device wanted : Text) (declared : Option Text)
    (hdevice : params.mediaDev = some device)
    (huki : ∃ s, inv s ∧
      (h (.pathExists (joinPath (joinPath sysroot payloadDir) payloadUki)) s).1 = true)
    (hconf : ∃ s, inv s ∧
      (Program.exec h (readPallet (joinPath (joinPath sysroot payloadDir) payloadConf)) s).1 =
        .ok (some wanted))
    (hstamp : ∃ s, inv s ∧ (h (.pathExists stampPath) s).1 = true ∧
      (Program.exec h (readPallet stampPath) (h (.pathExists stampPath) s).2).1 = .ok declared) :
    Examined h inv params sysroot (.compare device wanted (declared.getD "unknown".toList))

/-- A verdict was come to by these answers, in states that have what an examination keeps. -/
theorem examined_of_exec {σ : Type} {h : Handler SysOp SysOp.Ans σ} {P : SysOp → Prop}
    (hops : Examining P) {inv : σ → Prop} (hkeeps : ∀ op s, P op → inv s → inv (h op s).2)
    {params : BootParams} {sysroot : Text} {s : σ} (hs : inv s) {verdict : Verdict}
    (hexec : (Program.exec h (examine params sysroot) s).1 = .ok verdict) :
    Examined h inv params sysroot verdict := by
  have hpath : ∀ path, (pathExists path).Only P :=
    fun path => Program.only_perform _ (hops.pathExists path)
  have hyes : ∀ answer : Bool, ¬(!answer) = true → answer = true := by decide
  unfold examine at hexec
  cases hdevice : params.mediaDev with
  | none =>
    rw [hdevice] at hexec
    cases hexec
    exact .disabled hdevice
  | some device =>
    rw [hdevice] at hexec
    obtain ⟨hasUki, afterUki, huki, hafterUki, hexec⟩ := (hpath _).exec_bind_keeps hkeeps hs hexec
    split_ifs at hexec with hnoUki
    · cases hexec
      exact .skipped _
    obtain ⟨hasConf, afterConf, -, hafterConf, hexec⟩ :=
      (hpath _).exec_bind_keeps hkeeps hafterUki hexec
    split_ifs at hexec
    · cases hexec
      exact .skipped _
    obtain ⟨declared, afterRead, hdeclared, hafterRead, hexec⟩ :=
      (readPallet_only (hops.readFile _)).exec_bind_keeps hkeeps hafterConf hexec
    cases declared with
    | none => cases hexec
    | some wanted =>
      obtain ⟨_, created, -, hcreated, hexec⟩ :=
        hops.createEspMount.exec_bind_keeps hkeeps hafterRead hexec
      obtain ⟨mounted, afterMount, -, hafterMount, hexec⟩ :=
        (hops.mountVfat device).exec_bind_keeps hkeeps hcreated hexec
      split_ifs at hexec
      · cases hexec
        exact .skipped _
      obtain ⟨hasStamp, afterStamp, hstamp, hafterStamp, hexec⟩ :=
        (hpath _).exec_bind_keeps hkeeps hafterMount hexec
      split_ifs at hexec with hnoStamp
      · cases hexec
        exact .skipped _
      obtain ⟨installed, afterInstalled, hinstalled, -, hexec⟩ :=
        (readPallet_only (hops.readFile _)).exec_bind_keeps hkeeps hafterStamp hexec
      cases hexec
      cases hstamp
      cases huki
      refine .compared device wanted installed hdevice ⟨_, hs, hyes _ hnoUki⟩
        ⟨_, hafterConf, by rw [hdeclared]⟩ ⟨_, hafterMount, hyes _ hnoStamp, by rw [hinstalled]⟩

end Stormnetboot.Init

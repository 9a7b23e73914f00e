import Stormnetboot.Common.CrashTriple
import Stormnetboot.Common.Fstab
import Stormnetboot.Init.BootStages
import Stormnetboot.Init.MediaReturns
import Stormnetboot.Init.MediaVerdict
import Stormnetboot.Init.StepEnds
import Stormnetboot.Init.VolumeNames

/-!
# What the new root is handed

Before it hands over, the initramfs writes a few files into the mounted root: entries of its fstab
for the volumes that systemd is to mount, the node's name and role, and the resolver. Every step of
it may fail and none of that is fatal, so the files are what the steps that went through make of
them. The fstab is read as it was read before and the volumes that appeared, each with the device the
engine exports it on; and no other file of the new root is touched.
-/

namespace Stormnetboot.Init

open Stormnetboot.Common

/-- The files that can be seen, by path. -/
abbrev Files := Text → Option Text

/-- A command whose last word lies in the new root may show other files there. -/
def onNewRoot (argv : List Text) : Bool :=
  argv.getLast?.any sysroot.isPrefixOf

/-- What a system answers, what a write that fails leaves of its file, and what is seen after a
command: of the new root, what was seen before, where the command is on another place. The steps
ask for nothing twice, so that an answer depends on the operation alone. -/
structure Circumstances where
  answer : (op : SysOp) → SysOp.Ans op
  torn : SysOp → Files → Option Text
  ran : List Text → Files → Files
  ran_elsewhere : ∀ argv files path, onNewRoot argv = false → sysroot <+: path →
    ran argv files path = files path

namespace Circumstances

variable (env : Circumstances)

/-- What an operation leaves. -/
def effect (op : SysOp) (files : Files) : Files :=
  match op with
  | .writeFile path content =>
    let written : Except Text Unit := env.answer (.writeFile path content)
    Function.update files path (if written.isOk then some content else env.torn op files)
  | .appendLine path line =>
    match (env.answer (.appendLine path line) : AppendResult) with
    | .appended => Function.update files path (some ((files path).getD [] ++ line ++ "\n".toList))
    | .notWritten _ => Function.update files path (env.torn op files)
    | .notOpened _ => files
  | .copyFile source target =>
    let copied : Except Text Unit := env.answer (.copyFile source target)
    Function.update files target (if copied.isOk then files source else env.torn op files)
  | .rename source target =>
    let renamed : Except Text Unit := env.answer (.rename source target)
    if renamed.isOk then Function.update (Function.update files source none) target (files source)
    else files
  | .command argv _ => env.ran argv files
  | _ => files

/-- The system under these circumstances, with the files as its state. -/
def handle : Handler SysOp SysOp.Ans Files :=
  fun op files => (env.answer op, env.effect op files)

/-- The device appears in time. -/
def appears (device : Text) : Bool :=
  env.answer (.waitFor device 15)

/-- The initramfs has a resolver configuration. -/
def resolves : Bool :=
  env.answer (.pathExists "/etc/resolv.conf".toList)

end Circumstances

/-! ## The files -/

/-- The new root's fstab. -/
def fstabPath : Text := sysroot ++ "/etc/fstab".toList

/-- Its hostname. -/
def hostnamePath : Text := sysroot ++ "/etc/hostname".toList

/-- The role it goes by. -/
def rolePath : Text := sysroot ++ "/etc/storm".toList ++ "/role".toList

/-- Its resolver configuration. -/
def resolvPath : Text := sysroot ++ "/etc/resolv.conf".toList

/-- The entries the plan wants in the fstab. -/
def ExportPlan.fstabEntries (plan : ExportPlan) : List FstabEntry :=
  (plan.fstabWritable.map fun e =>
    ⟨e.1, e.2, "xfs".toList, "defaults,x-systemd.makefs,x-systemd.growfs,nofail".toList⟩) ++
  (plan.imageStore.map fun e => ⟨e.1, e.2, "erofs".toList, "ro,nofail".toList⟩).toList

namespace Circumstances

variable (env : Circumstances)

/-- The entry is written whole, or not at all. -/
def Clean (entry : FstabEntry) : Prop :=
  ∀ err, env.answer (.appendLine fstabPath entry.text) ≠ AppendResult.notWritten err

/-- The volume appears and its entry is written. -/
def enters (entry : FstabEntry) : Bool :=
  env.appears entry.device &&
    match (env.answer (.appendLine fstabPath entry.text) : AppendResult) with
    | .appended => true
    | _ => false

/-- The entries that are written. -/
def entered (plan : ExportPlan) : List FstabEntry :=
  plan.fstabEntries.filter env.enters

/-- One entry. -/
def addEntry (files : Files) (entry : FstabEntry) : Files :=
  if env.appears entry.device then env.effect (.appendLine fstabPath entry.text) files else files

end Circumstances

section Exec

variable (env : Circumstances)

/-- Where every answer goes on in the same way, only the effect of the operation is left. -/
theorem exec_perform_bind {op : SysOp} {f : SysOp.Ans op → Boot Unit} {p : Boot Unit}
    (h : ∀ answer files, Program.exec env.handle (f answer) files =
      Program.exec env.handle p files) (files : Files) :
    Program.exec env.handle (Program.perform op >>= f) files =
      Program.exec env.handle p (env.effect op files) :=
  h _ _

/-- Appending a line goes on whatever comes of it. -/
theorem exec_appendFstab (line : Text) (files : Files) :
    Program.exec env.handle (appendFstab line) files =
      (.ok (), env.effect (.appendLine fstabPath line) files) := by
  unfold appendFstab
  dsimp only
  refine (exec_perform_bind env (p := .done ()) (fun answer after => ?_) files).trans rfl
  cases (answer : AppendResult) <;> rfl

/-- Waiting for a device changes no file. -/
theorem exec_waitForBlock (dev : Text) (files : Files) :
    Program.exec env.handle (waitForBlock dev) files = (.ok (env.appears dev), files) := rfl

/-- A planned writable is entered if its device appears. -/
theorem exec_applyWritable (dev mnt : Text) (files : Files) :
    Program.exec env.handle (applyWritable dev mnt) files =
      (.ok (), env.addEntry files
        ⟨dev, mnt, "xfs".toList, "defaults,x-systemd.makefs,x-systemd.growfs,nofail".toList⟩) := by
  have hline : dev ++ " ".toList ++ mnt ++
      " xfs defaults,x-systemd.makefs,x-systemd.growfs,nofail 0 0".toList = FstabEntry.text
        ⟨dev, mnt, "xfs".toList, "defaults,x-systemd.makefs,x-systemd.growfs,nofail".toList⟩ := by
    simp only [FstabEntry.text, List.append_assoc]
    rfl
  unfold applyWritable Circumstances.addEntry
  rw [hline, Program.exec_bind, exec_waitForBlock]
  simp only
  split_ifs
  · rw [Program.exec_bind, exec_appendFstab]
    rfl
  · rfl

/-- The image store is entered if its device appears. -/
theorem exec_applyImageStore (dev mnt : Text) (files : Files) :
    Program.exec env.handle (applyImageStore dev mnt) files =
      (.ok (), env.addEntry files ⟨dev, mnt, "erofs".toList, "ro,nofail".toList⟩) := by
  have hline : dev ++ " ".toList ++ mnt ++ " erofs ro,nofail 0 0".toList =
      FstabEntry.text ⟨dev, mnt, "erofs".toList, "ro,nofail".toList⟩ := by
    simp only [FstabEntry.text, List.append_assoc]
    rfl
  have hdir : ∀ path, Program.exec env.handle (createDirAllOk path) files = (.ok (), files) :=
    fun _ => rfl
  unfold applyImageStore Circumstances.addEntry
  rw [hline, Program.exec_bind, exec_waitForBlock]
  simp only
  split_ifs
  · rw [Program.exec_bind, hdir]
    simp only
    rw [Program.exec_bind, exec_appendFstab]
    rfl
  · rfl

/-- What is seen of the new root once its other volumes are mounted. -/
def Circumstances.afterMounts (plan : ExportPlan) (files : Files) : Files :=
  (Program.exec env.handle
    (Program.forEach plan.mountMap fun (dev, mnt) => applyMount dev mnt) files).2

/-- The writables are entered in their order. -/
theorem exec_forEach_writable (entries : List (Text × Text)) (files : Files) :
    Program.exec env.handle
        (Program.forEach entries fun (dev, mnt) => applyWritable dev mnt) files =
      (.ok (), (entries.map fun e => (⟨e.1, e.2, "xfs".toList,
        "defaults,x-systemd.makefs,x-systemd.growfs,nofail".toList⟩ : FstabEntry)).foldl
          env.addEntry files) := by
  induction entries generalizing files with
  | nil => rfl
  | cons entry rest ih =>
    obtain ⟨dev, mnt⟩ := entry
    refine (Program.exec_bind env.handle (applyWritable dev mnt) _ files).trans ?_
    rw [exec_applyWritable]
    exact ih _

/-- The entries of the plan are added, one after the other. -/
theorem exec_applyExports (plan : ExportPlan) (files : Files) :
    Program.exec env.handle (applyExports plan) files =
      (.ok (), plan.fstabEntries.foldl env.addEntry (env.afterMounts plan files)) := by
  obtain ⟨a, hmounts⟩ := (forEach_succeeds plan.mountMap fun e =>
    applyMount_succeeds e.1 e.2).exec env.handle files
  change Program.exec env.handle (Program.forEach plan.mountMap fun e => applyMount e.1 e.2) files =
    (.ok a, env.afterMounts plan files) at hmounts
  refine (Program.exec_bind env.handle
    (Program.forEach plan.mountMap fun e => applyMount e.1 e.2) _ files).trans ?_
  rw [hmounts]
  simp only
  refine (Program.exec_bind env.handle
    (Program.forEach plan.fstabWritable fun e => applyWritable e.1 e.2) _ _).trans ?_
  rw [exec_forEach_writable, ExportPlan.fstabEntries, List.foldl_append]
  simp only
  cases plan.imageStore with
  | none => rfl
  | some e => exact exec_applyImageStore env e.1 e.2 _

/-- What is written of a setting, where there is one. -/
def Circumstances.writeSetting (target : Text) (setting : Option Text) (files : Files) : Files :=
  setting.elim files fun value => env.effect (.writeFile target (value ++ "\n".toList)) files

/-- What the identity leaves: the node's name, its role and the resolver, as far as it has them. -/
def Circumstances.afterIdentity (params : BootParams) (files : Files) : Files :=
  let cast := env.writeSetting rolePath params.role
    (env.writeSetting hostnamePath params.hostname files)
  if env.resolves then env.effect (.copyFile "/etc/resolv.conf".toList resolvPath) cast else cast

/-- The identity is written setting by setting. -/
theorem exec_writeIdentity (params : BootParams) (files : Files) :
    Program.exec env.handle (writeIdentity params) files =
      (.ok (), env.afterIdentity params files) := by
  unfold writeIdentity
  extract_lets copyResolver dir writeRole path
  have hcopy : ∀ r cast, Program.exec env.handle (copyResolver r) cast = (.ok (),
      if env.resolves then
        env.effect (.copyFile "/etc/resolv.conf".toList resolvPath) cast
      else cast) := by
    intro r cast
    have hexists : Program.exec env.handle (pathExists "/etc/resolv.conf".toList) cast =
      (.ok env.resolves, cast) := rfl
    unfold copyResolver
    rw [Program.exec_bind, hexists]
    simp only
    split_ifs <;> rfl
  have hrole : ∀ r named, Program.exec env.handle (writeRole r) named =
      Program.exec env.handle (copyResolver ()) (env.writeSetting rolePath params.role named) := by
    intro r named
    unfold writeRole
    cases params.role with
    | none => rfl
    | some role =>
      have hdir : Program.exec env.handle (createDirAllOk dir) named = (.ok (), named) := rfl
      refine (Program.exec_bind env.handle (createDirAllOk dir) _ named).trans ?_
      rw [hdir]
      refine exec_perform_bind env (fun answer after => ?_) named
      cases (answer : Except Text Unit) <;> rfl
  unfold Circumstances.afterIdentity
  cases params.hostname with
  | none => exact (hrole () files).trans (hcopy () _)
  | some hostname =>
    refine (exec_perform_bind env (fun answer after => ?_) files).trans
      ((hrole () _).trans (hcopy () _))
    cases (answer : Except Text Unit) <;> rfl

/-- An append changes no other file. -/
theorem effect_appendLine_of_ne {target path : Text} (h : path ≠ target) (line : Text)
    (files : Files) : env.effect (.appendLine target line) files path = files path := by
  simp only [Circumstances.effect]
  cases (env.answer (.appendLine target line) : AppendResult) with
  | appended => exact Function.update_of_ne h ..
  | notWritten err => exact Function.update_of_ne h ..
  | notOpened err => rfl

/-- What of the fstab's entries is written. -/
theorem fstab_foldl_addEntry {entries : List FstabEntry} (hclean : ∀ entry ∈ entries, env.Clean entry)
    (files : Files) :
    ((entries.foldl env.addEntry files) fstabPath).getD [] = (files fstabPath).getD [] ++
      (entries.filter env.enters).flatMap fun entry => entry.text ++ "\n".toList := by
  induction entries generalizing files with
  | nil => exact (List.append_nil _).symm
  | cons entry rest ih =>
    have hentry : ((env.addEntry files entry) fstabPath).getD [] =
        (files fstabPath).getD [] ++ if env.enters entry then entry.text ++ "\n".toList else [] := by
      have hfirst := hclean entry List.mem_cons_self
      unfold Circumstances.addEntry Circumstances.enters
      cases env.appears entry.device with
      | false => exact (List.append_nil _).symm
      | true =>
        unfold Circumstances.Clean at hfirst
        simp only [if_true, Bool.true_and, Circumstances.effect]
        cases hanswer : (env.answer (.appendLine fstabPath entry.text) : AppendResult) with
        | appended => simp
        | notWritten err => exact absurd hanswer (hfirst err)
        | notOpened err => simp
    rw [List.foldl_cons, ih (fun other hother => hclean other (List.mem_cons_of_mem _ hother)), hentry,
      List.append_assoc, List.filter_cons]
    split_ifs <;> rfl

/-- Nothing else is. -/
theorem foldl_addEntry_of_ne (entries : List FstabEntry) (files : Files) {path : Text}
    (hpath : path ≠ fstabPath) : (entries.foldl env.addEntry files) path = files path := by
  induction entries generalizing files with
  | nil => rfl
  | cons entry rest ih =>
    rw [List.foldl_cons, ih, Circumstances.addEntry]
    split_ifs
    · exact effect_appendLine_of_ne env hpath entry.text files
    · rfl

/-! ## The settings -/

/-- A setting is written to its own file. -/
theorem writeSetting_of_ne {target path : Text} (h : path ≠ target) (setting : Option Text)
    (files : Files) : env.writeSetting target setting files path = files path := by
  cases setting with
  | none => rfl
  | some value => exact Function.update_of_ne h ..

/-- A setting whose write is answered well is in its file, on a line of its own. -/
theorem writeSetting_of_ok {target value : Text}
    (h : env.answer (.writeFile target (value ++ "\n".toList)) = Except.ok ()) (files : Files) :
    env.writeSetting target (some value) files target = some (value ++ "\n".toList) := by
  simp only [Circumstances.writeSetting, Option.elim, Circumstances.effect, h]
  exact Function.update_self ..

/-- Beside the resolver configuration only the two settings are written. -/
theorem afterIdentity_of_ne (params : BootParams) (files : Files) {path : Text}
    (h : path ≠ resolvPath) : env.afterIdentity params files path =
      env.writeSetting rolePath params.role
        (env.writeSetting hostnamePath params.hostname files) path := by
  unfold Circumstances.afterIdentity
  split_ifs
  · exact Function.update_of_ne h ..
  · rfl

/-- A copy that is answered well gives the new root the resolver of the old. -/
theorem afterIdentity_resolvPath_of_ok (params : BootParams) (files : Files)
    (hresolves : env.resolves = true)
    (h : env.answer (.copyFile "/etc/resolv.conf".toList resolvPath) = Except.ok ()) :
    env.afterIdentity params files resolvPath = files "/etc/resolv.conf".toList := by
  unfold Circumstances.afterIdentity
  simp only [hresolves, if_true, Circumstances.effect, h]
  refine (Function.update_self ..).trans ?_
  refine (writeSetting_of_ne env (by decide) _ _).trans ?_
  exact writeSetting_of_ne env (by decide) _ _

/-! ## What follows -/

/-- An operation that touches no file of the new root. -/
def SparesRoot : SysOp → Prop
  | .writeFile path _ => ¬sysroot <+: path
  | .appendLine path _ => ¬sysroot <+: path
  | .copyFile _ target => ¬sysroot <+: target
  | .rename source target => ¬sysroot <+: source ∧ ¬sysroot <+: target
  | .command argv _ => onNewRoot argv = false
  | _ => True

/-- What spares the root leaves its files. -/
theorem effect_of_sparesRoot {op : SysOp} (hop : SparesRoot op) (files : Files) {path : Text}
    (hpath : sysroot <+: path) : env.effect op files path = files path := by
  have hother : ∀ target, ¬sysroot <+: target → path ≠ target :=
    fun target hnot heq => hnot (heq ▸ hpath)
  cases op with
  | writeFile target content => exact Function.update_of_ne (hother _ hop) ..
  | appendLine target line => exact effect_appendLine_of_ne env (hother _ hop) line files
  | copyFile source target => exact Function.update_of_ne (hother _ hop) ..
  | rename source target =>
    simp only [Circumstances.effect]
    split_ifs
    · rw [Function.update_of_ne (hother _ hop.2), Function.update_of_ne (hother _ hop.1)]
    · rfl
  | command argv _ => exact env.ran_elsewhere argv files path hop hpath
  | _ => rfl

/-- An install spares the root. -/
theorem install_sparesRoot (payloadUkiPath wanted : Text) :
    (install payloadUkiPath wanted).Only SparesRoot := by
  have hraise : ∀ answer : Except Text Unit, (orFail answer : Boot Unit).Only SparesRoot := by
    intro answer
    cases answer with
    | ok r => trivial
    | error err => trivial
  have hchecked : ∀ (op : SysOp) (f : SysOp.Ans op → Boot Unit) (next : Unit → Boot Unit),
      SparesRoot op → (∀ answer, (f answer).Only SparesRoot) → (∀ r, (next r).Only SparesRoot) →
        (Program.perform op >>= fun answer => f answer >>= next).Only SparesRoot :=
    fun op f next hop hf hnext =>
      Program.only_bind (Program.only_perform op hop) fun answer => Program.only_bind (hf answer) hnext
  refine hchecked _ _ _ trivial hraise fun _ => ?_
  refine hchecked _ _ _ trivial hraise fun _ => ?_
  refine hchecked _ _ _ (by decide : ¬sysroot <+: stagedUkiPath) hraise fun _ => ?_
  refine hchecked _ _ _ trivial hraise fun _ => ?_
  refine hchecked _ _ _ (by decide : ¬sysroot <+: stagedUkiPath ∧ ¬sysroot <+: liveUkiPath)
    hraise fun _ => ?_
  refine hchecked _ _ _ (by decide : ¬sysroot <+: stampPath) hraise fun _ => ?_
  refine hchecked _ _ _ trivial hraise fun _ => ?_
  exact ⟨(by decide : onNewRoot (words ["/bin/sync"]) = false), fun _ => trivial⟩

/-- The media pass writes to the media only. -/
theorem refresh_sparesRoot (params : BootParams) (root : Text) :
    (refresh params root).Only SparesRoot := by
  have hconclude : ∀ outcome, (concludeRefresh outcome).Only SparesRoot :=
    concludeRefresh_only (by decide : onNewRoot ["/bin/umount".toList, espMount] = false)
      (fun _ => trivial) fun _ => trivial
  have hops : Examining SparesRoot :=
    ⟨fun _ => trivial, fun _ => trivial, trivial, fun device => rfl⟩
  have hrun : (mediaRun params root).Only SparesRoot := by
    rw [mediaRun_eq]
    refine Program.only_bind (hops.examine _ _) fun verdict => ?_
    cases verdict with
    | settled outcome => trivial
    | rewrite device wanted installed =>
      exact Program.only_bind (Program.only_mapError (install_sparesRoot _ _)) fun _ => trivial
  refine Program.only_bind (Program.only_attempt hrun) fun result => ?_
  match result with
  | .ok outcome => exact hconclude outcome
  | .error (.error err) => exact hconclude (.skipped err)
  | .error .panic => trivial

/-- The root is prepared up to its last report. -/
theorem exec_prepareRoot (params : BootParams) {files mounted : Files}
    (hmount : Program.exec env.handle (mountRoot params) files = (.ok (), mounted)) {path : Text}
    (hpath : sysroot <+: path) :
    (Program.exec env.handle (prepareRoot params) files).2 path =
      env.afterIdentity params (params.exportPlan.fstabEntries.foldl env.addEntry
        (env.afterMounts params.exportPlan mounted)) path := by
  let written := env.afterIdentity params (params.exportPlan.fstabEntries.foldl env.addEntry
    (env.afterMounts params.exportPlan mounted))
  let Agrees : Files → Prop := fun t => t path = written path
  let rest : Boot Unit := do
    let _ ← refresh params sysroot
    reportPhase "running" none
    if params.localDisk.isSome then
      reportPhase "assimilating" (some "flow-over started".toList)
  have hrest : rest.Only SparesRoot := by
    refine Program.only_bind (refresh_sparesRoot params sysroot) fun _ => ?_
    refine Program.only_bind (Program.only_perform _ trivial) fun _ => ?_
    split_ifs
    · exact Program.only_perform _ trivial
    · trivial
  have hprepare : Program.exec env.handle (prepareRoot params) files =
      Program.exec env.handle rest written := by
    change Program.exec env.handle (mountRoot params >>= _) files = _
    rw [Program.exec_bind, hmount]
    change Program.exec env.handle (applyExports params.exportPlan >>= _) mounted = _
    rw [Program.exec_bind, exec_applyExports]
    change Program.exec env.handle (writeIdentity params >>= _) _ = _
    rw [Program.exec_bind, exec_writeIdentity]
  have hkeeps : ∀ op t, SparesRoot op → Agrees t → Agrees (env.handle op t).2 :=
    fun op t hop ht => (effect_of_sparesRoot env hop t hpath).trans ht
  rw [hprepare]
  exact (hrest.safe hkeeps (rfl : Agrees written)).exec.1

end Exec

/-! ## The entries of a command line -/

/-- The mount point of an entry is a part of it. -/
theorem parseNamedMount_mount_subset {entry mnt : Text} (h : (parseNamedMount entry).2 = some mnt) :
    mnt ⊆ entry := by
  unfold parseNamedMount splitOnce at h
  cases hdrop : entry.dropWhile (· ≠ ':') with
  | nil =>
    rw [hdrop] at h
    cases h
  | cons c rest =>
    simp only [hdrop] at h
    split_ifs at h
    cases h
    exact fun x hx => (List.dropWhile_suffix _).subset (hdrop ▸ List.mem_cons_of_mem c hx)

/-- An entry of a list has no blanks. -/
theorem solid_of_mem_listEntries {key : String} {cmdline entry : Text}
    (h : entry ∈ listEntries key cmdline) : Solid isWhitespace entry := by
  unfold listEntries at h
  cases hvalue : lastSetting (isKey key) (splitWhitespace cmdline) with
  | none =>
    rw [hvalue] at h
    cases h
  | some value =>
    rw [hvalue] at h
    have hsolid : Solid isWhitespace value :=
      solid_of_lastSetting (fun word hword => solid_of_mem_wordsBy hword) hvalue
    exact fun c hc => hsolid c (subset_of_mem_splitOnP h hc)

/-- A ublk device is a field of the fstab. -/
theorem isField_ublkDevice (idx : ℕ) : IsField (ublkDevice idx) := by
  refine IsField.of_solid ?_ (solid_append (by decide) (solid_natText idx))
  exact List.append_ne_nil_of_left_ne_nil (by decide) _

/-- Where the entry of the plan comes from. -/
theorem origin_of_mem_fstabEntries {params : BootParams} {entry : FstabEntry}
    (h : entry ∈ params.exportPlan.fstabEntries) :
    (∃ k name, params.writable[k]? = some (name, some entry.mountPoint) ∧
      entry = ⟨ublkDevice (params.firstExport + k), entry.mountPoint, "xfs".toList,
        "defaults,x-systemd.makefs,x-systemd.growfs,nofail".toList⟩) ∨
    params.imageStore.isSome = true ∧
      entry = ⟨ublkDevice 1, imageStoreMount, "erofs".toList, "ro,nofail".toList⟩ := by
  rcases List.mem_append.mp h with hwritable | hstore
  · obtain ⟨⟨device, mnt⟩, hmem, rfl⟩ := List.mem_map.mp hwritable
    obtain ⟨k, name, hk, rfl⟩ := exists_of_mem_fstabWritable params device mnt hmem
    exact .inl ⟨k, name, hk, rfl⟩
  · rw [Option.mem_toList, (laidOut_exportPlan params).imageStore] at hstore
    obtain ⟨e, he, rfl⟩ := Option.map_eq_some_iff.mp hstore
    obtain ⟨store, hsome, rfl⟩ := Option.map_eq_some_iff.mp he
    exact .inr ⟨by rw [hsome]; rfl, rfl⟩

/-- The entries read off a command line are well formed. -/
theorem wellFormed_fstabEntries (cmdline : Text) :
    ∀ entry ∈ (BootParams.parse cmdline).exportPlan.fstabEntries, entry.WellFormed := by
  have hxfs : IsField "xfs".toList := IsField.of_solid (by decide) (by decide)
  have hmake : IsField "defaults,x-systemd.makefs,x-systemd.growfs,nofail".toList :=
    IsField.of_solid (by decide) (by decide)
  have hstoreMount : IsField imageStoreMount := IsField.of_solid (by decide) (by decide)
  have herofs : IsField "erofs".toList := IsField.of_solid (by decide) (by decide)
  have hread : IsField "ro,nofail".toList := IsField.of_solid (by decide) (by decide)
  intro entry hentry
  rcases origin_of_mem_fstabEntries hentry with ⟨k, name, hk, horigin⟩ | ⟨-, horigin⟩
  · have hmem := List.mem_of_getElem? hk
    rw [parse_writable] at hmem
    obtain ⟨text, htext, hparsed⟩ := List.mem_map.mp hmem
    have hmount : (parseNamedMount text).2 = some entry.mountPoint := by rw [hparsed]
    have hsolid := solid_of_mem_listEntries (List.mem_of_mem_filter htext)
    have hpoint : IsField entry.mountPoint :=
      IsField.of_solid (parseNamedMount_mount hmount).2
        fun c hc => hsolid c (parseNamedMount_mount_subset hmount hc)
    rw [horigin]
    exact ⟨isField_ublkDevice _, hpoint, hxfs, hmake, by rintro ⟨⟩⟩
  · rw [horigin]
    exact ⟨isField_ublkDevice 1, hstoreMount, herofs, hread, by rintro ⟨⟩⟩

/-! ## The new root -/

/-- What is in the files of the new root when it is handed over, and what was in them once all of it
was mounted. -/
structure Furnished (env : Circumstances) (params : BootParams) (before after : Files) : Prop where
  /-- The fstab is read as before, and then come the volumes that appeared. -/
  fstab : EndsLine ((before fstabPath).getD []) →
    (∀ entry ∈ params.exportPlan.fstabEntries, env.Clean entry) →
    readFstab ((after fstabPath).getD []) = readFstab ((before fstabPath).getD []) ++
      (env.entered params.exportPlan).map FstabEntry.fields
  /-- Each of them is on the device that the engine exports it on. -/
  exported : ∀ slabs, ∀ entry ∈ env.entered params.exportPlan,
    (∃ (k : ℕ) (name : Text), params.writable[k]? = some (name, some entry.mountPoint) ∧
      (engineExports (engineArgs params slabs params.exportPlan))[k]? = some (entry.device, name)) ∨
    params.imageStore.isSome = true ∧ entry.device = ublkDevice 1
  hostname : ∀ name, params.hostname = some name →
    env.answer (.writeFile hostnamePath (name ++ "\n".toList)) = Except.ok () →
    after hostnamePath = some (name ++ "\n".toList)
  role : ∀ role, params.role = some role →
    env.answer (.writeFile rolePath (role ++ "\n".toList)) = Except.ok () →
    after rolePath = some (role ++ "\n".toList)
  resolver : env.resolves = true →
    env.answer (.copyFile "/etc/resolv.conf".toList resolvPath) = Except.ok () →
    after resolvPath = before "/etc/resolv.conf".toList
  /-- What the line does not give is left as it was. -/
  unnamed : params.hostname = none → after hostnamePath = before hostnamePath
  uncast : params.role = none → after rolePath = before rolePath
  unresolved : env.resolves = false → after resolvPath = before resolvPath
  /-- So is every other file. -/
  spared : ∀ path, sysroot <+: path →
    path ∉ [fstabPath, hostnamePath, rolePath, resolvPath] → after path = before path

/-- However the steps go that prepare a mounted root, it is furnished. -/
theorem furnished_prepareRoot (env : Circumstances) (cmdline : Text) {files mounted : Files}
    (hmount : Program.exec env.handle (mountRoot (BootParams.parse cmdline)) files =
      (.ok (), mounted)) :
    Furnished env (BootParams.parse cmdline)
      (env.afterMounts (BootParams.parse cmdline).exportPlan mounted)
      (Program.exec env.handle (prepareRoot (BootParams.parse cmdline)) files).2 := by
  generalize hparse : BootParams.parse cmdline = params at hmount ⊢
  have hwell := wellFormed_fstabEntries cmdline
  rw [hparse] at hwell
  let before := env.afterMounts params.exportPlan mounted
  let entered := params.exportPlan.fstabEntries.foldl env.addEntry before
  have hafter : ∀ path, sysroot <+: path →
      (Program.exec env.handle (prepareRoot params) files).2 path =
        env.afterIdentity params entered path :=
    fun _ hpath => exec_prepareRoot env params hmount hpath
  have hkeeps : ∀ path, path ≠ fstabPath → entered path = before path :=
    fun _ hpath => foldl_addEntry_of_ne env _ _ hpath
  constructor
  case fstab =>
    intro hends hclean
    rw [hafter _ (by decide), afterIdentity_of_ne env params _ (by decide),
      writeSetting_of_ne env (by decide), writeSetting_of_ne env (by decide),
      fstab_foldl_addEntry env hclean]
    exact FstabEntry.readFstab_append_entries hends
      fun entry hentry => hwell entry (List.mem_of_mem_filter hentry)
  case exported =>
    intro slabs entry hentry
    rcases origin_of_mem_fstabEntries (List.mem_of_mem_filter hentry) with
      ⟨k, name, hk, horigin⟩ | ⟨hstore, horigin⟩
    · refine .inl ⟨k, name, hk, ?_⟩
      rw [engineExports_writable params slabs k name _ hk, horigin]
    · exact .inr ⟨hstore, by rw [horigin]⟩
  case hostname =>
    intro name hname hwritten
    rw [hafter _ (by decide), afterIdentity_of_ne env params _ (by decide),
      writeSetting_of_ne env (by decide), hname]
    exact writeSetting_of_ok env hwritten _
  case role =>
    intro role hrole hwritten
    rw [hafter _ (by decide), afterIdentity_of_ne env params _ (by decide), hrole]
    exact writeSetting_of_ok env hwritten _
  case resolver =>
    intro hresolves hcopied
    rw [hafter _ (by decide), afterIdentity_resolvPath_of_ok env params _ hresolves hcopied]
    exact hkeeps _ (by decide)
  case unnamed =>
    intro hnone
    rw [hafter _ (by decide), afterIdentity_of_ne env params _ (by decide),
      writeSetting_of_ne env (by decide), hnone]
    exact hkeeps _ (by decide)
  case uncast =>
    intro hnone
    rw [hafter _ (by decide), afterIdentity_of_ne env params _ (by decide), hnone]
    change env.writeSetting hostnamePath params.hostname entered rolePath = before rolePath
    rw [writeSetting_of_ne env (by decide)]
    exact hkeeps _ (by decide)
  case unresolved =>
    intro hnone
    rw [hafter _ (by decide), Circumstances.afterIdentity, hnone]
    exact (writeSetting_of_ne env (by decide) _ _).trans
      ((writeSetting_of_ne env (by decide) _ _).trans (hkeeps _ (by decide)))
  case spared =>
    intro path hpath hother
    simp only [List.mem_cons, List.not_mem_nil, or_false, not_or] at hother
    obtain ⟨hfstab, hname, hrole, hresolv⟩ := hother
    rw [hafter _ hpath, afterIdentity_of_ne env params _ hresolv, writeSetting_of_ne env hrole,
      writeSetting_of_ne env hname]
    exact hkeeps _ hfstab

/-- A system on which all goes well, and the second volume never appears. -/
def Circumstances.bench : Circumstances where
  answer
    | .waitFor device _ => decide (device ≠ ublkDevice 2)
    | op => (obliging none none op ()).1
  torn _ _ := none
  ran _ files := files
  ran_elsewhere _ _ _ _ _ := rfl

/-- A node with every kind of volume, a name, a role and a resolver. -/
theorem furnished_bench :
    let params := BootParams.parse
      "rd.stormblock.writable=etcd:/var/lib/etcd,logs:/var/log storm.hostname=n1".toList
    let root : Files := fun path =>
      if path = fstabPath then some "/dev/root / erofs ro 0 1\n".toList else none
    Furnished .bench params (Circumstances.bench.afterMounts params.exportPlan root)
      (Program.exec Circumstances.bench.handle (prepareRoot params) root).2 := by
  intro params root
  have hoverlay : params.overlay = none := by decide
  refine furnished_prepareRoot .bench _ ?_
  change Program.exec Circumstances.bench.handle (mountRoot params) root = (.ok (), root)
  rw [mountRoot, hoverlay]
  rfl

end Stormnetboot.Init

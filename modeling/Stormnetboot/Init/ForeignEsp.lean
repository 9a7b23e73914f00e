import Stormnetboot.Common.CrashTriple
import Stormnetboot.Common.Utf8
import Stormnetboot.Init.MediaReturns

/-!
# An ESP that is not ours

The media pass on two file trees, the golden's and the ESP's, of any content. Every operation may
fail, a failed one may leave anything of the ESP it was writing to, and every command may go any
way. A file of the ESP changes only on media that carry the stamp, with a golden that carries an
image and names a digest the stamp does not; where the pass is over before an install, or says so,
the ESP is as it was.
-/

namespace Stormnetboot.Init

open Stormnetboot.Common

/-- What a path holds, if it holds anything. -/
inductive FileNode where
  | directory
  | file (content : Bytes)
  deriving DecidableEq, Repr

/-- Files and directories by their paths. -/
abbrev FileTree := Text → Option FileNode

/-- The path is below the mount point of the ESP. -/
def onEsp (path : Text) : Bool :=
  (espMount ++ ['/']).isPrefixOf path

namespace FileTree

/-- The content of a file that is UTF-8. -/
def text (tree : FileTree) (path : Text) : Option Text :=
  match tree path with
  | some (.file content) => utf8Decode content
  | _ => none

/-- A directory and its parents on the ESP, unless a file is in the way. -/
def withDirs (tree : FileTree) (path : Text) : Option FileTree :=
  let parents := path.inits.filter fun parent =>
    onEsp parent && (parent ++ ['/']).isPrefixOf (path ++ ['/'])
  if parents.any fun parent => (tree parent).any (· ≠ .directory) then none
  else some fun other => if other ∈ parents then some .directory else tree other

/-- The tree with a file written. -/
def withFile (tree : FileTree) (path : Text) (content : Bytes) : FileTree :=
  Function.update tree path (some (.file content))

/-- A file is copied if there is one. -/
def copied (tree : FileTree) (source : Option FileNode) (target : Text) : Option FileTree :=
  match source with
  | some (.file content) => some (tree.withFile target content)
  | _ => none

/-- The tree after a rename: the target has what the source had. -/
def renamed (tree : FileTree) (source target : Text) : Option FileTree :=
  (tree source).map fun node => Function.update (Function.update tree source none) target (some node)

end FileTree

/-- The ESP, by the paths its files have where it is mounted. -/
structure EspDevice where
  files : FileTree
  mounted : Bool

/-- A pass over the media: its command line, the golden, which operations fail, what a failed one
leaves of the ESP, and how commands end. -/
structure MediaPass where
  params : BootParams
  golden : FileTree
  fault : SysOp → Option Text
  leaves : SysOp → FileTree → FileTree
  command : List Text → CommandResult

namespace MediaPass

/-- What is at a path: of the ESP once it is mounted, and of the golden elsewhere. -/
def tree (pass : MediaPass) (esp : EspDevice) (path : Text) : FileTree :=
  if onEsp path then if esp.mounted then esp.files else fun _ => none else pass.golden

/-- Reading a file of a tree. -/
def readText (pass : MediaPass) (tree : FileTree) (path : Text) : Except Text Text :=
  match pass.fault (.readFile path) with
  | some err => .error err
  | none =>
    match tree.text path with
    | some text => .ok text
    | none => .error "No such file or directory".toList

/-- What an operation answers that fails only by its fault. -/
def answer (pass : MediaPass) (op : SysOp) : Except Text Unit :=
  match pass.fault op with
  | some err => .error err
  | none => .ok ()

/-- An operation that writes to a path. A fault is whatever keeps it from doing so. -/
def write (pass : MediaPass) (op : SysOp) (esp : EspDevice) (path : Text)
    (result : Option FileTree) : Except Text Unit × EspDevice :=
  if onEsp path && esp.mounted then
    match pass.fault op, result with
    | none, some files => (.ok (), { esp with files := files })
    | some err, _ => (.error err, { esp with files := pass.leaves op esp.files })
    | none, none => (.error "No such file or directory".toList, esp)
  else (pass.answer op, esp)

/-- What commands do to the ESP: it is mounted by one that succeeds, and unmounted. -/
def mounts (esp : EspDevice) (argv : List Text) (succeeded : Bool) : EspDevice :=
  if !succeeded then esp
  else if (words ["/bin/mount"]).isPrefixOf argv && argv.getLast? = some espMount then
    { esp with mounted := true }
  else if argv = ["/bin/umount".toList, espMount] then { esp with mounted := false }
  else esp

/-- The operations on the two trees; no other touches them. -/
def handle (pass : MediaPass) : Handler SysOp SysOp.Ans EspDevice := fun op esp =>
  match op with
  | .pathExists path =>
    ((pass.tree esp path path).isSome && (pass.fault (.pathExists path)).isNone, esp)
  | .readFile path => (pass.readText (pass.tree esp path) path, esp)
  | .createDirAll path => pass.write (.createDirAll path) esp path (esp.files.withDirs path)
  | .copyFile source target =>
    pass.write (.copyFile source target) esp target
      (esp.files.copied (pass.tree esp source source) target)
  | .rename source target =>
    pass.write (.rename source target) esp target (esp.files.renamed source target)
  | .writeFile path content =>
    pass.write (.writeFile path content) esp path
      (some (esp.files.withFile path (utf8Encode content)))
  | .syncFile path => (pass.answer (.syncFile path), esp)
  | .spawnEngine argv env => (pass.answer (.spawnEngine argv env), esp)
  | .command argv _ => (pass.command argv, mounts esp argv (pass.command argv).succeeded)
  | .stamp _ => ((), esp)
  | .warn _ => ((), esp)
  | .report _ _ => ((), esp)
  | .readDir _ => (none, esp)
  | .appendLine _ _ => (.appended, esp)
  | .killEngine => ((), esp)
  | .waitFor _ _ => (true, esp)
  | .execReplace _ => ([], esp)

/-- The digest read from the stamp, or what stands for one that names none. -/
def installed (pass : MediaPass) (files : FileTree) : Text :=
  ((pass.readText files stampPath).toOption.bind palletOfText).getD "unknown".toList

end MediaPass

/-- The ESP is the tool's own, and the golden has something else for it. -/
structure MayRewrite (pass : MediaPass) (files : FileTree) : Prop where
  stamped : (files stampPath).isSome
  bootEfi : (pass.golden ukiPath).isSome
  differs : ∃ wanted, (pass.golden.text confPath).bind palletOfText = some wanted ∧
    wanted ≠ pass.installed files

/-- What a failed install is skipped with. -/
def installFailure (device err : Text) : Text :=
  "rewriting ".toList ++ espUki ++ " on ".toList ++ device ++ " failed".toList ++ ": ".toList ++ err

/-- Neither an update nor a skip for a failed install. -/
def WithoutInstall (params : BootParams) : Outcome → Prop
  | .disabled => True
  | .current _ => True
  | .updated _ _ => False
  | .skipped why => ∀ device err, params.mediaDev = some device → why ≠ installFailure device err

/-- At every point of the pass, and when it is over. -/
structure ForeignEspKept (pass : MediaPass) (esp : EspDevice) : Prop where
  guarded : ∀ t, Program.Visits pass.handle (refresh pass.params sysroot) esp t →
    t.files ≠ esp.files → MayRewrite pass esp.files
  kept : ∀ outcome t,
    Program.exec pass.handle (refresh pass.params sysroot) esp = (.ok outcome, t) →
      WithoutInstall pass.params outcome → t.files = esp.files

/-! ## Operations that write nothing to the ESP -/

/-- The operation does not write below the mount point. -/
def SparesEsp : SysOp → Prop
  | .createDirAll path => onEsp path = false
  | .copyFile _ _ => False
  | .rename _ _ => False
  | .writeFile _ _ => False
  | _ => True

/-- A mount changes no file. -/
theorem mounts_files (esp : EspDevice) (argv : List Text) (succeeded : Bool) :
    (MediaPass.mounts esp argv succeeded).files = esp.files := by
  unfold MediaPass.mounts
  split_ifs <;> rfl

/-- What is written elsewhere does not touch the ESP. -/
theorem write_elsewhere (pass : MediaPass) (op : SysOp) (esp : EspDevice) {path : Text}
    (result : Option FileTree) (hpath : onEsp path = false) :
    (pass.write op esp path result).2 = esp := by
  unfold MediaPass.write
  rw [hpath]
  rfl

/-- They leave its files alone. -/
theorem handle_files (pass : MediaPass) {files : FileTree} (op : SysOp) (esp : EspDevice)
    (h : SparesEsp op) (hfiles : esp.files = files) : (pass.handle op esp).2.files = files := by
  cases op with
  | createDirAll path => exact (congrArg EspDevice.files (write_elsewhere pass _ esp _ h)).trans hfiles
  | command argv env => exact (mounts_files esp argv _).trans hfiles
  | copyFile source target => cases h
  | rename source target => cases h
  | writeFile path content => cases h
  | _ => exact hfiles

/-- An examination writes nothing below the mount point. -/
theorem examining_spares : Examining SparesEsp :=
  ⟨fun _ => trivial, fun _ => trivial, show onEsp espMount = false by decide, fun _ => trivial⟩

/-- Neither does its conclusion. -/
theorem concludeRefresh_spares (outcome : Outcome) : (concludeRefresh outcome).Only SparesEsp :=
  concludeRefresh_only trivial (fun _ => trivial) (fun _ => trivial) outcome

/-! ## What the pass has seen before it writes -/

section

variable {pass : MediaPass} {esp : EspDevice}

/-- A digest is read off a file, and nothing changes. -/
theorem exec_readPallet (path : Text) :
    Program.exec pass.handle (readPallet path) esp =
      (.ok ((pass.readText (pass.tree esp path) path).toOption.bind palletOfText), esp) := by
  have hanswer : (pass.handle (.readFile path) esp) =
      (pass.readText (pass.tree esp path) path, esp) := rfl
  rw [readPallet, Program.bind_perform, Program.exec_call, hanswer]
  cases pass.readText (pass.tree esp path) path <;> rfl

/-- The golden is not below the mount point. -/
theorem tree_golden {path : Text} (hpath : onEsp path = false) : pass.tree esp path = pass.golden := by
  rw [MediaPass.tree, hpath]
  rfl

/-- On a mounted ESP its paths are read from its files. -/
theorem tree_mounted {path : Text} (hpath : onEsp path = true) (hmounted : esp.mounted = true) :
    pass.tree esp path = esp.files := by
  rw [MediaPass.tree, if_pos hpath, if_pos hmounted]

/-- A file that is read has a content. -/
theorem text_of_readText {tree : FileTree} {path text : Text}
    (h : (pass.readText tree path).toOption = some text) : tree.text path = some text := by
  unfold MediaPass.readText at h
  cases hfault : pass.fault (.readFile path) with
  | some err =>
    rw [hfault] at h
    cases h
  | none =>
    rw [hfault] at h
    cases htext : tree.text path with
    | none =>
      rw [htext] at h
      cases h
    | some read =>
      rw [htext] at h
      exact h

/-- A golden with an image was found to have one. -/
theorem bootEfi_of_exists (huki : (pass.handle (.pathExists ukiPath) esp).1 = true) :
    (pass.golden ukiPath).isSome := by
  have hanswer : (pass.handle (.pathExists ukiPath) esp).1 =
      ((pass.tree esp ukiPath ukiPath).isSome && (pass.fault (.pathExists ukiPath)).isNone) := rfl
  rw [hanswer, tree_golden (by decide)] at huki
  exact ((Bool.and_eq_true ..).mp huki).1

/-- A digest that the golden declares is read from its file. -/
theorem declared_of_exec {wanted : Text}
    (hconf : (Program.exec pass.handle (readPallet confPath) esp).1 = .ok (some wanted)) :
    (pass.golden.text confPath).bind palletOfText = some wanted := by
  rw [exec_readPallet, tree_golden (by decide)] at hconf
  obtain ⟨text, hread, hpallet⟩ := Option.bind_eq_some_iff.mp (Except.ok.inj hconf)
  exact Option.bind_eq_some_iff.mpr ⟨text, text_of_readText hread, hpallet⟩

/-- Only a mounted ESP shows a stamp. -/
theorem stamped_of_exists (hstamp : (pass.handle (.pathExists stampPath) esp).1 = true) :
    esp.mounted = true ∧ (esp.files stampPath).isSome := by
  have hpath : onEsp stampPath = true := by decide
  have hanswer : (pass.handle (.pathExists stampPath) esp).1 =
      ((pass.tree esp stampPath stampPath).isSome &&
        (pass.fault (.pathExists stampPath)).isNone) := rfl
  rw [hanswer] at hstamp
  have hsome := ((Bool.and_eq_true ..).mp hstamp).1
  cases hmounted : esp.mounted with
  | false =>
    rw [MediaPass.tree, if_pos hpath, hmounted] at hsome
    cases hsome
  | true =>
    rw [tree_mounted hpath hmounted] at hsome
    exact ⟨rfl, hsome⟩

/-- Then it is what is read from. -/
theorem installed_of_exec {declared : Option Text} (hmounted : esp.mounted = true)
    (hread : (Program.exec pass.handle (readPallet stampPath) esp).1 = .ok declared) :
    declared.getD "unknown".toList = pass.installed esp.files := by
  rw [exec_readPallet, tree_mounted (by decide) hmounted] at hread
  rw [← Except.ok.inj hread]
  rfl

end

/-! ## The pass -/

/-- The ESP is as it was, or may be written. -/
def Guarded (pass : MediaPass) (files : FileTree) (t : EspDevice) : Prop :=
  t.files = files ∨ MayRewrite pass files

/-- The pass ended without an install, or with what one ends in. -/
def Accounted (params : BootParams) (files : FileTree) (r : Except Stop Outcome) (t : EspDevice) :
    Prop :=
  t.files = files ∨ (∃ fromDigest toDigest, r = .ok (.updated fromDigest toDigest)) ∨
    ∃ device err, params.mediaDev = some device ∧ r = .error (.error (installFailure device err))

/-- What an install ends in, where the ESP may be written. -/
theorem rewrite_safe {pass : MediaPass} {files : FileTree} (hmay : MayRewrite pass files)
    {device : Text} (hdevice : pass.params.mediaDev = some device) (wanted installed : Text)
    (s : EspDevice) :
    (carryOut sysroot (.rewrite device wanted installed)).Safe pass.handle (Guarded pass files)
      (Accounted pass.params files) s := by
  have hfails : (withContext ("rewriting ".toList ++ espUki ++ " on ".toList ++ device ++
      " failed".toList) (install ukiPath wanted)).Ends fun r => ∀ stop, r = .error stop →
        ∃ err, stop = .error (installFailure device err) := by
    refine Program.ends_mapError (install_neverPanics ukiPath wanted) (fun _ _ _ h => nomatch h) ?_
    intro e he stop hstop
    cases e with
    | panic => exact absurd rfl he
    | error message => exact ⟨message, (Except.error.inj hstop).symm⟩
  refine Program.safe_bind (hfails.safe (fun _ => .inr hmay) s) (fun _ _ _ _ => ?_) fun stop t hstop => ?_
  · exact ⟨.inr hmay, .inr (.inl ⟨_, _, rfl⟩)⟩
  · obtain ⟨err, rfl⟩ := hstop stop rfl
    exact .inr (.inr ⟨device, err, hdevice, rfl⟩)

/-- The pass installs only where it may. -/
theorem mediaRun_safe (pass : MediaPass) (esp : EspDevice) :
    (mediaRun pass.params sysroot).Safe pass.handle (Guarded pass esp.files)
      (Accounted pass.params esp.files) esp := by
  rw [mediaRun_eq]
  refine (examining_spares.examine _ _).safe_bind (handle_files pass) (rfl : esp.files = esp.files)
    (fun _ => .inl) (fun _ _ => .inl) fun verdict t ht hverdict => ?_
  have hexamined := examined_of_exec examining_spares (handle_files pass)
    (rfl : esp.files = esp.files) (congrArg Prod.fst hverdict)
  cases hexamined with
  | disabled hdevice => exact ⟨.inl ht, .inl ht⟩
  | skipped why => exact ⟨.inl ht, .inl ht⟩
  | compared device wanted declared hdevice huki hconf hstamp =>
    obtain ⟨_, -, huki⟩ := huki
    obtain ⟨_, -, hconf⟩ := hconf
    obtain ⟨s, hs, hstamp, hread⟩ := hstamp
    obtain ⟨hmounted, hstamped⟩ := stamped_of_exists hstamp
    have hinstalled := installed_of_exec hmounted hread
    rw [hs] at hstamped hinstalled
    unfold Verdict.compare
    split_ifs with hsame
    · exact ⟨.inl ht, .inl ht⟩
    · have hmay : MayRewrite pass esp.files :=
        ⟨hstamped, bootEfi_of_exists huki, wanted, declared_of_exec hconf,
          fun heq => hsame (hinstalled.trans heq.symm)⟩
      exact rewrite_safe hmay hdevice wanted _ t

/-- Unmounting and logging change no file. -/
theorem concludeRefresh_safe {pass : MediaPass} {files : FileTree} {s : EspDevice}
    (hguarded : Guarded pass files s) {outcome : Outcome}
    (hkept : WithoutInstall pass.params outcome → s.files = files) :
    (concludeRefresh outcome).Safe pass.handle (Guarded pass files)
      (fun r t => ∀ result, r = .ok result → WithoutInstall pass.params result →
        t.files = files) s := by
  refine ((concludeRefresh_spares outcome).safe (handle_files pass) (rfl : s.files = s.files)).mono
    (fun t ht => ?_) fun r t hpost result hr hwithout => ?_
  · rw [Guarded, ht]
    exact hguarded
  · obtain ⟨hfiles, hexec⟩ := hpost
    have hresult := (concludeRefresh_ends outcome).exec pass.handle s
    rw [hexec] at hresult
    obtain rfl := hresult result hr
    exact hfiles.trans (hkept hwithout)

/-- A refresh touches the ESP only where it may, and only for an install. -/
theorem refresh_safe (pass : MediaPass) (esp : EspDevice) :
    (refresh pass.params sysroot).Safe pass.handle (Guarded pass esp.files)
      (fun r t => ∀ result, r = .ok result → WithoutInstall pass.params result →
        t.files = esp.files) esp := by
  refine Program.safe_bind (Program.safe_attempt (mediaRun_safe pass esp))
    (fun ended s hguarded hended => ?_) fun _ _ _ _ hr => nomatch hr
  obtain ⟨result, hresult, haccounted⟩ := hended
  obtain rfl := Except.ok.inj hresult
  match ended with
  | .error .panic => exact ⟨hguarded, fun _ hr => nomatch hr⟩
  | .ok outcome =>
    refine concludeRefresh_safe hguarded fun hwithout => ?_
    rcases haccounted with hfiles | ⟨fromDigest, toDigest, hupdated⟩ | ⟨_, _, _, herror⟩
    · exact hfiles
    · cases hupdated
      exact hwithout.elim
    · cases herror
  | .error (.error why) =>
    refine concludeRefresh_safe hguarded fun hwithout => ?_
    rcases haccounted with hfiles | ⟨_, _, hupdated⟩ | ⟨device, err, hdevice, herror⟩
    · exact hfiles
    · cases hupdated
    · cases herror
      exact absurd rfl (hwithout device err hdevice)

/-- Whatever the ESP, the golden and the outcome of each operation, a file of the ESP changes only
where the stamp is there and does not name the digest of a golden that carries an image; and a pass
that neither updated nor failed to has changed none. -/
theorem foreignEspKept (pass : MediaPass) (esp : EspDevice) : ForeignEspKept pass esp where
  guarded _ hv hne := ((refresh_safe pass esp).visits hv).resolve_left hne
  kept outcome t hexec := by
    have hend := (refresh_safe pass esp).exec
    rw [hexec] at hend
    exact hend outcome rfl

/-- Media with the stamp of one digest, and a golden that declares another. -/
def stampedEsp : EspDevice where
  files path :=
    if path = stampPath then some (.file (utf8Encode "pallet=sha256:a\n".toList)) else none
  mounted := false

/-- A pass whose golden carries an image and a digest, and in which nothing fails. -/
def newerPass : MediaPass where
  params := { mediaDev := some "/dev/sdb1".toList }
  golden path :=
    if path = ukiPath then some (.file [1, 2, 3])
    else if path = confPath then some (.file (utf8Encode "pallet=sha256:b\n".toList))
    else none
  fault _ := none
  leaves _ files := files
  command _ := .exited true [] []

/-- They are rewritten. -/
example : (Program.exec newerPass.handle (refresh newerPass.params sysroot) stampedEsp).2.files
    liveUkiPath = some (.file [1, 2, 3]) := by decide

end Stormnetboot.Init

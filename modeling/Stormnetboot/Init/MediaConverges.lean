import Stormnetboot.Common.CutOff
import Stormnetboot.Common.Utf8
import Stormnetboot.Init.MediaCrash

/-!
# Boot media converges

The files of the ESP as bytes, so that a refresh can also be cut off in the middle of a write. What
a cut leaves is the old image with the old stamp, or the golden's image with a stamp of any
content. From either, a refresh that runs to its end leaves the golden's image and a stamp that
reads as its digest, and the next one finds the media current. It says so unless the digest is one
whose abbreviation panics.
-/

namespace Stormnetboot.Init

open Stormnetboot.Common

/-- As UTF-8. -/
def StampFormat.bytes : StampFormat Bytes :=
  ⟨utf8Decode, utf8Encode, utf8Decode_utf8Encode⟩

/-- The files of the ESP that a refresh touches, byte for byte. -/
abbrev EspFiles := EspWith Bytes

/-- The digest its stamp names. -/
def EspFiles.digest (esp : EspFiles) : Option Text :=
  (esp.stamp.bind utf8Decode).bind palletOfText

/-- A golden that carries an image for the boot media, and a file that names its digest. A digest
stands for one image. -/
structure MediaGolden (imageOf : Text → Bytes) where
  bootEfi : Bytes
  conf : Text
  digest : Text
  declared : palletOfText conf = some digest
  named : bootEfi = imageOf digest

/-- The payload as the refresh finds it. -/
def MediaGolden.golden {imageOf : Text → Bytes} (golden : MediaGolden imageOf) : Golden :=
  ⟨some golden.bootEfi, some golden.conf⟩

/-- An ESP whose stamp names the image it holds. -/
structure StampedEsp (imageOf : Text → Bytes) where
  esp : EspFiles
  digest : Text
  stamped : esp.digest = some digest
  named : esp.image = imageOf digest

/-- Such an ESP has a stamp. -/
theorem StampedEsp.isSome_stamp {imageOf : Text → Bytes} (media : StampedEsp imageOf) :
    media.esp.stamp.isSome := by
  obtain ⟨text, htext, -⟩ := Option.bind_eq_some_iff.mp media.stamped
  obtain ⟨bytes, hbytes, -⟩ := Option.bind_eq_some_iff.mp htext
  rw [hbytes, Option.isSome_some]

namespace BootAttempt

/-- The operations on the golden's files and the ESP's, byte for byte. -/
def handleFiles (b : BootAttempt) : Handler SysOp SysOp.Ans EspFiles :=
  b.handleWith .bytes

/-- What is left of a file when its write is cut off: any part of it from the start. Every other
operation is atomic. -/
def torn (b : BootAttempt) : SysOp → EspFiles → EspFiles → Prop
  | .copyFile source target, esp, t => source = ukiPath ∧ target = stagedUkiPath ∧
      ∃ image part, b.golden.bootEfi = some image ∧ part <+: image ∧
        t = { esp with staged := some part }
  | .writeFile path content, esp, t => path = stampPath ∧
      ∃ part, part <+: utf8Encode content ∧ t = { esp with stamp := some part }
  | _, _, _ => False

/-- A boot in which no step fails. -/
def complete (params : BootParams) (device : Text) (golden : Golden) : BootAttempt where
  params := { params with mediaDev := some device }
  golden := golden
  fault _ := none

end BootAttempt

/-! ## A refresh that runs to its end -/

section Complete

variable {imageOf : Text → Bytes} (golden : MediaGolden imageOf) (params : BootParams)
  (device : Text)

/-- The install leaves the golden's image and the stamp that names it. -/
theorem exec_install_complete (wanted : Text) (esp : EspFiles) :
    Program.exec (BootAttempt.complete params device golden.golden).handleFiles
        (install ukiPath wanted) esp =
      (.ok (), ⟨golden.bootEfi, none, some (utf8Encode (stampText wanted))⟩) :=
  rfl

/-- What the golden and the stamp name. -/
theorem exec_readPallet_golden (esp : EspFiles) :
    Program.exec (BootAttempt.complete params device golden.golden).handleFiles
        (readPallet confPath) esp = (.ok (some golden.digest), esp) := by
  have hdeclared : golden.golden.digest = some golden.digest := golden.declared
  rw [← hdeclared]
  exact exec_readPallet_confWith .bytes _ esp

/-- What the stamp names. -/
theorem exec_readPallet_files (b : BootAttempt) (esp : EspFiles) :
    Program.exec b.handleFiles (readPallet stampPath) esp = (.ok esp.digest, esp) :=
  exec_readPallet_stampWith .bytes b esp

/-- A stamp of any content is where the pass looks for it. -/
theorem exec_pathExists_stamp (b : BootAttempt) {esp : EspFiles} (hstamp : esp.stamp.isSome) :
    Program.exec b.handleFiles (pathExists stampPath) esp = (.ok true, esp) := by
  have hexists : Program.exec b.handleFiles (pathExists stampPath) esp =
      (.ok esp.stamp.isSome, esp) := rfl
  rw [hexists, hstamp]

/-- The media as the pass finds it: what the stamp names, or `unknown`. -/
def EspFiles.installed (esp : EspFiles) : Text :=
  esp.digest.getD "unknown".toList

/-! The answers a pass gets before it compares. -/

/-- The golden's image is there. -/
theorem exec_pathExists_uki (esp : EspFiles) :
    Program.exec (BootAttempt.complete params device golden.golden).handleFiles
        (pathExists (joinPath (joinPath sysroot payloadDir) payloadUki)) esp = (.ok true, esp) :=
  rfl

/-- The golden's declaration is there. -/
theorem exec_pathExists_conf (esp : EspFiles) :
    Program.exec (BootAttempt.complete params device golden.golden).handleFiles
        (pathExists (joinPath (joinPath sysroot payloadDir) payloadConf)) esp = (.ok true, esp) :=
  rfl

/-- The mount point is made. -/
theorem exec_createEspMount (esp : EspFiles) :
    Program.exec (BootAttempt.complete params device golden.golden).handleFiles
        (createDirAllOk espMount) esp = (.ok (), esp) :=
  rfl

/-- The media is mounted. -/
theorem exec_mountVfat_complete (esp : EspFiles) :
    Program.exec (BootAttempt.complete params device golden.golden).handleFiles
        (mountVfat device espMount) esp = (.ok true, esp) :=
  rfl

/-- It compares the golden's digest with what the stamp names. -/
theorem exec_examine_complete {esp : EspFiles} (hstamp : esp.stamp.isSome) :
    Program.exec (BootAttempt.complete params device golden.golden).handleFiles
        (examine (BootAttempt.complete params device golden.golden).params sysroot) esp =
      (.ok (.compare device golden.digest esp.installed), esp) := by
  have hdev : (BootAttempt.complete params device golden.golden).params.mediaDev = some device := rfl
  have hread : Program.exec (BootAttempt.complete params device golden.golden).handleFiles
      (readPallet (joinPath (joinPath sysroot payloadDir) payloadConf)) esp =
        (.ok (some golden.digest), esp) := exec_readPallet_golden golden params device esp
  unfold examine
  rw [hdev]
  simp only [Program.exec_bind, exec_pathExists_uki, exec_pathExists_conf, hread,
    exec_createEspMount, exec_mountVfat_complete, exec_readPallet_files,
    exec_pathExists_stamp _ hstamp, Bool.not_true, Bool.false_eq_true, if_false]
  rfl

/-- The pass finds the media current, or installs the golden's. -/
theorem exec_mediaRun_complete {esp : EspFiles} (hstamp : esp.stamp.isSome) :
    Program.exec (BootAttempt.complete params device golden.golden).handleFiles
        (mediaRun (BootAttempt.complete params device golden.golden).params sysroot) esp =
      if esp.installed = golden.digest then (.ok (.current golden.digest), esp)
      else (.ok (.updated esp.installed golden.digest),
        ⟨golden.bootEfi, none, some (utf8Encode (stampText golden.digest))⟩) := by
  rw [mediaRun_eq, Program.exec_bind, exec_examine_complete golden params device hstamp,
    Verdict.compare]
  split_ifs with hsame
  · rfl
  · have hinstall : Program.exec (BootAttempt.complete params device golden.golden).handleFiles
        (install (joinPath (joinPath sysroot payloadDir) payloadUki) golden.digest) esp =
          (.ok (), ⟨golden.bootEfi, none, some (utf8Encode (stampText golden.digest))⟩) :=
      exec_install_complete golden params device golden.digest esp
    simp only [carryOut]
    rw [Program.exec_bind, withContext, Program.exec_mapError, hinstall]
    rfl

/-- A pass that finds the media current performs no operation that changes a file. -/
theorem quiet_of_mem_trace_mediaRun {esp : EspFiles} (hstamp : esp.stamp.isSome)
    (hsame : esp.installed = golden.digest) {op : SysOp}
    (hop : op ∈ Program.trace (BootAttempt.complete params device golden.golden).handleFiles
      (mediaRun (BootAttempt.complete params device golden.golden).params sysroot) esp) :
    Quiet op := by
  rw [mediaRun_eq] at hop
  rcases (examining_quiet.examine _ _).mem_trace_bind
    (exec_examine_complete golden params device hstamp) hop with hquiet | hop
  · exact hquiet
  · rw [Verdict.compare, if_pos hsame] at hop
    cases hop

end Complete

/-! ## The whole refresh -/

/-- The digest can be abbreviated: it is short, or its twelfth byte ends a character. -/
def Abbreviable (digest : Text) : Prop :=
  utf8Len ((stripPrefix "sha256:".toList digest).getD digest) > 12 →
    (takeBytes 12 ((stripPrefix "sha256:".toList digest).getD digest)).isSome

/-- A quiet operation leaves the files alone. -/
theorem handleFiles_quiet (b : BootAttempt) (op : SysOp) (esp : EspFiles) (h : Quiet op) :
    (b.handleFiles op esp).2 = esp :=
  handleWith_quiet .bytes b esp op h

/-- Quiet operations are still: they are atomic and change no file. -/
theorem still_of_quiet (b : BootAttempt) (op : SysOp) (h : Quiet op) :
    Program.Still b.handleFiles b.torn op := by
  intro s t
  refine ⟨handleFiles_quiet b op s h, fun htorn => ?_⟩
  cases op with
  | copyFile source target => cases h
  | writeFile path content => cases h
  | _ => cases htorn

/-- A digest that can be abbreviated is. -/
theorem exists_short {digest : Text} (h : Abbreviable digest) : ∃ text, short digest = .done text := by
  unfold short
  unfold Abbreviable at h
  simp only
  split_ifs with hlong
  · obtain ⟨head, hhead⟩ := Option.isSome_iff_exists.mp (h hlong)
    rw [hhead]
    exact ⟨_, rfl⟩
  · exact ⟨_, rfl⟩

/-- One that cannot be panics. -/
theorem short_panics {digest : Text} (h : ¬Abbreviable digest) : short digest = .fail .panic := by
  unfold Abbreviable at h
  push Not at h
  obtain ⟨hlong, hnone⟩ := h
  unfold short
  simp only
  rw [if_pos hlong, Option.not_isSome_iff_eq_none.mp hnone]

/-- The refresh says that the media is current where the digest can be abbreviated. -/
theorem exec_concludeRefresh_abbreviable (b : BootAttempt) {digest : Text} (h : Abbreviable digest)
    (esp : EspFiles) :
    Program.exec b.handleFiles (concludeRefresh (.current digest)) esp =
      (.ok (.current digest), esp) := by
  obtain ⟨text, htext⟩ := exists_short h
  unfold concludeRefresh
  simp only [htext]
  rfl

/-- Otherwise it panics there. -/
theorem exec_concludeRefresh_panics (b : BootAttempt) {digest : Text} (h : ¬Abbreviable digest)
    (esp : EspFiles) :
    Program.exec b.handleFiles (concludeRefresh (.current digest)) esp = (.error .panic, esp) := by
  unfold concludeRefresh
  simp only [short_panics h]
  rfl

/-- The refresh leaves the files as its pass does. -/
theorem snd_exec_refresh (b : BootAttempt) (esp : EspFiles) :
    (Program.exec b.handleFiles (refresh b.params sysroot) esp).2 =
      (Program.exec b.handleFiles (mediaRun b.params sysroot) esp).2 := by
  unfold refresh
  rw [Program.exec_bind, Program.exec_attempt]
  generalize Program.exec b.handleFiles (mediaRun b.params sysroot) esp = ended
  obtain ⟨result, m⟩ := ended
  match result with
  | .ok outcome => exact (concludeRefresh_quiet outcome).exec_eq (handleFiles_quiet b) m
  | .error (.error err) => exact (concludeRefresh_quiet _).exec_eq (handleFiles_quiet b) m
  | .error .panic => rfl

section Complete

variable {imageOf : Text → Bytes} (golden : MediaGolden imageOf) (params : BootParams)
  (device : Text) {esp : EspFiles}

/-- The files after a refresh that runs to its end: those it found, if their stamp names the
golden's digest, or the golden's. -/
theorem snd_exec_refresh_complete (hstamp : esp.stamp.isSome) :
    (Program.exec (BootAttempt.complete params device golden.golden).handleFiles
        (refresh (BootAttempt.complete params device golden.golden).params sysroot) esp).2 =
      if esp.installed = golden.digest then esp
      else ⟨golden.bootEfi, none, some (utf8Encode (stampText golden.digest))⟩ := by
  rw [snd_exec_refresh, exec_mediaRun_complete golden params device hstamp]
  split_ifs <;> rfl

/-- Media whose stamp names the golden's digest is found current: the pass changes nothing, and the
refresh says so unless the digest cannot be abbreviated. -/
theorem exec_refresh_installed (hstamp : esp.stamp.isSome) (hsame : esp.installed = golden.digest) :
    Program.exec (BootAttempt.complete params device golden.golden).handleFiles
        (refresh (BootAttempt.complete params device golden.golden).params sysroot) esp =
      Program.exec (BootAttempt.complete params device golden.golden).handleFiles
        (concludeRefresh (.current golden.digest)) esp := by
  unfold refresh
  rw [Program.exec_bind, Program.exec_attempt, exec_mediaRun_complete golden params device hstamp,
    if_pos hsame]

/-- It then performs no operation that changes a file. -/
theorem quiet_of_mem_trace_installed (hstamp : esp.stamp.isSome)
    (hsame : esp.installed = golden.digest) {op : SysOp}
    (hop : op ∈ Program.trace (BootAttempt.complete params device golden.golden).handleFiles
      (refresh (BootAttempt.complete params device golden.golden).params sysroot) esp) :
    Quiet op := by
  have hexec : Program.exec (BootAttempt.complete params device golden.golden).handleFiles
      (mediaRun (BootAttempt.complete params device golden.golden).params sysroot) esp =
        (.ok (.current golden.digest), esp) := by
    rw [exec_mediaRun_complete golden params device hstamp, if_pos hsame]
  rcases (Program.mem_trace_bind_iff ..).mp hop with hpass | ⟨result, m, hresult, hlog⟩
  · rw [Program.trace_attempt] at hpass
    exact quiet_of_mem_trace_mediaRun golden params device hstamp hsame hpass
  · rw [Program.exec_attempt, hexec] at hresult
    cases hresult
    exact (concludeRefresh_quiet _).of_mem_trace hlog

end Complete

/-! ## What a cut leaves -/

section Cut

variable (b : BootAttempt) (esp : EspFiles)

/-- The old image with the old stamp, or the golden's with a stamp of some content. -/
def LeftBy (t : EspFiles) : Prop :=
  (t.image = esp.image ∧ t.stamp = esp.stamp) ∨
    (b.golden.bootEfi = some t.image ∧ t.stamp.isSome)

variable {b esp}

/-- The copy stages the golden's image. -/
theorem handleFiles_copyFile (b : BootAttempt) (esp : EspFiles) :
    (b.handleFiles (.copyFile ukiPath stagedUkiPath) esp).2.image = esp.image ∧
      (b.handleFiles (.copyFile ukiPath stagedUkiPath) esp).2.stamp = esp.stamp ∧
      ((b.handleFiles (.copyFile ukiPath stagedUkiPath) esp).1 = .ok () →
        (b.handleFiles (.copyFile ukiPath stagedUkiPath) esp).2.staged = b.golden.bootEfi) :=
  handleWith_copyFile .bytes b esp

/-- The rename makes the staged image the live one. -/
theorem handleFiles_rename (b : BootAttempt) (esp : EspFiles) :
    (b.handleFiles (.rename stagedUkiPath liveUkiPath) esp).2.stamp = esp.stamp ∧
      ((b.handleFiles (.rename stagedUkiPath liveUkiPath) esp).2.image = esp.image ∨
        esp.staged = some (b.handleFiles (.rename stagedUkiPath liveUkiPath) esp).2.image) ∧
      ((b.handleFiles (.rename stagedUkiPath liveUkiPath) esp).1 = .ok () →
        esp.staged = some (b.handleFiles (.rename stagedUkiPath liveUkiPath) esp).2.image) :=
  handleWith_rename .bytes b esp

/-- The write replaces the stamp and leaves the image. -/
theorem handleFiles_writeFile (b : BootAttempt) (esp : EspFiles) (content : Text) :
    (b.handleFiles (.writeFile stampPath content) esp).2.image = esp.image ∧
      (esp.stamp.isSome → (b.handleFiles (.writeFile stampPath content) esp).2.stamp.isSome) := by
  have hwrite : (b.handleFiles (.writeFile stampPath content) esp).2 = esp ∨
      (b.handleFiles (.writeFile stampPath content) esp).2 =
        { esp with stamp := some (utf8Encode content) } := handleWith_writeFile .bytes b esp content
  cases hwrite with
  | inl hsame =>
    rw [hsame]
    exact ⟨rfl, id⟩
  | inr hwritten =>
    rw [hwritten]
    exact ⟨rfl, fun _ => rfl⟩

/-- Wherever an install is cut off, the image is whole and the stamp is there. -/
theorem leftBy_install (wanted : Text) {t : EspFiles} (hstamp : esp.stamp.isSome)
    (hcut : Program.CutOff b.handleFiles b.torn (install ukiPath wanted) esp t) :
    LeftBy b esp t := by
  have hstill := still_of_quiet b
  have hpassed : ∀ (answer : Except Text Unit) (s : EspFiles),
      (Program.exec b.handleFiles (orFail answer) s).1 = .ok () → answer = .ok () := by
    intro answer s h
    cases answer with
    | ok _ => rfl
    | error err => cases h
  unfold install at hcut
  rcases Program.cutOff_checked trivial orFail_quiet hstill hcut with rfl | hcut
  · exact .inl ⟨rfl, rfl⟩
  rcases Program.cutOff_checked trivial orFail_quiet hstill hcut with rfl | hcut
  · exact .inl ⟨rfl, rfl⟩
  -- the copy
  obtain ⟨hcopyImage, hcopyStamp, hstaged⟩ := handleFiles_copyFile b esp
  rcases (Program.cutOff_perform_bind_iff ..).mp hcut with rfl | htorn | hcut
  · exact .inl ⟨rfl, rfl⟩
  · obtain ⟨-, -, image, part, -, -, rfl⟩ := htorn
    exact .inl ⟨rfl, rfl⟩
  generalize b.handleFiles (.copyFile ukiPath stagedUkiPath) esp = copied at *
  rcases (orFail_quiet _).cutOff_bind hstill hcut with rfl | ⟨_, hcopied, hcut⟩
  · exact .inl ⟨hcopyImage, hcopyStamp⟩
  rcases Program.cutOff_checked trivial orFail_quiet hstill hcut with rfl | hcut
  · exact .inl ⟨hcopyImage, hcopyStamp⟩
  -- the rename
  obtain ⟨hrenameStamp, hkept, hlive⟩ := handleFiles_rename b copied.2
  rcases (Program.cutOff_perform_bind_iff ..).mp hcut with rfl | htorn | hcut
  · exact .inl ⟨hcopyImage, hcopyStamp⟩
  · cases htorn
  generalize b.handleFiles (.rename stagedUkiPath liveUkiPath) copied.2 = renamed at *
  have hpresent : renamed.2.stamp.isSome := by
    rw [hrenameStamp, hcopyStamp]
    exact hstamp
  have hrenamed : LeftBy b esp renamed.2 := by
    rcases hkept with hold | hnew
    · exact .inl ⟨hold.trans hcopyImage, hrenameStamp.trans hcopyStamp⟩
    · exact .inr ⟨(hstaged (hpassed _ _ hcopied)).symm.trans hnew, hpresent⟩
  rcases (orFail_quiet _).cutOff_bind hstill hcut with rfl | ⟨_, hmoved, hcut⟩
  · exact hrenamed
  -- the stamp
  have himage : b.golden.bootEfi = some renamed.2.image :=
    (hstaged (hpassed _ _ hcopied)).symm.trans (hlive (hpassed _ _ hmoved))
  obtain ⟨hwriteImage, hwriteStamp⟩ := handleFiles_writeFile b renamed.2 (stampText wanted)
  rcases (Program.cutOff_perform_bind_iff ..).mp hcut with rfl | htorn | hcut
  · exact hrenamed
  · obtain ⟨-, part, -, rfl⟩ := htorn
    exact .inr ⟨himage, rfl⟩
  have hwritten : LeftBy b esp (b.handleFiles (.writeFile stampPath (stampText wanted)) renamed.2).2 :=
    .inr ⟨hwriteImage ▸ himage, hwriteStamp hpresent⟩
  generalize b.handleFiles (.writeFile stampPath (stampText wanted)) renamed.2 = written at *
  rcases (orFail_quiet _).cutOff_bind hstill hcut with rfl | ⟨_, -, hcut⟩
  · exact hwritten
  rcases Program.cutOff_checked trivial orFail_quiet hstill hcut with rfl | hcut
  · exact hwritten
  rcases (Program.only_perform _ trivial).cutOff_bind hstill hcut with rfl | ⟨_, -, hcut⟩
  · exact hwritten
  obtain rfl := (Program.cutOff_done_iff ..).mp hcut
  exact hwritten

/-- A pass that is cut off is cut off where it starts, or in an install. -/
theorem cutOff_mediaRun {t : EspFiles}
    (hcut : Program.CutOff b.handleFiles b.torn (mediaRun b.params sysroot) esp t) :
    t = esp ∨ ∃ wanted, Program.CutOff b.handleFiles b.torn (install ukiPath wanted) esp t := by
  rw [mediaRun_eq] at hcut
  rcases (examining_quiet.examine _ _).cutOff_bind (still_of_quiet b) hcut with
    rfl | ⟨verdict, -, hcut⟩
  · exact .inl rfl
  cases verdict with
  | settled outcome => exact .inl ((Program.cutOff_done_iff ..).mp hcut)
  | rewrite device wanted installed => exact .inr ⟨wanted, hcut.of_bind_done.of_mapError⟩

/-- Logging what a pass decided is not where the files change. -/
theorem cutOff_refresh {t : EspFiles}
    (hcut : Program.CutOff b.handleFiles b.torn (refresh b.params sysroot) esp t) :
    Program.CutOff b.handleFiles b.torn (mediaRun b.params sysroot) esp t := by
  have hstill := still_of_quiet b
  have hend : Program.CutOff b.handleFiles b.torn (mediaRun b.params sysroot) esp
      (Program.exec b.handleFiles (mediaRun b.params sysroot) esp).2 := Program.cutOff_exec _ _
  rcases hcut.of_bind with hpass | ⟨result, m, hexec, hlog⟩
  · exact hpass.of_attempt
  rw [Program.exec_attempt] at hexec
  obtain rfl : (Program.exec b.handleFiles (mediaRun b.params sysroot) esp).2 = m :=
    congrArg Prod.snd hexec
  match result with
  | .ok outcome =>
    rw [(concludeRefresh_quiet outcome).cutOff_eq hstill hlog]
    exact hend
  | .error (.error err) =>
    rw [(concludeRefresh_quiet _).cutOff_eq hstill hlog]
    exact hend
  | .error .panic =>
    rw [(Program.cutOff_fail_iff ..).mp hlog]
    exact hend

/-- Wherever a refresh is cut off, too. -/
theorem leftBy_refresh {t : EspFiles} (hstamp : esp.stamp.isSome)
    (hcut : Program.CutOff b.handleFiles b.torn (refresh b.params sysroot) esp t) :
    LeftBy b esp t := by
  rcases cutOff_mediaRun (cutOff_refresh hcut) with rfl | ⟨wanted, hcut⟩
  · exact .inl ⟨rfl, rfl⟩
  · exact leftBy_install wanted hstamp hcut

end Cut

/-! ## Convergence -/

/-- A refresh of this golden that was cut off, or failed in any of its steps. -/
def MediaGolden.attempt {imageOf : Text → Bytes} (golden : MediaGolden imageOf)
    (params : BootParams) (fault : SysOp → Option Text) : BootAttempt :=
  ⟨params, golden.golden, fault⟩

section Converges

variable {imageOf : Text → Bytes} (media : StampedEsp imageOf) (golden : MediaGolden imageOf)

/-- The image is whole, the next refresh makes it the golden's, and the one after that finds the
media current and writes nothing. -/
structure RecoversFrom (second third : BootAttempt) (left : EspFiles) : Prop where
  whole : left.image = media.esp.image ∨ left.image = golden.bootEfi
  rewritten : (Program.exec second.handleFiles (refresh second.params sysroot) left).2.image =
    golden.bootEfi
  current : Program.exec third.handleFiles (refresh third.params sysroot)
      (Program.exec second.handleFiles (refresh second.params sysroot) left).2 =
    (.ok (.current golden.digest),
      (Program.exec second.handleFiles (refresh second.params sysroot) left).2)
  untouched : ∀ op ∈ Program.trace third.handleFiles (refresh third.params sysroot)
      (Program.exec second.handleFiles (refresh second.params sysroot) left).2, Quiet op
  readBack : (utf8Decode (utf8Encode (stampText golden.digest))).bind palletOfText =
    some golden.digest

variable {media golden}

/-- The stamp that an install writes names the digest that was read from the golden. -/
theorem MediaGolden.readBack (golden : MediaGolden imageOf) :
    (utf8Decode (utf8Encode (stampText golden.digest))).bind palletOfText = some golden.digest :=
  StampFormat.bytes.digest_write (isDigest_of_palletOfText golden.declared)

/-- What a cut refresh leaves of stamped media can be refreshed: it is stamped, and where the stamp
names the golden's digest the image is the golden's. -/
theorem image_of_leftBy {params : BootParams} {fault : SysOp → Option Text} {left : EspFiles}
    (hleft : LeftBy (golden.attempt params fault) media.esp left) :
    left.stamp.isSome ∧
      (left.image = media.esp.image ∨ left.image = golden.bootEfi) ∧
      (left.installed = golden.digest → left.image = golden.bootEfi) := by
  rcases hleft with ⟨himage, hstamp⟩ | ⟨himage, hstamp⟩
  · refine ⟨hstamp ▸ media.isSome_stamp, .inl himage, fun hsame => ?_⟩
    have hdigest : left.digest = some media.digest := by
      rw [EspFiles.digest, hstamp]
      exact media.stamped
    rw [EspFiles.installed, hdigest, Option.getD_some] at hsame
    rw [himage, media.named, hsame, golden.named]
  · have hnew : left.image = golden.bootEfi := (Option.some.inj himage).symm
    exact ⟨hstamp, .inr hnew, fun _ => hnew⟩

/-- After a refresh that runs to its end the image is the golden's, and the stamp names it. -/
theorem installed_of_refresh (second : BootParams) (device : Text) {left : EspFiles}
    (hstamp : left.stamp.isSome)
    (himage : left.installed = golden.digest → left.image = golden.bootEfi) :
    let after := (Program.exec (BootAttempt.complete second device golden.golden).handleFiles
      (refresh (BootAttempt.complete second device golden.golden).params sysroot) left).2
    after.image = golden.bootEfi ∧ after.stamp.isSome ∧ after.installed = golden.digest := by
  intro after
  have hafter : after = if left.installed = golden.digest then left
      else ⟨golden.bootEfi, none, some (utf8Encode (stampText golden.digest))⟩ :=
    snd_exec_refresh_complete golden second device hstamp
  rw [hafter]
  split_ifs with hsame
  · exact ⟨himage hsame, hstamp, hsame⟩
  · refine ⟨rfl, rfl, ?_⟩
    rw [EspFiles.installed, EspFiles.digest, Option.bind_some, golden.readBack, Option.getD_some]

/-- Media left by a refresh that was cut off recovers exactly when the digest can be
abbreviated. -/
theorem recoversFrom_iff {params : BootParams} {fault : SysOp → Option Text} {left : EspFiles}
    (hleft : LeftBy (golden.attempt params fault) media.esp left) (second third : BootParams)
    (device device' : Text) :
    RecoversFrom media golden (.complete second device golden.golden)
        (.complete third device' golden.golden) left ↔ Abbreviable golden.digest := by
  obtain ⟨hstamp, hwhole, himage⟩ := image_of_leftBy hleft
  obtain ⟨hrewritten, hstamp', hsame⟩ := installed_of_refresh second device hstamp himage
  have hlast := exec_refresh_installed golden third device' hstamp' hsame
  constructor
  · intro h
    by_contra hnot
    have hcurrent := h.current
    rw [hlast, exec_concludeRefresh_panics _ hnot] at hcurrent
    cases hcurrent
  · intro habbreviable
    refine ⟨hwhole, hrewritten, ?_, fun op hop => ?_, golden.readBack⟩
    · rw [hlast]
      exact exec_concludeRefresh_abbreviable _ habbreviable _
    · exact quiet_of_mem_trace_installed golden third device' hstamp' hsame hop

variable (media golden)

/-- Whatever a refresh is cut off in, the media recovers. -/
def Converges (params : BootParams) (fault : SysOp → Option Text) (second third : BootParams)
    (device device' : Text) : Prop :=
  ∀ left, Program.CutOff (golden.attempt params fault).handleFiles
      (golden.attempt params fault).torn (refresh params sysroot) media.esp left →
    RecoversFrom media golden (.complete second device golden.golden)
      (.complete third device' golden.golden) left

variable {media golden}

/-- A digest that cannot be abbreviated keeps even untouched media from being found current. -/
theorem abbreviable_of_converges {params : BootParams} {fault : SysOp → Option Text}
    {second third : BootParams} {device device' : Text}
    (h : Converges media golden params fault second third device device') :
    Abbreviable golden.digest := by
  have hstart : LeftBy (golden.attempt params fault) media.esp media.esp := .inl ⟨rfl, rfl⟩
  exact (recoversFrom_iff hstart second third device device').mp (h media.esp (.here _ _))

variable (media golden)

/-- Media refresh converges exactly where the digest of the golden can be abbreviated. -/
theorem converges_iff (params : BootParams) (fault : SysOp → Option Text)
    (second third : BootParams) (device device' : Text) :
    Converges media golden params fault second third device device' ↔
      Abbreviable golden.digest := by
  refine ⟨abbreviable_of_converges, fun habbreviable left hcut => ?_⟩
  have hleft := leftBy_refresh media.isSome_stamp hcut
  exact (recoversFrom_iff hleft second third device device').mpr habbreviable

end Converges

/-! ## A digest that cannot be abbreviated -/

/-- The images of two digests. -/
def imageOfAccented (digest : Text) : Bytes :=
  if digest = "sha256:a".toList then [1] else [2]

/-- A golden whose digest has an accented letter across its twelfth byte, and media built by
another. -/
def accentedGolden : MediaGolden imageOfAccented where
  bootEfi := [2]
  conf := "pallet=aéééééé\n".toList
  digest := "aéééééé".toList
  declared := by decide
  named := by decide

/-- Media with another digest than the golden's. -/
def otherMedia : StampedEsp imageOfAccented where
  esp := ⟨[1], none, some (utf8Encode "pallet=sha256:a\n".toList)⟩
  digest := "sha256:a".toList
  stamped := by
    rw [EspFiles.digest, Option.bind_some, utf8Decode_utf8Encode, Option.bind_some]
    decide
  named := by decide

/-- Its refresh panics once the media is current. -/
theorem not_converges_accented :
    ¬Converges otherMedia accentedGolden
      (BootParams.parse "rd.stormnetboot.media=/dev/sda1".toList) (fun _ => none)
      (BootParams.parse "rd.stormnetboot.media=/dev/sda1".toList)
      (BootParams.parse "rd.stormnetboot.media=/dev/sda1".toList)
      "/dev/sda1".toList "/dev/sda1".toList := by
  intro h
  have hlong : utf8Len ((stripPrefix "sha256:".toList accentedGolden.digest).getD
      accentedGolden.digest) > 12 := by decide
  have hhead := abbreviable_of_converges h hlong
  have hnone : (takeBytes 12 ((stripPrefix "sha256:".toList accentedGolden.digest).getD
      accentedGolden.digest)).isSome = false := by decide
  rw [hnone] at hhead
  cases hhead

end Stormnetboot.Init

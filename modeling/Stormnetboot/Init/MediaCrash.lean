import Stormnetboot.Common.Hex
import Stormnetboot.Init.MediaVerdict
import Stormnetboot.Init.Steps
import Mathlib.Tactic.SplitIfs

/-!
# Boot media across crashes

The image and the stamp on the ESP are two files, and a refresh may be cut off between
replacing the one and writing the other. A boot is a refresh from the ESP as the last boot
left it, and leaves any state the refresh visits. One boot does one of three things to the
two files; over a run of boots, an image that was replaced without its stamp is remembered
until a stamp is written.
-/

namespace Stormnetboot.Init

open Stormnetboot.Common

/-- What the golden carries for the boot media. -/
structure Golden where
  bootEfi : Option Bytes
  conf : Option Text
  deriving DecidableEq, Repr

/-- The digest it declares. -/
def Golden.digest (golden : Golden) : Option Text :=
  golden.conf.bind palletOfText

/-- How a stamp is kept on the ESP. What is written is read back. -/
structure StampFormat (Stamp : Type) where
  read : Stamp → Option Text
  write : Text → Stamp
  read_write : ∀ content, read (write content) = some content

/-- As text. -/
def StampFormat.text : StampFormat Text :=
  ⟨some, id, fun _ => rfl⟩

/-- The files of the ESP that a refresh touches. -/
structure EspWith (Stamp : Type) where
  image : Bytes
  staged : Option Bytes
  stamp : Option Stamp
  deriving DecidableEq, Repr

/-- The digest its stamp names. -/
def EspWith.digestBy {Stamp : Type} (format : StampFormat Stamp) (esp : EspWith Stamp) :
    Option Text :=
  (esp.stamp.bind format.read).bind palletOfText

/-- The files with a stamp that is written as a whole. -/
abbrev Esp := EspWith Text

/-- The digest its stamp names. -/
def Esp.digest (esp : Esp) : Option Text :=
  esp.stamp.bind palletOfText

/-- A stamp that is text is read as it is. -/
theorem Esp.digestBy_text (esp : Esp) : esp.digestBy .text = esp.digest := by
  rw [EspWith.digestBy, Esp.digest]
  cases esp.stamp <;> rfl

/-- Where the golden carries its image. -/
def ukiPath : Text := joinPath (joinPath sysroot payloadDir) payloadUki

/-- Where it declares its digest. -/
def confPath : Text := joinPath (joinPath sysroot payloadDir) payloadConf

/-- A boot: its command line, the golden it booted, and the steps that fail in it. -/
structure BootAttempt where
  params : BootParams
  golden : Golden
  fault : SysOp → Option Text

namespace BootAttempt

section Files

variable {Stamp : Type}

/-- A step that fails leaves the ESP as it was. -/
def unlessFault (b : BootAttempt) (op : SysOp) (esp : EspWith Stamp)
    (next : Except Text Unit × EspWith Stamp) : Except Text Unit × EspWith Stamp :=
  match b.fault op with
  | some err => (.error err, esp)
  | none => next

/-- The operations on the golden's files and the ESP's. Renaming is atomic, what is there can
be read, and no other operation touches the ESP. -/
def handleWith (b : BootAttempt) (format : StampFormat Stamp) :
    Handler SysOp SysOp.Ans (EspWith Stamp) := fun op esp =>
  match op with
  | .pathExists path =>
    (if path = ukiPath then b.golden.bootEfi.isSome
      else if path = confPath then b.golden.conf.isSome
      else if path = stampPath then esp.stamp.isSome
      else false, esp)
  | .readFile path =>
    let content :=
      if path = confPath then b.golden.conf
      else if path = stampPath then esp.stamp.bind format.read
      else none
    (match content with
      | some text => .ok text
      | none => .error "No such file or directory".toList, esp)
  | .copyFile source target =>
    b.unlessFault (.copyFile source target) esp <|
      if source = ukiPath ∧ target = stagedUkiPath then
        match b.golden.bootEfi with
        | some image => (.ok (), { esp with staged := some image })
        | none => (.error "No such file or directory".toList, esp)
      else (.ok (), esp)
  | .rename source target =>
    b.unlessFault (.rename source target) esp <|
      if source = stagedUkiPath ∧ target = liveUkiPath then
        match esp.staged with
        | some image => (.ok (), { esp with image := image, staged := none })
        | none => (.error "No such file or directory".toList, esp)
      else (.ok (), esp)
  | .writeFile path content =>
    b.unlessFault (.writeFile path content) esp <|
      (.ok (), if path = stampPath then { esp with stamp := some (format.write content) } else esp)
  | .createDirAll path => b.unlessFault (.createDirAll path) esp (.ok (), esp)
  | .syncFile path => b.unlessFault (.syncFile path) esp (.ok (), esp)
  | .spawnEngine argv env => b.unlessFault (.spawnEngine argv env) esp (.ok (), esp)
  | .command argv env =>
    (match b.fault (.command argv env) with
      | some err => .notStarted err
      | none => .exited true "exit status: 0".toList [], esp)
  | .stamp _ => ((), esp)
  | .warn _ => ((), esp)
  | .report _ _ => ((), esp)
  | .readDir _ => (none, esp)
  | .appendLine _ _ => (.appended, esp)
  | .killEngine => ((), esp)
  | .waitFor _ _ => (true, esp)
  | .execReplace _ => ([], esp)

end Files

/-- The same where a stamp is text. -/
def handle (b : BootAttempt) : Handler SysOp SysOp.Ans Esp :=
  b.handleWith .text

end BootAttempt

/-- The operation is not one of the three that change a file of the ESP. -/
def Quiet : SysOp → Prop
  | .copyFile _ _ => False
  | .rename _ _ => False
  | .writeFile _ _ => False
  | _ => True

section Files

variable {Stamp : Type} (format : StampFormat Stamp) (b : BootAttempt) (esp : EspWith Stamp)

/-- A stamp that was written names the digest it was written for. -/
theorem StampFormat.digest_write {wanted : Text} (h : IsDigest wanted) :
    (format.read (format.write (stampText wanted))).bind palletOfText = some wanted := by
  rw [format.read_write, Option.bind_some]
  exact palletOfText_stampText wanted h

/-- A step with no effect of its own has none, whether it fails or not. -/
theorem unlessFault_snd_eq (op : SysOp) (answer : Except Text Unit) :
    (b.unlessFault op esp (answer, esp)).2 = esp := by
  unfold BootAttempt.unlessFault
  cases b.fault op <;> rfl

/-- A quiet operation leaves the ESP alone. -/
theorem handleWith_quiet (op : SysOp) (h : Quiet op) : (b.handleWith format op esp).2 = esp := by
  cases op with
  | copyFile source target => cases h
  | rename source target => cases h
  | writeFile path content => cases h
  | createDirAll path => exact unlessFault_snd_eq b esp _ _
  | syncFile path => exact unlessFault_snd_eq b esp _ _
  | spawnEngine argv env => exact unlessFault_snd_eq b esp _ _
  | pathExists path => rfl
  | readFile path => rfl
  | command argv env => rfl
  | stamp message => rfl
  | warn message => rfl
  | report phase detail => rfl
  | readDir path => rfl
  | appendLine path line => rfl
  | killEngine => rfl
  | waitFor path seconds => rfl
  | execReplace argv => rfl

/-- The copy stages the golden's image. -/
theorem handleWith_copyFile :
    (b.handleWith format (.copyFile ukiPath stagedUkiPath) esp).2.image = esp.image ∧
      (b.handleWith format (.copyFile ukiPath stagedUkiPath) esp).2.stamp = esp.stamp ∧
      ((b.handleWith format (.copyFile ukiPath stagedUkiPath) esp).1 = .ok () →
        (b.handleWith format (.copyFile ukiPath stagedUkiPath) esp).2.staged =
          b.golden.bootEfi) := by
  simp only [BootAttempt.handleWith, BootAttempt.unlessFault, and_self, if_true]
  cases b.fault (.copyFile ukiPath stagedUkiPath) with
  | some err => exact ⟨rfl, rfl, fun h => by cases h⟩
  | none =>
    cases b.golden.bootEfi with
    | none => exact ⟨rfl, rfl, fun h => by cases h⟩
    | some image => exact ⟨rfl, rfl, fun _ => rfl⟩

/-- The rename makes the staged image the live one. -/
theorem handleWith_rename :
    (b.handleWith format (.rename stagedUkiPath liveUkiPath) esp).2.stamp = esp.stamp ∧
      ((b.handleWith format (.rename stagedUkiPath liveUkiPath) esp).2.image = esp.image ∨
        esp.staged = some (b.handleWith format (.rename stagedUkiPath liveUkiPath) esp).2.image) ∧
      ((b.handleWith format (.rename stagedUkiPath liveUkiPath) esp).1 = .ok () →
        esp.staged =
          some (b.handleWith format (.rename stagedUkiPath liveUkiPath) esp).2.image) := by
  simp only [BootAttempt.handleWith, BootAttempt.unlessFault, and_self, if_true]
  cases b.fault (.rename stagedUkiPath liveUkiPath) with
  | some err => exact ⟨rfl, .inl rfl, fun h => by cases h⟩
  | none =>
    cases esp.staged with
    | none => exact ⟨rfl, .inl rfl, fun h => by cases h⟩
    | some image => exact ⟨rfl, .inr rfl, fun _ => rfl⟩

/-- The write replaces the stamp and leaves the image. -/
theorem handleWith_writeFile (content : Text) :
    (b.handleWith format (.writeFile stampPath content) esp).2 = esp ∨
      (b.handleWith format (.writeFile stampPath content) esp).2 =
        { esp with stamp := some (format.write content) } := by
  simp only [BootAttempt.handleWith, BootAttempt.unlessFault, if_true]
  cases b.fault (.writeFile stampPath content) with
  | some err => exact .inl rfl
  | none => exact .inr rfl

/-- The golden names the digest it declares. -/
theorem exec_readPallet_confWith :
    Program.exec (b.handleWith format) (readPallet confPath) esp = (.ok b.golden.digest, esp) := by
  have hread : b.handleWith format (.readFile confPath) esp =
      (match b.golden.conf with
        | some text => .ok text
        | none => .error "No such file or directory".toList, esp) := rfl
  unfold Golden.digest readPallet
  rw [Program.bind_perform, Program.exec_call, hread]
  cases b.golden.conf <;> rfl

/-- The stamp names the digest it is read as. -/
theorem exec_readPallet_stampWith :
    Program.exec (b.handleWith format) (readPallet stampPath) esp =
      (.ok (esp.digestBy format), esp) := by
  have hread : b.handleWith format (.readFile stampPath) esp =
      (match esp.stamp.bind format.read with
        | some text => .ok text
        | none => .error "No such file or directory".toList, esp) := rfl
  unfold EspWith.digestBy readPallet
  rw [Program.bind_perform, Program.exec_call, hread]
  cases esp.stamp.bind format.read <;> rfl

end Files

/-- A quiet operation leaves the ESP alone. -/
theorem handle_quiet (b : BootAttempt) (op : SysOp) (esp : Esp) (h : Quiet op) :
    (b.handle op esp).2 = esp :=
  handleWith_quiet .text b esp op h

/-! ## One refresh -/

/-- What is read from the golden. -/
theorem exec_readPallet_conf (b : BootAttempt) (esp : Esp) :
    (Program.exec b.handle (readPallet confPath) esp).1 = .ok b.golden.digest :=
  congrArg Prod.fst (exec_readPallet_confWith .text b esp)

/-- What is read from the stamp. -/
theorem exec_readPallet_stamp (b : BootAttempt) (esp : Esp) :
    (Program.exec b.handle (readPallet stampPath) esp).1 = .ok esp.digest := by
  rw [← esp.digestBy_text]
  exact congrArg Prod.fst (exec_readPallet_stampWith .text b esp)

/-- What an examination performs is quiet. -/
theorem examining_quiet : Examining Quiet :=
  ⟨fun _ => trivial, fun _ => trivial, trivial, fun _ => trivial⟩

/-- The verdict of a pass was come to from the ESP it started with. -/
theorem examined (b : BootAttempt) (esp : Esp) {verdict : Verdict}
    (hexec : (Program.exec b.handle (examine b.params sysroot) esp).1 = .ok verdict) :
    Examined b.handle (· = esp) b.params sysroot verdict :=
  examined_of_exec examining_quiet (fun op s hop hs => (handle_quiet b op s hop).trans hs) rfl hexec

/-- The digests it compared are the declared one and the stamp's. -/
theorem digests_of_examined (b : BootAttempt) {esp : Esp} {wanted : Text} {declared : Option Text}
    (hconf : ∃ s, s = esp ∧ (Program.exec b.handle (readPallet confPath) s).1 = .ok (some wanted))
    (hstamp : ∃ s, s = esp ∧ (b.handle (.pathExists stampPath) s).1 = true ∧
      (Program.exec b.handle (readPallet stampPath) (b.handle (.pathExists stampPath) s).2).1 =
        .ok declared) :
    b.golden.digest = some wanted ∧ esp.digest = declared := by
  obtain ⟨_, rfl, hconf⟩ := hconf
  obtain ⟨esp, rfl, -, hstamp⟩ := hstamp
  rw [exec_readPallet_conf] at hconf
  rw [exec_readPallet_stamp] at hstamp
  exact ⟨Except.ok.inj hconf, Except.ok.inj hstamp⟩

/-- A refresh touches the ESP only by installing a declared digest that its stamp does not
name. -/
theorem visits_mediaRun (b : BootAttempt) (esp t : Esp)
    (hv : Program.Visits b.handle (mediaRun b.params sysroot) esp t) :
    t = esp ∨ ∃ wanted, b.golden.digest = some wanted ∧ esp.digest ≠ some wanted ∧
      Program.Visits b.handle (install ukiPath wanted) esp t := by
  rw [mediaRun_eq] at hv
  rcases (examining_quiet.examine _ _).visits_bind (handle_quiet b) hv with
    rfl | ⟨verdict, hverdict, hv⟩
  · exact .inl rfl
  cases examined b esp hverdict with
  | disabled hdevice => exact .inl ((Program.visits_done_iff ..).mp hv)
  | skipped why => exact .inl ((Program.visits_done_iff ..).mp hv)
  | compared device wanted declared hdevice huki hconf hstamp =>
    obtain ⟨hwanted, hdeclared⟩ := digests_of_examined b hconf hstamp
    unfold Verdict.compare at hv
    split_ifs at hv with hsame
    · exact .inl ((Program.visits_done_iff ..).mp hv)
    · refine .inr ⟨wanted, hwanted, ?_, ?_⟩
      · rintro heq
        rw [← hdeclared, heq] at hsame
        exact hsame rfl
      · exact (Program.visits_mapError_iff ..).mp ((Program.visits_bind_done_iff ..).mp hv)

/-- A refresh that finds the media current has not touched it, and its stamp names the digest
the golden declares. -/
theorem exec_mediaRun_current (b : BootAttempt) (esp t : Esp) (digest : Text)
    (hexec : Program.exec b.handle (mediaRun b.params sysroot) esp = (.ok (.current digest), t)) :
    t = esp ∧ b.golden.digest = some digest ∧ b.golden.bootEfi.isSome ∧
      esp.digest.getD "unknown".toList = digest := by
  rw [mediaRun_eq] at hexec
  obtain ⟨verdict, hverdict, hexec⟩ :=
    (examining_quiet.examine _ _).exec_bind_ok (handle_quiet b) hexec
  cases examined b esp hverdict with
  | disabled hdevice => cases hexec
  | skipped why => cases hexec
  | compared device wanted declared hdevice huki hconf hstamp =>
    obtain ⟨hwanted, hdeclared⟩ := digests_of_examined b hconf hstamp
    obtain ⟨_, -, huki⟩ := huki
    unfold Verdict.compare at hexec
    split_ifs at hexec with hsame
    · cases hexec
      exact ⟨rfl, hwanted, huki, by rw [hdeclared, hsame]⟩
    · have hresult := congrArg Prod.fst ((Program.exec_bind_done ..).symm.trans hexec)
      dsimp only at hresult
      cases hinstall : (Program.exec b.handle (withContext _ _) esp).1 with
      | error err =>
        rw [hinstall] at hresult
        cases hresult
      | ok done =>
        rw [hinstall] at hresult
        cases hresult

/-- Raising the error of an answered operation performs nothing. -/
theorem visits_orFail_iff {α β : Type} (h : Handler SysOp SysOp.Ans Esp) (r : Except Text α)
    (f : α → Boot β) (s t : Esp) :
    Program.Visits h (orFail r >>= f) s t ↔
      t = s ∨ ∃ a, r = .ok a ∧ Program.Visits h (f a) s t := by
  cases r with
  | ok a =>
    constructor
    · exact fun hv => .inr ⟨a, rfl, hv⟩
    · rintro (rfl | ⟨a', ha, hv⟩)
      · exact .here _ _
      · cases ha
        exact hv
  | error err =>
    constructor
    · intro hv
      cases hv
      exact .inl rfl
    · rintro (rfl | ⟨a, ha, -⟩)
      · exact .here _ _
      · cases ha

/-- Passing an answer on is quiet. -/
theorem orFail_quiet (answer : Except Text Unit) : (orFail answer : Boot Unit).Only Quiet := by
  cases answer <;> trivial

/-- The copy stages the golden's image. -/
theorem handle_copyFile (b : BootAttempt) (esp : Esp) :
    (b.handle (.copyFile ukiPath stagedUkiPath) esp).2.stamp = esp.stamp ∧
      ((b.handle (.copyFile ukiPath stagedUkiPath) esp).1 = .ok () →
        (b.handle (.copyFile ukiPath stagedUkiPath) esp).2.staged = b.golden.bootEfi) :=
  (handleWith_copyFile .text b esp).2

/-- The rename makes the staged image the live one. -/
theorem handle_rename (b : BootAttempt) (esp : Esp) :
    (b.handle (.rename stagedUkiPath liveUkiPath) esp).2.stamp = esp.stamp ∧
      ((b.handle (.rename stagedUkiPath liveUkiPath) esp).1 = .ok () →
        esp.staged = some (b.handle (.rename stagedUkiPath liveUkiPath) esp).2.image) :=
  have hrename := handleWith_rename .text b esp
  ⟨hrename.1, hrename.2.2⟩

/-- Wherever an install is cut off, a stamp it has written stands beside the golden's image. -/
theorem visits_install (b : BootAttempt) (wanted : Text) (esp t : Esp)
    (hv : Program.Visits b.handle (install ukiPath wanted) esp t) :
    t.stamp = esp.stamp ∨
      t.stamp = some (stampText wanted) ∧ b.golden.bootEfi = some t.image := by
  have hquiet := handle_quiet b
  unfold install at hv
  rcases Program.visits_checked trivial orFail_quiet hquiet hv with rfl | hv
  · exact .inl rfl
  rcases Program.visits_checked trivial orFail_quiet hquiet hv with rfl | hv
  · exact .inl rfl
  -- the copy
  obtain ⟨hcopyStamp, hcopy⟩ := handle_copyFile b esp
  rcases (Program.visits_perform_bind_iff ..).mp hv with rfl | hv
  · exact .inl rfl
  rcases (visits_orFail_iff ..).mp hv with rfl | ⟨_, hok, hv⟩
  · exact .inl hcopyStamp
  have hstaged := hcopy hok
  generalize (b.handle (.copyFile ukiPath stagedUkiPath) esp).2 = copied at hv hstaged hcopyStamp
  rcases Program.visits_checked trivial orFail_quiet hquiet hv with rfl | hv
  · exact .inl hcopyStamp
  -- the rename
  obtain ⟨hrenameStamp, hrename⟩ := handle_rename b copied
  rw [hcopyStamp] at hrenameStamp
  rcases (Program.visits_perform_bind_iff ..).mp hv with rfl | hv
  · exact .inl hcopyStamp
  rcases (visits_orFail_iff ..).mp hv with rfl | ⟨_, hok, hv⟩
  · exact .inl hrenameStamp
  have hlive := hstaged.symm.trans (hrename hok)
  generalize (b.handle (.rename stagedUkiPath liveUkiPath) copied).2 = renamed
    at hv hlive hrenameStamp
  -- the stamp
  rcases (Program.visits_perform_bind_iff ..).mp hv with rfl | hv
  · exact .inl hrenameStamp
  have hstamped : ∀ m : Esp, (m = renamed ∨ m = { renamed with stamp := some (stampText wanted) }) →
      m.stamp = esp.stamp ∨
        m.stamp = some (stampText wanted) ∧ b.golden.bootEfi = some m.image := by
    rintro m (rfl | rfl)
    · exact .inl hrenameStamp
    · exact .inr ⟨rfl, hlive⟩
  have hwrite := hstamped _ (handleWith_writeFile .text b renamed (stampText wanted))
  rcases (visits_orFail_iff ..).mp hv with rfl | ⟨_, -, hv⟩
  · exact hwrite
  rcases Program.visits_checked trivial orFail_quiet hquiet hv with rfl | hv
  · exact hwrite
  rcases (Program.only_perform _ trivial).visits_bind hquiet hv with rfl | ⟨_, -, hv⟩
  · exact hwrite
  · obtain rfl := (Program.visits_done_iff ..).mp hv
    exact hwrite

/-! ## The whole refresh -/

/-- The conclusion is quiet. -/
theorem concludeRefresh_quiet (outcome : Outcome) : (concludeRefresh outcome).Only Quiet :=
  concludeRefresh_only trivial (fun _ => trivial) (fun _ => trivial) outcome

/-- It returns the outcome it was given. -/
theorem concludeRefresh_ends (outcome : Outcome) :
    (concludeRefresh outcome).Ends fun r => ∀ result, r = .ok result → result = outcome := by
  -- whatever a step ends in, the value of the whole is that of the last
  have hstep : ∀ {α : Type} (p : Boot α) {f : α → Boot Outcome},
      (∀ a, (f a).Ends fun r => ∀ result, r = .ok result → result = outcome) →
        (p >>= f).Ends fun r => ∀ result, r = .ok result → result = outcome :=
    fun p _ hf => Program.ends_bind p.ends_true (fun a _ => hf a) fun _ _ _ h => nomatch h
  have hdone : ∀ result, (.ok outcome : Except Stop Outcome) = .ok result → result = outcome :=
    fun _ h => (Except.ok.inj h).symm
  refine hstep _ fun _ => ?_
  cases outcome with
  | disabled => exact hdone
  | current digest => exact hstep _ fun _ => hstep _ fun _ => hdone
  | updated fromDigest toDigest =>
    refine hstep _ fun _ => hstep _ fun _ => hstep _ fun _ => ?_
    exact hstep _ fun _ => hstep _ fun _ => hstep _ fun _ => hdone
  | skipped why => exact hstep _ fun _ => hdone

/-- It leaves the ESP as it was. -/
theorem exec_concludeRefresh_ok (b : BootAttempt) (outcome result : Outcome) (esp t : Esp)
    (hexec : Program.exec b.handle (concludeRefresh outcome) esp = (.ok result, t)) :
    result = outcome ∧ t = esp := by
  have hstate := (concludeRefresh_quiet outcome).exec_eq (handle_quiet b) esp
  have hresult := (concludeRefresh_ends outcome).exec b.handle esp
  rw [hexec] at hstate hresult
  exact ⟨hresult result rfl, hstate⟩

/-- The refresh visits no ESP its pass does not. -/
theorem visits_refresh (b : BootAttempt) (esp t : Esp)
    (hv : Program.Visits b.handle (refresh b.params sysroot) esp t) :
    Program.Visits b.handle (mediaRun b.params sysroot) esp t := by
  have hquiet := handle_quiet b
  have hpass := Program.visits_exec b.handle (mediaRun b.params sysroot) esp
  rcases (Program.visits_bind_iff ..).mp hv with hv | ⟨result, m, hexec, hv⟩
  · exact (Program.visits_attempt_iff ..).mp hv
  rw [Program.exec_attempt] at hexec
  obtain rfl : (Program.exec b.handle (mediaRun b.params sysroot) esp).2 = m :=
    congrArg Prod.snd hexec
  match result with
  | .ok outcome =>
    rw [(concludeRefresh_quiet _).visits_eq hquiet hv]
    exact hpass
  | .error (.error err) =>
    rw [(concludeRefresh_quiet _).visits_eq hquiet hv]
    exact hpass
  | .error .panic =>
    cases hv
    exact hpass

/-- What it returns as current, its pass found current. -/
theorem exec_refresh_current (b : BootAttempt) (esp t : Esp) (digest : Text)
    (hexec : Program.exec b.handle (refresh b.params sysroot) esp = (.ok (.current digest), t)) :
    Program.exec b.handle (mediaRun b.params sysroot) esp = (.ok (.current digest), t) := by
  unfold refresh at hexec
  rw [Program.exec_bind, Program.exec_attempt] at hexec
  generalize Program.exec b.handle (mediaRun b.params sysroot) esp = ended at hexec ⊢
  obtain ⟨result, m⟩ := ended
  match result with
  | .ok outcome =>
    obtain ⟨rfl, rfl⟩ := exec_concludeRefresh_ok b _ _ _ _ hexec
    rfl
  | .error (.error err) =>
    obtain ⟨hne, -⟩ := exec_concludeRefresh_ok b _ _ _ _ hexec
    cases hne
  | .error .panic => cases hexec

/-! ## Runs of boots -/

/-- A boot, and the ESP as its refresh left it, ended or cut off. -/
structure BootRecord where
  boot : BootAttempt
  left : Esp

/-- Every boot starts from the ESP that the one before it left. -/
def Chained (esp : Esp) : List BootRecord → Prop
  | [] => True
  | r :: rest =>
    Program.Visits r.boot.handle (refresh r.boot.params sysroot) esp r.left ∧
      Chained r.left rest

/-- A run of boots with one ESP, whose stamp names its image to begin with. A digest stands for
one image throughout. -/
structure MediaRun where
  imageOf : Text → Bytes
  start : Esp
  boots : List BootRecord
  named : ∃ digest, start.digest = some digest ∧ start.image = imageOf digest
  consistent : ∀ r ∈ boots, ∀ digest image, r.boot.golden.digest = some digest →
    r.boot.golden.bootEfi = some image → image = imageOf digest
  chained : Chained start boots

/-- If the refresh says the media is current, the ESP holds the image of the golden that
declares the digest. -/
def Truthful (boot : BootAttempt) (esp : Esp) : Prop :=
  ∀ digest after,
    Program.exec boot.handle (refresh boot.params sysroot) esp = (.ok (.current digest), after) →
      boot.golden.digest = some digest ∧ boot.golden.bootEfi = some after.image

/-- Every boot of the run is truthful. -/
def AllTruthful (esp : Esp) : List BootRecord → Prop
  | [] => True
  | r :: rest => Truthful r.boot esp ∧ AllTruthful r.left rest

/-- No refresh of the run says that the media is current when it is not. -/
def MediaRun.NeverMisreports (run : MediaRun) : Prop :=
  AllTruthful run.start run.boots

/-- The image the ESP held when its stamp was last written. -/
def imageAtStamp (marked : Bytes) (before after : Esp) : Bytes :=
  if after.stamp = before.stamp then marked else after.image

/-- No golden that declares the digest the stamp names is booted while the image is not the one
the stamp was written with. -/
def NoRollbackAfterCut (marked : Bytes) (esp : Esp) : List BootRecord → Prop
  | [] => True
  | r :: rest =>
    (r.boot.golden.digest = esp.digest → esp.image = marked) ∧
      NoRollbackAfterCut (imageAtStamp marked esp r.left) r.left rest

/-- No boot of the run goes back to the golden of an image that a cut has left. -/
def MediaRun.NoRollbackAfterCut (run : MediaRun) : Prop :=
  Stormnetboot.Init.NoRollbackAfterCut run.start.image run.start run.boots

/-- The stamp names the image it was written with. -/
def Marked (imageOf : Text → Bytes) (marked : Bytes) (esp : Esp) : Prop :=
  ∃ digest, esp.digest = some digest ∧ marked = imageOf digest

/-- A refresh that runs to its end or is cut off keeps the stamp naming the image it was written
with. -/
theorem marked_of_visits_refresh (imageOf : Text → Bytes) (b : BootAttempt) (marked : Bytes)
    (esp t : Esp) (hmarked : Marked imageOf marked esp)
    (hconsistent : ∀ digest image, b.golden.digest = some digest →
      b.golden.bootEfi = some image → image = imageOf digest)
    (hv : Program.Visits b.handle (refresh b.params sysroot) esp t) :
    Marked imageOf (imageAtStamp marked esp t) t := by
  obtain ⟨digest, hdigest, himage⟩ := hmarked
  have hkept : t.stamp = esp.stamp → Marked imageOf (imageAtStamp marked esp t) t := by
    intro hstamp
    refine ⟨digest, ?_, ?_⟩
    · rw [Esp.digest, hstamp]
      exact hdigest
    · rw [imageAtStamp, if_pos hstamp]
      exact himage
  rcases visits_mediaRun b esp t (visits_refresh b esp t hv) with rfl | ⟨wanted, hwanted, hne, hv⟩
  · exact hkept rfl
  rcases visits_install b wanted esp t hv with hstamp | ⟨hstamp, hbootEfi⟩
  · exact hkept hstamp
  obtain ⟨text, -, htext⟩ := Option.bind_eq_some_iff.mp hwanted
  have hread : t.digest = some wanted := by
    rw [Esp.digest, hstamp, Option.bind_some]
    exact palletOfText_stampText wanted (isDigest_of_palletOfText htext)
  have hchanged : t.stamp ≠ esp.stamp := by
    intro heq
    rw [Esp.digest, heq] at hread
    exact hne hread
  refine ⟨wanted, hread, ?_⟩
  rw [imageAtStamp, if_neg hchanged]
  exact hconsistent wanted t.image hwanted hbootEfi

/-- A boot is truthful when the stamp names the image it was written with and that image is
still there. -/
theorem truthful_of_marked (imageOf : Text → Bytes) (b : BootAttempt) (marked : Bytes) (esp : Esp)
    (hmarked : Marked imageOf marked esp)
    (hconsistent : ∀ digest image, b.golden.digest = some digest →
      b.golden.bootEfi = some image → image = imageOf digest)
    (hcut : b.golden.digest = esp.digest → esp.image = marked) : Truthful b esp := by
  intro digest after hexec
  obtain ⟨named, hnamed, himage⟩ := hmarked
  obtain ⟨rfl, hdigest, hefi, hinstalled⟩ :=
    exec_mediaRun_current b esp after digest (exec_refresh_current b esp after digest hexec)
  rw [hnamed, Option.getD_some] at hinstalled
  subst hinstalled
  obtain ⟨image, hbootEfi⟩ := Option.isSome_iff_exists.mp hefi
  refine ⟨hdigest, ?_⟩
  rw [hbootEfi, hconsistent named image hdigest hbootEfi, hcut (hdigest.trans hnamed.symm), himage]

/-- What one boot preserves, over the boots of a run. -/
theorem allTruthful_of_noRollbackAfterCut (imageOf : Text → Bytes) (marked : Bytes) (esp : Esp)
    (boots : List BootRecord) (hmarked : Marked imageOf marked esp)
    (hconsistent : ∀ r ∈ boots, ∀ digest image, r.boot.golden.digest = some digest →
      r.boot.golden.bootEfi = some image → image = imageOf digest)
    (hchained : Chained esp boots) (hcut : NoRollbackAfterCut marked esp boots) :
    AllTruthful esp boots := by
  induction boots generalizing marked esp with
  | nil => trivial
  | cons r rest ih =>
    have hhere := hconsistent r List.mem_cons_self
    refine ⟨truthful_of_marked imageOf r.boot marked esp hmarked hhere hcut.1, ?_⟩
    exact ih _ _ (marked_of_visits_refresh imageOf r.boot marked esp r.left hmarked hhere hchained.1)
      (fun r' hr' => hconsistent r' (List.mem_cons_of_mem _ hr')) hchained.2 hcut.2

/-- The media never misreports itself in a run in which no golden is rolled back to across a
refresh that replaced the image and was cut off before it wrote the stamp. -/
theorem neverMisreports_of_noRollbackAfterCut (run : MediaRun) (hcut : run.NoRollbackAfterCut) :
    run.NeverMisreports := by
  obtain ⟨digest, hdigest, himage⟩ := run.named
  exact allTruthful_of_noRollbackAfterCut run.imageOf run.start.image run.start run.boots
    ⟨digest, hdigest, himage⟩ run.consistent run.chained hcut

/-! ## A refresh cut off after its rename -/

/-- Two goldens, the media the first of them built, and that media with the second one's image
in place and the stamp still the first one's. -/
def firstGolden : Golden := ⟨some [1], some "pallet=sha256:a\n".toList⟩

/-- The golden that the media is updated to. -/
def secondGolden : Golden := ⟨some [2], some "pallet=sha256:b\n".toList⟩

/-- Media of the first golden. -/
def firstMedia : Esp := ⟨[1], none, some "pallet=sha256:a\n".toList⟩

/-- The same after a cut between the rename and the stamp. -/
def cutMedia : Esp := ⟨[2], none, some "pallet=sha256:a\n".toList⟩

/-- The media when the update is over. -/
def secondMedia : Esp := ⟨[2], none, some (stampText "sha256:b".toList)⟩

/-- The images of the two digests. -/
def imageOfGoldens (digest : Text) : Bytes :=
  if digest = "sha256:a".toList then [1] else [2]

/-- A boot from that media in which every step succeeds. -/
def bootOf (golden : Golden) : BootAttempt where
  params := BootParams.parse "rd.stormnetboot.media=/dev/sda1".toList
  golden := golden
  fault _ := none

/-- The second golden's refresh, cut off after twelve operations. -/
theorem visits_cutMedia (start : Esp) (hstart : start = firstMedia ∨ start = cutMedia) :
    Program.Visits (bootOf secondGolden).handle (refresh (bootOf secondGolden).params sysroot)
      start cutMedia := by
  rcases hstart with rfl | rfl
  · have hcut : Program.stateAfter (bootOf secondGolden).handle 12
        (refresh (bootOf secondGolden).params sysroot) firstMedia = cutMedia := by decide
    rw [← hcut]
    exact Program.visits_stateAfter ..
  · exact .here _ _

/-- The second golden's refresh of the media it was cut off on runs to its end. -/
theorem visits_secondMedia :
    Program.Visits (bootOf secondGolden).handle (refresh (bootOf secondGolden).params sysroot)
      cutMedia secondMedia := by
  have hend : (Program.exec (bootOf secondGolden).handle
      (refresh (bootOf secondGolden).params sysroot) cutMedia).2 = secondMedia := by decide
  rw [← hend]
  exact Program.visits_exec ..

/-- Both goldens declare the digests of their images. -/
theorem imageOfGoldens_consistent (golden : Golden)
    (hgolden : golden = firstGolden ∨ golden = secondGolden) (digest : Text) (image : Bytes)
    (hdigest : golden.digest = some digest) (himage : golden.bootEfi = some image) :
    image = imageOfGoldens digest := by
  rcases hgolden with rfl | rfl
  · cases himage
    cases hdigest
    rfl
  · cases himage
    cases hdigest
    rfl

/-- The refresh of the second golden is cut off after its rename, and the first golden is booted
again. -/
def rollbackRun : MediaRun where
  imageOf := imageOfGoldens
  start := firstMedia
  boots := [⟨bootOf secondGolden, cutMedia⟩, ⟨bootOf firstGolden, cutMedia⟩]
  named := ⟨"sha256:a".toList, rfl, rfl⟩
  consistent := by
    intro r hr
    simp only [List.mem_cons, List.not_mem_nil, or_false] at hr
    rcases hr with rfl | rfl
    · exact imageOfGoldens_consistent _ (.inr rfl)
    · exact imageOfGoldens_consistent _ (.inl rfl)
  chained := ⟨visits_cutMedia _ (.inl rfl), .here _ _, trivial⟩

/-- The stamp then names the first golden and the image is the second one's. -/
theorem not_neverMisreports_rollbackRun : ¬ rollbackRun.NeverMisreports := by
  rintro ⟨-, hfirst, -⟩
  have hcurrent : Program.exec (bootOf firstGolden).handle
      (refresh (bootOf firstGolden).params sysroot) cutMedia =
        (.ok (.current "sha256:a".toList), cutMedia) := by decide
  obtain ⟨-, himage⟩ := hfirst "sha256:a".toList cutMedia hcurrent
  cases himage

/-- The refresh of the second golden is cut off in the same place and runs to its end at the
next boot; then the first golden is booted again. -/
def retryRun : MediaRun where
  imageOf := imageOfGoldens
  start := firstMedia
  boots := [⟨bootOf secondGolden, cutMedia⟩, ⟨bootOf secondGolden, secondMedia⟩,
    ⟨bootOf firstGolden, secondMedia⟩]
  named := ⟨"sha256:a".toList, rfl, rfl⟩
  consistent := by
    intro r hr
    simp only [List.mem_cons, List.not_mem_nil, or_false] at hr
    rcases hr with rfl | rfl | rfl
    · exact imageOfGoldens_consistent _ (.inr rfl)
    · exact imageOfGoldens_consistent _ (.inr rfl)
    · exact imageOfGoldens_consistent _ (.inl rfl)
  chained := ⟨visits_cutMedia _ (.inl rfl), visits_secondMedia, .here _ _, trivial⟩

/-- By the general result no refresh of that run misreports. -/
theorem retryRun_neverMisreports : retryRun.NeverMisreports := by
  have hretry : secondGolden.digest ≠ cutMedia.digest := by decide
  have hrollback : firstGolden.digest ≠ secondMedia.digest := by decide
  exact neverMisreports_of_noRollbackAfterCut retryRun
    ⟨fun _ => rfl, fun h => absurd h hretry, fun h => absurd h hrollback, trivial⟩

end Stormnetboot.Init

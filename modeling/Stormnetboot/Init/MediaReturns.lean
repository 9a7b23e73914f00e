import Stormnetboot.Init.MediaConverges
import Stormnetboot.Init.StepEnds

/-!
# The media pass and the rest of the boot

The pass is meant never to fail a boot: every error it meets becomes an outcome. What is left is
the slice that abbreviates a digest for the console, which panics inside a character. The digests
are whatever the golden's `media.conf` and the stamp on the media say, so whether the pass can
panic is a question about these two texts.
-/

namespace Stormnetboot.Init

open Stormnetboot.Common

/-- The digest a file's text declares, if the file can be read and declares one. -/
def declaredBy (content : Option Text) : Option Text :=
  content.bind palletOfText

/-- The system reads the two files with the given contents; a file without one is absent,
unreadable or not UTF-8. Everything else it answers is its own affair. -/
structure ServesMedia {σ : Type} (conf mediaStamp : Option Text)
    (h : Handler SysOp SysOp.Ans σ) : Prop where
  reads_conf : ∀ s, Except.toOption (h (.readFile confPath) s).1 = conf
  reads_stamp : ∀ s, Except.toOption (h (.readFile stampPath) s).1 = mediaStamp

/-- The pass comes back with an outcome on every system that serves the two files. -/
def AlwaysReturns (params : BootParams) (conf mediaStamp : Option Text) : Prop :=
  ∀ (σ : Type) (h : Handler SysOp SysOp.Ans σ) (s : σ), ServesMedia conf mediaStamp h →
    ∃ outcome, (Program.exec h (refresh params sysroot) s).1 = .ok outcome

/-- The digests the pass may name can be abbreviated. -/
def DigestsAbbreviable (conf mediaStamp : Option Text) : Prop :=
  ∀ wanted, declaredBy conf = some wanted →
    Abbreviable wanted ∧ ∀ installed, declaredBy mediaStamp = some installed → Abbreviable installed

/-! ## The pass up to its outcome -/

/-- The pass before its logging does not panic. -/
def NeverPanics {α : Type} (p : Boot α) : Prop :=
  p.Ends fun r => r ≠ .error .panic

/-- Two steps that do not panic do not panic in sequence. -/
theorem NeverPanics.bind {α β : Type} {p : Boot α} {f : α → Boot β} (hp : NeverPanics p)
    (hf : ∀ a, NeverPanics (f a)) : NeverPanics (p >>= f) :=
  Program.ends_bind hp (fun a _ => hf a) fun e he heq => by
    cases heq
    exact he rfl

/-- A step that ends with a value does not panic. -/
theorem neverPanics_of_succeeds {α : Type} {p : Boot α} (hp : p.Succeeds) : NeverPanics p :=
  hp.mono fun r ⟨a, ha⟩ heq => by cases ha.symm.trans heq

/-- An error is no panic. -/
theorem neverPanics_bail {α : Type} (message : Text) : NeverPanics (bail message : Boot α) := by
  intro h
  cases h

/-- Neither is the error of an answer. -/
theorem neverPanics_orFail {α : Type} (answer : Except Text α) :
    NeverPanics (orFail answer : Boot α) := by
  cases answer with
  | ok a => exact neverPanics_of_succeeds ⟨a, rfl⟩
  | error err => exact neverPanics_bail err

/-- Context does not turn an error into a panic. -/
theorem neverPanics_withContext {α : Type} {context : Text} {p : Boot α} (hp : NeverPanics p) :
    NeverPanics (withContext context p) := by
  refine Program.ends_mapError hp (fun a _ h => by cases h) fun e he heq => ?_
  cases e with
  | panic => exact he rfl
  | error message => cases heq

/-- An install does not panic. -/
theorem install_neverPanics (payloadUkiPath wanted : Text) :
    NeverPanics (install payloadUkiPath wanted) := by
  have hchecked : ∀ (op : SysOp) (f : SysOp.Ans op → Boot Unit) (next : Unit → Boot Unit),
      (∀ answer, NeverPanics (f answer)) → (∀ r, NeverPanics (next r)) →
        NeverPanics (Program.perform op >>= fun answer => f answer >>= next) :=
    fun op f next hf hnext answer => (hf answer).bind hnext
  refine hchecked _ _ _ neverPanics_orFail fun _ => ?_
  refine hchecked _ _ _ neverPanics_orFail fun _ => ?_
  refine hchecked _ _ _ neverPanics_orFail fun _ => ?_
  refine hchecked _ _ _ neverPanics_orFail fun _ => ?_
  refine hchecked _ _ _ neverPanics_orFail fun _ => ?_
  refine hchecked _ _ _ neverPanics_orFail fun _ => ?_
  refine hchecked _ _ _ neverPanics_orFail fun _ => ?_
  exact (neverPanics_of_succeeds (runCommand_succeeds _)).bind fun _ =>
    neverPanics_of_succeeds ⟨(), rfl⟩

/-- The pass itself does not; only what is said of it afterwards can. -/
theorem mediaRun_neverPanics (params : BootParams) (sysroot : Text) :
    NeverPanics (mediaRun params sysroot) := by
  have houtcome : ∀ outcome, NeverPanics (.done outcome : Boot Outcome) :=
    fun outcome => neverPanics_of_succeeds ⟨outcome, rfl⟩
  unfold mediaRun
  cases params.mediaDev with
  | none => exact houtcome _
  | some device =>
    refine (neverPanics_of_succeeds (pathExists_succeeds _)).bind fun uki => ?_
    split_ifs
    · exact houtcome _
    refine (neverPanics_of_succeeds (pathExists_succeeds _)).bind fun conf => ?_
    split_ifs
    · exact houtcome _
    refine (neverPanics_of_succeeds (readPallet_succeeds _)).bind fun declared => ?_
    cases declared with
    | none => exact neverPanics_bail _
    | some wanted =>
      refine (neverPanics_of_succeeds (createDirAllOk_succeeds _)).bind fun _ => ?_
      refine (neverPanics_of_succeeds (mountVfat_succeeds _ _)).bind fun mounted => ?_
      split_ifs
      · exact houtcome _
      refine (neverPanics_of_succeeds (pathExists_succeeds _)).bind fun stamped => ?_
      split_ifs
      · exact houtcome _
      refine (neverPanics_of_succeeds (readPallet_succeeds _)).bind fun installed => ?_
      simp only
      split_ifs
      · exact houtcome _
      · exact (neverPanics_withContext (install_neverPanics _ _)).bind fun _ => houtcome _

/-- The digests of an outcome come from the two files. -/
def NamesServed (conf mediaStamp : Option Text) : Outcome → Prop
  | .current digest => declaredBy conf = some digest
  | .updated fromDigest toDigest =>
    fromDigest = (declaredBy mediaStamp).getD "unknown".toList ∧ declaredBy conf = some toDigest
  | _ => True

section

variable {σ : Type} {h : Handler SysOp SysOp.Ans σ} {conf mediaStamp : Option Text}

/-- What is served is read as what it declares. -/
theorem exec_readPallet_served {path : Text} {content : Option Text}
    (hreads : ∀ s, Except.toOption (h (.readFile path) s).1 = content) (s : σ) :
    Program.exec h (readPallet path) s =
      (.ok (declaredBy content), (h (.readFile path) s).2) := by
  have hcontent := hreads s
  rw [readPallet, Program.bind_perform, Program.exec_call]
  rcases hanswer : (h (.readFile path) s).1 with err | text
  · rw [hanswer] at hcontent
    rw [← hcontent]
    rfl
  · rw [hanswer] at hcontent
    rw [← hcontent]
    rfl

/-- What was read is what the file declares. -/
theorem declaredBy_of_exec {path : Text} {content declared : Option Text}
    (hreads : ∀ s, Except.toOption (h (.readFile path) s).1 = content) {s t : σ}
    (hexec : Program.exec h (readPallet path) s = (.ok declared, t)) :
    declaredBy content = declared := by
  rw [exec_readPallet_served hreads] at hexec
  exact Except.ok.inj (Prod.mk.inj hexec).1

/-- The pass names what the two files declare. -/
theorem namesServed_of_mediaRun (hserves : ServesMedia conf mediaStamp h) {params : BootParams}
    {s : σ} {outcome : Outcome}
    (hexec : (Program.exec h (mediaRun params sysroot) s).1 = .ok outcome) :
    NamesServed conf mediaStamp outcome := by
  rw [mediaRun_eq] at hexec
  obtain ⟨verdict, t, hverdict, hexec⟩ := Program.exec_bind_eq_ok hexec
  have hexamined : Examined h (fun _ => True) params sysroot verdict :=
    examined_of_exec ⟨fun _ => trivial, fun _ => trivial, trivial, fun _ => trivial⟩
      (fun _ _ (_ : True) _ => trivial) trivial (congrArg Prod.fst hverdict)
  cases hexamined with
  | disabled hdevice =>
    cases hexec
    trivial
  | skipped why =>
    cases hexec
    trivial
  | compared device wanted declared hdevice huki hconf hstamp =>
    obtain ⟨_, -, hconf⟩ := hconf
    obtain ⟨_, -, -, hstamp⟩ := hstamp
    have hwanted := declaredBy_of_exec hserves.reads_conf (Prod.ext hconf rfl)
    have hdeclared := declaredBy_of_exec hserves.reads_stamp (Prod.ext hstamp rfl)
    unfold Verdict.compare at hexec
    split_ifs at hexec
    · cases hexec
      exact hwanted
    · obtain ⟨_, t, -, hexec⟩ := Program.exec_bind_eq_ok hexec
      cases hexec
      exact ⟨by rw [hdeclared], hwanted⟩

end

/-! ## Its logging -/

/-- The digests of the outcome can be abbreviated. -/
def Loggable : Outcome → Prop
  | .current digest => Abbreviable digest
  | .updated fromDigest toDigest => Abbreviable fromDigest ∧ Abbreviable toDigest
  | _ => True

/-- Such an outcome is logged and reported without a panic. -/
theorem concludeRefresh_succeeds {outcome : Outcome} (hloggable : Loggable outcome) :
    (concludeRefresh outcome).Succeeds := by
  refine (runCommand_succeeds _).ends_bind fun _ => ?_
  cases outcome with
  | disabled => exact ⟨_, rfl⟩
  | current digest =>
    obtain ⟨text, htext⟩ := exists_short hloggable
    simp only [htext, Program.bind_done]
    exact (stamp_succeeds _).ends_bind fun _ => ⟨_, rfl⟩
  | updated fromDigest toDigest =>
    obtain ⟨fromText, hfromText⟩ := exists_short hloggable.1
    obtain ⟨toText, htoText⟩ := exists_short hloggable.2
    simp only [hfromText, htoText, Program.bind_done]
    refine (stamp_succeeds _).ends_bind fun _ => ?_
    exact (reportPhase_succeeds _ _).ends_bind fun _ => ⟨_, rfl⟩
  | skipped why => exact (stamp_succeeds _).ends_bind fun _ => ⟨_, rfl⟩

/-- Any other outcome panics when it is logged. -/
theorem concludeRefresh_panics {outcome : Outcome} (hloggable : ¬Loggable outcome) :
    (concludeRefresh outcome).Ends fun r => r = .error .panic := by
  refine (runCommand_succeeds _).ends_bind fun _ => ?_
  cases outcome with
  | disabled => exact absurd trivial hloggable
  | current digest =>
    simp only [short_panics hloggable, Program.bind_fail]
    rfl
  | updated fromDigest toDigest =>
    by_cases hfrom : Abbreviable fromDigest
    · obtain ⟨fromText, hfromText⟩ := exists_short hfrom
      simp only [hfromText, short_panics fun hto => hloggable ⟨hfrom, hto⟩, Program.bind_done,
        Program.bind_fail]
      rfl
    · simp only [short_panics hfrom, Program.bind_fail]
      rfl
  | skipped why => exact absurd trivial hloggable

/-- The word for no digest can be abbreviated. -/
theorem abbreviable_unknown : Abbreviable "unknown".toList :=
  fun hlong => absurd hlong (by decide)

/-- Digests that can be abbreviated make a loggable outcome. -/
theorem loggable_of_namesServed {conf mediaStamp : Option Text}
    (hshort : DigestsAbbreviable conf mediaStamp) {outcome : Outcome}
    (hnames : NamesServed conf mediaStamp outcome) : Loggable outcome := by
  cases outcome with
  | disabled => trivial
  | current digest => exact (hshort digest hnames).1
  | updated fromDigest toDigest =>
    obtain ⟨hfrom, hto⟩ := hnames
    obtain ⟨hwanted, hinstalled⟩ := hshort toDigest hto
    refine ⟨?_, hwanted⟩
    rw [hfrom]
    cases hdeclared : declaredBy mediaStamp with
    | none => exact abbreviable_unknown
    | some installed => exact hinstalled installed hdeclared
  | skipped why => trivial

/-- What the pass decided; an error is a skip. -/
def decided : Except Stop Outcome → Outcome
  | .ok outcome => outcome
  | .error (.error message) => .skipped message
  | .error .panic => .disabled

/-- The pass ends as its logging of that does. -/
theorem exec_refresh {σ : Type} (h : Handler SysOp SysOp.Ans σ) (params : BootParams) (s : σ) :
    (Program.exec h (refresh params sysroot) s).1 =
      (Program.exec h (concludeRefresh (decided (Program.exec h (mediaRun params sysroot) s).1))
        (Program.exec h (mediaRun params sysroot) s).2).1 := by
  have hpanic := (mediaRun_neverPanics params sysroot).exec h s
  rw [refresh, Program.exec_bind, Program.exec_attempt]
  rcases hrun : Program.exec h (mediaRun params sysroot) s with ⟨(message | _) | outcome, t⟩
  · rfl
  · rw [hrun] at hpanic
    exact absurd rfl hpanic
  · rfl

/-- The pass comes back exactly with what can be logged. -/
theorem refresh_returns_iff {σ : Type} (h : Handler SysOp SysOp.Ans σ) (params : BootParams)
    (s : σ) :
    (∃ outcome, (Program.exec h (refresh params sysroot) s).1 = .ok outcome) ↔
      Loggable (decided (Program.exec h (mediaRun params sysroot) s).1) := by
  rw [exec_refresh]
  constructor
  · rintro ⟨outcome, houtcome⟩
    by_contra hloggable
    rw [(concludeRefresh_panics hloggable).exec h _] at houtcome
    cases houtcome
  · exact fun hloggable => (concludeRefresh_succeeds hloggable).exec h _ |>.imp fun _ => congrArg Prod.fst

/-! ## The two files -/

/-- A system on which the pass gets as far as the two files let it. -/
def obliging (conf mediaStamp : Option Text) : Handler SysOp SysOp.Ans Unit
  | .readFile path, _ =>
    (((if path = confPath then conf else if path = stampPath then mediaStamp else none).elim
      (.error "No such file or directory".toList) .ok), ())
  | .pathExists _, _ => (true, ())
  | .command _ _, _ => (.exited true "exit status: 0".toList [], ())
  | .readDir _, _ => (none, ())
  | .createDirAll _, _ => (.ok (), ())
  | .writeFile _ _, _ => (.ok (), ())
  | .appendLine _ _, _ => (.appended, ())
  | .copyFile _ _, _ => (.ok (), ())
  | .rename _ _, _ => (.ok (), ())
  | .syncFile _, _ => (.ok (), ())
  | .spawnEngine _ _, _ => (.ok (), ())
  | .waitFor _ _, _ => (true, ())
  | .execReplace _, _ => ([], ())
  | .stamp _, _ => ((), ())
  | .warn _, _ => ((), ())
  | .report _ _, _ => ((), ())
  | .killEngine, _ => ((), ())

/-- The obliging system serves the media. -/
theorem obliging_serves (conf mediaStamp : Option Text) :
    ServesMedia conf mediaStamp (obliging conf mediaStamp) := by
  have htoOption : ∀ content : Option Text,
      Except.toOption (content.elim (.error "No such file or directory".toList) .ok) = content := by
    intro content
    cases content <;> rfl
  refine ⟨fun _ => ?_, fun _ => ?_⟩
  · show Except.toOption (Option.elim (if confPath = confPath then _ else _) _ _) = conf
    rw [if_pos rfl, htoOption]
  · show Except.toOption (Option.elim (if stampPath = confPath then _ else _) _ _) = mediaStamp
    rw [if_neg (by decide), if_pos rfl, htoOption]

/-- There the pass decides as the two files say. -/
theorem exec_mediaRun_obliging {params : BootParams} {device : Text}
    (hmedia : params.mediaDev = some device) {conf mediaStamp : Option Text} {wanted : Text}
    (hconf : declaredBy conf = some wanted) :
    (Program.exec (obliging conf mediaStamp) (mediaRun params sysroot) ()).1 =
      .ok (if (declaredBy mediaStamp).getD "unknown".toList = wanted then .current wanted
        else .updated ((declaredBy mediaStamp).getD "unknown".toList) wanted) := by
  have hserves := obliging_serves conf mediaStamp
  have hreadConf : Program.exec (obliging conf mediaStamp)
      (readPallet (joinPath (joinPath sysroot payloadDir) payloadConf)) () = (.ok (some wanted), ()) := by
    rw [← hconf]
    exact exec_readPallet_served hserves.reads_conf ()
  have hreadStamp : Program.exec (obliging conf mediaStamp) (readPallet stampPath) () =
      (.ok (declaredBy mediaStamp), ()) := exec_readPallet_served hserves.reads_stamp ()
  have hexists : ∀ path, Program.exec (obliging conf mediaStamp) (pathExists path) () =
      (.ok true, ()) := fun _ => rfl
  have hcreate : Program.exec (obliging conf mediaStamp) (createDirAllOk espMount) () =
      (.ok (), ()) := rfl
  have hmount : Program.exec (obliging conf mediaStamp) (mountVfat device espMount) () =
      (.ok true, ()) := rfl
  unfold mediaRun
  rw [hmedia]
  simp only [Program.exec_bind, hexists, hreadConf, hcreate, hmount, hreadStamp, Bool.not_true,
    Bool.false_eq_true, if_false]
  split_ifs
  · rfl
  · have hinstall : Program.exec (obliging conf mediaStamp)
        (install (joinPath (joinPath sysroot payloadDir) payloadUki) wanted) () = (.ok (), ()) := rfl
    rw [Program.exec_bind, withContext, Program.exec_mapError, hinstall]
    rfl

/-- The media pass cannot fail a boot exactly where it has no media to refresh, the golden
declares no digest, or every digest it may name can be cut at its twelfth byte. -/
theorem alwaysReturns_iff (params : BootParams) (conf mediaStamp : Option Text) :
    AlwaysReturns params conf mediaStamp ↔
      params.mediaDev = none ∨ DigestsAbbreviable conf mediaStamp := by
  constructor
  · intro hreturns
    cases hmedia : params.mediaDev with
    | none => exact .inl rfl
    | some device =>
      refine .inr fun wanted hconf => ?_
      have hloggable := (refresh_returns_iff (obliging conf mediaStamp) params ()).mp
        (hreturns Unit _ () (obliging_serves conf mediaStamp))
      rw [exec_mediaRun_obliging hmedia hconf, decided] at hloggable
      split_ifs at hloggable with hsame
      · refine ⟨hloggable, fun installed hstamp => ?_⟩
        rw [hstamp] at hsame
        obtain rfl : installed = wanted := hsame
        exact hloggable
      · refine ⟨hloggable.2, fun installed hstamp => ?_⟩
        rw [hstamp] at hloggable
        exact hloggable.1
  · intro hshort σ h s hserves
    rw [refresh_returns_iff]
    rcases hshort with hnone | hshort
    · have hdisabled : mediaRun params sysroot = .done .disabled := by rw [mediaRun, hnone]
      rw [hdisabled]
      trivial
    · rcases hrun : (Program.exec h (mediaRun params sysroot) s).1 with (message | _) | outcome
      · trivial
      · trivial
      · exact loggable_of_namesServed hshort (namesServed_of_mediaRun hserves hrun)

/-- A digest with an accented letter across its twelfth byte. -/
def accentedDigest : Text := "sha256:0123456789aé0123".toList

/-- A declaration whose digest has an accented letter across its twelfth byte. -/
def accentedConf : Text := "pallet=sha256:0123456789aé0123\n".toList

/-- The stamp of some other build. -/
def otherStamp : Text := "pallet=sha256:none\n".toList

/-- A node on a stick. -/
def mediaNode : BootParams where
  mediaDev := some "/dev/sdb1".toList

/-- The accented digest cannot be abbreviated. -/
theorem not_abbreviable_accentedDigest : ¬Abbreviable accentedDigest := by
  intro habbreviable
  have hhead := habbreviable (by decide)
  have hnone : (takeBytes 12 ((stripPrefix "sha256:".toList accentedDigest).getD
      accentedDigest)).isSome = false := by decide
  rw [hnone] at hhead
  cases hhead

/-- A golden that declares it takes PID 1 down on media that carry any other stamp. -/
theorem not_alwaysReturns_accentedConf :
    ServesMedia (some accentedConf) (some otherStamp)
        (obliging (some accentedConf) (some otherStamp)) ∧
      (Program.exec (obliging (some accentedConf) (some otherStamp))
        (refresh mediaNode sysroot) ()).1 = .error .panic ∧
      ¬AlwaysReturns mediaNode (some accentedConf) (some otherStamp) := by
  have hserves := obliging_serves (some accentedConf) (some otherStamp)
  have hpanics : (Program.exec (obliging (some accentedConf) (some otherStamp))
      (refresh mediaNode sysroot) ()).1 = .error .panic := by
    have hconf : declaredBy (some accentedConf) = some accentedDigest := by decide
    have hstamp : declaredBy (some otherStamp) = some "sha256:none".toList := by decide
    have hloggable : ¬Loggable (.updated "sha256:none".toList accentedDigest) :=
      fun hloggable => not_abbreviable_accentedDigest hloggable.2
    rw [exec_refresh, exec_mediaRun_obliging rfl hconf, hstamp, if_neg (by decide)]
    exact (concludeRefresh_panics hloggable).exec _ _
  refine ⟨hserves, hpanics, fun hreturns => ?_⟩
  obtain ⟨outcome, houtcome⟩ := hreturns Unit _ () hserves
  rw [hpanics] at houtcome
  cases houtcome

end Stormnetboot.Init

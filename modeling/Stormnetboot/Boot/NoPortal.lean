import Stormnetboot.Boot.KernelLine

/-!
# A boot without a portal

Where no portal is resolved and no claim is made, the script warns that there is nowhere to
attach root from, and the kernel line should name no storage. The flow-over disk is put on the
line all the same; and a word that stands behind whitespace in the name or the role of a host,
or in an extra command line, can name some too.
-/

namespace Stormnetboot.Boot

open Stormnetboot.Common Stormnetboot.Init Stormnetboot.Server

/-- The parameters name no storage. -/
structure NoStorage (p : BootParams) : Prop where
  portal : p.portal = none
  port : p.port = none
  nqn : p.nqn = none
  nsid : p.nsid = none
  volume : p.volume = none
  localDisk : p.localDisk = none
  dataSlab : p.dataSlab = none
  slabs : p.slabs = []

/-- The script warns, and the initramfs is told of no storage. -/
structure Unrooted (cfg : Config) (plan : BootPlan) : Prop where
  warns : portalWarning <:+: render cfg plan
  silent : NoStorage (BootParams.parse (kernelArgs cfg plan))

/-- The words set none of the storage parameters. -/
structure NamesNoStorage (words : List Text) : Prop where
  portal : lastSetting (isKey "rd.stormblock.portal") words = none
  port : (lastSetting (isKey "rd.stormblock.port") words).bind (parseUnsigned 16) = none
  nqn : lastSetting (isKey "rd.stormblock.nqn") words = none
  nsid : (lastSetting (isKey "rd.stormblock.nsid") words).bind (parseUnsigned 32) = none
  volume : lastSetting (isKey "stormblock.volume") words = none
  localDisk : lastSetting (isKey "rd.stormblock.local-disk") words = none
  dataSlab : lastSetting (isKey "rd.stormblock.data-slab") words = none
  slabs : ∀ word ∈ words, ∀ value ∈ settingOf (isKey "rd.stormblock.slab") word,
    BootParams.slabNames value = []

/-- No flow-over disk is configured, or one without a name. -/
def NoLocalDisk (cfg : Config) : Prop :=
  ∀ disk ∈ cfg.localDisk, firstWord isWhitespace disk = []

/-- Whether the flow-over target is one of blanks only is decided on it. -/
instance (cfg : Config) : Decidable (NoLocalDisk cfg) :=
  inferInstanceAs (Decidable (∀ disk ∈ cfg.localDisk, firstWord isWhitespace disk = []))

/-- The keys of a line without a root. -/
def laterKeys : List String :=
  ["rd.stormblock.local-disk", "storm.hostname", "storm.role"]

/-- The initramfs is told of no storage exactly when the words name none. -/
theorem noStorage_parse_iff (line : Text) :
    NoStorage (BootParams.parse line) ↔ NamesNoStorage (splitWhitespace line) := by
  have hset := BootParams.setBy_parse line
  have hdata := BootParams.dataSlab_parse line
  have hslabs := BootParams.slabs_parse_eq_nil_iff line
  constructor
  · intro h
    exact ⟨hset.portal ▸ h.portal, hset.port ▸ h.port, hset.nqn ▸ h.nqn, hset.nsid ▸ h.nsid,
      hset.volume ▸ h.volume, hset.localDisk ▸ h.localDisk, hdata ▸ h.dataSlab,
      hslabs.mp h.slabs⟩
  · intro h
    exact ⟨hset.portal.trans h.portal, hset.port.trans h.port, hset.nqn.trans h.nqn,
      hset.nsid.trans h.nsid, hset.volume.trans h.volume, hset.localDisk.trans h.localDisk,
      hdata.trans h.dataSlab, hslabs.mpr h.slabs⟩

section Line

variable (cfg : Config) {plan : BootPlan}

/-- Without a portal there is no root on the line. -/
theorem linePieces_unrooted (hportal : plan.portal = none) :
    linePieces cfg plan = firstLine (laterPieces cfg plan) := by
  rw [linePieces, pieces, rootPieces, hportal]
  rfl

/-- Without a portal the settings of the line are under these keys. -/
theorem under_laterKeys (hportal : plan.portal = none) : Under laterKeys (linePieces cfg plan) := by
  rw [linePieces_unrooted cfg hportal]
  refine under_firstLine (.append (.append (under_optional ?_ _)
    (.append (under_optional ?_ _) (under_optional ?_ _))) (under_free _))
  all_goals decide

/-- Only stray words set a key that is none of the line's own. -/
theorem lastSetting_unrooted (hportal : plan.portal = none) {name : String}
    (hname : name ∉ "initrd" :: laterKeys) :
    lastSetting (isKey name) (splitWhitespace (kernelArgs cfg plan)) =
      lastSetting (isKey name) (strays cfg plan) := by
  have hother : ∀ key ∈ "initrd" :: laterKeys, isKey name key.toList = false := by
    intro key hkey
    rw [isKey_toList, decide_eq_false_iff_not]
    exact fun heq => hname (heq ▸ hkey)
  rw [lastSetting_linePieces cfg plan (hother _ List.mem_cons_self),
    lastSetting_strays (under_laterKeys cfg hportal) (by decide)
      fun key hkey => hother key (List.mem_cons_of_mem _ hkey)]
  rfl

/-- What holds of every value that the line gives a key: it holds of the line's own, and of the
stray ones. -/
theorem forall_settingOf_kernelArgs (plan : BootPlan) {name : String} (hname : name ≠ "initrd")
    (P : Text → Prop) :
    (∀ word ∈ splitWhitespace (kernelArgs cfg plan), ∀ value ∈ settingOf (isKey name) word,
      P value) ↔
    (∀ key value, .setting key value ∈ linePieces cfg plan → isKey name key = true →
      firstWord isWhitespace value ≠ [] → P (firstWord isWhitespace value)) ∧
    ∀ word ∈ strays cfg plan, ∀ value ∈ settingOf (isKey name) word, P value := by
  have hinitrd : settingOf (isKey name) "initrd=initramfs.img".toList = none := by
    have hkey : splitOnce '=' "initrd=initramfs.img".toList =
        some ("initrd".toList, "initramfs.img".toList) := by decide
    rw [settingOf, hkey]
    simp only [isKey_toList, decide_eq_false (Ne.symm hname), Bool.false_and, Bool.false_eq_true,
      if_false]
  rw [splitWhitespace_kernelArgs, List.forall_mem_cons, hinitrd, strays,
    Piece.forall_settingOf_words (by decide) (named_of_under (under_linePieces cfg plan))]
  simp only [Option.mem_def, reduceCtorEq, false_implies, implies_true, true_and]

/-- The flow-over disk is the first thing on the line. -/
theorem localDisk_mem_linePieces (hportal : plan.portal = none) {disk : Text}
    (hdisk : cfg.localDisk = some disk) :
    ∃ value, setting "rd.stormblock.local-disk" value ∈ linePieces cfg plan ∧
      firstWord isWhitespace value = firstWord isWhitespace disk := by
  rw [linePieces_unrooted cfg hportal, laterPieces, hdisk]
  change ∃ value, setting _ value ∈ firstLine (setting _ disk :: _) ∧ _
  rw [firstLine]
  split_ifs with hnewline
  · exact ⟨_, List.mem_singleton_self _, firstWord_takeWhile_newline (by decide) disk⟩
  · exact ⟨disk, List.mem_cons_self, rfl⟩

/-- No other piece has its key. -/
theorem exists_localDisk_of_mem (hportal : plan.portal = none) {key value : Text}
    (hmem : .setting key value ∈ linePieces cfg plan)
    (hkey : isKey "rd.stormblock.local-disk" key = true) :
    ∃ disk, cfg.localDisk = some disk ∧
      firstWord isWhitespace value = firstWord isWhitespace disk := by
  have hothers : Under ["storm.hostname", "storm.role"]
      (identityPieces plan.record ++ extraPieces cfg plan) := by
    refine .append (.append (under_optional ?_ _) (under_optional ?_ _)) (under_free _)
    all_goals decide
  have hwhole : ∀ whole, .setting key whole ∈ laterPieces cfg plan →
      cfg.localDisk = some whole := by
    intro whole hpiece
    rw [laterPieces, List.append_assoc] at hpiece
    rcases List.mem_append.mp hpiece with hdisk | hother
    · obtain ⟨disk, hconfigured, heq⟩ := Option.map_eq_some_iff.mp (Option.mem_toList.mp hdisk)
      cases heq
      exact hconfigured
    · obtain ⟨name, hname, rfl⟩ := hothers key whole hother
      rw [isKey_toList, decide_eq_true_eq] at hkey
      subst hkey
      exact absurd hname (by decide)
  rw [linePieces_unrooted cfg hportal] at hmem
  obtain ⟨piece, hpiece, heq | heq⟩ := exists_of_mem_firstLine hmem
  · exact ⟨value, hwhole value (heq ▸ hpiece), rfl⟩
  · cases piece with
    | free text => cases heq
    | setting name whole =>
      cases heq
      exact ⟨whole, hwhole whole hpiece, firstWord_takeWhile_newline (by decide) whole⟩

/-- The line names no flow-over disk exactly when none is configured and no stray word names
one. -/
theorem lastSetting_localDisk_iff (hportal : plan.portal = none) :
    lastSetting (isKey "rd.stormblock.local-disk") (splitWhitespace (kernelArgs cfg plan)) = none ↔
      NoLocalDisk cfg ∧ lastSetting (isKey "rd.stormblock.local-disk") (strays cfg plan) = none := by
  have hline : (∀ word ∈ splitWhitespace (kernelArgs cfg plan),
      ∀ value ∈ settingOf (isKey "rd.stormblock.local-disk") word, False) ↔ _ :=
    forall_settingOf_kernelArgs cfg plan (by decide) fun _ => False
  rw [lastSetting_eq_none_iff, lastSetting_eq_none_iff]
  simp only [Option.eq_none_iff_forall_not_mem]
  refine hline.trans (and_congr_left fun _ => ⟨fun h disk hdisk => ?_, fun h key value hmem hkey hne => ?_⟩)
  · obtain ⟨value, hmem, hword⟩ := localDisk_mem_linePieces cfg hportal hdisk
    by_contra hne
    exact h _ value hmem (by rw [isKey_toList]; rfl) (hword ▸ hne)
  · obtain ⟨disk, hdisk, hword⟩ := exists_localDisk_of_mem cfg hportal hmem hkey
    exact hne (hword.trans (h disk hdisk))

/-- The line names no storage exactly when no flow-over disk is configured and no stray word
names any. -/
theorem namesNoStorage_kernelArgs_iff (hportal : plan.portal = none) :
    NamesNoStorage (splitWhitespace (kernelArgs cfg plan)) ↔
      NoLocalDisk cfg ∧ NamesNoStorage (strays cfg plan) := by
  have hread : ∀ name, name ∉ "initrd" :: laterKeys →
      lastSetting (isKey name) (splitWhitespace (kernelArgs cfg plan)) =
        lastSetting (isKey name) (strays cfg plan) :=
    fun _ hname => lastSetting_unrooted cfg hportal hname
  have hdisk := lastSetting_localDisk_iff cfg hportal
  have hslabs : (∀ word ∈ splitWhitespace (kernelArgs cfg plan),
        ∀ value ∈ settingOf (isKey "rd.stormblock.slab") word, BootParams.slabNames value = []) ↔
      ∀ word ∈ strays cfg plan, ∀ value ∈ settingOf (isKey "rd.stormblock.slab") word,
        BootParams.slabNames value = [] := by
    rw [forall_settingOf_kernelArgs cfg plan (by decide)]
    refine and_iff_right fun key value hmem hkey => ?_
    obtain ⟨name, hname, rfl⟩ := under_laterKeys cfg hportal key value hmem
    rw [isKey_toList, decide_eq_true_eq] at hkey
    subst hkey
    exact absurd hname (by decide)
  constructor
  · intro h
    obtain ⟨hno, hstray⟩ := hdisk.mp h.localDisk
    refine ⟨hno, ?_, ?_, ?_, ?_, ?_, hstray, ?_, hslabs.mp h.slabs⟩
    · rw [← hread _ (by decide), h.portal]
    · rw [← hread _ (by decide), h.port]
    · rw [← hread _ (by decide), h.nqn]
    · rw [← hread _ (by decide), h.nsid]
    · rw [← hread _ (by decide), h.volume]
    · rw [← hread _ (by decide), h.dataSlab]
  · rintro ⟨hno, h⟩
    refine ⟨?_, ?_, ?_, ?_, ?_, hdisk.mpr ⟨hno, h.localDisk⟩, ?_, hslabs.mpr h.slabs⟩
    · rw [hread _ (by decide), h.portal]
    · rw [hread _ (by decide), h.port]
    · rw [hread _ (by decide), h.nqn]
    · rw [hread _ (by decide), h.nsid]
    · rw [hread _ (by decide), h.volume]
    · rw [hread _ (by decide), h.dataSlab]

end Line

/-- A script without a portal warns. -/
theorem portalWarning_infix_render (cfg : Config) {plan : BootPlan} (hportal : plan.portal = none) :
    portalWarning <:+: render cfg plan := by
  unfold render
  rw [hportal, Option.isNone_none, if_pos rfl]
  simp only [List.append_assoc]
  rw [← List.append_assoc]
  exact List.infix_append' ..

/-- Where no portal is resolved, the script warns and names no storage exactly when no flow-over
disk is configured and no stray word names any. -/
theorem unrooted_iff (cfg : Config) (mac : Option Mac) (record : Option HostRecord)
    (hportal : (BootPlan.resolve cfg mac record).portal = none) :
    Unrooted cfg (BootPlan.resolve cfg mac record) ↔
      NoLocalDisk cfg ∧ NamesNoStorage (strays cfg (BootPlan.resolve cfg mac record)) := by
  rw [← namesNoStorage_kernelArgs_iff cfg hportal, ← noStorage_parse_iff]
  exact ⟨fun h => h.silent, fun h => ⟨portalWarning_infix_render cfg hportal, h⟩⟩

/-! ## A configured flow-over disk -/

namespace Unrooted

/-- Everything by default. -/
def bare : Config :=
  Config.default

/-- A flow-over disk besides. -/
def flowOver : Config :=
  { Config.default with localDisk := some "/dev/sda".toList }

end Unrooted

/-- Without a flow-over disk the script of a machine without a record names no storage. -/
theorem unrooted_bare : Unrooted Unrooted.bare (BootPlan.resolve Unrooted.bare none none) :=
  (unrooted_iff Unrooted.bare none none rfl).mpr
    ⟨by decide, ⟨by decide, by decide, by decide, by decide,
      by decide, by decide, by decide, by decide⟩⟩

/-- A valid configuration with one: there is no portal, and the machine is told to format its
disk. -/
theorem not_unrooted_flowOver : Unrooted.flowOver.validate true = .ok () ∧
    (BootPlan.resolve Unrooted.flowOver none none).portal = none ∧
    (BootParams.parse (kernelArgs Unrooted.flowOver
      (BootPlan.resolve Unrooted.flowOver none none))).localDisk = some "/dev/sda".toList ∧
    ¬Unrooted Unrooted.flowOver (BootPlan.resolve Unrooted.flowOver none none) := by
  have hdisk : (BootParams.parse (kernelArgs Unrooted.flowOver
      (BootPlan.resolve Unrooted.flowOver none none))).localDisk = some "/dev/sda".toList := by
    decide
  refine ⟨by decide, rfl, hdisk, fun h => ?_⟩
  rw [h.silent.localDisk] at hdisk
  cases hdisk

end Stormnetboot.Boot

import Stormnetboot.Boot.KernelLine
import Stormnetboot.Server.OneClone

/-!
# Whether a served script can attach its root

A script warns when it has no portal, and the initramfs needs a portal, a port and an NQN. The
NQN comes with a claim only, so a script served with the configured portal alone warns of
nothing and attaches nothing. With a claim the root is attached as the plan has it, unless a
value breaks apart at whitespace and a part of it takes a key of the remote root.
-/

namespace Stormnetboot.Boot

open Stormnetboot.Common Stormnetboot.Init Stormnetboot.Server
set_option maxRecDepth 8192

/-- The URI of a remote root. -/
def rootUri (portal : Text) (port : ℕ) (nqn : Text) (nsid : ℕ) : Text :=
  "nvme-tcp://".toList ++ portal ++ ":".toList ++ natText port ++ "/".toList ++ nqn ++
    "?nsid=".toList ++ natText nsid

/-- The URI of the root the plan resolved, with namespace one when none is set. -/
def planUri (plan : BootPlan) : Option Text :=
  plan.portal.bind fun portal => plan.nqn.map fun nqn =>
    rootUri portal plan.portalPort.toNat nqn ((plan.nsid.map UInt32.toNat).getD 1)

/-- The initramfs attaches the root the plan resolved, and treats the boot as a network boot. -/
def Attaches (plan : BootPlan) (p : BootParams) : Prop :=
  ∃ uri, planUri plan = some uri ∧ p.nvmeUri = some uri ∧ p.isNetworkBoot = true

/-- The remote root that the plan's values name after the stray words of the line have had
their say. -/
def strayedRoot (cfg : Config) (plan : BootPlan) : BootParams where
  portal := (lastSetting (isKey "rd.stormblock.portal") (strays cfg plan)).or (plan.portal.bind said)
  port := ((lastSetting (isKey "rd.stormblock.port") (strays cfg plan)).map
    (parseUnsigned 16)).getD (some plan.portalPort.toNat)
  nqn := (lastSetting (isKey "rd.stormblock.nqn") (strays cfg plan)).or (plan.nqn.bind said)
  nsid := ((lastSetting (isKey "rd.stormblock.nsid") (strays cfg plan)).map
    (parseUnsigned 32)).getD (plan.nsid.map UInt32.toNat)

/-- The plan has a portal and an NQN, both without whitespace, and the stray words leave the
root what it is. -/
def RootStands (cfg : Config) (plan : BootPlan) : Prop :=
  (∃ portal, plan.portal = some portal ∧ Solid isWhitespace portal) ∧
    (∃ nqn, plan.nqn = some nqn ∧ Solid isWhitespace nqn) ∧
    (strayedRoot cfg plan).nvmeUri = planUri plan

/-! ## The words of the line -/

/-- A value without whitespace has no newline. -/
theorem newline_notMem_text {key : String} {value : Text} (hkey : key ∈ attachKeys ++ otherKeys)
    (hvalue : Solid isWhitespace value) : '\n' ∉ (setting key value).text := by
  have hkeys : ∀ key ∈ attachKeys ++ otherKeys, '\n' ∉ key.toList := by decide
  intro hmem
  rcases List.mem_append.mp hmem with hname | hrest
  · exact hkeys key hkey hname
  · rcases List.mem_cons.mp hrest with heq | hmem
    · exact absurd heq (by decide)
    · exact absurd (hvalue '\n' hmem) (by decide)

/-- The values of the remote root have no whitespace. -/
theorem solid_of_mem_attachPieces {portal : Text} {plan : BootPlan}
    (hportal : Solid isWhitespace portal) (hnqn : ∀ nqn ∈ plan.nqn, Solid isWhitespace nqn)
    {piece : Piece} (h : piece ∈ attachPieces portal plan) :
    ∃ key ∈ attachKeys, ∃ value, piece = setting key value ∧ Solid isWhitespace value := by
  simp only [attachPieces, optional, List.mem_append, List.mem_cons, List.not_mem_nil, or_false,
    Option.mem_toList, Option.map_eq_some_iff] at h
  rcases h with ((rfl | rfl) | ⟨nqn, hmem, rfl⟩) | ⟨_, ⟨nsid, -, rfl⟩, rfl⟩
  · exact ⟨_, by decide, portal, rfl, hportal⟩
  · exact ⟨_, by decide, _, rfl, solid_natText _⟩
  · exact ⟨_, by decide, nqn, rfl, hnqn nqn hmem⟩
  · exact ⟨_, by decide, _, rfl, solid_natText _⟩

/-- A key of the remote root is given what the stray words give it, or else what the plan says
of it. -/
theorem lastSetting_attachKey (cfg : Config) {plan : BootPlan} {portal : Text}
    (hplan : plan.portal = some portal) (hportal : Solid isWhitespace portal)
    (hnqn : ∀ nqn ∈ plan.nqn, Solid isWhitespace nqn) {name : String} (hname : name ∈ attachKeys) :
    lastSetting (isKey name) (splitWhitespace (kernelArgs cfg plan)) =
      (lastSetting (isKey name) (strays cfg plan)).or
        (Piece.lastValue (isKey name) (attachPieces portal plan)) := by
  have hsolid : ∀ piece ∈ attachPieces portal plan, ∃ key ∈ attachKeys, ∃ value,
      piece = setting key value ∧ Solid isWhitespace value :=
    fun _ hpiece => solid_of_mem_attachPieces hportal hnqn hpiece
  have hline : linePieces cfg plan =
      attachPieces portal plan ++ firstLine (volumePieces plan ++ laterPieces cfg plan) := by
    have hnewline : ∀ piece ∈ attachPieces portal plan, '\n' ∉ piece.text := by
      intro piece hpiece
      obtain ⟨key, hkey, value, rfl, hvalue⟩ := hsolid piece hpiece
      exact newline_notMem_text (List.mem_append_left _ hkey) hvalue
    rw [linePieces, pieces, rootPieces, hplan, List.append_assoc]
    exact firstLine_append hnewline
  have hrest : Under otherKeys (firstLine (volumePieces plan ++ laterPieces cfg plan)) :=
    under_firstLine (.append (under_volume plan) (under_later cfg plan))
  have hother : ∀ name ∈ attachKeys, ∀ key ∈ "initrd" :: otherKeys, key ≠ name := by decide
  have hkeys : ∀ key ∈ "initrd" :: otherKeys, isKey name key.toList = false := by
    intro key hkey
    rw [isKey_toList, decide_eq_false_iff_not]
    exact hother name hname key hkey
  have hnone : (attachPieces portal plan).flatMap (Piece.strays isWhitespace) = [] := by
    rw [List.flatMap_eq_nil_iff]
    intro piece hpiece
    obtain ⟨key, -, value, rfl, hvalue⟩ := hsolid piece hpiece
    exact strayWords_of_solid hvalue
  have hattach : lastSetting (isKey name)
      ((attachPieces portal plan).flatMap fun piece => wordsBy isWhitespace piece.text) =
        Piece.lastValue (isKey name) (attachPieces portal plan) := by
    refine Piece.lastSetting_eq_lastValue (by decide)
      (named_of_under ((under_attach portal plan).mono (List.subset_append_left _ _)))
      (fun _ _ hmem => ?_) fun _ hmem => ?_
    · obtain ⟨key, -, value, heq, hvalue⟩ := hsolid _ hmem
      cases heq
      exact hvalue
    · obtain ⟨key, -, value, heq, -⟩ := hsolid _ hmem
      cases heq
  rw [lastSetting_linePieces cfg plan (hkeys _ List.mem_cons_self), strays, hline,
    List.flatMap_append, List.flatMap_append, hnone, List.nil_append, lastSetting_append, hattach,
    lastSetting_strays hrest (List.subset_append_right _ _)
      fun key hkey => hkeys key (List.mem_cons_of_mem _ hkey)]

/-- The initramfs reads the root that stands on the line. -/
theorem nvmeUri_parse_kernelArgs (cfg : Config) {plan : BootPlan} {portal : Text}
    (hplan : plan.portal = some portal) (hportal : Solid isWhitespace portal)
    (hnqn : ∀ nqn ∈ plan.nqn, Solid isWhitespace nqn) :
    (BootParams.parse (kernelArgs cfg plan)).nvmeUri = (strayedRoot cfg plan).nvmeUri := by
  have hset := BootParams.setBy_parse (kernelArgs cfg plan)
  have hread : ∀ name ∈ attachKeys,
      lastSetting (isKey name) (splitWhitespace (kernelArgs cfg plan)) =
        (lastSetting (isKey name) (strays cfg plan)).or
          (Piece.lastValue (isKey name) (attachPieces portal plan)) :=
    fun name hname => lastSetting_attachKey cfg hplan hportal hnqn hname
  have hvalue : ∀ name, Piece.lastValue (isKey name) (attachPieces portal plan) =
      (if "rd.stormblock.nsid" = name then plan.nsid.map fun nsid => natText nsid.toNat
        else none).or
      ((if "rd.stormblock.nqn" = name then plan.nqn.bind said else none).or
      ((if "rd.stormblock.port" = name then some (natText plan.portalPort.toNat) else none).or
      (if "rd.stormblock.portal" = name then said portal else none))) := by
    intro name
    have hnsid : (plan.nsid.map fun nsid => natText nsid.toNat).bind said =
        plan.nsid.map fun nsid => natText nsid.toNat := by
      cases plan.nsid with
      | none => rfl
      | some nsid => exact said_natText _
    simp only [attachPieces, Piece.lastValue_append, lastValue_setting, lastValue_optional,
      Piece.lastValue, Option.none_or, said_natText, hnsid]
  have hport := parseUnsigned_portalPort plan
  have hnsid := parseUnsigned_nsid plan
  have hfields : (BootParams.parse (kernelArgs cfg plan)).portal = (strayedRoot cfg plan).portal ∧
      (BootParams.parse (kernelArgs cfg plan)).port = (strayedRoot cfg plan).port ∧
      (BootParams.parse (kernelArgs cfg plan)).nqn = (strayedRoot cfg plan).nqn ∧
      (BootParams.parse (kernelArgs cfg plan)).nsid = (strayedRoot cfg plan).nsid := by
    refine ⟨?_, ?_, ?_, ?_⟩
    · rw [hset.portal, hread _ (by decide), hvalue]
      simp [strayedRoot, hplan]
    · rw [hset.port, hread _ (by decide), hvalue]
      unfold strayedRoot
      cases lastSetting (isKey "rd.stormblock.port") (strays cfg plan) <;> simp [hport]
    · rw [hset.nqn, hread _ (by decide), hvalue]
      simp [strayedRoot]
    · rw [hset.nsid, hread _ (by decide), hvalue]
      unfold strayedRoot
      cases lastSetting (isKey "rd.stormblock.nsid") (strays cfg plan) <;> simp [hnsid]
  unfold BootParams.nvmeUri
  rw [hfields.1, hfields.2.1, hfields.2.2.1, hfields.2.2.2]

/-- A URI has whitespace only where its portal or its NQN has. -/
theorem solid_rootUri_iff (portal : Text) (port : ℕ) (nqn : Text) (nsid : ℕ) :
    Solid isWhitespace (rootUri portal port nqn nsid) ↔
      Solid isWhitespace portal ∧ Solid isWhitespace nqn := by
  have hliteral : ∀ text ∈ ["nvme-tcp://", ":", "/", "?nsid="], Solid isWhitespace text.toList := by
    decide
  unfold rootUri
  constructor
  · intro h
    refine ⟨fun c hc => h c ?_, fun c hc => h c ?_⟩
    · exact List.mem_append_left _ (List.mem_append_left _ (List.mem_append_left _
        (List.mem_append_left _ (List.mem_append_left _ (List.mem_append_left _
          (List.mem_append_right _ hc))))))
    · exact List.mem_append_left _ (List.mem_append_left _ (List.mem_append_right _ hc))
  · intro ⟨hportal, hnqn⟩
    have hhost := solid_append (hliteral "nvme-tcp://" (by decide)) hportal
    have hport := solid_append (solid_append hhost (hliteral ":" (by decide))) (solid_natText port)
    have hpath := solid_append (solid_append hport (hliteral "/" (by decide))) hnqn
    exact solid_append (solid_append hpath (hliteral "?nsid=" (by decide))) (solid_natText nsid)

/-- A URI that is read off a line has no whitespace. -/
theorem solid_nvmeUri_parse {cmdline uri : Text}
    (h : (BootParams.parse cmdline).nvmeUri = some uri) : Solid isWhitespace uri := by
  have hset := BootParams.setBy_parse cmdline
  have hwords : ∀ word ∈ splitWhitespace cmdline, Solid isWhitespace word :=
    fun word hword => solid_of_mem_wordsBy hword
  unfold BootParams.nvmeUri at h
  obtain ⟨portal, hportal, h⟩ := Option.bind_eq_some_iff.mp h
  obtain ⟨port, -, h⟩ := Option.bind_eq_some_iff.mp h
  obtain ⟨nqn, hnqn, h⟩ := Option.bind_eq_some_iff.mp h
  rw [hset.portal] at hportal
  rw [hset.nqn] at hnqn
  rw [← Option.some.inj h]
  exact (solid_rootUri_iff portal port nqn _).mpr
    ⟨solid_of_lastSetting hwords hportal, solid_of_lastSetting hwords hnqn⟩

/-- The initramfs attaches the plan's root exactly when that root stands on the line. -/
theorem attaches_iff (cfg : Config) (plan : BootPlan) :
    Attaches plan (BootParams.parse (kernelArgs cfg plan)) ↔ RootStands cfg plan := by
  constructor
  · rintro ⟨uri, hplan, hparse, -⟩
    obtain ⟨portal, hportal, nqn, hnqn, hroot⟩ : ∃ portal, plan.portal = some portal ∧ ∃ nqn,
        plan.nqn = some nqn ∧ rootUri portal plan.portalPort.toNat nqn
          ((plan.nsid.map UInt32.toNat).getD 1) = uri := by
      simpa [planUri, Option.bind_eq_some_iff] using hplan
    have hsolid := solid_nvmeUri_parse hparse
    rw [← hroot] at hsolid
    obtain ⟨hsolidPortal, hsolidNqn⟩ := (solid_rootUri_iff ..).mp hsolid
    refine ⟨⟨portal, hportal, hsolidPortal⟩, ⟨nqn, hnqn, hsolidNqn⟩, ?_⟩
    rw [← nvmeUri_parse_kernelArgs cfg hportal hsolidPortal (fun v hv => by
      cases hnqn.symm.trans hv
      exact hsolidNqn), hparse, hplan]
  · rintro ⟨⟨portal, hportal, hsolidPortal⟩, ⟨nqn, hnqn, hsolidNqn⟩, hstands⟩
    have hparse := nvmeUri_parse_kernelArgs cfg hportal hsolidPortal (fun v hv => by
      cases hnqn.symm.trans hv
      exact hsolidNqn)
    have hplan : planUri plan = some (rootUri portal plan.portalPort.toNat nqn
        ((plan.nsid.map UInt32.toNat).getD 1)) := by
      rw [planUri, hportal, hnqn]
      rfl
    rw [hstands, hplan] at hparse
    refine ⟨_, hplan, hparse, ?_⟩
    rw [BootParams.isNetworkBoot, hparse]
    rfl

/-- For every script that is served, the initramfs attaches the root of its plan exactly when
that root stands on the kernel line. -/
theorem attaches_served_iff (around : Surroundings) (query : Option Text) (state : AppState)
    (script : Text) (hserved : (bootScript around query state).1 = .ok script) :
    ∃ plan, (resolveBoot around query state).1 = .ok plan ∧ script = render state.cfg plan ∧
      "kernel $\x7bbase\x7d/boot/vmlinuz ".toList ++ kernelArgs state.cfg plan ∈
        script.splitOn '\n' ∧
      (Attaches plan (BootParams.parse (kernelArgs state.cfg plan)) ↔
        RootStands state.cfg plan) := by
  obtain ⟨plan, hplan, rfl⟩ := (bootScript_eq_ok_iff ..).mp hserved
  exact ⟨plan, hplan, rfl, kernelArgs_mem_lines state.cfg plan, attaches_iff state.cfg plan⟩

/-! ## With a claim and without -/

namespace Served

/-- A server that has just started. -/
def state (cfg : Config) : AppState :=
  .new cfg .empty (ClaimClient.ofConfig cfg) none

/-- A server that makes no claims and has a portal to fall back on. -/
def fallback : Config :=
  { Config.default with portal := some "10.0.0.5".toList }

/-- The plan of a claimed clone, and of the fallback. -/
def claimedPlan : BootPlan :=
  bootPlan Retrying.cfg ⟨none, none⟩
    (some (Retrying.clone "c3".toList (some Retrying.exported)))

/-- The plan of its boot script. -/
def fallbackPlan : BootPlan :=
  bootPlan fallback ⟨none, none⟩ none

end Served

/-- A claimed clone is attached. -/
theorem attaches_claimed : ∃ around plan,
    (bootScript around none (Served.state Retrying.cfg)).1 = .ok (render Retrying.cfg plan) ∧
      Attaches plan (BootParams.parse (kernelArgs Retrying.cfg plan)) := by
  obtain ⟨order⟩ : Nonempty (HashMap.Iteration Mac HostState) := inferInstance
  let around : Surroundings :=
    ⟨Retrying.lib, fun _ => .response 200 Retrying.bodies[2]?, ⟨0, order⟩, ⟨0, order⟩⟩
  have hclaim : (claimFor Retrying.lib (ClaimClient.ofConfig Retrying.cfg)
      (fun _ => .response 200 Retrying.bodies[2]?) ∅ ⟨none, none⟩).1 =
        .ok (Retrying.clone "c3".toList (some Retrying.exported)) := by decide
  have hresolve : (resolveBoot around none (Served.state Retrying.cfg)).1 =
      .ok Served.claimedPlan :=
    resolveBoot_claimed rfl (by decide) hclaim
  have hserved : (bootScript around none (Served.state Retrying.cfg)).1 =
      .ok (render Retrying.cfg Served.claimedPlan) :=
    (bootScript_eq_ok_iff ..).mpr ⟨_, hresolve, rfl⟩
  obtain ⟨plan, hplan, -, -, hiff⟩ := attaches_served_iff _ _ _ _ hserved
  cases hresolve.symm.trans hplan
  exact ⟨around, Served.claimedPlan, hserved, hiff.mpr
    ⟨⟨_, rfl, by decide⟩, ⟨_, rfl, by decide⟩, by decide⟩⟩

/-- The fallback portal without a claim: a valid configuration serves a script that warns of
nothing, and there is no root to attach. -/
theorem not_attaches_fallback : ∃ around plan script,
    Served.fallback.validate true = .ok () ∧
      (bootScript around none (Served.state Served.fallback)).1 = .ok script ∧
      (resolveBoot around none (Served.state Served.fallback)).1 = .ok plan ∧
      containsText "no NVMe/TCP portal".toList script = false ∧ FreeExtras Served.fallback plan ∧
      ¬ Attaches plan (BootParams.parse (kernelArgs Served.fallback plan)) := by
  obtain ⟨order⟩ : Nonempty (HashMap.Iteration Mac HostState) := inferInstance
  let around : Surroundings := ⟨Retrying.lib, fun _ => .failed, ⟨0, order⟩, ⟨0, order⟩⟩
  have hresolve : (resolveBoot around none (Served.state Served.fallback)).1 =
      .ok Served.fallbackPlan :=
    resolveBoot_unclaimed around rfl (by decide)
  refine ⟨around, Served.fallbackPlan, render Served.fallback Served.fallbackPlan,
    by decide, (bootScript_eq_ok_iff ..).mpr ⟨_, hresolve, rfl⟩, hresolve,
    by decide, ⟨by decide, fun _ hnone => nomatch hnone⟩, ?_⟩
  rintro ⟨uri, hplan, -⟩
  cases hplan

end Stormnetboot.Boot

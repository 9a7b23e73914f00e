import Stormnetboot.Server.ServedLoadout

/-!
# Exports that are no NVMe/TCP root

An answer of the registry names the protocol of its export, and nothing looks at it: an iSCSI
export has the shape of an NVMe/TCP one, with an IQN for its target. It is kept and served as an
NVMe/TCP root. Answers that cannot be attached at all are refused, and nothing is kept of them.
-/

namespace Stormnetboot.Server

open Stormnetboot.Common
set_option maxRecDepth 8192

/-- The protocol of an NVMe/TCP export. -/
def nvmeTcp : Text :=
  "nvme-tcp".toList

/-- The export is an NVMe/TCP root. -/
structure Attach.NvmeRoot (attach : Attach) : Prop where
  protocol : attach.protocol = nvmeTcp
  address : attach.address ≠ []
  target : attach.target ≠ []
  port : attach.port ≠ 0

/-- The kernel arguments that name the export. -/
def Attach.settings (attach : Attach) : List Text :=
  ["rd.stormblock.portal=".toList ++ attach.address,
    "rd.stormblock.port=".toList ++ natText attach.port.toNat,
    "rd.stormblock.nqn=".toList ++ attach.target] ++
  (attach.nsid.map fun nsid => "rd.stormblock.nsid=".toList ++ natText nsid.toNat).toList

/-- The claim has one. -/
def ClaimResponse.NvmeRoot (claim : ClaimResponse) : Prop :=
  ∃ attach, claim.attach = some attach ∧ attach.NvmeRoot

/-- What the kernel is told besides the root. -/
def BootPlan.otherParts (cfg : Config) (plan : BootPlan) : List Text :=
  (cfg.localDisk.map ("rd.stormblock.local-disk=".toList ++ ·)).toList ++
    plan.identityParts ++ plan.extraParts cfg

/-! ## The export in the script -/

/-- A claim can be attached when its export has an address, a target and a port. -/
theorem ClaimResponse.isAttachable_iff (claim : ClaimResponse) :
    claim.isAttachable = true ↔ ∃ attach, claim.attach = some attach ∧
      attach.address ≠ [] ∧ attach.target ≠ [] ∧ attach.port ≠ 0 := by
  unfold isAttachable
  cases claim.attach with
  | none => simp
  | some attach => simp [and_assoc]

/-- It is an NVMe/TCP root when it can be attached and its protocol says so. -/
theorem ClaimResponse.nvmeRoot_iff (claim : ClaimResponse) :
    claim.NvmeRoot ↔ claim.isAttachable = true ∧
      ∀ attach, claim.attach = some attach → attach.protocol = nvmeTcp := by
  rw [isAttachable_iff]
  constructor
  · rintro ⟨attach, hattach, hroot⟩
    refine ⟨⟨attach, hattach, hroot.address, hroot.target, hroot.port⟩, fun attach' hattach' => ?_⟩
    cases hattach.symm.trans hattach'
    exact hroot.protocol
  · rintro ⟨⟨attach, hattach, haddress, htarget, hport⟩, hprotocol⟩
    exact ⟨attach, hattach, hprotocol attach hattach, haddress, htarget, hport⟩

/-- The plan of a claim names the claim's export and its volume, and no other. -/
theorem parts_bootPlan (cfg : Config) (request : Admitted) {claim : ClaimResponse}
    {attach : Attach} (hattach : claim.attach = some attach) :
    (bootPlan cfg request (some claim)).parts cfg =
      attach.settings ++ ("stormblock.volume=".toList ++ claim.volumeName) ::
        "root=/dev/ublkb0".toList :: (bootPlan cfg request (some claim)).otherParts cfg := by
  have hplan : bootPlan cfg request (some claim) =
      { BootPlan.resolve cfg request.mac request.record with
        portal := some attach.address
        portalPort := attach.port
        nqn := some attach.target
        nsid := attach.nsid
        volume := some claim.volumeName } := by
    simp only [bootPlan, Option.bind_some, hattach]
  rw [hplan]
  simp [BootPlan.parts, BootPlan.rootParts, Attach.settings, BootPlan.otherParts]

/-! ## What is served and what is refused -/

section Rules

variable (lib : Library) (cfg : Config)

/-- The log has an answer that made this claim for the machine. -/
def MadeFor (mac : Option Mac) (claim : ClaimResponse) (log : List SurfaceEntry) : Prop :=
  ∃ asker ask answer, .answered asker ask answer ∈ log ∧ asker.mac = mac ∧
    answer.minted lib = some claim

/-- A script served for a claim names the NVMe/TCP root of a claim that was made for the
machine. -/
def ServesNvme (before : List SurfaceEntry) : SurfaceEntry → Prop
  | .served request script _ => cfg.claimsEnabled = true →
      ∃ claim attach plan, MadeFor lib request.mac claim before ∧
        claim.attach = some attach ∧ attach.NvmeRoot ∧ script = render cfg plan ∧
        plan.parts cfg = attach.settings ++ ("stormblock.volume=".toList ++ claim.volumeName) ::
          "root=/dev/ublkb0".toList :: plan.otherParts cfg
  | _ => True

/-- An answer without an NVMe/TCP root is refused: there is no script, and nothing is kept. -/
def SurfaceEvent.RefusesOthers (surface : BootSurface) : SurfaceEvent → Prop
  | .answer reply => ∀ request ask, surface.holder = some (request, ask) →
      (∀ claim, reply.minted lib = some claim → ¬claim.NvmeRoot) →
      ∃ err, BootSurface.step lib cfg surface (.answer reply) =
        ({ surface with holder := none },
          [.answered request ask reply, .refused (.claimFailed err)])
  | _ => True

/-- Only NVMe/TCP roots are served, in every run from a surface that was just opened. -/
structure NvmeOnly (hosts : HostStore) (events : List SurfaceEvent) : Prop where
  served : EachAfter (ServesNvme lib cfg)
    (runFrom (BootSurface.step lib cfg) (BootSurface.opened hosts) [] events).2
  refused : Always (BootSurface.step lib cfg)
    (fun surface event => event.RefusesOthers lib cfg surface) (BootSurface.opened hosts) events

/-- An export that can be attached is an NVMe/TCP one. -/
def SurfaceEvent.NvmeExport (surface : BootSurface) : SurfaceEvent → Prop
  | .answer reply => ∀ request ask claim attach, surface.holder = some (request, ask) →
      reply.minted lib = some claim → claim.isAttachable = true →
      claim.attach = some attach → attach.protocol = nvmeTcp
  | _ => True

variable {lib cfg} {surface surface' : BootSurface} {log entries : List SurfaceEntry}

/-- An answer is refused as it should be exactly where its export is NVMe/TCP, if it can be
attached. -/
theorem SurfaceEvent.refusesOthers_iff (event : SurfaceEvent) :
    event.RefusesOthers lib cfg surface ↔ event.NvmeExport lib surface := by
  cases event with
  | answer reply =>
    constructor
    · intro h request ask claim attach hheld hminted hattachable hattach
      by_contra hprotocol
      have hother : ∀ claim', reply.minted lib = some claim' → ¬claim'.NvmeRoot := by
        intro claim' hminted' hroot
        cases hminted.symm.trans hminted'
        exact hprotocol (((claim.nvmeRoot_iff).mp hroot).2 attach hattach)
      obtain ⟨err, hstep⟩ := h request ask hheld hother
      have hclaim : ClaimClient.claim lib ask reply = .ok claim :=
        (ClaimClient.claim_eq_ok_iff ..).mpr ⟨hminted, hattachable⟩
      simp [BootSurface.step, hheld, hclaim] at hstep
    · intro h request ask hheld hother
      cases hclaim : ClaimClient.claim lib ask reply with
      | ok claim =>
        obtain ⟨hminted, hattachable⟩ := (ClaimClient.claim_eq_ok_iff ..).mp hclaim
        refine absurd ((claim.nvmeRoot_iff).mpr ⟨hattachable, fun attach hattach => ?_⟩)
          (hother claim hminted)
        exact h request ask claim attach hheld hminted hattachable hattach
      | error err => exact ⟨err, by simp [BootSurface.step, hheld, hclaim, claimFinish_error]⟩
  | _ => exact Iff.rfl

/-! ## The invariant -/

/-- An NVMe/TCP root that was made for the machine. -/
def NvmeFor (lib : Library) (log : List SurfaceEntry) (mac : Option Mac) (claim : ClaimResponse) :
    Prop :=
  claim.NvmeRoot ∧ MadeFor lib mac claim log

/-- A claim that was answered stays answered. -/
theorem NvmeFor.append {mac : Option Mac} {claim : ClaimResponse} (h : NvmeFor lib log mac claim)
    (entries : List SurfaceEntry) : NvmeFor lib (log ++ entries) mac claim := by
  obtain ⟨hroot, asker, ask, answer, hmem, hrest⟩ := h
  exact ⟨hroot, asker, ask, answer, List.mem_append_left _ hmem, hrest⟩

/-- Everything that is kept or about to be served is one. -/
structure OnNvme (lib : Library) (cfg : Config) (surface : BootSurface) (log : List SurfaceEntry) :
    Prop where
  kept : ∀ mac claim, surface.claims.lookup mac = some claim → NvmeFor lib log (some mac) claim
  ready : cfg.claimsEnabled = true → ∀ answered ∈ surface.ready, ∃ claim,
    answered.2 = some claim ∧ NvmeFor lib log answered.1.mac claim
  served : EachAfter (ServesNvme lib cfg) log

/-- A step keeps or readies such roots, and the rest was there before. -/
theorem OnNvme.frame (h : OnNvme lib cfg surface log)
    (hkept : ∀ mac claim, surface'.claims.lookup mac = some claim →
      surface.claims.lookup mac = some claim ∨ NvmeFor lib (log ++ entries) (some mac) claim)
    (hready : ∀ answered ∈ surface'.ready, answered ∈ surface.ready ∨
      (cfg.claimsEnabled = true → ∃ claim, answered.2 = some claim ∧
        NvmeFor lib (log ++ entries) answered.1.mac claim))
    (hserved : ∀ entry ∈ entries, ∀ before, ServesNvme lib cfg (log ++ before) entry) :
    OnNvme lib cfg surface' (log ++ entries) where
  kept mac claim hlookup :=
    (hkept mac claim hlookup).elim (fun hold => (h.kept mac claim hold).append entries) id
  ready henabled answered hmem := by
    rcases hready answered hmem with hold | hnew
    · obtain ⟨claim, hclaim, hroot⟩ := h.ready henabled answered hold
      exact ⟨claim, hclaim, hroot.append entries⟩
    · exact hnew henabled
  served := h.served.append (eachAfter_of_forall hserved)

/-- A request that has its claim is served the claim's root. -/
theorem OnNvme.serves (h : OnNvme lib cfg surface log) {request : Admitted}
    {claim : Option ClaimResponse} (hmem : (request, claim) ∈ surface.ready)
    (before : List SurfaceEntry) (current : Option HostRecord) :
    ServesNvme lib cfg (log ++ before)
      (.served request (render cfg (bootPlan cfg request claim)) current) := by
  intro henabled
  obtain ⟨kept, rfl, ⟨attach, hattach, hroot⟩, hmade⟩ := h.ready henabled _ hmem
  obtain ⟨asker, ask, answer, hlog, hrest⟩ := hmade
  exact ⟨kept, attach, _, ⟨asker, ask, answer, List.mem_append_left _ hlog, hrest⟩, hattach, hroot,
    rfl, parts_bootPlan cfg request hattach⟩

end Rules

/-- Every step with an answer as it should be keeps the surface on NVMe/TCP roots. -/
theorem OnNvme.step {lib : Library} {cfg : Config} {surface : BootSurface}
    {log : List SurfaceEntry} (event : SurfaceEvent) (h : OnNvme lib cfg surface log)
    (hexport : event.NvmeExport lib surface) :
    OnNvme lib cfg (BootSurface.step lib cfg surface event).1
      (log ++ (BootSurface.step lib cfg surface event).2) := by
  have houtcome := BootSurface.step_outcome lib cfg surface event
  generalize (BootSurface.step lib cfg surface event).1 = surface' at houtcome ⊢
  generalize (BootSurface.step lib cfg surface event).2 = entries at houtcome ⊢
  have hsilent : ∀ entry ∈ ([] : List SurfaceEntry), ∀ before,
      ServesNvme lib cfg (log ++ before) entry := fun _ hmem => nomatch hmem
  cases houtcome with
  | idle => exact h.frame (fun _ _ => .inl) (fun _ => .inl) hsilent
  | changed change => exact h.frame (fun _ _ => .inl) (fun _ => .inl) hsilent
  | refused _ refusal =>
    refine h.frame (fun _ _ => .inl) (fun _ => .inl) fun entry hmem before => ?_
    obtain rfl := List.mem_singleton.mp hmem
    exact trivial
  | waits query request _ hadmitted => exact h.frame (fun _ _ => .inl) (fun _ => .inl) hsilent
  | passes query request hdisabled hadmitted =>
    refine h.frame (fun _ _ => .inl) (fun answered hmem => ?_) hsilent
    rcases List.mem_append.mp hmem with hold | hnew
    · exact .inl hold
    · exact .inr fun henabled => absurd (hdisabled.symm.trans henabled) Bool.false_ne_true
  | unconfigured i err =>
    refine h.frame (fun _ _ => .inl) (fun _ => .inl) fun entry hmem before => ?_
    obtain rfl := List.mem_singleton.mp hmem
    exact trivial
  | reuses i request mac claim hwaits hmac hclaim =>
    refine h.frame (fun _ _ => .inl) (fun answered hmem => ?_) hsilent
    rcases List.mem_append.mp hmem with hold | hnew
    · exact .inl hold
    · obtain rfl := List.mem_singleton.mp hnew
      rw [List.append_nil, hmac]
      exact .inr fun _ => ⟨claim, rfl, h.kept mac claim hclaim⟩
  | asks i request client hwaits hclient hnone =>
    refine h.frame (fun _ _ => .inl) (fun _ => .inl) fun entry hmem before => ?_
    obtain rfl := List.mem_singleton.mp hmem
    exact trivial
  | claims answer request ask claim hheld hminted hattachable =>
    have hroot : NvmeFor lib (log ++ [.answered request ask answer]) request.mac claim := by
      refine ⟨(claim.nvmeRoot_iff).mpr ⟨hattachable, fun attach hattach => ?_⟩,
        request, ask, answer, by simp, rfl, hminted⟩
      exact hexport request ask claim attach hheld hminted hattachable hattach
    refine h.frame (fun mac kept hlookup => ?_) (fun answered hmem => ?_) fun entry hmem before => ?_
    · rw [lookup_claimFinish] at hlookup
      split_ifs at hlookup with hmac
      · cases hlookup
        exact .inr (hmac ▸ hroot)
      · exact .inl hlookup
    · rcases List.mem_append.mp hmem with hold | hnew
      · exact .inl hold
      · obtain rfl := List.mem_singleton.mp hnew
        exact .inr fun _ => ⟨claim, rfl, hroot⟩
    · obtain rfl := List.mem_singleton.mp hmem
      exact trivial
  | fails answer request ask err hheld hminted =>
    refine h.frame (fun _ _ => .inl) (fun _ => .inl) fun entry hmem before => ?_
    rcases List.mem_cons.mp hmem with rfl | hmem
    · exact trivial
    · obtain rfl := List.mem_singleton.mp hmem
      exact trivial
  | serves i request claim hmem =>
    refine h.frame (fun _ _ => .inl) (fun _ hleft => .inl (List.mem_of_mem_eraseIdx hleft))
      fun entry hentry before => ?_
    obtain rfl := List.mem_singleton.mp hentry
    exact h.serves hmem before _
  | leaves i => exact h.frame (fun _ _ => .inl) (fun _ => .inl) hsilent
  | abandons answer request ask hheld =>
    refine h.frame (fun _ _ => .inl) (fun _ => .inl) fun entry hmem before => ?_
    obtain rfl := List.mem_singleton.mp hmem
    exact trivial

/-- A surface that was just opened keeps nothing. -/
theorem onNvme_opened (lib : Library) (cfg : Config) (hosts : HostStore) :
    OnNvme lib cfg (BootSurface.opened hosts) [] where
  kept _ _ hnone := nomatch hnone
  ready _ _ hmem := nomatch hmem
  served := eachAfter_nil _

/-- Only NVMe/TCP roots are served in a run exactly where every export that can be attached in
it is an NVMe/TCP one. -/
theorem nvmeOnly_iff (lib : Library) (cfg : Config) (hosts : HostStore)
    (events : List SurfaceEvent) :
    NvmeOnly lib cfg hosts events ↔
      Always (BootSurface.step lib cfg) (fun surface event => event.NvmeExport lib surface)
        (BootSurface.opened hosts) events := by
  constructor
  · exact fun h => h.refused.imp fun _ event => event.refusesOthers_iff.mp
  · intro h
    refine ⟨?_, h.imp fun _ event => event.refusesOthers_iff.mpr⟩
    exact (runFrom_invariant (OnNvme lib cfg) (fun _ _ event hnvme => hnvme.step event)
      (onNvme_opened lib cfg hosts) events h).served

/-! ## An iSCSI export -/

namespace Iscsi

/-- What the registry answers: an iSCSI export. -/
def body : Text :=
  "\x7b\"id\":\"c1\",\"volume_name\":\"v\",\"attach\":\x7b\"protocol\":\"iscsi\",".toList ++
    "\"address\":\"10.0.0.1\",\"port\":3260,\"target\":\"iqn.2026-01.storm:c1\"\x7d\x7d".toList

/-- The export of the answer. -/
def attach : Attach where
  protocol := "iscsi".toList
  address := "10.0.0.1".toList
  port := 3260
  target := "iqn.2026-01.storm:c1".toList
  nsid := none
  diskAdd := none

/-- The claim of the answer. -/
def claim : ClaimResponse where
  id := "c1".toList
  golden := []
  template := []
  state := []
  volumeName := "v".toList
  attach := some attach

/-- A library that decodes this body, and no other. -/
def lib : Library where
  decode text := if text = body then some claim else none
  statusText _ := "200 OK".toList
  debugChar c := [c]

/-- A machine asks, and is served. -/
def events : List SurfaceEvent :=
  [.request (some "aa:bb:cc:dd:ee:ff".toList), .acquire 0, .answer (.response 200 (some body)),
    .respond 0]

end Iscsi

/-- What an entry minted can only be this claim. -/
def SurfaceEntry.mintsOnly (lib : Library) (claim : ClaimResponse) : SurfaceEntry → Bool
  | .answered _ _ answer => (answer.minted lib).all (· = claim)
  | _ => true

/-- The machine is served the iSCSI export as an NVMe/TCP root. -/
theorem not_nvmeOnly_iscsi : ¬NvmeOnly Iscsi.lib Retrying.cfg .empty Iscsi.events := by
  intro h
  have hserved := h.served
  generalize hlog : (runFrom (BootSurface.step Iscsi.lib Retrying.cfg) (BootSurface.opened .empty)
    [] Iscsi.events).2 = log at hserved
  have hmints : log.all (SurfaceEntry.mintsOnly Iscsi.lib Iscsi.claim) = true := by
    rw [← hlog]
    decide
  have hlast : (log[2]?.any fun entry => entry matches .served ..) = true := by
    rw [← hlog]
    decide
  cases hentry : log[2]? with
  | none =>
    rw [hentry] at hlast
    cases hlast
  | some entry =>
    rw [hentry, Option.any_some] at hlast
    cases entry with
    | served request script current =>
      obtain ⟨claim, attach, -, ⟨asker, ask, answer, hmem, -, hminted⟩, hattach, hroot, -, -⟩ :=
        hserved.getElem? hentry (by decide)
      have honly := List.all_eq_true.mp hmints _ (List.mem_of_mem_take hmem)
      rw [SurfaceEntry.mintsOnly, hminted, Option.all_some, decide_eq_true_eq] at honly
      cases honly
      cases hattach
      exact absurd hroot.protocol (by decide)
    | _ => cases hlast

end Stormnetboot.Server

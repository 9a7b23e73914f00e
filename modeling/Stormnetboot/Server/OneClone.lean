import Stormnetboot.Server.BootSurface

/-!
# One clone per machine

A machine that asks again is handed the clone it already has, and no second one is minted,
in every interleaving in which each clone that was minted for a machine could also be kept:
the answer reached the server, and the clone could be attached. The claim cache is then
exactly what the log says was minted. A clone without an export is minted and forgotten, so
the next request mints another.
-/

namespace Stormnetboot.Server

open Stormnetboot.Common

section Rules

variable (lib : Library) (cfg : Config)

/-- The clone this entry says was minted for the machine. -/
def SurfaceEntry.mints (mac : Mac) : SurfaceEntry → Option ClaimResponse
  | .answered request _ answer => if request.mac = some mac then answer.minted lib else none
  | _ => none

/-- For this machine, the entry asks for no other clone and serves no other. -/
def SurfaceEntry.Reuses (mac : Mac) (claim : ClaimResponse) : SurfaceEntry → Prop
  | .asked request _ => request.mac ≠ some mac
  | .served request script _ =>
    request.mac = some mac → script = render cfg (bootPlan cfg request (some claim))
  | _ => True

/-- What was minted for the machine before is reused. -/
def ReusesMinted (mac : Mac) (before : List SurfaceEntry) (entry : SurfaceEntry) : Prop :=
  ∀ claim ∈ before.filterMap (SurfaceEntry.mints lib mac), entry.Reuses cfg mac claim

/-- At most one clone is minted for the machine, and every later entry reuses it. -/
structure OneClone (mac : Mac) (log : List SurfaceEntry) : Prop where
  once : (log.filterMap (SurfaceEntry.mints lib mac)).length ≤ 1
  reused : EachAfter (ReusesMinted lib cfg mac) log

/-- What the registry mints for a machine can be kept: it reaches the server and can be
attached. -/
def SurfaceEvent.Keeps (surface : BootSurface) : SurfaceEvent → Prop
  | .answer reply => ∀ request ask claim, surface.holder = some (request, ask) →
      request.mac ≠ none → reply.minted lib = some claim → claim.isAttachable = true
  | .hangUpHolder reply => ∀ request ask, surface.holder = some (request, ask) →
      request.mac ≠ none → reply.minted lib = none
  | _ => True

/-! ## The invariant -/

/-- A request past its claim has the claim that is kept for its machine, and none only where
none are made. -/
def Fits (surface : BootSurface) (answered : Admitted × Option ClaimResponse) : Prop :=
  (∀ mac claim, answered.1.mac = some mac → answered.2 = some claim →
    surface.claims.lookup mac = some claim) ∧
  (answered.2 = none → cfg.claimsEnabled = false)

/-- The holder of the lock is a request whose machine has no claim yet. -/
def Lacks (surface : BootSurface) (request : Admitted) : Prop :=
  cfg.claimsEnabled = true ∧ ∀ mac, request.mac = some mac → surface.claims.lookup mac = none

/-- The cache holds exactly what was minted. -/
structure CachesMinted (surface : BootSurface) (log : List SurfaceEntry) : Prop where
  minted : ∀ mac, log.filterMap (SurfaceEntry.mints lib mac) = (surface.claims.lookup mac).toList
  holder : ∀ request ask, surface.holder = some (request, ask) → Lacks cfg surface request
  ready : ∀ answered ∈ surface.ready, Fits cfg surface answered
  enabled : ∀ mac claim, surface.claims.lookup mac = some claim → cfg.claimsEnabled = true
  reused : ∀ mac, EachAfter (ReusesMinted lib cfg mac) log

variable {lib cfg} {surface surface' : BootSurface} {log entries : List SurfaceEntry}

/-- A step that leaves the cache alone. -/
theorem CachesMinted.frame (h : CachesMinted lib cfg surface log)
    (hclaims : surface'.claims = surface.claims)
    (hholder : ∀ request ask, surface'.holder = some (request, ask) →
      surface.holder = some (request, ask) ∨ Lacks cfg surface request)
    (hready : ∀ answered ∈ surface'.ready, answered ∈ surface.ready ∨ Fits cfg surface answered)
    (hentries : ∀ entry ∈ entries, ∀ mac, entry.mints lib mac = none ∧
      ∀ claim, surface.claims.lookup mac = some claim → entry.Reuses cfg mac claim) :
    CachesMinted lib cfg surface' (log ++ entries) := by
  have hnone : ∀ mac (before : List SurfaceEntry), (∀ entry ∈ before, entry ∈ entries) →
      before.filterMap (SurfaceEntry.mints lib mac) = [] := fun mac before hsub =>
    List.filterMap_eq_nil_iff.mpr fun entry hmem => (hentries entry (hsub entry hmem) mac).1
  refine ⟨fun mac => ?_, fun request ask hheld => ?_, fun answered hmem => ?_,
    hclaims ▸ h.enabled, fun mac => ?_⟩
  · rw [List.filterMap_append, hnone mac entries fun _ => id, List.append_nil, hclaims, h.minted mac]
  · unfold Lacks
    rw [hclaims]
    exact (hholder request ask hheld).elim (h.holder request ask) id
  · unfold Fits
    rw [hclaims]
    exact (hready answered hmem).elim (h.ready answered) id
  · refine (h.reused mac).append fun before entry after heq claim hclaim => ?_
    rw [List.filterMap_append, hnone mac before fun e he => heq ▸ List.mem_append_left _ he,
      List.append_nil, h.minted mac, Option.mem_toList] at hclaim
    exact (hentries entry (heq ▸ by simp) mac).2 claim hclaim

/-- An entry about a request whose machine has no claim, or that mints nothing, does not say
anything of other machines. -/
theorem mints_answered (request : Admitted) (ask : ClaimRequest) (answer : RegistryAnswer)
    (h : request.mac ≠ none → answer.minted lib = none) (mac : Mac) :
    (SurfaceEntry.answered request ask answer).mints lib mac = none := by
  rw [SurfaceEntry.mints]
  split_ifs with hmac
  · exact h (by rw [hmac]; exact Option.some_ne_none mac)
  · rfl

/-- The step that keeps a clone. -/
theorem CachesMinted.claim (h : CachesMinted lib cfg surface log) {request : Admitted}
    {ask : ClaimRequest} {answer : RegistryAnswer} {claim : ClaimResponse}
    (hheld : surface.holder = some (request, ask)) (hminted : answer.minted lib = some claim) :
    CachesMinted lib cfg
      { surface with
        holder := none
        claims := claimFinish surface.claims request (.ok claim)
        ready := surface.ready ++ [(request, some claim)] }
      (log ++ [.answered request ask answer]) := by
  obtain ⟨henabled, hlacks⟩ := h.holder request ask hheld
  have hlookup := lookup_claimFinish surface.claims request claim
  refine ⟨fun mac => ?_, fun _ _ hnone => (nomatch hnone), fun answered hmem => ?_,
    fun _ _ _ => henabled, fun mac => ?_⟩
  · rw [List.filterMap_append, h.minted mac, hlookup mac]
    simp only [List.filterMap_cons, List.filterMap_nil, SurfaceEntry.mints]
    split_ifs with hmac
    · rw [hlacks mac hmac, hminted]
      rfl
    · exact List.append_nil _
  · rcases List.mem_append.mp hmem with hold | hnew
    · refine ⟨fun mac kept hmac hkept => ?_, (h.ready answered hold).2⟩
      have hbefore := (h.ready answered hold).1 mac kept hmac hkept
      simp only [hlookup]
      split_ifs with hown
      · rw [hlacks mac hown] at hbefore
        cases hbefore
      · exact hbefore
    · obtain rfl := List.mem_singleton.mp hnew
      refine ⟨fun mac kept hmac hkept => ?_, fun hnone => nomatch hnone⟩
      cases hkept
      simp only [hlookup]
      exact if_pos hmac
  · exact (h.reused mac).append (eachAfter_of_forall fun entry hentry _ _ _ => by
      obtain rfl := List.mem_singleton.mp hentry
      exact trivial)

end Rules

/-- Every step keeps the cache as the log has it. -/
theorem CachesMinted.step {lib : Library} {cfg : Config} {surface : BootSurface}
    {log : List SurfaceEntry} (event : SurfaceEvent) (h : CachesMinted lib cfg surface log)
    (hkeeps : event.Keeps lib surface) :
    CachesMinted lib cfg (BootSurface.step lib cfg surface event).1
      (log ++ (BootSurface.step lib cfg surface event).2) := by
  have houtcome := BootSurface.step_outcome lib cfg surface event
  generalize (BootSurface.step lib cfg surface event).1 = surface' at houtcome ⊢
  generalize (BootSurface.step lib cfg surface event).2 = entries at houtcome ⊢
  have hsilent : ∀ entry ∈ ([] : List SurfaceEntry), ∀ mac, entry.mints lib mac = none ∧
      ∀ claim, surface.claims.lookup mac = some claim → entry.Reuses cfg mac claim :=
    fun _ hmem => nomatch hmem
  cases houtcome with
  | idle => exact h.frame rfl (fun _ _ => .inl) (fun _ => .inl) hsilent
  | changed change => exact h.frame rfl (fun _ _ => .inl) (fun _ => .inl) hsilent
  | refused _ refusal =>
    refine h.frame rfl (fun _ _ => .inl) (fun _ => .inl) fun entry hmem mac => ?_
    obtain rfl := List.mem_singleton.mp hmem
    exact ⟨rfl, fun _ _ => trivial⟩
  | waits query request henabled hadmitted =>
    exact h.frame rfl (fun _ _ => .inl) (fun _ => .inl) hsilent
  | passes query request hdisabled hadmitted =>
    refine h.frame rfl (fun _ _ => .inl) (fun answered hmem => ?_) hsilent
    rcases List.mem_append.mp hmem with hold | hnew
    · exact .inl hold
    · obtain rfl := List.mem_singleton.mp hnew
      exact .inr ⟨fun _ _ _ hclaim => (nomatch hclaim), fun _ => hdisabled⟩
  | unconfigured i err =>
    refine h.frame rfl (fun _ _ => .inl) (fun _ => .inl) fun entry hmem mac => ?_
    obtain rfl := List.mem_singleton.mp hmem
    exact ⟨rfl, fun _ _ => trivial⟩
  | reuses i request mac claim hwaits hmac hclaim =>
    refine h.frame rfl (fun _ _ => .inl) (fun answered hmem => ?_) hsilent
    rcases List.mem_append.mp hmem with hold | hnew
    · exact .inl hold
    · obtain rfl := List.mem_singleton.mp hnew
      refine .inr ⟨fun mac' claim' hmac' hclaim' => ?_, fun hnone => nomatch hnone⟩
      cases hclaim'
      cases hmac.symm.trans hmac'
      exact hclaim
  | asks i request client hwaits hclient hnone =>
    have hlacks : Lacks cfg surface request :=
      ⟨(ClaimClient.ofConfig_eq_some hclient).1, hnone⟩
    refine h.frame rfl (fun request' ask hheld => ?_) (fun _ => .inl) fun entry hmem mac => ?_
    · cases hheld
      exact .inr hlacks
    · obtain rfl := List.mem_singleton.mp hmem
      refine ⟨rfl, fun claim hclaim hmac => ?_⟩
      rw [hnone mac hmac] at hclaim
      cases hclaim
  | claims answer request ask claim hheld hminted hattach => exact h.claim hheld hminted
  | fails answer request ask err hheld hminted =>
    have hnothing : request.mac ≠ none → answer.minted lib = none := fun hmac =>
      Option.eq_none_iff_forall_ne_some.mpr fun claim hclaim => by
        have hattach := hkeeps request ask claim hheld hmac hclaim
        rw [hminted claim hclaim] at hattach
        cases hattach
    refine h.frame rfl (fun _ _ hnone => nomatch hnone) (fun _ => .inl) fun entry hmem mac => ?_
    rcases List.mem_cons.mp hmem with rfl | hmem
    · exact ⟨mints_answered request ask answer hnothing mac, fun _ _ => trivial⟩
    · obtain rfl := List.mem_singleton.mp hmem
      exact ⟨rfl, fun _ _ => trivial⟩
  | serves i request claim hmem =>
    refine h.frame rfl (fun _ _ => .inl) (fun answered hleft => .inl (List.mem_of_mem_eraseIdx hleft))
      fun entry hentry mac => ?_
    obtain rfl := List.mem_singleton.mp hentry
    refine ⟨rfl, fun kept hkept hmac => ?_⟩
    obtain ⟨hfits, hpassed⟩ := h.ready _ hmem
    cases claim with
    | some claim =>
      cases hkept.symm.trans (hfits mac claim hmac rfl)
      rfl
    | none =>
      have hdisabled := hpassed rfl
      rw [h.enabled mac kept hkept] at hdisabled
      cases hdisabled
  | leaves i => exact h.frame rfl (fun _ _ => .inl) (fun _ => .inl) hsilent
  | abandons answer request ask hheld =>
    refine h.frame rfl (fun _ _ hnone => nomatch hnone) (fun _ => .inl) fun entry hmem mac => ?_
    obtain rfl := List.mem_singleton.mp hmem
    exact ⟨mints_answered request ask answer (hkeeps request ask hheld) mac, fun _ _ => trivial⟩

/-- A surface that was just opened has minted nothing. -/
theorem cachesMinted_opened (lib : Library) (cfg : Config) (hosts : HostStore) :
    CachesMinted lib cfg (BootSurface.opened hosts) [] where
  minted _ := rfl
  holder _ _ hnone := nomatch hnone
  ready _ hmem := nomatch hmem
  enabled _ _ hnone := nomatch hnone
  reused _ := eachAfter_nil _

/-- In every run in which what is minted can be kept, at most one clone is minted for a machine,
and every later request of it reuses that clone. -/
theorem oneClone_of_keeps (lib : Library) (cfg : Config) (hosts : HostStore)
    (events : List SurfaceEvent)
    (hkeeps : Always (BootSurface.step lib cfg) (fun surface event => event.Keeps lib surface)
      (BootSurface.opened hosts) events) (mac : Mac) :
    OneClone lib cfg mac
      (runFrom (BootSurface.step lib cfg) (BootSurface.opened hosts) [] events).2 := by
  have hcaches := runFrom_invariant (CachesMinted lib cfg) (fun _ _ event h => h.step event)
    (cachesMinted_opened lib cfg hosts) events hkeeps
  refine ⟨?_, hcaches.reused mac⟩
  rw [hcaches.minted mac]
  exact Option.length_toList_le

/-! ## Firmware that retries -/

namespace Retrying

/-- A server that claims and does not ask for signatures. -/
def cfg : Config :=
  { Config.default with
    registry := some "http://r:5100".toList
    golden := some "stormcos".toList
    claim := true
    allowUnsigned := true }

/-- Two clones that have no export yet, and one that has. -/
def bodies : List Text :=
  ["\x7b\"id\":\"c1\"\x7d".toList, "\x7b\"id\":\"c2\"\x7d".toList,
    "\x7b\"id\":\"c3\",\"attach\":\x7b\"address\":\"h\",\"port\":1,\"target\":\"n\"\x7d\x7d".toList]

/-- The answer for a clone with this export. -/
def clone (id : Text) (attach : Option Attach) : ClaimResponse where
  id := id
  golden := []
  template := []
  state := []
  volumeName := []
  attach := attach

/-- An export that a boot can attach. -/
def exported : Attach where
  protocol := []
  address := "h".toList
  port := 1
  target := "n".toList
  nsid := none
  diskAdd := none

/-- A library that decodes these bodies, and no others. -/
def lib : Library where
  decode text :=
    [clone "c1".toList none, clone "c2".toList none, clone "c3".toList (some exported)][
      bodies.idxOf text]?
  statusText _ := "200 OK".toList
  debugChar c := [c]

/-- A machine asks, and the registry answers with one of the bodies. -/
def attempt (i : ℕ) : List SurfaceEvent :=
  [.request (some "aa:bb:cc:dd:ee:ff".toList), .acquire 0, .answer (.response 200 bodies[i]?),
    .respond 0]

/-- The machine that retries. -/
def mac : Mac :=
  .ofOctets 0xaa 0xbb 0xcc 0xdd 0xee 0xff

end Retrying

/-- The export is there at once: the retry is served from the same clone. -/
theorem oneClone_attachable :
    OneClone Retrying.lib Retrying.cfg Retrying.mac
      (runFrom (BootSurface.step Retrying.lib Retrying.cfg) (BootSurface.opened .empty) []
        (Retrying.attempt 2 ++ Retrying.attempt 2)).2 := by
  have hattach : ∀ claim,
      (RegistryAnswer.response 200 Retrying.bodies[2]?).minted Retrying.lib = some claim →
        claim.isAttachable = true := by
    have hminted : (RegistryAnswer.response 200 Retrying.bodies[2]?).minted Retrying.lib =
        some (Retrying.clone "c3".toList (some Retrying.exported)) := by decide
    intro claim hclaim
    cases hminted.symm.trans hclaim
    decide
  refine oneClone_of_keeps Retrying.lib Retrying.cfg .empty (Retrying.attempt 2 ++ Retrying.attempt 2)
    ?_ Retrying.mac
  simp only [Retrying.attempt, List.cons_append, List.nil_append, Always]
  exact ⟨trivial, trivial, fun _ _ claim _ _ => hattach claim, trivial, trivial, trivial,
    fun _ _ claim _ _ => hattach claim, trivial, trivial⟩

/-- The registry has no export for the first clone when it answers: the retry mints another. -/
theorem not_oneClone_retried :
    ¬ OneClone Retrying.lib Retrying.cfg Retrying.mac
      (runFrom (BootSurface.step Retrying.lib Retrying.cfg) (BootSurface.opened .empty) []
        (Retrying.attempt 0 ++ Retrying.attempt 1)).2 := by
  have htwo : ((runFrom (BootSurface.step Retrying.lib Retrying.cfg) (BootSurface.opened .empty) []
      (Retrying.attempt 0 ++ Retrying.attempt 1)).2.filterMap
        (SurfaceEntry.mints Retrying.lib Retrying.mac)).length = 2 := by decide
  intro h
  have honce := h.once
  omega

end Stormnetboot.Server

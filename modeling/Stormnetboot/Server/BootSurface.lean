import Stormnetboot.Common.Runs
import Stormnetboot.Server.BootScript

/-!
# Boot script requests side by side

Requests for boot scripts are let in as they come, wait for the lock on the claims, and with
it either reuse a claim or hold the lock until the registry has answered. Host records change
meanwhile, and a client may hang up, which drops its handler where it waits. The surface logs
what it asks the registry, what it is answered and what it serves.
-/

namespace Stormnetboot.Server

open Stormnetboot.Common

/-- A change of the host records. -/
inductive HostChange where
  | reload (records : List HostRecord)
  | resync (records : List HostRecord)
  | apply (record : HostRecord)
  | remove (mac : Mac)

/-- The change of the layers. -/
def HostStore.change (store : HostStore) : HostChange → HostStore
  | .reload records => store.setFileRecords records
  | .resync records => store.setKubeRecords records
  | .apply record => store.applyKubeRecord record
  | .remove mac => store.removeKubeRecord mac

/-- What the requests in flight share, and where each of them is. -/
structure BootSurface where
  hosts : HostStore
  claims : ClaimCache
  /-- Let in, and waiting for the lock. -/
  waiting : List Admitted
  /-- Holding the lock until the registry answers. -/
  holder : Option (Admitted × ClaimRequest)
  /-- Past the claim, with a script to render and send. -/
  ready : List (Admitted × Option ClaimResponse)

/-- What can happen to it. -/
inductive SurfaceEvent where
  | change (change : HostChange)
  | request (query : Option Text)
  | acquire (i : ℕ)
  | answer (answer : RegistryAnswer)
  | respond (i : ℕ)
  | hangUpWaiting (i : ℕ)
  | hangUpHolder (answer : RegistryAnswer)

/-- What the log keeps: the record in the last is that of the machine at the time. -/
inductive SurfaceEntry where
  | refused (refusal : Refusal)
  | asked (request : Admitted) (ask : ClaimRequest)
  | answered (request : Admitted) (ask : ClaimRequest) (answer : RegistryAnswer)
  | served (request : Admitted) (script : Text) (current : Option HostRecord)

namespace BootSurface

/-- A surface nobody has asked anything of. -/
def opened (hosts : HostStore) : BootSurface where
  hosts := hosts
  claims := ∅
  waiting := []
  holder := none
  ready := []

section Steps

variable (lib : Library) (cfg : Config)

/-- One step; what cannot happen in a state changes nothing. -/
def step (surface : BootSurface) : SurfaceEvent → BootSurface × List SurfaceEntry
  | .change change => ({ surface with hosts := surface.hosts.change change }, [])
  | .request query =>
    match admitBoot cfg surface.hosts query with
    | .error refusal => (surface, [.refused refusal])
    | .ok request =>
      if cfg.claimsEnabled then ({ surface with waiting := surface.waiting ++ [request] }, [])
      else ({ surface with ready := surface.ready ++ [(request, none)] }, [])
  | .acquire i =>
    match surface.holder, surface.waiting[i]? with
    | none, some request =>
      let surface := { surface with waiting := surface.waiting.eraseIdx i }
      match claimStart (ClaimClient.ofConfig cfg) surface.claims request with
      | .fail err => (surface, [.refused (.claimFailed err)])
      | .reuse claim => ({ surface with ready := surface.ready ++ [(request, some claim)] }, [])
      | .ask ask => ({ surface with holder := some (request, ask) }, [.asked request ask])
    | _, _ => (surface, [])
  | .answer answer =>
    match surface.holder with
    | some (request, ask) =>
      let claim := ClaimClient.claim lib ask answer
      let surface := { surface with
        holder := none
        claims := claimFinish surface.claims request claim }
      match claim with
      | .ok claim =>
        ({ surface with ready := surface.ready ++ [(request, some claim)] },
          [.answered request ask answer])
      | .error err => (surface, [.answered request ask answer, .refused (.claimFailed err)])
    | none => (surface, [])
  | .respond i =>
    match surface.ready[i]? with
    | some (request, claim) =>
      ({ surface with ready := surface.ready.eraseIdx i },
        [.served request (render cfg (bootPlan cfg request claim))
          (request.mac.bind surface.hosts.lookup)])
    | none => (surface, [])
  | .hangUpWaiting i => ({ surface with waiting := surface.waiting.eraseIdx i }, [])
  | .hangUpHolder answer =>
    match surface.holder with
    | some (request, ask) => ({ surface with holder := none }, [.answered request ask answer])
    | none => (surface, [])

/-- What a step can do: the state it leaves and what it logs. -/
inductive Outcome (surface : BootSurface) :
    SurfaceEvent → BootSurface → List SurfaceEntry → Prop where
  | idle (event : SurfaceEvent) : Outcome surface event surface []
  | changed (change : HostChange) :
    Outcome surface (.change change) { surface with hosts := surface.hosts.change change } []
  | refused (event : SurfaceEvent) (refusal : Refusal) :
    Outcome surface event surface [.refused refusal]
  | waits (query : Option Text) (request : Admitted) (henabled : cfg.claimsEnabled = true)
    (hadmitted : admitBoot cfg surface.hosts query = .ok request) :
    Outcome surface (.request query) { surface with waiting := surface.waiting ++ [request] } []
  | passes (query : Option Text) (request : Admitted) (hdisabled : cfg.claimsEnabled = false)
    (hadmitted : admitBoot cfg surface.hosts query = .ok request) :
    Outcome surface (.request query)
      { surface with ready := surface.ready ++ [(request, none)] } []
  | unconfigured (i : ℕ) (err : ClaimError) :
    Outcome surface (.acquire i) { surface with waiting := surface.waiting.eraseIdx i }
      [.refused (.claimFailed err)]
  | reuses (i : ℕ) (request : Admitted) (mac : Mac) (claim : ClaimResponse)
    (hmem : request ∈ surface.waiting) (hmac : request.mac = some mac)
    (hclaim : surface.claims.lookup mac = some claim) :
    Outcome surface (.acquire i)
      { surface with
        waiting := surface.waiting.eraseIdx i
        ready := surface.ready ++ [(request, some claim)] } []
  | asks (i : ℕ) (request : Admitted) (client : ClaimClient)
    (hmem : request ∈ surface.waiting) (hclient : ClaimClient.ofConfig cfg = some client)
    (hnone : ∀ mac, request.mac = some mac → surface.claims.lookup mac = none) :
    Outcome surface (.acquire i)
      { surface with
        waiting := surface.waiting.eraseIdx i
        holder := some (request, client.request request.mac request.golden) }
      [.asked request (client.request request.mac request.golden)]
  | claims (answer : RegistryAnswer) (request : Admitted) (ask : ClaimRequest)
    (claim : ClaimResponse) (hholder : surface.holder = some (request, ask))
    (hminted : answer.minted lib = some claim) (hattach : claim.isAttachable = true) :
    Outcome surface (.answer answer)
      { surface with
        holder := none
        claims := claimFinish surface.claims request (.ok claim)
        ready := surface.ready ++ [(request, some claim)] }
      [.answered request ask answer]
  | fails (answer : RegistryAnswer) (request : Admitted) (ask : ClaimRequest) (err : ClaimError)
    (hholder : surface.holder = some (request, ask))
    (hminted : ∀ claim, answer.minted lib = some claim → claim.isAttachable = false) :
    Outcome surface (.answer answer) { surface with holder := none }
      [.answered request ask answer, .refused (.claimFailed err)]
  | serves (i : ℕ) (request : Admitted) (claim : Option ClaimResponse)
    (hmem : (request, claim) ∈ surface.ready) :
    Outcome surface (.respond i) { surface with ready := surface.ready.eraseIdx i }
      [.served request (render cfg (bootPlan cfg request claim))
        (request.mac.bind surface.hosts.lookup)]
  | leaves (i : ℕ) :
    Outcome surface (.hangUpWaiting i) { surface with waiting := surface.waiting.eraseIdx i } []
  | abandons (answer : RegistryAnswer) (request : Admitted) (ask : ClaimRequest)
    (hholder : surface.holder = some (request, ask)) :
    Outcome surface (.hangUpHolder answer) { surface with holder := none }
      [.answered request ask answer]

/-- Every step is one of these. -/
theorem step_outcome (surface : BootSurface) (event : SurfaceEvent) :
    Outcome lib cfg surface event (step lib cfg surface event).1 (step lib cfg surface event).2 := by
  cases event with
  | change change => exact .changed change
  | request query =>
    simp only [step]
    cases hadmitted : admitBoot cfg surface.hosts query with
    | error refusal => exact .refused _ refusal
    | ok request =>
      simp only
      split_ifs with henabled
      · exact .waits query request henabled hadmitted
      · exact .passes query request (Bool.not_eq_true _ ▸ henabled) hadmitted
  | acquire i =>
    obtain ⟨hosts, claims, waiting, holder, ready⟩ := surface
    simp only [step]
    cases holder with
    | some held => exact .idle _
    | none =>
      cases hwaiting : waiting[i]? with
      | none => exact .idle _
      | some request =>
        have hmem : request ∈ waiting := List.mem_of_getElem? hwaiting
        simp only [claimStart]
        cases hclient : ClaimClient.ofConfig cfg with
        | none => exact .unconfigured i _
        | some client =>
          cases hclaim : request.mac.bind claims.lookup with
          | some claim =>
            obtain ⟨mac, hmac, hlookup⟩ := Option.bind_eq_some_iff.mp hclaim
            exact .reuses i request mac claim hmem hmac hlookup
          | none =>
            refine .asks i request client hmem hclient fun mac hmac => ?_
            rwa [hmac] at hclaim
  | answer answer =>
    simp only [step]
    cases hholder : surface.holder with
    | none => exact .idle _
    | some held =>
      obtain ⟨request, ask⟩ := held
      simp only
      cases hclaim : ClaimClient.claim lib ask answer with
      | ok claim =>
        obtain ⟨hminted, hattach⟩ := (ClaimClient.claim_eq_ok_iff ..).mp hclaim
        exact .claims answer request ask claim hholder hminted hattach
      | error err =>
        simp only [claimFinish_error]
        refine .fails answer request ask err hholder fun claim hminted => ?_
        rw [← Bool.not_eq_true]
        intro hattach
        rw [(ClaimClient.claim_eq_ok_iff ..).mpr ⟨hminted, hattach⟩] at hclaim
        cases hclaim
  | respond i =>
    simp only [step]
    cases hready : surface.ready[i]? with
    | none => exact .idle _
    | some answered => exact .serves i answered.1 answered.2 (List.mem_of_getElem? hready)
  | hangUpWaiting i => exact .leaves i
  | hangUpHolder answer =>
    simp only [step]
    cases hholder : surface.holder with
    | none => exact .idle _
    | some held => exact .abandons answer held.1 held.2 hholder

end Steps

end BootSurface

end Stormnetboot.Server

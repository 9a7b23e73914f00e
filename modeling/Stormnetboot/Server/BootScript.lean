import Stormnetboot.Server.Claims
import Stormnetboot.Server.FailureRecovery
import Stormnetboot.Server.Ipxe

/-!
# Serving a boot script

The handler of `/boot.ipxe`: who is refused, which claim a host boots from, and the script it
is served. The handler is cut where it waits, so that its pieces can also be interleaved.
-/

namespace Stormnetboot.Server

open Stormnetboot.Common

/-- Why a machine is refused. -/
inductive Refusal where
  | malformedMac (err : MacParseError)
  | unknownHost
  | offline (name : Text)
  | claimFailed (err : ClaimError)
  deriving DecidableEq, Repr

/-- The HTTP status of a refusal. -/
def Refusal.status : Refusal → ℕ
  | .malformedMac _ => 400
  | .unknownHost => 403
  | .offline _ => 403
  | .claimFailed _ => 503

/-- The message of a MAC that does not parse. -/
def MacParseError.display (lib : Library) : MacParseError → Text
  | .wrongLength found => "expected 12 hex digits, found ".toList ++ natText found
  | .notHex c => "invalid character ".toList ++ lib.debugChar c ++ " in MAC".toList

/-- The script a refused machine is answered with, which opens a shell. -/
def Refusal.body (lib : Library) (refusal : Refusal) : Text :=
  let reason := match refusal with
    | .malformedMac err => "malformed mac: ".toList ++ err.display lib
    | .unknownHost => "this machine has no host record; refusing to boot it".toList
    | .offline name => name ++ " is marked offline (spec.online=false); not booting it".toList
    | .claimFailed err => "could not claim a root volume: ".toList ++ err.display lib
  "#!ipxe\n# ".toList ++ reason ++ "\nshell\n".toList

/-- A request that was let in: the machine that sent it, if it said, and its record. -/
structure Admitted where
  mac : Option Mac
  record : Option HostRecord
  deriving DecidableEq, Repr

/-- The loadout the record names, if it names one. -/
def Admitted.golden (request : Admitted) : Option Text :=
  request.record.bind HostRecord.stack

/-- The machine a query names. A MAC that does not parse is refused, not served a default. -/
def queriedMac : Option Text → Except Refusal (Option Mac)
  | none => .ok none
  | some raw =>
    match Mac.parse raw with
    | .ok mac => .ok (some mac)
    | .error err => .error (.malformedMac err)

/-- Whether a machine with this record is served at all. A parked machine keeps its record and
does not boot. -/
def checkRecord (cfg : Config) : Option HostRecord → Except Refusal Unit
  | none => if cfg.unknownHosts = .deny then .error .unknownHost else .ok ()
  | some record => if record.online then .ok () else .error (.offline record.name)

/-- The checks before anything is observed or claimed. -/
def admitBoot (cfg : Config) (hosts : HostStore) (query : Option Text) : Except Refusal Admitted :=
  match queriedMac query with
  | .error refusal => .error refusal
  | .ok mac =>
    let record := mac.bind hosts.lookup
    match checkRecord cfg record with
    | .error refusal => .error refusal
    | .ok () => .ok ⟨mac, record⟩

/-- A request that is let in names its machine and carries the machine's current record. -/
theorem admitBoot_eq_ok {cfg : Config} {hosts : HostStore} {query : Option Text} {request : Admitted}
    (h : admitBoot cfg hosts query = .ok request) :
    queriedMac query = .ok request.mac ∧ request.record = request.mac.bind hosts.lookup := by
  unfold admitBoot at h
  cases hmac : queriedMac query with
  | error refusal =>
    rw [hmac] at h
    cases h
  | ok mac =>
    rw [hmac] at h
    simp only at h
    cases hcheck : checkRecord cfg (mac.bind hosts.lookup) with
    | error refusal =>
      rw [hcheck] at h
      cases h
    | ok _ =>
      rw [hcheck] at h
      cases h
      exact ⟨rfl, rfl⟩

/-- An admitted request has the record of its MAC. -/
theorem record_of_admitBoot {cfg : Config} {hosts : HostStore} {query : Option Text}
    {request : Admitted} (h : admitBoot cfg hosts query = .ok request) :
    request.record = request.mac.bind hosts.lookup :=
  (admitBoot_eq_ok h).2

/-! ## The claim -/

/-- The claims already made, by host. -/
abbrev ClaimCache := HashMap Mac ClaimResponse

/-- What `claim_for` does with the lock in its hands. -/
inductive ClaimStart where
  | fail (err : ClaimError)
  | reuse (claim : ClaimResponse)
  | ask (request : ClaimRequest)

/-- `claim_for` up to the registry: an existing claim is reused. -/
def claimStart (client : Option ClaimClient) (claims : ClaimCache) (request : Admitted) :
    ClaimStart :=
  match client with
  | none => .fail .notConfigured
  | some client =>
    match request.mac.bind claims.lookup with
    | some existing => .reuse existing
    | none => .ask (client.request request.mac request.golden)

/-- `claim_for` after the registry: a claim is kept for the host it was made for. -/
def claimFinish (claims : ClaimCache) (request : Admitted) (claim : Except ClaimError ClaimResponse) :
    ClaimCache :=
  match request.mac, claim with
  | some mac, .ok claim => claims.insert mac claim
  | _, _ => claims

/-- Nothing is kept of a claim that failed. -/
theorem claimFinish_error (claims : ClaimCache) (request : Admitted) (err : ClaimError) :
    claimFinish claims request (.error err) = claims := by
  unfold claimFinish
  cases request.mac <;> rfl

/-- A claim that was made is kept for its machine, and the others keep what they have. -/
theorem lookup_claimFinish (claims : ClaimCache) (request : Admitted) (claim : ClaimResponse)
    (mac : Mac) :
    (claimFinish claims request (.ok claim)).lookup mac =
      if request.mac = some mac then some claim else claims.lookup mac := by
  unfold claimFinish
  cases hmac : request.mac with
  | none => simp
  | some own =>
    by_cases heq : own = mac
    · subst heq
      simp
    · rw [if_neg (by simpa using heq)]
      exact Finmap.lookup_insert_of_ne _ (Ne.symm heq)

/-- `claim_for`, given how the registry answers a request. -/
def claimFor (lib : Library) (client : Option ClaimClient)
    (registry : ClaimRequest → RegistryAnswer) (claims : ClaimCache) (request : Admitted) :
    Except ClaimError ClaimResponse × ClaimCache :=
  match claimStart client claims request with
  | .fail err => (.error err, claims)
  | .reuse claim => (.ok claim, claims)
  | .ask ask =>
    let claim := ClaimClient.claim lib ask (registry ask)
    (claim, claimFinish claims request claim)

/-! ## The script -/

/-- The plan with the claim's volume and where it is exported. -/
def bootPlan (cfg : Config) (request : Admitted) (claim : Option ClaimResponse) : BootPlan :=
  let plan := BootPlan.resolve cfg request.mac request.record
  let plan := match claim.bind ClaimResponse.attach with
    | some attach =>
      { plan with
        portal := some attach.address
        portalPort := attach.port
        nqn := some attach.target
        nsid := attach.nsid }
    | none => plan
  match claim with
  | some claim => { plan with volume := some claim.volumeName }
  | none => plan

/-- What the handlers share. -/
structure AppState where
  cfg : Config
  hosts : HostStore
  boot : BootState
  claimClient : Option ClaimClient
  claims : ClaimCache
  /-- The version of the assets being served. -/
  palletVersion : Option Text

/-- A server that has just started. -/
def AppState.new (cfg : Config) (hosts : HostStore) (claimClient : Option ClaimClient)
    (palletVersion : Option Text) : AppState where
  cfg := cfg
  hosts := hosts
  boot := ∅
  claimClient := claimClient
  claims := ∅
  palletVersion := palletVersion

/-- What a request meets: the clock and the map's order at each note of it, and the registry. -/
structure Surroundings where
  lib : Library
  registry : ClaimRequest → RegistryAnswer
  onFetch : Moment
  onFailure : Moment

/-- A note of a request about its machine, if it is known which. -/
def AppState.observe (moment : Moment) (mac : Option Mac) (phase : Phase) (detail : Option Text)
    (state : AppState) : AppState :=
  match mac with
  | some mac => { state with boot := state.boot.observe moment mac phase detail }
  | none => state

/-- An observation leaves the configuration. -/
@[simp] theorem AppState.observe_cfg (moment : Moment) (mac : Option Mac) (phase : Phase)
    (detail : Option Text) (state : AppState) :
    (state.observe moment mac phase detail).cfg = state.cfg := by
  unfold AppState.observe
  cases mac <;> rfl

/-- It leaves the claim client. -/
@[simp] theorem AppState.observe_claimClient (moment : Moment) (mac : Option Mac) (phase : Phase)
    (detail : Option Text) (state : AppState) :
    (state.observe moment mac phase detail).claimClient = state.claimClient := by
  unfold AppState.observe
  cases mac <;> rfl

/-- It leaves the remembered claims. -/
@[simp] theorem AppState.observe_claims (moment : Moment) (mac : Option Mac) (phase : Phase)
    (detail : Option Text) (state : AppState) :
    (state.observe moment mac phase detail).claims = state.claims := by
  unfold AppState.observe
  cases mac <;> rfl

/-- The handler up to the plan. -/
def resolveBoot (around : Surroundings) (query : Option Text) (state : AppState) :
    Except Refusal BootPlan × AppState :=
  match admitBoot state.cfg state.hosts query with
  | .error refusal => (.error refusal, state)
  | .ok request =>
    let state := state.observe around.onFetch request.mac .scriptFetched none
    if state.cfg.claimsEnabled then
      match claimFor around.lib state.claimClient around.registry state.claims request with
      | (.ok claim, claims) =>
        (.ok (bootPlan state.cfg request (some claim)), { state with claims := claims })
      | (.error err, claims) =>
        (.error (.claimFailed err),
          { state with claims := claims }.observe around.onFailure request.mac .failed
            (some ("claim failed: ".toList ++ err.display around.lib)))
    else (.ok (bootPlan state.cfg request none), state)

/-- `boot_script`: the script answered with 200, or the refusal. -/
def bootScript (around : Surroundings) (query : Option Text) (state : AppState) :
    Except Refusal Text × AppState :=
  match resolveBoot around query state with
  | (.error refusal, state) => (.error refusal, state)
  | (.ok plan, state) =>
    let state := match plan.mac, state.palletVersion with
      | some mac, some version => { state with boot := state.boot.setPalletVersion mac version }
      | _, _ => state
    (.ok (render state.cfg plan), state)

/-- The handler leaves the configuration alone. -/
theorem cfg_resolveBoot (around : Surroundings) (query : Option Text) (state : AppState) :
    (resolveBoot around query state).2.cfg = state.cfg := by
  unfold resolveBoot
  cases admitBoot state.cfg state.hosts query with
  | error refusal => rfl
  | ok request =>
    simp only
    split_ifs
    · rcases claimFor around.lib (state.observe around.onFetch request.mac .scriptFetched none).claimClient
        around.registry (state.observe around.onFetch request.mac .scriptFetched none).claims request
        with ⟨err | claim, claims⟩
      · simp
      · simp
    · simp

/-- Without claims a request that is let in gets the plan of its record. -/
theorem resolveBoot_unclaimed (around : Surroundings) {query : Option Text} {state : AppState}
    {request : Admitted} (hadmitted : admitBoot state.cfg state.hosts query = .ok request)
    (hdisabled : state.cfg.claimsEnabled = false) :
    (resolveBoot around query state).1 = .ok (bootPlan state.cfg request none) := by
  simp [resolveBoot, hadmitted, hdisabled]

/-- With claims it gets the plan of its claim. -/
theorem resolveBoot_claimed {around : Surroundings} {query : Option Text} {state : AppState}
    {request : Admitted} {claim : ClaimResponse}
    (hadmitted : admitBoot state.cfg state.hosts query = .ok request)
    (henabled : state.cfg.claimsEnabled = true)
    (hclaim : (claimFor around.lib state.claimClient around.registry state.claims request).1 =
      .ok claim) :
    (resolveBoot around query state).1 = .ok (bootPlan state.cfg request (some claim)) := by
  rcases hfor : claimFor around.lib state.claimClient around.registry state.claims request
    with ⟨result, claims⟩
  rw [hfor] at hclaim
  simp only at hclaim
  simp [resolveBoot, hadmitted, henabled, hfor, hclaim]

/-- The script that is served renders the plan that was resolved. -/
theorem fst_bootScript (around : Surroundings) (query : Option Text) (state : AppState) :
    (bootScript around query state).1 =
      (resolveBoot around query state).1.map (render state.cfg) := by
  have hcfg := cfg_resolveBoot around query state
  unfold bootScript
  rcases hresolve : resolveBoot around query state with ⟨refusal | plan, after⟩
  · rfl
  · rw [hresolve] at hcfg
    simp only [Except.map, Except.ok.injEq]
    rw [← hcfg]
    cases plan.mac <;> cases after.palletVersion <;> rfl

/-- A script is served exactly when a plan is resolved, and renders it. -/
theorem bootScript_eq_ok_iff (around : Surroundings) (query : Option Text) (state : AppState)
    (script : Text) : (bootScript around query state).1 = .ok script ↔
      ∃ plan, (resolveBoot around query state).1 = .ok plan ∧ render state.cfg plan = script := by
  rw [fst_bootScript]
  cases (resolveBoot around query state).1 with
  | error refusal => simp [Except.map]
  | ok plan => simp [Except.map]

end Stormnetboot.Server

import Mathlib.Tactic.Tauto
import Stormnetboot.Server.BootScript

/-!
# The boot gate

Who is refused a boot script, and what a refusal leaves alone. A machine is turned away for a
MAC that does not parse, for having no record where records are required, or for being parked;
nothing is noted or claimed for it. Anyone else is answered with a script, unless a claim was
made for the machine and failed.
-/

namespace Stormnetboot.Server

open Stormnetboot.Common

/-- The HTTP status of an answer. -/
def answerStatus : Except Refusal Text → ℕ
  | .ok _ => 200
  | .error refusal => refusal.status

/-- A MAC is given that does not parse. -/
def Malformed (query : Option Text) : Prop :=
  ∃ raw err, query = some raw ∧ Mac.parse raw = .error err

/-- No MAC is given, or one of a machine without a record. -/
def Unrecorded (hosts : HostStore) (query : Option Text) : Prop :=
  ∀ raw mac, query = some raw → Mac.parse raw = .ok mac → hosts.lookup mac = none

/-- The MAC given is that of a machine whose record says it is offline. -/
def Parked (hosts : HostStore) (query : Option Text) : Prop :=
  ∃ raw mac record, query = some raw ∧ Mac.parse raw = .ok mac ∧
    hosts.lookup mac = some record ∧ record.online = false

/-- The machine is to be refused, whatever its MAC. -/
def Barred (cfg : Config) (hosts : HostStore) (query : Option Text) : Prop :=
  (Unrecorded hosts query ∧ cfg.unknownHosts = .deny) ∨ Parked hosts query

/-! ## What is asked of the registry -/

/-- The requests that `claim_for` sends. -/
def claimAsks (client : Option ClaimClient) (claims : ClaimCache) (request : Admitted) :
    List ClaimRequest :=
  match claimStart client claims request with
  | .ask ask => [ask]
  | .fail _ => []
  | .reuse _ => []

/-- The requests that the handler sends. -/
def bootAsks (query : Option Text) (state : AppState) : List ClaimRequest :=
  match admitBoot state.cfg state.hosts query with
  | .error _ => []
  | .ok request =>
    if state.cfg.claimsEnabled then claimAsks state.claimClient state.claims request else []

/-- A request that is refused asks nothing. -/
theorem bootAsks_refused {query : Option Text} {state : AppState} {refusal : Refusal}
    (h : admitBoot state.cfg state.hosts query = .error refusal) : bootAsks query state = [] := by
  rw [bootAsks, h]

/-- An admitted one asks what its claim asks. -/
theorem bootAsks_admitted {query : Option Text} {state : AppState} {request : Admitted}
    (h : admitBoot state.cfg state.hosts query = .ok request)
    (henabled : state.cfg.claimsEnabled = true) :
    bootAsks query state = claimAsks state.claimClient state.claims request := by
  simp only [bootAsks, h, henabled, if_true]

/-- `claim_for` learns of the registry what it asks for. -/
theorem claimFor_congr (lib : Library) (client : Option ClaimClient)
    {first second : ClaimRequest → RegistryAnswer} {claims : ClaimCache} {request : Admitted}
    (h : ∀ ask ∈ claimAsks client claims request, first ask = second ask) :
    claimFor lib client first claims request = claimFor lib client second claims request := by
  unfold claimFor
  unfold claimAsks at h
  cases hstart : claimStart client claims request with
  | fail err => rfl
  | reuse claim => rfl
  | ask ask =>
    rw [hstart] at h
    simp only [h ask (List.mem_singleton_self ask)]

/-- The handler learns of the registry what it asks for. -/
theorem bootScript_congr (around : Surroundings) {second : ClaimRequest → RegistryAnswer}
    {query : Option Text} {state : AppState}
    (h : ∀ ask ∈ bootAsks query state, around.registry ask = second ask) :
    bootScript { around with registry := second } query state = bootScript around query state := by
  have hresolve : resolveBoot { around with registry := second } query state =
      resolveBoot around query state := by
    unfold resolveBoot
    cases hadmitted : admitBoot state.cfg state.hosts query with
    | error refusal => rfl
    | ok request =>
      simp only [AppState.observe_cfg, AppState.observe_claimClient, AppState.observe_claims]
      split_ifs with henabled
      · rw [bootAsks_admitted hadmitted henabled] at h
        rw [claimFor_congr around.lib state.claimClient h]
      · rfl
  unfold bootScript
  rw [hresolve]

/-! ## Who is let in -/

/-- What the checks say of a request. -/
inductive Admission (cfg : Config) (hosts : HostStore) (query : Option Text) :
    Except Refusal Admitted → Prop where
  | malformed (err : MacParseError) (hmalformed : Malformed query) :
    Admission cfg hosts query (.error (.malformedMac err))
  | unknown (hparsed : ¬Malformed query) (hunrecorded : Unrecorded hosts query)
    (hdeny : cfg.unknownHosts = .deny) : Admission cfg hosts query (.error .unknownHost)
  | offline (name : Text) (hparsed : ¬Malformed query) (hparked : Parked hosts query) :
    Admission cfg hosts query (.error (.offline name))
  | admitted (request : Admitted) (hparsed : ¬Malformed query) (hlet : ¬Barred cfg hosts query)
    (hmac : ∀ raw mac, query = some raw → Mac.parse raw = .ok mac → request.mac = some mac) :
    Admission cfg hosts query (.ok request)

/-- Without a MAC only the policy counts. -/
theorem admission_none (cfg : Config) (hosts : HostStore) :
    Admission cfg hosts none (admitBoot cfg hosts none) := by
  have hparsed : ¬Malformed none := fun ⟨_, _, hraw, _⟩ => nomatch hraw
  simp only [admitBoot, queriedMac, Option.bind_none, checkRecord]
  split_ifs with hdeny
  · exact .unknown hparsed (fun _ _ hraw => nomatch hraw) hdeny
  · refine .admitted _ hparsed (fun hbarred => ?_) fun _ _ hraw => nomatch hraw
    rcases hbarred with ⟨-, hpolicy⟩ | ⟨_, _, _, hraw, -⟩
    · exact hdeny hpolicy
    · cases hraw

/-- With a MAC that parses, the record of its machine counts too. -/
theorem admission_parsed (cfg : Config) (hosts : HostStore) {raw : Text} {mac : Mac}
    (hparse : Mac.parse raw = .ok mac) :
    Admission cfg hosts (some raw) (admitBoot cfg hosts (some raw)) := by
  have hnames : ∀ raw' mac', some raw = some raw' → Mac.parse raw' = .ok mac' → mac = mac' := by
    rintro raw' mac' ⟨⟩ hparse'
    exact Except.ok.inj (hparse.symm.trans hparse')
  have hparsed : ¬Malformed (some raw) := by
    rintro ⟨raw', err, ⟨⟩, herror⟩
    rw [hparse] at herror
    cases herror
  simp only [admitBoot, queriedMac, hparse, Option.bind_some]
  cases hlookup : hosts.lookup mac with
  | none =>
    simp only [checkRecord]
    split_ifs with hdeny
    · refine .unknown hparsed (fun raw' mac' hraw hmac => ?_) hdeny
      rw [← hnames raw' mac' hraw hmac, hlookup]
    · refine .admitted _ hparsed (fun hbarred => ?_) fun raw' mac' hraw hmac => ?_
      · rcases hbarred with ⟨-, hpolicy⟩ | ⟨raw', mac', record, hraw, hmac, hrecord, -⟩
        · exact hdeny hpolicy
        · rw [← hnames raw' mac' hraw hmac, hlookup] at hrecord
          cases hrecord
      · rw [hnames raw' mac' hraw hmac]
  | some record =>
    simp only [checkRecord]
    split_ifs with honline
    · refine .admitted _ hparsed (fun hbarred => ?_) fun raw' mac' hraw hmac => ?_
      · rcases hbarred with ⟨hunrecorded, -⟩ | ⟨raw', mac', record', hraw, hmac, hrecord, hoffline⟩
        · rw [hunrecorded raw mac rfl hparse] at hlookup
          cases hlookup
        · rw [← hnames raw' mac' hraw hmac, hlookup] at hrecord
          cases hrecord
          rw [honline] at hoffline
          cases hoffline
      · rw [hnames raw' mac' hraw hmac]
    · exact .offline record.name hparsed
        ⟨raw, mac, record, rfl, hparse, hlookup, Bool.not_eq_true _ ▸ honline⟩

/-- The checks say one of these. -/
theorem admitBoot_admission (cfg : Config) (hosts : HostStore) (query : Option Text) :
    Admission cfg hosts query (admitBoot cfg hosts query) := by
  cases query with
  | none => exact admission_none cfg hosts
  | some raw =>
    cases hparse : Mac.parse raw with
    | ok mac => exact admission_parsed cfg hosts hparse
    | error err =>
      simp only [admitBoot, queriedMac, hparse]
      exact .malformed err ⟨raw, err, rfl, hparse⟩

/-! ## What follows for the answer -/

/-- A request that is refused by the checks leaves everything alone. -/
theorem bootScript_refused (around : Surroundings) {query : Option Text} {state : AppState}
    {refusal : Refusal} (h : admitBoot state.cfg state.hosts query = .error refusal) :
    bootScript around query state = (.error refusal, state) := by
  have hresolve : resolveBoot around query state = (.error refusal, state) := by
    rw [resolveBoot, h]
  rw [bootScript, hresolve]

/-- Where claims can be made there is a client. -/
theorem ClaimClient.exists_ofConfig {cfg : Config} (h : cfg.claimsEnabled = true) :
    ∃ client, ClaimClient.ofConfig cfg = some client := by
  have hparts := h
  simp only [Config.claimsEnabled, Bool.and_eq_true, Option.isSome_iff_exists] at hparts
  obtain ⟨⟨-, registry, hregistry⟩, golden, hgolden⟩ := hparts
  exact ⟨.new registry golden, by rw [ofConfig, h, hregistry, hgolden]⟩

/-- A claim fails because the registry was asked and its answer was no claim; nothing is kept. -/
theorem claimFor_eq_error {lib : Library} {client : ClaimClient}
    {registry : ClaimRequest → RegistryAnswer} {claims after : ClaimCache} {request : Admitted}
    {err : ClaimError}
    (h : claimFor lib (some client) registry claims request = (.error err, after)) :
    after = claims ∧ request.mac.bind claims.lookup = none ∧
      ∃ ask, claimAsks (some client) claims request = [ask] ∧
        ClaimClient.claim lib ask (registry ask) = .error err := by
  unfold claimFor claimStart at h
  unfold claimAsks claimStart
  cases hclaim : request.mac.bind claims.lookup with
  | some claim =>
    rw [hclaim] at h
    cases h
  | none =>
    rw [hclaim] at h
    obtain ⟨hfailed, hafter⟩ := Prod.mk.inj h
    refine ⟨?_, rfl, _, rfl, hfailed⟩
    rw [← hafter, hfailed, claimFinish_error]

/-- A server whose client is the one its configuration gives rise to. -/
def AppState.serving (cfg : Config) (hosts : HostStore) (boot : BootState) (claims : ClaimCache)
    (palletVersion : Option Text) : AppState where
  cfg := cfg
  hosts := hosts
  boot := boot
  claimClient := ClaimClient.ofConfig cfg
  claims := claims
  palletVersion := palletVersion

/-- A request past the checks gets a script, unless a claim was made and failed. -/
theorem resolveBoot_admitted (around : Surroundings) {query : Option Text} {state : AppState}
    {request : Admitted} (h : admitBoot state.cfg state.hosts query = .ok request)
    (hclient : state.claimClient = ClaimClient.ofConfig state.cfg) :
    (∃ plan after, resolveBoot around query state = (.ok plan, after)) ∨
      ∃ ask err after, resolveBoot around query state = (.error (.claimFailed err), after) ∧
        bootAsks query state = [ask] ∧
        ClaimClient.claim around.lib ask (around.registry ask) = .error err ∧
        after.claims = state.claims ∧ request.mac.bind state.claims.lookup = none := by
  simp only [resolveBoot, h, AppState.observe_cfg, AppState.observe_claimClient,
    AppState.observe_claims]
  split_ifs with henabled
  · obtain ⟨client, hconfig⟩ := ClaimClient.exists_ofConfig henabled
    rw [hclient, hconfig]
    rcases hclaim : claimFor around.lib (some client) around.registry state.claims request
      with ⟨err | claim, claims⟩
    · obtain ⟨rfl, hnone, ask, hasks, hfailed⟩ := claimFor_eq_error hclaim
      refine .inr ⟨ask, err, _, rfl, ?_, hfailed, AppState.observe_claims .., hnone⟩
      rw [bootAsks_admitted h henabled, hclient, hconfig, hasks]
    · exact .inl ⟨_, _, rfl⟩
  · exact .inl ⟨_, _, rfl⟩

/-- The gate: who is refused with which status, and what a refusal leaves alone. -/
structure BootGate (around : Surroundings) (query : Option Text) (state : AppState) : Prop where
  malformed : answerStatus (bootScript around query state).1 = 400 ↔ Malformed query
  barred : answerStatus (bootScript around query state).1 = 403 ↔
    ¬Malformed query ∧ Barred state.cfg state.hosts query
  untouched : Malformed query ∨ Barred state.cfg state.hosts query →
    bootAsks query state = [] ∧ (bootScript around query state).2 = state
  letIn : ¬Malformed query → ¬Barred state.cfg state.hosts query →
    answerStatus (bootScript around query state).1 = 200 ∨
      answerStatus (bootScript around query state).1 = 503
  unavailable : answerStatus (bootScript around query state).1 = 503 →
    ∃ ask err, bootAsks query state = [ask] ∧
      ClaimClient.claim around.lib ask (around.registry ask) = .error err ∧
      (bootScript around query state).2.claims = state.claims ∧
      ∀ raw mac, query = some raw → Mac.parse raw = .ok mac → state.claims.lookup mac = none
  asks : ∀ other : ClaimRequest → RegistryAnswer,
    (∀ ask ∈ bootAsks query state, around.registry ask = other ask) →
    bootScript { around with registry := other } query state = bootScript around query state

section Answers

variable (around : Surroundings) {query : Option Text} {state : AppState}

/-- The gate where the checks refuse. -/
theorem gate_refused {refusal : Refusal}
    (hadmitted : admitBoot state.cfg state.hosts query = .error refusal) :
    BootGate around query state := by
  have hadmission := admitBoot_admission state.cfg state.hosts query
  have huntouched : bootAsks query state = [] ∧ (bootScript around query state).2 = state :=
    ⟨bootAsks_refused hadmitted, by rw [bootScript_refused around hadmitted]⟩
  have hstatus : answerStatus (bootScript around query state).1 = refusal.status := by
    rw [bootScript_refused around hadmitted]
    rfl
  rw [hadmitted] at hadmission
  cases hadmission with
  | malformed err hmalformed =>
    exact {
      malformed := iff_of_true hstatus hmalformed
      barred := iff_of_false (by rw [hstatus, Refusal.status]; omega) fun h => h.1 hmalformed
      untouched := fun _ => huntouched
      letIn := fun hparsed _ => absurd hmalformed hparsed
      unavailable := fun h => by rw [hstatus, Refusal.status] at h; omega
      asks := fun other h => bootScript_congr around h }
  | unknown hparsed hunrecorded hdeny =>
    have hbarred : Barred state.cfg state.hosts query := .inl ⟨hunrecorded, hdeny⟩
    exact {
      malformed := iff_of_false (by rw [hstatus, Refusal.status]; omega) hparsed
      barred := iff_of_true hstatus ⟨hparsed, hbarred⟩
      untouched := fun _ => huntouched
      letIn := fun _ hlet => absurd hbarred hlet
      unavailable := fun h => by rw [hstatus, Refusal.status] at h; omega
      asks := fun other h => bootScript_congr around h }
  | offline name hparsed hparked =>
    exact {
      malformed := iff_of_false (by rw [hstatus, Refusal.status]; omega) hparsed
      barred := iff_of_true hstatus ⟨hparsed, .inr hparked⟩
      untouched := fun _ => huntouched
      letIn := fun _ hlet => absurd (.inr hparked) hlet
      unavailable := fun h => by rw [hstatus, Refusal.status] at h; omega
      asks := fun other h => bootScript_congr around h }

/-- The gate where the checks let the request in. -/
theorem gate_admitted {request : Admitted}
    (hadmitted : admitBoot state.cfg state.hosts query = .ok request)
    (hclient : state.claimClient = ClaimClient.ofConfig state.cfg) :
    BootGate around query state := by
  have hadmission := admitBoot_admission state.cfg state.hosts query
  rw [hadmitted] at hadmission
  cases hadmission with | admitted _ hparsed hlet hmac
  have hanswer : answerStatus (bootScript around query state).1 = 200 ∨
      answerStatus (bootScript around query state).1 = 503 ∧ ∃ ask err,
        bootAsks query state = [ask] ∧
        ClaimClient.claim around.lib ask (around.registry ask) = .error err ∧
        (bootScript around query state).2.claims = state.claims ∧
        request.mac.bind state.claims.lookup = none := by
    rcases resolveBoot_admitted around hadmitted hclient with
      ⟨plan, after, hresolve⟩ | ⟨ask, err, after, hresolve, hasks, hfailed, hclaims, hnone⟩
    · left
      rw [bootScript, hresolve]
      rfl
    · right
      rw [bootScript, hresolve]
      exact ⟨rfl, ask, err, hasks, hfailed, hclaims, hnone⟩
  refine {
    malformed := iff_of_false (by omega) hparsed
    barred := iff_of_false (by omega) fun h => hlet h.2
    untouched := fun h => absurd h (by tauto)
    letIn := fun _ _ => by omega
    unavailable := fun h => ?_
    asks := fun other h => bootScript_congr around h }
  obtain ⟨-, ask, err, hasks, hfailed, hclaims, hnone⟩ := hanswer.resolve_left (by omega)
  refine ⟨ask, err, hasks, hfailed, hclaims, fun raw mac hraw hparse => ?_⟩
  rwa [hmac raw mac hraw hparse] at hnone

end Answers

/-- Every request for a boot script goes through the gate. -/
theorem bootScript_gate (around : Surroundings) (cfg : Config) (hosts : HostStore)
    (boot : BootState) (claims : ClaimCache) (palletVersion : Option Text)
    (query : Option Text) :
    BootGate around query (AppState.serving cfg hosts boot claims palletVersion) := by
  cases hadmitted : admitBoot cfg hosts query with
  | error refusal => exact gate_refused around hadmitted
  | ok request => exact gate_admitted around hadmitted rfl

end Stormnetboot.Server

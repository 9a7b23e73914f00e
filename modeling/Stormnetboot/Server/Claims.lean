import Stormnetboot.Server.Config

/-!
# Per-host root volume claims

Each booting machine gets a copy-on-write clone of one golden. The client asks the registry
for it and refuses an answer that cannot be attached; what the JSON and HTTP libraries make of
texts and status codes is a parameter.
-/

namespace Stormnetboot.Server

open Stormnetboot.Common

/-- Attach details as the registry reports them. -/
structure Attach where
  protocol : Text
  address : Text
  port : UInt16
  target : Text
  nsid : Option UInt32
  diskAdd : Option Text
  deriving DecidableEq, Repr

/-- What the registry answers to a claim. -/
structure ClaimResponse where
  id : Text
  golden : Text
  template : Text
  state : Text
  volumeName : Text
  attach : Option Attach
  deriving DecidableEq, Repr

/-- Whether this claim can actually be booted from. -/
def ClaimResponse.isAttachable (claim : ClaimResponse) : Bool :=
  claim.attach.any fun a => !a.address.isEmpty && !a.target.isEmpty && a.port != 0

/-- The request for a clone. -/
structure ClaimRequest where
  url : Text
  golden : Text
  consumer : Option Text
  deriving DecidableEq, Repr

/-- What comes back for it: nothing at all, or a status and a body, which may not be readable. -/
inductive RegistryAnswer where
  | failed
  | response (status : ℕ) (body : Option Text)
  deriving DecidableEq, Repr

/-- What the libraries make of an answer: the claim a body is decoded to, the words for a
status, and a character as `Debug` quotes it. -/
structure Library where
  decode : Text → Option ClaimResponse
  statusText : ℕ → Text
  debugChar : Char → Text

/-- `StatusCode::is_success`. -/
def isSuccess (status : ℕ) : Bool :=
  200 ≤ status && status < 300

/-- Why there is no claim to boot from. -/
inductive ClaimError where
  | notConfigured
  | post (url : Text)
  | refused (golden : Text) (status : ℕ) (text : Text)
  | parsing (text : Text)
  | notAttachable (claim : ClaimResponse) (golden : Text)
  deriving DecidableEq, Repr

/-- The outermost message of the error. -/
def ClaimError.display (lib : Library) : ClaimError → Text
  | .notConfigured => "claims are not configured".toList
  | .post url => "POST ".toList ++ url
  | .refused golden status text =>
    "claim for golden ".toList ++ golden ++ " failed (".toList ++ lib.statusText status ++
      "): ".toList ++ trim text
  | .parsing text => "parsing claim response: ".toList ++ text
  | .notAttachable claim golden =>
    "claim ".toList ++ claim.id ++ " for golden ".toList ++ golden ++
      " has no usable attach info (state ".toList ++ claim.state ++ ")".toList

/-- How the registry is asked. -/
structure ClaimClient where
  registry : Text
  /-- Every booting host clones from it, unless its record names another. -/
  defaultGolden : Text
  deriving DecidableEq, Repr

namespace ClaimClient

/-- `ClaimClient::new`. -/
def new (registry defaultGolden : Text) : ClaimClient where
  registry := registry.rdropWhile (· = '/')
  defaultGolden := defaultGolden

/-- The client a configuration gives rise to, when claims can be made at all. -/
def ofConfig (cfg : Config) : Option ClaimClient :=
  match cfg.claimsEnabled, cfg.registry, cfg.golden with
  | true, some registry, some golden => some (new registry golden)
  | _, _, _ => none

/-- There is a client where claims can be made, with the configured golden as its default. -/
theorem ofConfig_eq_some {cfg : Config} {client : ClaimClient} (h : ofConfig cfg = some client) :
    cfg.claimsEnabled = true ∧ cfg.golden = some client.defaultGolden := by
  unfold ofConfig at h
  split at h
  · rename_i henabled hregistry hgolden
    cases h
    exact ⟨henabled, hgolden⟩
  · cases h

/-- The request for one host. The MAC goes with it as the consumer. -/
def request (client : ClaimClient) (mac : Option Mac) (golden : Option Text) : ClaimRequest where
  url := client.registry ++ "/v1/clones/claim".toList
  golden := golden.getD client.defaultGolden
  consumer := mac.map Mac.display

/-- What the client makes of the registry's answer. -/
def claim (lib : Library) (request : ClaimRequest) :
    RegistryAnswer → Except ClaimError ClaimResponse
  | .failed => .error (.post request.url)
  | .response status body =>
    let text := body.getD []
    if !isSuccess status then .error (.refused request.golden status text)
    else
      match lib.decode text with
      | none => .error (.parsing text)
      | some claim =>
        if claim.isAttachable then .ok claim else .error (.notAttachable claim request.golden)

end ClaimClient

/-- The answer mints a clone: it has a success status and decodes to a clone with its id. -/
def RegistryAnswer.minted (lib : Library) : RegistryAnswer → Option ClaimResponse
  | .failed => none
  | .response status body => if isSuccess status then lib.decode (body.getD []) else none

/-- A claim succeeds exactly when the answer mints a clone that can be attached. -/
theorem ClaimClient.claim_eq_ok_iff (lib : Library) (request : ClaimRequest)
    (answer : RegistryAnswer) (claim : ClaimResponse) :
    ClaimClient.claim lib request answer = .ok claim ↔
      answer.minted lib = some claim ∧ claim.isAttachable = true := by
  cases answer with
  | failed => simp [ClaimClient.claim, RegistryAnswer.minted]
  | response status body =>
    rw [ClaimClient.claim, RegistryAnswer.minted]
    cases hsuccess : isSuccess status with
    | false => simp
    | true =>
      cases lib.decode (body.getD []) with
      | none => simp
      | some found =>
        simp only [Bool.not_true, Bool.false_eq_true, if_false, if_true, Option.some.injEq]
        split_ifs with hattach
        · rw [Except.ok.injEq]
          exact ⟨fun h => ⟨h, h ▸ hattach⟩, fun h => h.1⟩
        · exact ⟨fun h => (nomatch h), fun h => absurd (h.1 ▸ h.2) hattach⟩

end Stormnetboot.Server

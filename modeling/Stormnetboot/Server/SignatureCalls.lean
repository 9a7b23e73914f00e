import Stormnetboot.Common.Instrument
import Stormnetboot.Server.PalletIntegrity

/-!
# The calls of the signature check

The pass again, with each call of `stormsig::verify` in sight. Only the functions on the way
to that call are written a second time; erasing the calls gives back the pass, so what holds
of its operations and its result holds here too.
-/

namespace Stormnetboot.Server

open Stormnetboot.Common

/-- A call of `verify`, with its arguments. -/
structure VerifyCall where
  doc : SignatureDoc
  subject : Text
  trustedKeys : List Text
  deriving DecidableEq

/-- What `verify` returns. -/
abbrev VerifyCall.Res (_ : VerifyCall) : Type := Except VerifyError Statement

/-- What a call is answered. -/
def VerifyCall.answer (lib : Libraries) (call : VerifyCall) : call.Res :=
  verify lib.ed25519 call.doc call.subject call.trustedKeys

/-- A program of the pallet source in which the calls of `verify` are operations too. -/
abbrev CallingFetch := Program.Instrumented PalletOp VerifyCall PalletOp.Ans VerifyCall.Res PalletError

namespace Calling

/-- A call of `verify`, as an operation. -/
def verify (doc : SignatureDoc) (subject : Text) (trustedKeys : List Text) :
    CallingFetch (Except VerifyError Statement) :=
  Program.perform (Sum.inl ⟨doc, subject, trustedKeys⟩)

section Pass

variable (lib : Libraries) (src : PalletSource)

/-- Look for a referrer whose document is a trusted signature over the subject. -/
def checkReferrers (subject : Text) (i : ℕ) (lastError : Option SignatureFault) :
    List Descriptor → CallingFetch Bool
  | [] =>
    match lastError with
    | some err => .fail (.noAcceptableSignature subject err)
    | none => .done false
  | referrer :: rest =>
    if referrer.artifactType ≠ some signatureArtifactType then
      checkReferrers subject (i + 1) lastError rest
    else do
      let manifestBytes ← (fetchBlobOrManifest src (.referrer i) referrer.digest true).lift
      match lib.manifest manifestBytes with
      | none => checkReferrers subject (i + 1) (some .manifestUnparseable) rest
      | some manifest => do
        let docBytes ← (fetchBlobOrManifest src (.document i) manifest.config.digest false).lift
        match lib.document docBytes with
        | none => checkReferrers subject (i + 1) (some .documentUnparseable) rest
        | some doc => do
          match ← verify doc subject src.trustedKeys with
          | .ok _ => .done true
          | .error err => checkReferrers subject (i + 1) (some (.rejected err)) rest

/-- Find and check a trusted signature over this manifest digest. -/
def verifySignature (subject : Text) : CallingFetch Bool := do
  if src.trustedKeys.isEmpty then .done false
  else
    let url := src.repoUrl "referrers".toList
      (subject ++ "?artifactType=".toList ++ signatureArtifactType)
    match ← (Program.perform (PalletOp.get .referrers url none)).lift with
    | none => .fail (.unreachable url)
    | some resp =>
      if !resp.isSuccess then .done false
      else
        match resp.body.bind lib.index with
        | none => .fail .referrersUnparseable
        | some index => checkReferrers lib src subject 0 none index.manifests

/-- What stands between a fetched manifest and its projection. -/
def admitManifest (pinned : PinnedManifest) : CallingFetch (Manifest × Bool) := do
  let signatureVerified ← verifySignature lib src pinned.digest
  if src.requireSignature && !signatureVerified then .fail (.unsigned pinned.digest)
  else
    match lib.manifest pinned.bytes with
    | none => .fail .manifestUnparseable
    | some manifest =>
      if !isPallet manifest then
        .fail (.notPallet manifest.artifactType manifest.config.mediaType)
      else .done (manifest, signatureVerified)

/-- The projection of an admitted manifest and the status it ends with. -/
def projectAdmitted (pinned : PinnedManifest) (manifest : Manifest) (signatureVerified : Bool) :
    Fetch Refreshed := do
  let served ← projectMembers lib src manifest
  if .kernel ∉ served ∨ .initramfs ∉ served then .fail (.incomplete pinned.digest served)
  else
    let status ← ofExcept (statusFor lib src pinned true signatureVerified)
    .done ⟨status, true⟩

/-- The pass. -/
def refresh (current : Option Text) : CallingFetch Refreshed := do
  let pinned ← (fetchManifest lib src).lift
  if some pinned.digest = current then
    let status ← ofExcept (statusFor lib src pinned true true) |>.lift
    .done ⟨status, false⟩
  else
    let (manifest, signatureVerified) ← admitManifest lib src pinned
    (projectAdmitted lib src pinned manifest signatureVerified).lift

/-! ## Erasing the calls -/

/-- The search among the referrers, without its calls. -/
theorem erase_checkReferrers (subject : Text) (i : ℕ) (lastError : Option SignatureFault)
    (referrers : List Descriptor) :
    (checkReferrers lib src subject i lastError referrers).erase (VerifyCall.answer lib) =
      Server.checkReferrers lib src subject i lastError referrers := by
  induction referrers generalizing i lastError with
  | nil => cases lastError <;> rfl
  | cons referrer rest ih =>
    unfold checkReferrers Server.checkReferrers
    split
    · exact ih _ _
    rw [Program.erase_bind, Program.erase_lift]
    congr 1
    funext manifestBytes
    cases lib.manifest manifestBytes with
    | none => exact ih _ _
    | some manifest =>
      simp only
      rw [Program.erase_bind, Program.erase_lift]
      congr 1
      funext docBytes
      cases lib.document docBytes with
      | none => exact ih _ _
      | some doc =>
        change (match Server.verify lib.ed25519 doc subject src.trustedKeys with
          | .ok _ => _
          | .error err => _ : CallingFetch Bool).erase _ = _
        simp only
        cases Server.verify lib.ed25519 doc subject src.trustedKeys with
        | ok statement => rfl
        | error err => exact ih _ _

/-- The check of the signature, without its calls. -/
theorem erase_verifySignature (subject : Text) :
    (verifySignature lib src subject).erase (VerifyCall.answer lib) =
      Server.verifySignature lib src subject := by
  unfold verifySignature Server.verifySignature
  split
  · rfl
  simp only
  rw [Program.erase_bind, Program.erase_lift]
  congr 1
  funext answer
  cases answer with
  | none => rfl
  | some resp =>
    simp only
    split
    · rfl
    cases resp.body.bind lib.index with
    | none => rfl
    | some index => exact erase_checkReferrers lib src subject 0 none index.manifests

/-- The admission, without its calls. -/
theorem erase_admitManifest (pinned : PinnedManifest) :
    (admitManifest lib src pinned).erase (VerifyCall.answer lib) =
      Server.admitManifest lib src pinned := by
  unfold admitManifest Server.admitManifest
  rw [Program.erase_bind, erase_verifySignature]
  congr 1
  funext signatureVerified
  split
  · rfl
  cases lib.manifest pinned.bytes with
  | none => rfl
  | some manifest =>
    simp only
    split <;> rfl

/-- Without its calls this is the pass. -/
theorem erase_refresh (current : Option Text) :
    (refresh lib src current).erase (VerifyCall.answer lib) = Server.refresh lib src current := by
  unfold refresh Server.refresh
  rw [Program.erase_bind, Program.erase_lift]
  congr 1
  funext pinned
  split
  · rw [Program.erase_bind, Program.erase_lift]
    rfl
  · rw [Program.erase_bind, erase_admitManifest]
    congr 1
    funext admitted
    exact Program.erase_lift _ _

end Pass

end Calling

end Stormnetboot.Server

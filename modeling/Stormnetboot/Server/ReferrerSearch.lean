import Stormnetboot.Common.Scan
import Stormnetboot.Server.Projection

/-!
# The search for a signature

The signature check asks for the referrers of a manifest and looks at them in the order of the
list. What it ends with is a scan of what a look at each comes to, which the registry's answers
for that referrer alone decide.
-/

namespace Stormnetboot.Server

open Stormnetboot.Common

/-- A referrer as the registry lists it, with its answers for the referrer's manifest and for the
document that the manifest names. -/
structure Referrer where
  descriptor : Descriptor
  manifest : Option Response
  document : Option Response
  deriving DecidableEq, Repr

section Search

variable (lib : Libraries) (src : PalletSource)

/-- The referrers of a list, with what the registry answers from this place on. -/
def Environment.answering (env : Environment) (i : ℕ) : List Descriptor → List Referrer
  | [] => []
  | descriptor :: rest =>
    ⟨descriptor, env.registry (.referrer i), env.registry (.document i)⟩ ::
      env.answering (i + 1) rest

/-- The list that the query for referrers brings, if it brings one. -/
def Environment.listing (env : Environment) : Option (List Descriptor) :=
  ((received (env.registry .referrers)).bind lib.index).map (·.manifests)

/-- The referrers, each with its answers; none without a listing. -/
def Environment.referrers (env : Environment) : List Referrer :=
  env.answering 0 ((env.listing lib).getD [])

/-- The referrer is announced as a signature. -/
def Referrer.IsSignature (r : Referrer) : Prop :=
  r.descriptor.artifactType = some signatureArtifactType

/-- The referrer's document can be fetched and is accepted for the subject. -/
def Referrer.Accepted (subject : Text) (r : Referrer) : Prop :=
  r.IsSignature ∧ ∃ manifestBytes manifest docBytes doc statement,
    received r.manifest = some manifestBytes ∧ lib.manifest manifestBytes = some manifest ∧
      received r.document = some docBytes ∧ lib.document docBytes = some doc ∧
        verify lib.ed25519 doc subject src.trustedKeys = .ok statement

/-! ## The loop -/

/-- What a look at a referrer comes to. -/
def Referrer.verdict (subject : Text) (r : Referrer) : Verdict SignatureFault PalletError :=
  if r.descriptor.artifactType ≠ some signatureArtifactType then .skipped
  else
    match bodyOf (src.repoUrl "manifests".toList r.descriptor.digest) r.manifest with
    | .error err => .broken err
    | .ok manifestBytes =>
      match lib.manifest manifestBytes with
      | none => .faulty .manifestUnparseable
      | some manifest =>
        match bodyOf (src.repoUrl "blobs".toList manifest.config.digest) r.document with
        | .error err => .broken err
        | .ok docBytes =>
          match lib.document docBytes with
          | none => .faulty .documentUnparseable
          | some doc =>
            match verify lib.ed25519 doc subject src.trustedKeys with
            | .ok _ => .accepted
            | .error err => .faulty (.rejected err)

/-- A blob is what the registry answers for its digest. -/
theorem result_fetchBlobOrManifest (env : Environment) (request : Request) (digest : Text)
    (isManifest : Bool) :
    env.result (fetchBlobOrManifest src request digest isManifest) =
      bodyOf (src.repoUrl (if isManifest then "manifests".toList else "blobs".toList) digest)
        (env.registry request) := by
  unfold Environment.result fetchBlobOrManifest
  rw [exec_getBody]

/-- The loop over the referrers is a scan of what a look at each comes to. -/
theorem result_checkReferrers (env : Environment) (subject : Text) (i : ℕ)
    (lastError : Option SignatureFault) (descriptors : List Descriptor) :
    env.result (checkReferrers lib src subject i lastError descriptors) =
      scan (PalletError.noAcceptableSignature subject) lastError
        ((env.answering i descriptors).map (·.verdict lib src subject)) := by
  induction descriptors generalizing i lastError with
  | nil => cases lastError <;> rfl
  | cons descriptor rest ih =>
    rw [Environment.answering, List.map_cons, Referrer.verdict]
    unfold checkReferrers
    split
    · rw [scan]
      exact ih _ _
    unfold Environment.result
    rw [exec_gets_bind env _ (fetchBlobOrManifest_isGet src _ _ _), result_fetchBlobOrManifest]
    simp only [if_true]
    cases bodyOf (src.repoUrl "manifests".toList descriptor.digest)
      (env.registry (.referrer i)) with
    | error err => simp only [scan]
    | ok manifestBytes =>
      simp only
      cases lib.manifest manifestBytes with
      | none =>
        simp only [scan]
        exact ih _ _
      | some manifest =>
        simp only
        rw [exec_gets_bind env _ (fetchBlobOrManifest_isGet src _ _ _), result_fetchBlobOrManifest]
        simp only [Bool.false_eq_true, if_false]
        cases bodyOf (src.repoUrl "blobs".toList manifest.config.digest)
          (env.registry (.document i)) with
        | error err => simp only [scan]
        | ok docBytes =>
          simp only
          cases lib.document docBytes with
          | none =>
            simp only [scan]
            exact ih _ _
          | some doc =>
            simp only
            cases verify lib.ed25519 doc subject src.trustedKeys with
            | ok statement =>
              simp only [scan]
              rfl
            | error err =>
              simp only [scan]
              exact ih _ _

/-- A look at a referrer accepts it exactly when it is acceptable. -/
theorem verdict_eq_accepted_iff (subject : Text) (r : Referrer) :
    r.verdict lib src subject = .accepted ↔ r.Accepted lib src subject := by
  unfold Referrer.verdict Referrer.Accepted Referrer.IsSignature
  constructor
  · intro h
    split at h
    · cases h
    rename_i htype
    split at h
    · cases h
    rename_i manifestBytes hmanifestBytes
    split at h
    · cases h
    rename_i manifest hmanifest
    split at h
    · cases h
    rename_i docBytes hdocBytes
    split at h
    · cases h
    rename_i doc hdoc
    split at h
    · rename_i statement hverify
      exact ⟨not_not.mp htype, manifestBytes, manifest, docBytes, doc, statement,
        (bodyOf_ok_iff ..).mp hmanifestBytes, hmanifest, (bodyOf_ok_iff ..).mp hdocBytes, hdoc,
        hverify⟩
    · cases h
  · rintro ⟨htype, manifestBytes, manifest, docBytes, doc, statement, hmanifestBytes, hmanifest,
      hdocBytes, hdoc, hverify⟩
    rw [if_neg (not_not.mpr htype), (bodyOf_ok_iff ..).mpr hmanifestBytes]
    simp only [hmanifest]
    rw [(bodyOf_ok_iff ..).mpr hdocBytes]
    simp only [hdoc, hverify]

/-! ## What the check ends with -/

/-- Nothing is accepted without trusted keys. -/
theorem not_accepted_of_no_keys (subject : Text) (r : Referrer)
    (hkeys : src.trustedKeys.isEmpty = true) : ¬ r.Accepted lib src subject := by
  rintro ⟨-, -, -, -, doc, statement, -, -, -, -, hverify⟩
  obtain ⟨htrusted, -⟩ := (verify_ok_iff ..).mp hverify
  rw [List.isEmpty_iff.mp hkeys] at htrusted
  cases htrusted

/-- The check asks for the list, and searches the one it is given. -/
theorem result_verifySignature (env : Environment) (subject : Text) :
    env.result (verifySignature lib src subject) =
      if src.trustedKeys.isEmpty then .ok false
      else
        match env.registry .referrers with
        | none => .error (.unreachable (src.repoUrl "referrers".toList
            (subject ++ "?artifactType=".toList ++ signatureArtifactType)))
        | some resp =>
          if !resp.isSuccess then .ok false
          else
            match resp.body.bind lib.index with
            | none => .error .referrersUnparseable
            | some index =>
              scan (PalletError.noAcceptableSignature subject) none
                ((env.answering 0 index.manifests).map (·.verdict lib src subject)) := by
  unfold verifySignature
  split_ifs with hkeys
  · rfl
  unfold Environment.result
  rw [Program.bind_perform, Program.exec_call]
  simp only [Environment.handle]
  cases env.registry .referrers with
  | none => rfl
  | some resp =>
    simp only
    split_ifs with hsuccess
    · rfl
    cases resp.body.bind lib.index with
    | none => rfl
    | some index => exact result_checkReferrers lib src env subject 0 none index.manifests

/-- Without a trusted key nothing is verified. -/
theorem result_verifySignature_of_no_keys (env : Environment) (subject : Text)
    (hkeys : src.trustedKeys.isEmpty = true) :
    env.result (verifySignature lib src subject) = .ok false := by
  rw [result_verifySignature, if_pos hkeys]

/-- A list is brought by an answer that was successful and whole. -/
theorem listing_eq_some_iff (env : Environment) (descriptors : List Descriptor) :
    env.listing lib = some descriptors ↔ ∃ resp index, env.registry .referrers = some resp ∧
      resp.isSuccess = true ∧ resp.body.bind lib.index = some index ∧
        index.manifests = descriptors := by
  unfold Environment.listing received
  constructor
  · intro hlisting
    obtain ⟨index, hindex, rfl⟩ := Option.map_eq_some_iff.mp hlisting
    obtain ⟨bytes, hreceived, hparse⟩ := Option.bind_eq_some_iff.mp hindex
    obtain ⟨resp, hanswer, hbody⟩ := Option.bind_eq_some_iff.mp hreceived
    split_ifs at hbody with hsuccess
    exact ⟨resp, index, hanswer, hsuccess, by rw [hbody]; exact hparse, rfl⟩
  · rintro ⟨resp, index, hanswer, hsuccess, hindex, rfl⟩
    rw [hanswer, Option.bind_some, if_pos hsuccess, hindex]
    rfl

/-- Where the query brings a list, the check is a search of it. -/
theorem result_verifySignature_of_listing (env : Environment) (subject : Text)
    (descriptors : List Descriptor) (hkeys : src.trustedKeys.isEmpty = false)
    (hlisting : env.listing lib = some descriptors) :
    env.result (verifySignature lib src subject) =
      scan (PalletError.noAcceptableSignature subject) none
        ((env.referrers lib).map (·.verdict lib src subject)) := by
  rw [Environment.referrers, hlisting, Option.getD_some, result_verifySignature, hkeys]
  obtain ⟨resp, index, hanswer, hsuccess, hindex, rfl⟩ := (listing_eq_some_iff ..).mp hlisting
  simp only [hanswer, hsuccess, hindex, Bool.not_true, Bool.false_eq_true, if_false]

/-- Where it brings none, no signature is found. -/
theorem result_verifySignature_of_no_listing (env : Environment) (subject : Text)
    (hlisting : env.listing lib = none) :
    env.result (verifySignature lib src subject) ≠ .ok true := by
  intro h
  rw [result_verifySignature] at h
  split_ifs at h
  · cases h
  cases hanswer : env.registry .referrers with
  | none =>
    rw [hanswer] at h
    cases h
  | some resp =>
    rw [hanswer] at h
    simp only at h
    split_ifs at h with hsuccess
    · cases h
    cases hindex : resp.body.bind lib.index with
    | none =>
      rw [hindex] at h
      cases h
    | some index =>
      have hsome := (listing_eq_some_iff lib env index.manifests).mpr
        ⟨resp, index, hanswer, by simpa using hsuccess, hindex, rfl⟩
      cases hlisting.symm.trans hsome

/-- Without a list two registries that answer the query alike are told the same. -/
theorem result_verifySignature_congr (env env' : Environment) (subject : Text)
    (hlisting : env.listing lib = none)
    (hquery : env'.registry .referrers = env.registry .referrers) :
    env'.result (verifySignature lib src subject) =
      env.result (verifySignature lib src subject) := by
  rw [result_verifySignature, result_verifySignature, hquery]
  cases hanswer : env.registry .referrers with
  | none => rfl
  | some resp =>
    simp only
    split_ifs with hkeys hsuccess
    · rfl
    · rfl
    cases hindex : resp.body.bind lib.index with
    | none => rfl
    | some index =>
      have hsome := (listing_eq_some_iff lib env index.manifests).mpr
        ⟨resp, index, hanswer, by simpa using hsuccess, hindex, rfl⟩
      cases hlisting.symm.trans hsome

end Search

end Stormnetboot.Server

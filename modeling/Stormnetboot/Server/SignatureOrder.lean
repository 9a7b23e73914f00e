import Stormnetboot.Server.PalletIntegrity
import Mathlib.Data.List.Permutation

/-!
# The order of the referrers

The referrers are looked at in the order in which the registry lists them. A referrer that is
no good signature is passed over for the next one, whatever is wrong with it; a referrer that
cannot be fetched ends the search, with an error, and so hides a good signature listed after
it.
-/

namespace Stormnetboot.Server

open Stormnetboot.Common
set_option maxRecDepth 8192

section Order

variable (lib : Libraries) (src : PalletSource)

/-- The referrer's manifest cannot be fetched, or the document that its manifest names. -/
def Referrer.Unfetchable (r : Referrer) : Prop :=
  r.IsSignature ∧ (received r.manifest = none ∨ ∃ manifestBytes manifest,
    received r.manifest = some manifestBytes ∧ lib.manifest manifestBytes = some manifest ∧
      received r.document = none)

/-- The registry answers as before, but lists the referrers in another order. -/
structure Reorders (env env' : Environment) : Prop where
  referrers : (env'.referrers lib).Perm (env.referrers lib)
  query : (env.listing lib).isSome ∧ (env'.listing lib).isSome ∨
    env'.registry .referrers = env.registry .referrers

/-- Some referrer with an acceptable document is all a signature takes, and no order of the
referrers makes a difference but for the text of an error. -/
def AcceptsInAnyOrder (env : Environment) (subject : Text) : Prop :=
  (env.result (verifySignature lib src subject) = .ok true ↔
    ∃ r ∈ env.referrers lib, r.Accepted lib src subject) ∧
  ∀ env', Reorders lib env env' →
    (env'.result (verifySignature lib src subject)).toOption =
      (env.result (verifySignature lib src subject)).toOption

/-- The members of an array can be written in any order. -/
def Libraries.ReordersIndex (lib : Libraries) : Prop :=
  ∀ bytes index, lib.index bytes = some index →
    ∀ manifests : List Descriptor, manifests.Perm index.manifests →
      ∃ reordered, lib.index reordered = some ⟨manifests⟩

/-! ## What cannot be fetched -/

/-- A body cannot be got exactly when nothing was received. -/
theorem bodyOf_error_iff (url : Text) (answer : Option Response) :
    (∃ err, bodyOf url answer = .error err) ↔ received answer = none := by
  cases hbody : bodyOf url answer with
  | error err =>
    refine ⟨fun _ => ?_, fun _ => ⟨err, rfl⟩⟩
    cases hreceived : received answer with
    | none => rfl
    | some bytes =>
      rw [(bodyOf_ok_iff ..).mpr hreceived] at hbody
      cases hbody
  | ok bytes =>
    rw [(bodyOf_ok_iff ..).mp hbody]
    simp only [reduceCtorEq, exists_false]

/-- A look at a referrer breaks off exactly when something of it cannot be fetched. -/
theorem verdict_broken_iff (subject : Text) (r : Referrer) :
    (∃ err, r.verdict lib src subject = .broken err) ↔ r.Unfetchable lib := by
  unfold Referrer.verdict Referrer.Unfetchable Referrer.IsSignature
  by_cases htype : r.descriptor.artifactType = some signatureArtifactType
  swap
  · simp only [ne_eq, htype, not_false_iff, if_true, reduceCtorEq, exists_false, false_and]
  simp only [ne_eq, htype, not_true, if_false, true_and]
  cases hmanifestBytes : bodyOf (src.repoUrl "manifests".toList r.descriptor.digest)
    r.manifest with
  | error err =>
    rw [(bodyOf_error_iff ..).mp ⟨err, hmanifestBytes⟩]
    exact ⟨fun _ => .inl rfl, fun _ => ⟨err, rfl⟩⟩
  | ok manifestBytes =>
    rw [(bodyOf_ok_iff ..).mp hmanifestBytes]
    cases hmanifest : lib.manifest manifestBytes with
    | none => simp [hmanifest]
    | some manifest =>
      simp only [Option.some.injEq, reduceCtorEq, false_or, exists_and_left,
        exists_eq_left', hmanifest]
      rw [← bodyOf_error_iff (src.repoUrl "blobs".toList manifest.config.digest)]
      cases hdocBytes : bodyOf (src.repoUrl "blobs".toList manifest.config.digest) r.document with
      | error err => simp only [Verdict.broken.injEq, Except.error.injEq]
      | ok docBytes =>
        simp only [reduceCtorEq, exists_false, iff_false, not_exists]
        intro err
        split
        · simp only [reduceCtorEq, not_false_iff]
        split <;> simp only [reduceCtorEq, not_false_iff]

/-- Without a listing there are no referrers. -/
theorem referrers_eq_nil (env : Environment) (hlisting : env.listing lib = none) :
    env.referrers lib = [] := by
  rw [Environment.referrers, hlisting]
  rfl

/-! ## Another order -/

/-- The answered referrers are those of the listing. -/
theorem map_descriptor_answering (env : Environment) (i : ℕ) (descriptors : List Descriptor) :
    (env.answering i descriptors).map (·.descriptor) = descriptors := by
  induction descriptors generalizing i with
  | nil => rfl
  | cons descriptor rest ih => rw [Environment.answering, List.map_cons, ih]

/-- The registry that lists these referrers, with this answer to the query, and answers
everything else as before. -/
def Environment.relisted (env : Environment) (query : Option Response)
    (referrers : List Referrer) : Environment where
  registry
    | .referrers => query
    | .referrer i => referrers[i]?.bind (·.manifest)
    | .document i => referrers[i]?.bind (·.document)
    | request => env.registry request
  disk := env.disk

/-- After relisting, each referrer is answered as before. -/
theorem answering_relisted (env : Environment) (query : Option Response)
    (earlier rest : List Referrer) :
    (env.relisted query (earlier ++ rest)).answering earlier.length (rest.map (·.descriptor)) =
      rest := by
  induction rest generalizing earlier with
  | nil => rfl
  | cons r rest ih =>
    have hrest := ih (earlier ++ [r])
    rw [List.append_assoc, List.singleton_append, List.length_append, List.length_singleton]
      at hrest
    rw [List.map_cons, Environment.answering, hrest]
    simp only [Environment.relisted, List.getElem?_append_right le_rfl, Nat.sub_self,
      List.getElem?_cons_zero, Option.bind_some]

/-- Any order of the referrers is one in which a registry can list them. -/
theorem exists_reorders (env : Environment) (descriptors : List Descriptor)
    (referrers : List Referrer) (hindex : lib.ReordersIndex)
    (hlisting : env.listing lib = some descriptors) (hperm : referrers.Perm (env.referrers lib)) :
    ∃ env' : Environment, Reorders lib env env' ∧ env'.referrers lib = referrers ∧
      (env'.listing lib).isSome := by
  obtain ⟨resp, index, hanswer, hsuccess, hindexed, rfl⟩ := (listing_eq_some_iff ..).mp hlisting
  obtain ⟨bytes, hbody, hparse⟩ := Option.bind_eq_some_iff.mp hindexed
  have hdescriptors : (env.referrers lib).map (·.descriptor) = index.manifests := by
    rw [Environment.referrers, hlisting, Option.getD_some, map_descriptor_answering]
  obtain ⟨reordered, hreordered⟩ := hindex bytes index hparse (referrers.map (·.descriptor))
    (by rw [← hdescriptors]; exact hperm.map _)
  let env' := env.relisted (some { resp with body := some reordered }) referrers
  have hlisting' : env'.listing lib = some (referrers.map (·.descriptor)) :=
    (listing_eq_some_iff ..).mpr ⟨{ resp with body := some reordered }, _, rfl, hsuccess,
      hreordered, rfl⟩
  have hreferrers : env'.referrers lib = referrers := by
    rw [Environment.referrers, hlisting', Option.getD_some]
    exact answering_relisted env _ [] referrers
  refine ⟨env', ⟨?_, .inl ⟨?_, ?_⟩⟩, hreferrers, ?_⟩
  · rw [hreferrers]
    exact hperm
  · rw [hlisting, Option.isSome_some]
  · rw [hlisting', Option.isSome_some]
  · rw [hlisting', Option.isSome_some]

/-! ## The theorem -/

/-- A search ends alike in every order of a list on which no acceptable referrer stands beside an
unfetchable one. -/
theorem scan_referrers_perm (subject : Text) {referrers reordered : List Referrer}
    (hperm : reordered.Perm referrers)
    (hclear : ¬ ((∃ r ∈ referrers, r.Accepted lib src subject) ∧
      ∃ r ∈ referrers, r.Unfetchable lib)) (b : Bool) :
    scan (PalletError.noAcceptableSignature subject) none
        (reordered.map (·.verdict lib src subject)) = .ok b ↔
      scan (PalletError.noAcceptableSignature subject) none
        (referrers.map (·.verdict lib src subject)) = .ok b := by
  refine scan_perm _ none (hperm.map _) ?_ b
  rintro ⟨haccepted, err, hbroken⟩
  obtain ⟨r, hr, hverdict⟩ := List.mem_map.mp haccepted
  obtain ⟨u, hu, herr⟩ := List.mem_map.mp hbroken
  exact hclear ⟨⟨r, hr, (verdict_eq_accepted_iff ..).mp hverdict⟩,
    u, hu, (verdict_broken_iff lib src subject u).mp ⟨err, herr⟩⟩

/-- Results that are right together are right with the same value. -/
theorem toOption_congr {x y : Except PalletError Bool} (h : ∀ b, x = .ok b ↔ y = .ok b) :
    x.toOption = y.toOption := by
  cases x with
  | ok b => rw [(h b).mp rfl]
  | error err =>
    cases y with
    | ok b => cases (h b).mpr rfl
    | error err' => rfl

/-- Without an unfetchable referrer beside it, an acceptable one is all a signature takes. -/
theorem result_verifySignature_true_iff (env : Environment) (subject : Text)
    (hclear : ¬ ((∃ r ∈ env.referrers lib, r.Accepted lib src subject) ∧
      ∃ r ∈ env.referrers lib, r.Unfetchable lib)) :
    env.result (verifySignature lib src subject) = .ok true ↔
      ∃ r ∈ env.referrers lib, r.Accepted lib src subject := by
  cases hlisting : env.listing lib with
  | none =>
    rw [referrers_eq_nil lib env hlisting]
    simp only [List.not_mem_nil, false_and, exists_false, iff_false]
    exact result_verifySignature_of_no_listing lib src env subject hlisting
  | some descriptors =>
    cases hkeys : src.trustedKeys.isEmpty with
    | true =>
      rw [result_verifySignature_of_no_keys lib src env subject hkeys]
      simp only [Except.ok.injEq, Bool.false_eq_true, false_iff]
      rintro ⟨r, -, haccepted⟩
      exact not_accepted_of_no_keys lib src subject r hkeys haccepted
    | false =>
      rw [result_verifySignature_of_listing lib src env subject descriptors hkeys hlisting]
      constructor
      · intro hscan
        obtain ⟨r, hr, hverdict⟩ := List.mem_map.mp (accepted_mem_of_scan _ _ _ hscan)
        exact ⟨r, hr, (verdict_eq_accepted_iff ..).mp hverdict⟩
      · rintro ⟨r, hr, haccepted⟩
        refine scan_of_accepted_mem _ _ _ (fun err hbroken => ?_)
          (List.mem_map.mpr ⟨r, hr, (verdict_eq_accepted_iff ..).mpr haccepted⟩)
        obtain ⟨u, hu, herr⟩ := List.mem_map.mp hbroken
        exact hclear ⟨⟨r, hr, haccepted⟩, u, hu,
          (verdict_broken_iff lib src subject u).mp ⟨err, herr⟩⟩

/-- And no order of them makes a difference. -/
theorem result_verifySignature_reorders (env env' : Environment) (subject : Text)
    (hreorders : Reorders lib env env')
    (hclear : ¬ ((∃ r ∈ env.referrers lib, r.Accepted lib src subject) ∧
      ∃ r ∈ env.referrers lib, r.Unfetchable lib)) :
    (env'.result (verifySignature lib src subject)).toOption =
      (env.result (verifySignature lib src subject)).toOption := by
  cases hlisting : env.listing lib with
  | none =>
    rcases hreorders.query with ⟨hlisted, -⟩ | hquery
    · rw [hlisting] at hlisted
      cases hlisted
    · rw [result_verifySignature_congr lib src env env' subject hlisting hquery]
  | some descriptors =>
    cases hkeys : src.trustedKeys.isEmpty with
    | true =>
      rw [result_verifySignature_of_no_keys lib src env subject hkeys,
        result_verifySignature_of_no_keys lib src env' subject hkeys]
    | false =>
      have hlisted : (env'.listing lib).isSome := by
        rcases hreorders.query with ⟨-, hlisted⟩ | hquery
        · exact hlisted
        · rw [Environment.listing, hquery, ← Environment.listing, hlisting, Option.isSome_some]
      obtain ⟨descriptors', hlisting'⟩ := Option.isSome_iff_exists.mp hlisted
      rw [result_verifySignature_of_listing lib src env subject descriptors hkeys hlisting,
        result_verifySignature_of_listing lib src env' subject descriptors' hkeys hlisting']
      exact toOption_congr (scan_referrers_perm lib src subject hreorders.referrers hclear)

/-- A registry may list an unfetchable referrer first, and the check fails. -/
theorem exists_reorders_error (env : Environment) (subject : Text) (bad : Referrer)
    (hindex : lib.ReordersIndex) (hkeys : src.trustedKeys.isEmpty = false)
    (hbad : bad ∈ env.referrers lib) (hunfetchable : bad.Unfetchable lib) :
    ∃ env' err, Reorders lib env env' ∧
      env'.result (verifySignature lib src subject) = .error err := by
  cases hlisting : env.listing lib with
  | none =>
    rw [referrers_eq_nil lib env hlisting] at hbad
    cases hbad
  | some descriptors =>
    obtain ⟨before, after, hsplit⟩ := List.append_of_mem hbad
    have hperm : (bad :: (before ++ after)).Perm (env.referrers lib) := by
      rw [hsplit]
      exact List.perm_middle.symm
    obtain ⟨env', hreorders, hreferrers, hlisted⟩ :=
      exists_reorders lib env descriptors _ hindex hlisting hperm
    obtain ⟨descriptors', hlisting'⟩ := Option.isSome_iff_exists.mp hlisted
    obtain ⟨err, hbroken⟩ := (verdict_broken_iff lib src subject bad).mpr hunfetchable
    refine ⟨env', err, hreorders, ?_⟩
    rw [result_verifySignature_of_listing lib src env' subject descriptors' hkeys hlisting',
      hreferrers, List.map_cons, hbroken, scan]

/-- The signature check accepts in any order exactly when the list has not both an acceptable
referrer and one that cannot be fetched. -/
theorem acceptsInAnyOrder_iff (env : Environment) (subject : Text) (hindex : lib.ReordersIndex) :
    AcceptsInAnyOrder lib src env subject ↔
      ¬ ((∃ r ∈ env.referrers lib, r.Accepted lib src subject) ∧
        ∃ r ∈ env.referrers lib, r.Unfetchable lib) := by
  constructor
  · rintro ⟨hexists, horder⟩ ⟨⟨good, hgood, haccepted⟩, bad, hbad, hunfetchable⟩
    have hkeys : src.trustedKeys.isEmpty = false := by
      by_contra hkeys
      exact not_accepted_of_no_keys lib src subject good (by simpa using hkeys) haccepted
    obtain ⟨env', err, hreorders, herror⟩ :=
      exists_reorders_error lib src env subject bad hindex hkeys hbad hunfetchable
    have hsame := horder env' hreorders
    rw [hexists.mpr ⟨good, hgood, haccepted⟩, herror] at hsame
    cases hsame
  · intro hclear
    exact ⟨result_verifySignature_true_iff lib src env subject hclear, fun env' hreorders =>
      result_verifySignature_reorders lib src env env' subject hreorders hclear⟩

end Order

/-! ## A referrer that is gone

A registry that lists two signatures of the manifest. It answers 404 for the first, or with
something that is no manifest; the second is genuine. -/

namespace GoneReferrer

/-- A signature that was taken away. -/
def gone : Descriptor :=
  ⟨ociManifestType,
    sha256Of (hexText 64 0x2c26b46b68ffc68ff99b453c1d30413413422d706483bfa0f98a5e886266e7ae),
    0, some signatureArtifactType, []⟩

/-- The genuine signature. -/
def genuine : Descriptor :=
  ⟨ociManifestType, sha256Of ForgedSpec.signatureManifestHex, 0, some signatureArtifactType, []⟩

/-- The listing of some referrers. -/
def indexText (descriptors : List Descriptor) : Text :=
  jsonObject ("\"manifests\":[".toList ++
    joinWith ",".toList (descriptors.map descriptorText) ++ "]".toList)

/-- The orders in which the two can be listed. -/
def orders : List (List Descriptor) := [[gone, genuine], [genuine, gone]]

/-- The decoders, with the listings in both orders. -/
def lib : Libraries where
  sha256 := ForgedSpec.lib.sha256
  ed25519 := ForgedSpec.lib.ed25519
  manifest := ForgedSpec.lib.manifest
  index bytes := (orders.find? fun order => bytes = utf8Encode (indexText order)).map Index.mk
  spec := ForgedSpec.lib.spec
  document := ForgedSpec.lib.document

/-- What is signed. -/
def subject : Text := sha256Of ForgedSpec.manifestHex

/-- The registry, with its answer for the first signature. -/
def env (first : Option Response) : Environment where
  registry
    | .referrers => ForgedSpec.answer (indexText [gone, genuine])
    | .referrer 0 => first
    | .referrer 1 => ForgedSpec.answer ForgedSpec.signatureManifestText
    | .document 1 => ForgedSpec.answer ForgedSpec.documentText
    | _ => none
  disk _ := .ok ()

/-- The answer for a manifest that is not there. -/
def notFound : Option Response := some ⟨404, none, some []⟩

/-- An answer that is no manifest. -/
def garbled : Option Response := ForgedSpec.answer "not a manifest".toList

/-- Each of the two listings is decoded from its text. -/
theorem index_indexText : ∀ order ∈ orders,
    lib.index (utf8Encode (indexText order)) = some ⟨order⟩ := by
  decide

/-- The decoder reads a listing in every order. -/
theorem reordersIndex : lib.ReordersIndex := by
  intro bytes index hindex manifests hperm
  obtain ⟨order, hfind, rfl⟩ := Option.map_eq_some_iff.mp hindex
  have horder : order ∈ orders := List.mem_of_find?_eq_some hfind
  have hmanifests : manifests ∈ orders := by
    simp only [orders, List.mem_cons, List.not_mem_nil, or_false] at horder ⊢
    rcases horder with rfl | rfl
    · exact List.perm_pair.mp hperm
    · exact (List.perm_pair.mp hperm).symm
  exact ⟨_, index_indexText manifests hmanifests⟩

/-- The referrers as the registry answers them. -/
theorem referrers_env (first : Option Response) :
    (env first).referrers lib = [⟨gone, first, none⟩,
      ⟨genuine, ForgedSpec.answer ForgedSpec.signatureManifestText,
        ForgedSpec.answer ForgedSpec.documentText⟩] := by
  have hreceived : received ((env first).registry .referrers) =
      some (utf8Encode (indexText [gone, genuine])) := rfl
  rw [Environment.referrers, Environment.listing, hreceived, Option.bind_some,
    index_indexText _ List.mem_cons_self]
  rfl

/-- The second signature is a good one. -/
theorem accepted_genuine : Referrer.Accepted lib ForgedSpec.src subject
    ⟨genuine, ForgedSpec.answer ForgedSpec.signatureManifestText,
      ForgedSpec.answer ForgedSpec.documentText⟩ :=
  (verdict_eq_accepted_iff ..).mp (by decide)

/-- Nothing of the two is unfetchable if the first is no manifest. -/
theorem fetchable_garbled : ∀ r ∈ (env garbled).referrers lib, ¬ r.Unfetchable lib := by
  intro r hr hunfetchable
  obtain ⟨err, hbroken⟩ :=
    (verdict_broken_iff lib ForgedSpec.src subject r).mpr hunfetchable
  rw [referrers_env] at hr
  have hverdicts : ∀ r ∈ ([⟨gone, garbled, none⟩,
        ⟨genuine, ForgedSpec.answer ForgedSpec.signatureManifestText,
          ForgedSpec.answer ForgedSpec.documentText⟩] : List Referrer),
      r.verdict lib ForgedSpec.src subject = .accepted ∨
        r.verdict lib ForgedSpec.src subject = .faulty .manifestUnparseable := by
    decide
  rcases hverdicts r hr with h | h
  · cases h.symm.trans hbroken
  · cases h.symm.trans hbroken

end GoneReferrer

/-- A first signature that is no manifest is passed over. -/
theorem acceptsInAnyOrder_garbled : AcceptsInAnyOrder GoneReferrer.lib ForgedSpec.src
    (GoneReferrer.env GoneReferrer.garbled) GoneReferrer.subject := by
  refine (acceptsInAnyOrder_iff _ _ _ _ GoneReferrer.reordersIndex).mpr ?_
  rintro ⟨-, r, hr, hunfetchable⟩
  exact GoneReferrer.fetchable_garbled r hr hunfetchable

/-- A first signature that is gone hides the good one after it. -/
theorem not_acceptsInAnyOrder_notFound : ¬ AcceptsInAnyOrder GoneReferrer.lib ForgedSpec.src
    (GoneReferrer.env GoneReferrer.notFound) GoneReferrer.subject := by
  rintro ⟨hexists, -⟩
  have hresult : (GoneReferrer.env GoneReferrer.notFound).result
      (verifySignature GoneReferrer.lib ForgedSpec.src GoneReferrer.subject) ≠ .ok true := by
    decide
  refine hresult (hexists.mpr ⟨_, ?_, GoneReferrer.accepted_genuine⟩)
  rw [GoneReferrer.referrers_env]
  exact List.mem_cons_of_mem _ List.mem_cons_self

end Stormnetboot.Server

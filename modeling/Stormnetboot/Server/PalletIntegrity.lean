import Stormnetboot.Server.ReferrerSearch

/-!
# What a pass writes and what was signed

A pass that requires a signature writes nothing before some trusted document has been verified
for the digest of its manifest, and a blob it writes hashes to a layer's digest. The spec is
the link that nothing checks: its inline texts are written whatever bytes the registry
answered for it.
-/

namespace Stormnetboot.Server

open Stormnetboot.Common
set_option maxRecDepth 8192

section Integrity

variable (lib : Libraries) (src : PalletSource)

/-- The bytes are a member that the manifest vouches for under this file: those of a layer, or
an inline text of the spec that its config digest names. -/
def Vouched (manifest : Manifest) (asset : Asset) (bytes : Bytes) : Prop :=
  (∃ layer ∈ manifest.layers, ∃ role, servedAs layer = some (role, asset) ∧
    lib.digest bytes = toAsciiLowercase layer.digest) ∨
  ∃ specBytes spec role text, lib.digest specBytes = toAsciiLowercase manifest.config.digest ∧
    lib.spec specBytes = some spec ∧ filenameForRole role = some asset ∧
      inlineText spec role = some text ∧ bytes = utf8Encode text

/-- Some document was verified for the digest of these bytes. -/
def Signed (bytes : Bytes) : Prop :=
  ∃ doc digest statement, verify lib.ed25519 doc digest src.trustedKeys = .ok statement ∧
    toAsciiLowercase digest = lib.digest bytes

/-- The file is one of the cache directory and what is written to it is a member that the
signed manifest of the pass vouches for. -/
def BoundToSigned (env : Environment) (path : Text) (bytes : Bytes) : Prop :=
  ∃ manifestBytes manifest, received (env.registry .manifest) = some manifestBytes ∧
    lib.manifest manifestBytes = some manifest ∧ Signed lib src manifestBytes ∧
      ∃ asset, (path = src.assetPath asset ∨ path = src.tmpPath asset) ∧
        Vouched lib manifest asset bytes

/-- Everything the pass writes is bound to the manifest that was signed. A rename only moves
what the pass has written. -/
def WritesBound (env : Environment) (current : Option Text) (disk : Disk) : Prop :=
  ∀ i path bytes,
    .write i path bytes ∈ Program.trace env.handle (refresh lib src current) disk →
      BoundToSigned lib src env path bytes

/-- The answer for the spec is the blob that the manifest's config digest names. -/
def SpecAuthentic (env : Environment) (manifest : Manifest) : Prop :=
  ∃ bytes, received (env.registry .spec) = some bytes ∧
    lib.digest bytes = toAsciiLowercase manifest.config.digest

/-- Every inline text that the spec of an admitted manifest has for a layer the pass gets to is a
member that the manifest vouches for. -/
def InlineTextsVouched (env : Environment) (current : Option Text) : Prop :=
  ∀ pinned manifest verified, Admits lib src env current pinned manifest verified →
    ∀ i layer role asset text, manifest.layers[i]? = some layer →
      (∀ m < i, ∀ before, manifest.layers[m]? = some before →
        Obtained lib src env (env.servedSpec lib) m before) →
      servedAs layer = some (role, asset) →
      inlineText (env.servedSpec lib) role = some text →
        Vouched lib manifest asset (utf8Encode text)

/-- The source as it is configured when unsigned pallets are not allowed. -/
def PalletSource.signedOnly (src : PalletSource) : PalletSource :=
  { src with requireSignature := true }

/-! ## The manifest -/

/-- A hex digit is in lower case. -/
theorem toLower_digitChar (n : ℕ) (h : n < 16) : (Nat.digitChar n).toLower = Nat.digitChar n := by
  interval_cases n <;> rfl

/-- Digests are written in lower case. -/
theorem toAsciiLowercase_digest (bytes : Bytes) :
    toAsciiLowercase (lib.digest bytes) = lib.digest bytes := by
  have hhex : ∀ c ∈ hexEncode (lib.sha256 bytes), c.toLower = c := by
    intro c hc
    simp only [hexEncode, List.mem_flatMap, List.mem_cons, List.not_mem_nil, or_false] at hc
    obtain ⟨b, -, rfl | rfl⟩ := hc
    · exact toLower_digitChar _ (by have := b.toNat_lt; omega)
    · exact toLower_digitChar _ (by omega)
  unfold Libraries.digest toAsciiLowercase
  rw [List.map_append, List.map_congr_left hhex, List.map_id']
  rfl

/-- The header that comes with a manifest is its digest, if there is one. -/
theorem pinManifest_ok_iff (header : Option Text) (bytes : Bytes) (pinned : PinnedManifest) :
    pinManifest lib header bytes = .ok pinned ↔
      (∀ digest, header = some digest → toAsciiLowercase digest = lib.digest bytes) ∧
        pinned = ⟨bytes, header.getD (lib.digest bytes)⟩ := by
  unfold pinManifest
  cases header with
  | none =>
    simp only [reduceCtorEq, false_imp_iff, implies_true, true_and, Option.getD_none,
      Except.ok.injEq]
    exact eq_comm
  | some digest =>
    simp only [ne_eq, ite_not, Option.some.injEq, forall_eq', Option.getD_some]
    split_ifs with hdigest
    · simp only [hdigest, true_and, Except.ok.injEq]
      exact eq_comm
    · simp only [hdigest, false_and]

/-- The manifest is what the registry answers, pinned. -/
theorem result_fetchManifest (env : Environment) : env.result (fetchManifest lib src) =
    bodyOf (src.repoUrl "manifests".toList src.reference) (env.registry .manifest) >>=
      pinManifest lib ((env.registry .manifest).bind (·.digestHeader)) := by
  unfold Environment.result fetchManifest
  rw [Program.bind_perform, Program.exec_call, Program.exec_bind, exec_ofExcept]
  simp only [Environment.handle]
  cases bodyOf (src.repoUrl "manifests".toList src.reference) (env.registry .manifest) with
  | error err => rfl
  | ok bytes =>
    simp only [exec_ofExcept]
    rfl

/-- A manifest is fetched exactly when its body came whole, under its own digest if under any. -/
theorem result_fetchManifest_ok_iff (env : Environment) (pinned : PinnedManifest) :
    env.result (fetchManifest lib src) = .ok pinned ↔
      received (env.registry .manifest) = some pinned.bytes ∧
        (∀ digest, (env.registry .manifest).bind (·.digestHeader) = some digest →
          toAsciiLowercase digest = lib.digest pinned.bytes) ∧
        pinned.digest = ((env.registry .manifest).bind (·.digestHeader)).getD
          (lib.digest pinned.bytes) := by
  rw [result_fetchManifest, except_bind_eq_ok]
  simp only [bodyOf_ok_iff, pinManifest_ok_iff]
  constructor
  · rintro ⟨bytes, hreceived, hheader, rfl⟩
    exact ⟨hreceived, hheader, rfl⟩
  · rintro ⟨hreceived, hheader, hdigest⟩
    exact ⟨pinned.bytes, hreceived, hheader, by rw [← hdigest]⟩

/-- The manifest that is fetched is the answer's body, under its own digest. -/
theorem fetchManifest_ok (env : Environment) (pinned : PinnedManifest)
    (h : env.result (fetchManifest lib src) = .ok pinned) :
    received (env.registry .manifest) = some pinned.bytes ∧
      toAsciiLowercase pinned.digest = lib.digest pinned.bytes := by
  obtain ⟨hreceived, hheader, hdigest⟩ := (result_fetchManifest_ok_iff ..).mp h
  refine ⟨hreceived, ?_⟩
  rw [hdigest]
  cases hcase : (env.registry .manifest).bind (·.digestHeader) with
  | none => exact toAsciiLowercase_digest lib pinned.bytes
  | some digest => exact hheader digest hcase

/-- A signature is reported only for a document that was verified. -/
theorem verifySignature_true (env : Environment) (subject : Text)
    (h : env.result (verifySignature lib src subject) = .ok true) :
    ∃ doc statement, verify lib.ed25519 doc subject src.trustedKeys = .ok statement := by
  cases hlisting : env.listing lib with
  | none => exact absurd h (result_verifySignature_of_no_listing lib src env subject hlisting)
  | some descriptors =>
    cases hkeys : src.trustedKeys.isEmpty with
    | true =>
      rw [result_verifySignature_of_no_keys lib src env subject hkeys] at h
      cases h
    | false =>
      rw [result_verifySignature_of_listing lib src env subject descriptors hkeys hlisting] at h
      obtain ⟨r, -, hverdict⟩ := List.mem_map.mp (accepted_mem_of_scan _ _ _ h)
      obtain ⟨-, -, -, -, doc, statement, -, -, -, -, hverify⟩ :=
        (verdict_eq_accepted_iff ..).mp hverdict
      exact ⟨doc, statement, hverify⟩

/-- An admitted manifest is the parsed one and, if a signature is required, one was verified. -/
theorem admitManifest_ok (env : Environment) (pinned : PinnedManifest) (manifest : Manifest)
    (verified : Bool)
    (h : env.result (admitManifest lib src pinned) = .ok (manifest, verified)) :
    lib.manifest pinned.bytes = some manifest ∧ (src.requireSignature = true →
      ∃ doc statement,
        verify lib.ed25519 doc pinned.digest src.trustedKeys = .ok statement) := by
  unfold admitManifest Environment.result at h
  rw [exec_gets_bind env _ (verifySignature_isGet lib src pinned.digest)] at h
  cases hsigned : env.result (verifySignature lib src pinned.digest) with
  | error err =>
    rw [hsigned] at h
    cases h
  | ok signed =>
    rw [hsigned] at h
    simp only at h
    split at h
    · cases h
    rename_i hrequired
    cases hmanifest : lib.manifest pinned.bytes with
    | none =>
      rw [hmanifest] at h
      cases h
    | some parsed =>
      rw [hmanifest] at h
      simp only at h
      split at h
      · cases h
      · cases h
        refine ⟨rfl, fun hrequire => verifySignature_true lib src env pinned.digest ?_⟩
        rw [hsigned]
        cases verified with
        | true => rfl
        | false => exact absurd (by rw [hrequire]; rfl) hrequired

/-! ## The theorem -/

/-- A pass that requires a signature admits only a manifest that was signed. -/
theorem signed_of_admits (env : Environment) (current : Option Text) (pinned : PinnedManifest)
    (manifest : Manifest) (verified : Bool)
    (h : Admits lib src.signedOnly env current pinned manifest verified) :
    received (env.registry .manifest) = some pinned.bytes ∧
      lib.manifest pinned.bytes = some manifest ∧ Signed lib src.signedOnly pinned.bytes := by
  obtain ⟨hreceived, hdigest⟩ := fetchManifest_ok lib src.signedOnly env pinned h.fetched
  obtain ⟨hparsed, hsigned⟩ :=
    admitManifest_ok lib src.signedOnly env pinned manifest verified h.admitted
  obtain ⟨doc, statement, hverify⟩ := hsigned rfl
  exact ⟨hreceived, hparsed, doc, pinned.digest, statement, hverify, hdigest⟩

/-- An inline text of an authentic spec is vouched for. -/
theorem vouched_of_specAuthentic (env : Environment) (manifest : Manifest) (layer : Descriptor)
    (role text : Text) (asset : Asset) (hspec : SpecAuthentic lib env manifest)
    (hserved : servedAs layer = some (role, asset))
    (hinline : inlineText (env.servedSpec lib) role = some text) :
    Vouched lib manifest asset (utf8Encode text) := by
  obtain ⟨bytes, hreceived, hdigest⟩ := hspec
  obtain ⟨named, -, hasset⟩ := Option.bind_eq_some_iff.mp hserved
  obtain ⟨served, hfilename, hpair⟩ := Option.map_eq_some_iff.mp hasset
  cases hpair
  rw [Environment.servedSpec, hreceived, Option.bind_some] at hinline
  cases hparse : lib.spec bytes with
  | none =>
    rw [hparse] at hinline
    cases hinline
  | some spec =>
    rw [hparse] at hinline
    exact .inr ⟨bytes, spec, role, text, hdigest, hparse, hfilename, hinline, rfl⟩

/-- In particular, where the specs of the manifests that are admitted are authentic. -/
theorem inlineTextsVouched_of_specAuthentic (env : Environment) (current : Option Text)
    (h : ∀ pinned manifest verified, Admits lib src env current pinned manifest verified →
      SpecAuthentic lib env manifest) : InlineTextsVouched lib src env current :=
  fun pinned manifest verified hadmits _ layer role asset text _ _ hserved hinline =>
    vouched_of_specAuthentic lib env manifest layer role text asset
      (h pinned manifest verified hadmits) hserved hinline

/-- A member's blob is vouched for by its layer. -/
theorem vouched_of_blob (env : Environment) (manifest : Manifest) (i : ℕ) (layer : Descriptor)
    (role : Text) (asset : Asset) (bytes : Bytes) (hlayer : layer ∈ manifest.layers)
    (hserved : servedAs layer = some (role, asset))
    (hinline : inlineText (env.servedSpec lib) role = none)
    (hbytes : env.memberBytes lib (env.servedSpec lib) i layer role asset = some bytes) :
    Vouched lib manifest asset bytes := by
  rw [Environment.memberBytes, hinline] at hbytes
  obtain ⟨body, -, hcheck⟩ := Option.bind_eq_some_iff.mp hbytes
  cases hok : checkMember lib layer asset body with
  | error err =>
    rw [hok] at hcheck
    cases hcheck
  | ok checked =>
    rw [hok] at hcheck
    cases hcheck
    obtain ⟨rfl, hdigest, -⟩ := (checkMember_ok_iff ..).mp hok
    exact .inl ⟨layer, hlayer, role, hserved, hdigest⟩

/-- With a signature required, everything a pass writes is bound to the signed manifest exactly
when no inline text gets through that the manifest does not vouch for. -/
theorem writesBound_iff (env : Environment) (current : Option Text) (disk : Disk) :
    WritesBound lib src.signedOnly env current disk ↔
      InlineTextsVouched lib src.signedOnly env current := by
  constructor
  · intro hbound pinned manifest verified hadmits i layer role asset text hlayer hbefore hserved
      hinline
    obtain ⟨hreceived, hparsed, -⟩ := signed_of_admits lib src env current pinned manifest verified
      hadmits
    have hbytes : env.memberBytes lib (env.servedSpec lib) i layer role asset =
        some (utf8Encode text) := by
      rw [Environment.memberBytes, hinline]
    have hpath : writePath src.signedOnly (env.servedSpec lib) role asset =
        src.signedOnly.assetPath asset := by
      rw [writePath, hinline]
      exact if_pos rfl
    have hmem := (write_mem_trace_projectLayers_iff lib src.signedOnly env (env.servedSpec lib) 0 i
      [] manifest.layers (src.signedOnly.assetPath asset) (utf8Encode text) disk).mpr
      ⟨i, layer, hlayer, by simpa only [Nat.zero_add] using hbefore, i.zero_add.symm, role, asset,
        hserved, by simpa only [Nat.zero_add] using hbytes, hpath.symm⟩
    obtain ⟨manifestBytes, manifest', hreceived', hparsed', -, asset', hfile, hvouched⟩ :=
      hbound i _ _ ((write_mem_trace_refresh_iff ..).mpr ⟨pinned, manifest, verified, hadmits, hmem⟩)
    obtain rfl := Option.some.inj (hreceived.symm.trans hreceived')
    obtain rfl := Option.some.inj (hparsed.symm.trans hparsed')
    rcases hfile with hfile | hfile
    · rw [assetPath_inj _ _ _ hfile]
      exact hvouched
    · exact absurd hfile.symm (tmpPath_ne_assetPath _ _ _)
  · intro hinlines i path bytes hmem
    obtain ⟨pinned, manifest, verified, hadmits, hmem⟩ := (write_mem_trace_refresh_iff ..).mp hmem
    obtain ⟨k, layer, hlayer, hbefore, -, role, asset, hserved, hbytes, rfl⟩ :=
      (write_mem_trace_projectLayers_iff ..).mp hmem
    simp only [Nat.zero_add] at hbefore hbytes
    obtain ⟨hreceived, hparsed, hsigned⟩ :=
      signed_of_admits lib src env current pinned manifest verified hadmits
    refine ⟨pinned.bytes, manifest, hreceived, hparsed, hsigned, asset, ?_, ?_⟩
    · unfold writePath
      split
      · exact .inl rfl
      · exact .inr rfl
    cases hinline : inlineText (env.servedSpec lib) role with
    | none =>
      exact vouched_of_blob lib env manifest k layer role asset bytes
        (List.mem_of_getElem? hlayer) hserved hinline hbytes
    | some text =>
      rw [Environment.memberBytes, hinline] at hbytes
      obtain rfl := Option.some.inj hbytes
      exact hinlines pinned manifest verified hadmits k layer role asset text hlayer hbefore hserved
        hinline

end Integrity

/-! ## Documents as they are served -/

/-- JSON fields with string values that need no escape. -/
def jsonFields (fields : List (Text × Text)) : Text :=
  joinWith ",".toList (fields.map fun f => ['"'] ++ f.1 ++ "\":\"".toList ++ f.2 ++ ['"'])

/-- A JSON object with this body. -/
def jsonObject (body : Text) : Text := "\x7b".toList ++ body ++ "\x7d".toList

/-- The JSON of a descriptor. -/
def descriptorText (d : Descriptor) : Text :=
  jsonObject (jsonFields ([("mediaType".toList, d.mediaType), ("digest".toList, d.digest)] ++
    d.artifactType.toList.map fun t => ("artifactType".toList, t)))

/-- The member of a manifest that describes its config. -/
def configText (config : Descriptor) : Text :=
  "\"config\":".toList ++ descriptorText config

/-- The JSON of a manifest. -/
def manifestText (manifest : Manifest) : Text :=
  jsonObject (configText manifest.config ++ ",\"layers\":[".toList ++
    joinWith ",".toList (manifest.layers.map descriptorText) ++ "]".toList)

/-- A SHA-256 digest, by its hex. -/
def sha256Of (hex : Text) : Text := "sha256:".toList ++ hex

/-- A pallet of a kernel and an initramfs, by the digests of its spec and its members. -/
def bootManifest (specHex kernelHex initramfsHex : Text) : Manifest where
  config := ⟨palletConfigType, sha256Of specHex, 0, none, []⟩
  layers := [⟨memberMediaPrefix ++ "kernel".toList, sha256Of kernelHex, 0, none, []⟩,
    ⟨memberMediaPrefix ++ "initramfs".toList, sha256Of initramfsHex, 0, none, []⟩]

/-- A spec without inline members. -/
def emptySpecText : Text := jsonObject "\"members\":[]".toList

/-- Its SHA-256. -/
def emptySpecHex : Text :=
  hexText 64 0x6375508cf89fca1184992a7df1925296aa53eca766c56d31f66bb87e3b778620

/-- SHA-256 on the inputs of a table, which gives their hashes in hexadecimal. -/
def hashOf (table : List (Bytes × Text)) (bytes : Bytes) : Bytes :=
  ((table.find? fun e => e.1 = bytes).bind fun e => hexDecode e.2).getD []

/-- The inputs with a digest are among those the table gives it to. -/
theorem eq_of_hashOf (table : List (Bytes × Text)) (bytes expected : Bytes) (digest : Text)
    (htable : ∀ e ∈ table, "sha256:".toList ++ hexEncode ((hexDecode e.2).getD []) = digest →
      e.1 = expected) (hdigest : digest ≠ "sha256:".toList)
    (h : "sha256:".toList ++ hexEncode (hashOf table bytes) = digest) : bytes = expected := by
  unfold hashOf at h
  cases hfind : table.find? fun e => e.1 = bytes with
  | none =>
    rw [hfind] at h
    exact absurd h.symm hdigest
  | some e =>
    rw [hfind] at h
    have hbytes := List.find?_some hfind
    rw [decide_eq_true_eq] at hbytes
    rw [← hbytes]
    exact htable e (List.mem_of_find?_eq_some hfind) h

/-! ## A forged spec

A signed pallet whose spec has no inline members, and a registry that answers a spec with an
inline kernel in its place. -/

namespace ForgedSpec

/-- The SHA-256 hashes of the manifest, the two blobs, the forged kernel, and the signature's
manifest and document. -/
def manifestHex : Text :=
  hexText 64 0xcb71049e72464aff228a030e69feac9aaab29d9cfbfb997c400e3f16b3c21c2f

/-- The digest of the kernel. -/
def kernelHex : Text :=
  hexText 64 0x6923dd1bc0460082c5d55a831908c24a282860b7f1cd6c2b79cf1bc8857c639c

/-- The digest of the initramfs. -/
def initramfsHex : Text :=
  hexText 64 0x9752c38a9065f7646ffaac3621d1fa2f7dbe726c7e12e511eac7fdb14d4e2a24

/-- The digest of what the forged spec serves as the kernel. -/
def forgedKernelHex : Text :=
  hexText 64 0xb5c1fb2efc6d6b4674c2fdcc48ce01b43a3b7c03763c0c3355de0099ee0f8c73

/-- The digest of the signature's manifest. -/
def signatureManifestHex : Text :=
  hexText 64 0xb2266150e56ee13ab95a48eaee289706b1c88f0b6b695cb5da0b6ee963afc646

/-- The digest of the signature document. -/
def documentHex : Text :=
  hexText 64 0xb61b72d2bbe93a8669413cbc90ff6f5919aaecb8d2105bb16dc5aa81ced7df96

/-- The key that signs. -/
def publicKey : Text :=
  hexText 64 0xea4a6c63e29c520abef5507b132ec5f9954776aebebe7b92421eea691446d22c

/-- The statement about the manifest's digest, and its Ed25519 signature by that key. -/
def statement : Text :=
  hexText 64 0x53544f524d5349470101000000000000cb71049e72464aff228a030e69feac9a ++
    hexText 64 0xaab29d9cfbfb997c400e3f16b3c21c2f006faa68000000000000000000000000

/-- The signature over the statement. -/
def signature : Text :=
  hexText 64 0xe37aaee86dd828e6e8a3affb69875c5c5893a3dd942d914cb711b17e284004f1 ++
    hexText 64 0x7ea2772d1a1cc6d11b21dc398e4ee4cfbf039327b480377c43271df9fdd5fd02

/-- The manifest of the pallet. -/
def manifest : Manifest := bootManifest emptySpecHex kernelHex initramfsHex

/-- A spec with a kernel of its own. -/
def forgedSpec : PalletSpec where
  members := [⟨[], "kernel".toList, "inline".toList, some "evil".toList⟩]

/-- Its JSON. -/
def forgedSpecText : Text :=
  jsonObject ("\"members\":[".toList ++ jsonObject (jsonFields
    [("source".toList, "inline".toList), ("role".toList, "kernel".toList),
      ("text".toList, "evil".toList)]) ++ "]".toList)

/-- The signature document over the manifest. -/
def document : SignatureDoc where
  subject := sha256Of manifestHex
  subjectKind := "pallet".toList
  publicKey := publicKey
  keyId := publicKey.take 16
  signature := signature
  signedAt := 1756000000
  statement := statement

/-- Its JSON, as far as the server reads it. -/
def documentText : Text :=
  jsonObject (jsonFields [("subject".toList, document.subject),
    ("subject_kind".toList, document.subjectKind), ("public_key".toList, document.publicKey),
    ("key_id".toList, document.keyId), ("signature".toList, document.signature)] ++
    ",\"signed_at\":1756000000,".toList ++ jsonFields [("statement".toList, document.statement)])

/-- The manifest that the signature is stored under. -/
def signatureManifest : Manifest where
  config := ⟨"application/json".toList, sha256Of documentHex, 0, none, []⟩

/-- Its JSON. -/
def signatureManifestText : Text := jsonObject (configText signatureManifest.config)

/-- The referrers of the pallet. -/
def referrers : Index where
  manifests := [⟨ociManifestType, sha256Of signatureManifestHex, 0, some signatureArtifactType, []⟩]

/-- Their JSON. -/
def referrersText : Text :=
  jsonObject ("\"manifests\":[".toList ++
    joinWith ",".toList (referrers.manifests.map descriptorText) ++ "]".toList)

/-- What these bytes hash to. -/
def hashes : List (Bytes × Text) :=
  [(utf8Encode (manifestText manifest), manifestHex), (utf8Encode emptySpecText, emptySpecHex),
    (utf8Encode "initramfs".toList, initramfsHex), (utf8Encode "evil".toList, forgedKernelHex)]

/-- SHA-256, Ed25519 and the decoders, on these bytes. -/
def lib : Libraries where
  sha256 := hashOf hashes
  ed25519 := {
    fromBytes := fun key => some key == hexDecode publicKey
    verifyStrict := fun key message sig => some key == hexDecode publicKey &&
      some message == hexDecode statement && some sig == hexDecode signature }
  manifest bytes :=
    if bytes = utf8Encode (manifestText manifest) then some manifest
    else if bytes = utf8Encode signatureManifestText then some signatureManifest
    else none
  index bytes := if bytes = utf8Encode referrersText then some referrers else none
  spec bytes :=
    if bytes = utf8Encode emptySpecText then some {}
    else if bytes = utf8Encode forgedSpecText then some forgedSpec
    else none
  document bytes := if bytes = utf8Encode documentText then some document else none

/-- A source that trusts the key and requires a signature. -/
def src : PalletSource where
  registry := "http://registry:5100".toList
  repo := "stormcos/boot".toList
  reference := "stable".toList
  cacheDir := "/var/lib/stormnetboot".toList
  trustedKeys := [publicKey]
  requireSignature := true

/-- An answer with this text. -/
def answer (text : Text) : Option Response := some ⟨200, none, some (utf8Encode text)⟩

/-- The registry. It is never asked for the kernel's blob. -/
def env : Environment where
  registry
    | .manifest => answer (manifestText manifest)
    | .referrers => answer referrersText
    | .referrer _ => answer signatureManifestText
    | .document _ => answer documentText
    | .spec => answer forgedSpecText
    | .member _ => answer "initramfs".toList
  disk _ := .ok ()

/-- Only the genuine spec hashes to the digest the manifest names. -/
theorem eq_emptySpecText_of_digest (bytes : Bytes)
    (h : lib.digest bytes = toAsciiLowercase manifest.config.digest) :
    bytes = utf8Encode emptySpecText :=
  eq_of_hashOf hashes bytes _ _ (by decide) (by decide) h

/-- The manifest is decoded from its text. -/
theorem parsed_manifest : lib.manifest (utf8Encode (manifestText manifest)) = some manifest := by
  decide

/-- The empty spec is decoded from its text. -/
theorem parsed_spec : lib.spec (utf8Encode emptySpecText) = some {} := by
  decide

/-- The signature over the manifest is genuine, so the pass gets to the layers. -/
theorem admits : Admits lib src.signedOnly env none
    ⟨utf8Encode (manifestText manifest), sha256Of manifestHex⟩ manifest true where
  fetched := by decide
  changed := by decide
  admitted := by decide
  cacheDir := rfl

end ForgedSpec

/-- The forged kernel is written, although no layer's digest is its hash and the genuine spec has
no text for it. -/
theorem not_writesBound_forgedSpec :
    ¬ WritesBound ForgedSpec.lib ForgedSpec.src.signedOnly ForgedSpec.env none fun _ => none := by
  intro hbound
  have hwritten : PalletOp.write 0 (ForgedSpec.src.signedOnly.assetPath .kernel)
      (utf8Encode "evil".toList) ∈ Program.trace ForgedSpec.env.handle
        (refresh ForgedSpec.lib ForgedSpec.src.signedOnly none) fun _ => none := by
    refine (write_mem_trace_refresh_iff ..).mpr ⟨_, _, _, ForgedSpec.admits, ?_⟩
    refine (write_mem_trace_projectLayers_iff ..).mpr ⟨0, _, rfl, fun m hm => by omega, rfl,
      "kernel".toList, .kernel, by decide, by decide, by decide⟩
  obtain ⟨manifestBytes, manifest, hreceived, hparsed, -, asset, hfile, hvouched⟩ :=
    hbound _ _ _ hwritten
  have hbytes : received (ForgedSpec.env.registry .manifest) =
      some (utf8Encode (manifestText ForgedSpec.manifest)) := rfl
  rw [← Option.some.inj (hbytes.symm.trans hreceived), ForgedSpec.parsed_manifest,
    Option.some.injEq] at hparsed
  subst hparsed
  have hasset : Asset.kernel = asset := by
    rcases hfile with hfile | hfile
    · exact assetPath_inj _ _ _ hfile
    · exact absurd hfile.symm (tmpPath_ne_assetPath _ _ _)
  subst hasset
  rcases hvouched with ⟨layer, hlayer, role, -, hdigest⟩ |
    ⟨specBytes, spec, role, text, hdigest, hparse, -, hinline, -⟩
  · revert layer
    decide
  · rw [ForgedSpec.eq_emptySpecText_of_digest specBytes hdigest, ForgedSpec.parsed_spec] at hparse
    cases hparse
    cases hinline

end Stormnetboot.Server

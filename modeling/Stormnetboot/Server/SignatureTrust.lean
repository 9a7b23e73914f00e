import Stormnetboot.Server.Stormsig

/-!
# Which key a verified signature was made with

The trust test compares the trusted entries with two texts of the document, the public key
and the key id, while the signature is checked with the bytes of the public key alone. The
key id is documented as the first sixteen characters of the public key, but nothing checks
it, so a signer may put any trusted id beside a key of its own. The condition below is exact:
it fails only for a document that is signed by its own key and is let in by a key id that
is not that key's.
-/

namespace Stormnetboot.Server

open Stormnetboot.Common
set_option maxRecDepth 8192

/-- Some trusted entry is the full hexadecimal of the key, or its first sixteen characters. -/
def KeyTrusted (trustedKeys : List Text) (key : Bytes) : Prop :=
  ∃ t ∈ trustedKeys, trustedEntry t = hexEncode key ∨ trustedEntry t = (hexEncode key).take 16

/-- Whenever verification accepts, the 32 bytes it gave to Ed25519 as the key are trusted. -/
def AcceptsTrustedKeyOnly (ed : Ed25519) (doc : SignatureDoc) (subjectDigest : Text)
    (trustedKeys : List Text) : Prop :=
  ∀ statement, verify ed doc subjectDigest trustedKeys = .ok statement →
    ∃ key, hexDecode (toAsciiLowercase doc.publicKey) = some key ∧ key.length = 32 ∧
      KeyTrusted trustedKeys key

/-- Some trusted entry is the document's public key, or the first sixteen characters of it. -/
def ListsPublicKey (trustedKeys : List Text) (doc : SignatureDoc) : Prop :=
  ∃ t ∈ trustedKeys, trustedEntry t = toAsciiLowercase doc.publicKey ∨
    trustedEntry t = (toAsciiLowercase doc.publicKey).take 16

/-- Some trusted entry is the text the document gives as its key id. -/
def ListsKeyId (trustedKeys : List Text) (doc : SignatureDoc) : Prop :=
  ∃ t ∈ trustedKeys, trustedEntry t ≠ [] ∧ trustedEntry t = toAsciiLowercase doc.keyId

/-- The document is a well-formed signature over this subject by the key it carries. -/
def SelfSigned (ed : Ed25519) (doc : SignatureDoc) (subjectDigest : Text) : Prop :=
  ∃ statement statementBytes keyBytes sigBytes,
    SignedByOwnKey ed doc subjectDigest statement statementBytes keyBytes sigBytes

/-- A public key that decodes is trusted as bytes exactly when its text is listed. -/
theorem keyTrusted_iff_listsPublicKey (trustedKeys : List Text) (doc : SignatureDoc) (key : Bytes)
    (hkey : hexDecode (toAsciiLowercase doc.publicKey) = some key) :
    KeyTrusted trustedKeys key ↔ ListsPublicKey trustedKeys doc := by
  have henc : hexEncode key = toAsciiLowercase doc.publicKey := by
    rw [hexEncode_of_hexDecode hkey, toAsciiLowercase_idem]
  rw [KeyTrusted, ListsPublicKey, henc]

/-- The trust test passes only on a document whose public key or key id is listed. -/
theorem listed_of_isTrusted (trustedKeys : List Text) (doc : SignatureDoc)
    (h : isTrusted trustedKeys (toAsciiLowercase doc.publicKey) (toAsciiLowercase doc.keyId) = true) :
    ListsPublicKey trustedKeys doc ∨ ListsKeyId trustedKeys doc := by
  obtain ⟨t, ht, hne, heq⟩ := (isTrusted_iff _ _ _).mp h
  rcases heq with hkey | hid
  · exact .inl ⟨t, ht, .inl hkey⟩
  · exact .inr ⟨t, ht, hne, hid⟩

/-- A verified signature is one by a trusted key unless a trusted key id is put beside another
key that signs its own document: in every other case, and in no more, the check is sound. -/
theorem verify_acceptsTrustedKeyOnly_iff (ed : Ed25519) (doc : SignatureDoc) (subjectDigest : Text)
    (trustedKeys : List Text) :
    AcceptsTrustedKeyOnly ed doc subjectDigest trustedKeys ↔
      ListsPublicKey trustedKeys doc ∨ ¬ ListsKeyId trustedKeys doc ∨
        ¬ SelfSigned ed doc subjectDigest := by
  constructor
  · intro hsound
    by_contra hcond
    push Not at hcond
    obtain ⟨hunlisted, ⟨t, ht, hne, hid⟩, statement, sb, kb, gb, hs⟩ := hcond
    have htrusted := (isTrusted_iff trustedKeys (toAsciiLowercase doc.publicKey) _).mpr
      ⟨t, ht, hne, .inr hid⟩
    obtain ⟨key, hkey, -, hlisted⟩ :=
      hsound statement ((verify_ok_iff ..).mpr ⟨htrusted, sb, kb, gb, hs⟩)
    exact hunlisted ((keyTrusted_iff_listsPublicKey trustedKeys doc key hkey).mp hlisted)
  · intro hcond statement hok
    obtain ⟨htrusted, sb, kb, gb, hs⟩ := (verify_ok_iff ..).mp hok
    refine ⟨kb, hs.key_hex, hs.key_length, ?_⟩
    rw [keyTrusted_iff_listsPublicKey trustedKeys doc kb hs.key_hex]
    rcases hcond with hlisted | hid | hsigned
    · exact hlisted
    · exact (listed_of_isTrusted trustedKeys doc htrusted).resolve_right hid
    · exact absurd ⟨statement, sb, kb, gb, hs⟩ hsigned

/-! ## A forged document -/

namespace Forged

/-- The key id the operator trusts, of a key whose owner signed nothing here. -/
def trustedKeyId : Text := hexText 16 0xea4a6c63e29c520a

/-- The attacker's own public key. -/
def publicKey : Text :=
  hexText 64 0x1398f62c6d1a457c51ba6a4b5f3dbd2f69fca93216218dc8997e416bd17d93ca

/-- A statement about the digest `ab…ab`. -/
def statement : Text :=
  hexText 64 0x53544f524d5349470101000000000000abababababababababababababababab ++
    hexText 64 0xabababababababababababababababab006faa68000000000000000000000000

/-- The attacker's Ed25519 signature of that statement. -/
def signature : Text :=
  hexText 64 0x29d765631c9bfa95080116f46ade9cc2d2d90027260c836daf9a80c9255d5284 ++
    hexText 64 0x9c6ad47a51125c9fb52d316c9379167cd5ef9497465fc4d8a98101d0b683bb0d

/-- What the document is about. -/
def subject : Text :=
  "sha256:".toList ++ hexText 64 0xabababababababababababababababababababababababababababababababab

/-- The attacker's document, with the trusted key id in place of its own. -/
def doc : SignatureDoc where
  subject := subject
  subjectKind := "pallet".toList
  publicKey := publicKey
  keyId := trustedKeyId
  signature := signature
  signedAt := 1756000000
  statement := statement

/-- Ed25519 on the attacker's key, statement and signature. -/
def ed : Ed25519 where
  fromBytes key := some key == hexDecode publicKey
  verifyStrict key message sig :=
    some key == hexDecode publicKey && some message == hexDecode statement &&
      some sig == hexDecode signature

end Forged

/-- The forged document is accepted although no trusted entry is the key that signed it. -/
theorem verify_accepts_forged_key_id :
    ¬ AcceptsTrustedKeyOnly Forged.ed Forged.doc Forged.subject [Forged.trustedKeyId] := by
  intro hsound
  have hok : verify Forged.ed Forged.doc Forged.subject [Forged.trustedKeyId] =
      .ok ⟨normaliseDigest Forged.subject, .pallet, 1756000000⟩ := by
    decide
  obtain ⟨key, hkey, -, t, ht, heq⟩ := hsound _ hok
  have henc : hexEncode key = Forged.publicKey := by
    rw [hexEncode_of_hexDecode hkey]
    decide
  rw [henc, List.mem_singleton.mp ht] at heq
  revert heq
  decide

end Stormnetboot.Server

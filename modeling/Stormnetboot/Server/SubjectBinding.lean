import Mathlib.Data.Nat.Digits.Defs
import Stormnetboot.Server.SignatureTrust

/-!
# What a verified statement is about

The digest that a document's statement is about is written in the statement itself, at a fixed
place among the signed bytes. Verification compares it with the subject it was asked for, so no
document verifies for two subjects that are different digests, whatever it says about itself
outside the statement.
-/

namespace Stormnetboot.Server

open Stormnetboot.Common
set_option maxRecDepth 8192

/-- What verification has established about a document and a subject: the statement is these
bytes, with the magic and the version at the front, they are what the curve was asked about, and
the verified fields are those at their places. -/
structure Binds (ed : Ed25519) (doc : SignatureDoc) (subjectDigest : Text) (statement : Statement)
    (bytes keyBytes sigBytes : Bytes) : Prop where
  statement_hex : hexDecode (trim doc.statement) = some bytes
  length : bytes.length = 64
  magic : bytes.take 8 = asciiBytes "STORMSIG"
  version : bytes[8]? = some 1
  key_hex : hexDecode (toAsciiLowercase doc.publicKey) = some keyBytes
  signature_hex : hexDecode (trim doc.signature) = some sigBytes
  signed : ed.verifyStrict keyBytes bytes sigBytes = true
  subject_bytes : statement.subjectHex = hexEncode ((bytes.drop 16).take 32)
  subject : statement.subjectHex =
    toAsciiLowercase (trimStartMatches "sha256:".toList (trim subjectDigest))
  signed_at : statement.signedAt = Nat.ofDigits 256 (((bytes.drop 48).take 8).map UInt8.toNat)

/-- The digest that a document's statement is about, as its bytes have it. -/
def SignatureDoc.signedSubject (doc : SignatureDoc) : Option Text :=
  (hexDecode (trim doc.statement)).map fun bytes => hexEncode ((bytes.drop 16).take 32)

/-- What bytes say is what they say as digits. -/
theorem fromLeBytes_eq_ofDigits (bytes : Bytes) :
    fromLeBytes bytes = Nat.ofDigits 256 (bytes.map UInt8.toNat) := by
  induction bytes with
  | nil => rfl
  | cons b rest ih =>
    rw [List.map_cons, Nat.ofDigits_cons, ← ih]
    rfl

/-- A verified document binds its subject. -/
theorem binds_of_verify (ed : Ed25519) (doc : SignatureDoc) (subjectDigest : Text)
    (trustedKeys : List Text) (statement : Statement)
    (h : verify ed doc subjectDigest trustedKeys = .ok statement) :
    ∃ bytes keyBytes sigBytes, Binds ed doc subjectDigest statement bytes keyBytes sigBytes := by
  obtain ⟨-, bytes, keyBytes, sigBytes, hsigned⟩ := (verify_ok_iff ..).mp h
  obtain ⟨hlength, hmagic, hversion, hstatement⟩ := (parseStatement_ok_iff ..).mp hsigned.parsed
  refine ⟨bytes, keyBytes, sigBytes, {
    statement_hex := hsigned.statement_hex
    length := hlength
    magic := hmagic
    version := ?_
    key_hex := hsigned.key_hex
    signature_hex := hsigned.signature_hex
    signed := hsigned.signed
    subject_bytes := ?_
    subject := hsigned.subject
    signed_at := ?_ }⟩
  · have hbyte : 8 < bytes.length := by
      rw [hlength]
      decide
    have hread : bytes.getD 8 0 = 1 := hversion
    rw [List.getD_eq_getElem?_getD, List.getElem?_eq_getElem hbyte, Option.getD_some] at hread
    rw [List.getElem?_eq_getElem hbyte, hread]
  · have hread : statement.subjectHex = hexEncode (slice bytes 16 48) :=
      congrArg Statement.subjectHex hstatement
    rw [hread, slice_eq_take_drop]
  · have hread : statement.signedAt = fromLeBytes (slice bytes 48 56) :=
      congrArg Statement.signedAt hstatement
    rw [hread, fromLeBytes_eq_ofDigits, slice_eq_take_drop]

/-- A document verifies only for what its statement is about. -/
theorem signedSubject_of_verify (ed : Ed25519) (doc : SignatureDoc) (subjectDigest : Text)
    (trustedKeys : List Text) (statement : Statement)
    (h : verify ed doc subjectDigest trustedKeys = .ok statement) :
    doc.signedSubject = some (normaliseDigest subjectDigest) := by
  obtain ⟨bytes, keyBytes, sigBytes, hbinds⟩ := binds_of_verify ed doc _ _ statement h
  rw [SignatureDoc.signedSubject, hbinds.statement_hex, Option.map_some, ← hbinds.subject_bytes,
    hbinds.subject, normaliseDigest]

/-- A verified document binds its subject, and is refused for every other one whatever is trusted
and whatever its unsigned fields are set to. -/
theorem verify_binds_subject (ed : Ed25519) (doc : SignatureDoc) (subjectDigest : Text)
    (trustedKeys : List Text) (statement : Statement)
    (h : verify ed doc subjectDigest trustedKeys = .ok statement) :
    (∃ bytes keyBytes sigBytes, Binds ed doc subjectDigest statement bytes keyBytes sigBytes) ∧
      ∀ other : Text, normaliseDigest other ≠ normaliseDigest subjectDigest →
        ∀ (trusted' : List Text) (subject subjectKind : Text) (signedAt : ℕ) (s : Statement),
          verify ed { doc with subject, subjectKind, signedAt } other trusted' ≠ .ok s := by
  refine ⟨binds_of_verify ed doc subjectDigest trustedKeys statement h, ?_⟩
  intro other hother trusted' subject subjectKind signedAt s hverify
  have hsubject := signedSubject_of_verify ed doc subjectDigest trustedKeys statement h
  have hagain : doc.signedSubject = some (normaliseDigest other) :=
    signedSubject_of_verify ed { doc with subject, subjectKind, signedAt } other trusted' s hverify
  exact hother (Option.some.inj (hagain.symm.trans hsubject))

/-- The forged document is bound to its digest, and no list of keys lets it through for another. -/
theorem verify_binds_forged : (∃ bytes keyBytes sigBytes, Binds Forged.ed Forged.doc Forged.subject
    ⟨normaliseDigest Forged.subject, .pallet, 1756000000⟩ bytes keyBytes sigBytes) ∧
      ∀ other : Text, normaliseDigest other ≠ normaliseDigest Forged.subject →
        ∀ (trusted' : List Text) (subject subjectKind : Text) (signedAt : ℕ) (s : Statement),
          verify Forged.ed { Forged.doc with subject, subjectKind, signedAt } other trusted' ≠
            .ok s :=
  verify_binds_subject Forged.ed Forged.doc Forged.subject [Forged.trustedKeyId] _
    (by decide)

end Stormnetboot.Server

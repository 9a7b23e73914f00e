import Stormnetboot.Common.Hex
import Stormnetboot.Common.Program

/-!
# STORMSIG signature verification

The read side of the registry's signature format: a fixed 64-byte statement, a document
that carries it with the signer's key in hexadecimal, and `verify`, which consults a list of
trusted keys before it looks at the statement or does any signature arithmetic.

The curve arithmetic is a parameter. The trust test reads two fields of the document that
nothing ties together, its public key and its key id, and the last part of this file says
exactly which documents that lets through.
-/

namespace Stormnetboot.Server

open Stormnetboot.Common

/-- The Ed25519 implementation, as the two operations used of it: which 32-byte strings
`VerifyingKey::from_bytes` accepts, and what `verify_strict` says of a key, a message and a
signature. -/
structure Ed25519 where
  fromBytes : Bytes → Bool
  verifyStrict : Bytes → Bytes → Bytes → Bool

/-- OCI artifactType of a signature referrer. -/
def signatureArtifactType : Text :=
  "application/vnd.stormblock.signature.v1+json".toList

/-- `MAGIC`. -/
def magic : Bytes := asciiBytes "STORMSIG"

/-- `STATEMENT_LEN`. -/
def statementLen : ℕ := 64

/-- `STATEMENT_VERSION`. -/
def statementVersion : UInt8 := 1

namespace Off

/-! Byte offsets within the statement. -/

/-- Where the version is. -/
def version : ℕ := 8

/-- Where the kind of the subject is. -/
def subjectKind : ℕ := 9

/-- Where the digest starts. -/
def digest : ℕ := 16

/-- Where it ends. -/
def digestEnd : ℕ := 48

/-- Where the time starts. -/
def signedAt : ℕ := 48

/-- Where it ends. -/
def signedAtEnd : ℕ := 56

end Off

/-- What the signature covers. -/
inductive SubjectKind where
  | other
  | pallet
  | stack
  deriving DecidableEq, Repr

/-- The kind of a byte. -/
def SubjectKind.fromU8 (v : UInt8) : SubjectKind :=
  if v = 1 then .pallet else if v = 2 then .stack else .other

/-- The signature document, stored as the config blob of the referrer manifest. Every field
is text or a number the registry chose. -/
structure SignatureDoc where
  subject : Text
  subjectKind : Text
  publicKey : Text
  keyId : Text
  signature : Text
  signedAt : ℕ
  statement : Text
  deriving DecidableEq, Repr

/-- Why a document is not accepted. -/
inductive VerifyError where
  | statementLength (length : ℕ)
  | badMagic
  | unsupportedVersion (version : UInt8)
  | notHex (field : Text)
  | badPublicKey
  | badSignature
  | subjectMismatch (signed expected : Text)
  | untrusted (keyId : Text)
  | invalid
  deriving DecidableEq, Repr

/-- The `Display` text of a verification error. -/
def VerifyError.display : VerifyError → Text
  | .statementLength n => "statement is ".toList ++ natText n ++ " bytes, expected 64".toList
  | .badMagic => "statement magic is not STORMSIG".toList
  | .unsupportedVersion v =>
    "statement version ".toList ++ natText v.toNat ++ " is newer than this reader".toList
  | .notHex field => field ++ " is not valid hex".toList
  | .badPublicKey => "public key is not a valid Ed25519 key".toList
  | .badSignature => "signature is not 64 bytes".toList
  | .subjectMismatch signed expected =>
    "signature covers ".toList ++ signed ++ " but we are verifying ".toList ++ expected
  | .untrusted keyId => "key ".toList ++ keyId ++ " is not trusted".toList
  | .invalid => "signature does not verify".toList

/-- Parsed view of a statement's fixed fields. -/
structure Statement where
  subjectHex : Text
  subjectKind : SubjectKind
  signedAt : ℕ
  deriving DecidableEq, Repr

/-- Parse the 64-byte statement, refusing what it does not understand. The reserved bytes are
not looked at. -/
def parseStatement (bytes : Bytes) : Except VerifyError Statement :=
  if bytes.length ≠ statementLen then .error (.statementLength bytes.length)
  else if bytes.take magic.length ≠ magic then .error .badMagic
  else
    let version := bytes.getD Off.version 0
    if version ≠ statementVersion then .error (.unsupportedVersion version)
    else .ok {
      subjectHex := hexEncode (slice bytes Off.digest Off.digestEnd)
      subjectKind := .fromU8 (bytes.getD Off.subjectKind 0)
      signedAt := fromLeBytes (slice bytes Off.signedAt Off.signedAtEnd) }

/-- Strip `sha256:` from the front and lowercase, so that a digest may be given in either of
the registry's forms. -/
def normaliseDigest (digest : Text) : Text :=
  toAsciiLowercase (trimStartMatches "sha256:".toList (trim digest))

/-- A trusted entry as it is compared: trimmed and in lower case. -/
def trustedEntry (t : Text) : Text :=
  toAsciiLowercase (trim t)

/-- The trust test: some non-empty entry is the public key or the key id. -/
def isTrusted (trustedKeys : List Text) (publicKey keyId : Text) : Bool :=
  trustedKeys.any fun t =>
    let t := trustedEntry t
    !t.isEmpty && (t == publicKey || t == keyId)

/-- Decode a field of the document, naming it when it is not hexadecimal. -/
def decodeField (field : String) (s : Text) : Except VerifyError Bytes :=
  match hexDecode s with
  | some bytes => .ok bytes
  | none => .error (.notHex field.toList)

/-- Verify a signature document against the manifest digest it should cover. -/
def verify (ed : Ed25519) (doc : SignatureDoc) (subjectDigest : Text) (trustedKeys : List Text) :
    Except VerifyError Statement :=
  let keyId := toAsciiLowercase doc.keyId
  let publicKey := toAsciiLowercase doc.publicKey
  if !isTrusted trustedKeys publicKey keyId then .error (.untrusted keyId)
  else do
    let statementBytes ← decodeField "statement" (trim doc.statement)
    let statement ← parseStatement statementBytes
    let expected := normaliseDigest subjectDigest
    if statement.subjectHex ≠ expected then
      .error (.subjectMismatch statement.subjectHex expected)
    else do
      let keyBytes ← decodeField "public_key" publicKey
      if keyBytes.length ≠ 32 then .error .badPublicKey
      else if !ed.fromBytes keyBytes then .error .badPublicKey
      else do
        let sigBytes ← decodeField "signature" (trim doc.signature)
        if sigBytes.length ≠ 64 then .error .badSignature
        else if !ed.verifyStrict keyBytes statementBytes sigBytes then .error .invalid
        else .ok statement

/-! ## What an accepted document satisfies -/

/-- The document carries a statement about this subject that its own public key signed. -/
structure SignedByOwnKey (ed : Ed25519) (doc : SignatureDoc) (subjectDigest : Text)
    (statement : Statement) (statementBytes keyBytes sigBytes : Bytes) : Prop where
  statement_hex : hexDecode (trim doc.statement) = some statementBytes
  parsed : parseStatement statementBytes = .ok statement
  subject : statement.subjectHex = normaliseDigest subjectDigest
  key_hex : hexDecode (toAsciiLowercase doc.publicKey) = some keyBytes
  key_length : keyBytes.length = 32
  key_point : ed.fromBytes keyBytes = true
  signature_hex : hexDecode (trim doc.signature) = some sigBytes
  signature_length : sigBytes.length = 64
  signed : ed.verifyStrict keyBytes statementBytes sigBytes = true

/-- Decoding a field succeeds exactly on hexadecimal text. -/
theorem decodeField_ok_iff (field : String) (s : Text) (bytes : Bytes) :
    decodeField field s = .ok bytes ↔ hexDecode s = some bytes := by
  unfold decodeField
  cases hexDecode s <;> simp

/-- The trust test passes exactly when some entry, once trimmed and lowercased, is the public
key or the key id and is not empty. -/
theorem isTrusted_iff (trustedKeys : List Text) (publicKey keyId : Text) :
    isTrusted trustedKeys publicKey keyId = true ↔
      ∃ t ∈ trustedKeys, trustedEntry t ≠ [] ∧ (trustedEntry t = publicKey ∨ trustedEntry t = keyId) := by
  simp [isTrusted, List.any_eq_true]

/-- Parsing accepts exactly 64 bytes with the magic and the version, and reads the fields at their
places. -/
theorem parseStatement_ok_iff (bytes : Bytes) (statement : Statement) :
    parseStatement bytes = .ok statement ↔
      bytes.length = statementLen ∧ bytes.take magic.length = magic ∧
        bytes.getD Off.version 0 = statementVersion ∧
        statement = {
          subjectHex := hexEncode (slice bytes Off.digest Off.digestEnd)
          subjectKind := .fromU8 (bytes.getD Off.subjectKind 0)
          signedAt := fromLeBytes (slice bytes Off.signedAt Off.signedAtEnd) } := by
  unfold parseStatement
  constructor
  · intro h
    simp only [ne_eq, ite_not] at h
    split at h
    · rename_i hlength
      split at h
      · rename_i hmagic
        split at h
        · rename_i hversion
          cases h
          exact ⟨hlength, hmagic, hversion, rfl⟩
        · cases h
      · cases h
    · cases h
  · rintro ⟨hlength, hmagic, hversion, rfl⟩
    simp only [hlength, hmagic, hversion, ne_eq, not_true_eq_false, if_false]

/-- Verification accepts exactly when the trust test passes and the document is signed by its
own key. -/
theorem verify_ok_iff (ed : Ed25519) (doc : SignatureDoc) (subjectDigest : Text)
    (trustedKeys : List Text) (statement : Statement) :
    verify ed doc subjectDigest trustedKeys = .ok statement ↔
      isTrusted trustedKeys (toAsciiLowercase doc.publicKey) (toAsciiLowercase doc.keyId) = true ∧
        ∃ statementBytes keyBytes sigBytes,
          SignedByOwnKey ed doc subjectDigest statement statementBytes keyBytes sigBytes := by
  unfold verify
  constructor
  · intro h
    simp only [Bool.not_eq_true', ite_not, ne_eq] at h
    split at h
    · cases h
    rename_i htrusted
    obtain ⟨sb, hsb, h⟩ := (except_bind_eq_ok _ _ _).mp h
    obtain ⟨parsed, hparsed, h⟩ := (except_bind_eq_ok _ _ _).mp h
    split at h
    · rename_i hsubject
      obtain ⟨kb, hkb, h⟩ := (except_bind_eq_ok _ _ _).mp h
      split at h
      · rename_i hklen
        split at h
        · cases h
        rename_i hpoint
        obtain ⟨gb, hgb, h⟩ := (except_bind_eq_ok _ _ _).mp h
        split at h
        · rename_i hglen
          split at h
          · cases h
          rename_i hsigned
          cases h
          rw [decodeField_ok_iff] at hsb hkb hgb
          exact ⟨by simpa using htrusted, sb, kb, gb, hsb, hparsed, hsubject, hkb, hklen,
            by simpa using hpoint, hgb, hglen, by simpa using hsigned⟩
        · cases h
      · cases h
    · cases h
  · rintro ⟨htrusted, sb, kb, gb, hs⟩
    have hsb := (decodeField_ok_iff "statement" _ _).mpr hs.statement_hex
    have hkb := (decodeField_ok_iff "public_key" _ _).mpr hs.key_hex
    have hgb := (decodeField_ok_iff "signature" _ _).mpr hs.signature_hex
    simp only [htrusted, hsb, hkb, hgb, bind, Except.bind, hs.parsed, hs.subject, hs.key_length,
      hs.key_point, hs.signature_length, hs.signed]
    simp

end Stormnetboot.Server

import Stormnetboot.Server.Stormsig

/-!
# The layout of a statement

A statement is laid out in 64 bytes: the magic, the version, the kind of the subject, the digest
and the time of the signature, and zeros in what is reserved. Every statement that is laid out so
is accepted and read back. The parser accepts others too, since it takes every kind it does not
know for the first and looks at no reserved byte, and it reads them as the same statements.
-/

namespace Stormnetboot.Server

open Stormnetboot.Common

/-- The byte of a kind. -/
def SubjectKind.toU8 : SubjectKind → UInt8
  | .other => 0
  | .pallet => 1
  | .stack => 2

/-- The fields of a statement, one after the other. -/
def layout (head : Bytes) (version kind : UInt8) (reserved digest signedAt tail : Bytes) : Bytes :=
  head ++ version :: kind :: (reserved ++ (digest ++ (signedAt ++ tail)))

/-- The documented encoding of a statement. -/
def encodeStatement (kind : SubjectKind) (digest : Bytes) (signedAt : ℕ) : Bytes :=
  layout magic statementVersion kind.toU8 (List.replicate 6 0) digest (toLeBytes 8 signedAt)
    (List.replicate 8 0)

/-- The bytes are the encoding of the statement. -/
def Encodes (bytes : Bytes) (statement : Statement) : Prop :=
  ∃ digest : Bytes, digest.length = 32 ∧ statement.subjectHex = hexEncode digest ∧
    statement.signedAt < 2 ^ 64 ∧
    bytes = encodeStatement statement.subjectKind digest statement.signedAt

/-- What the parser makes of the bytes, if anything, is encoded by them. -/
def AdmitsLayout (bytes : Bytes) : Prop :=
  ∀ statement, parseStatement bytes = .ok statement → Encodes bytes statement

/-- The bytes are as many as a statement has, with its magic and version. -/
structure Headed (bytes : Bytes) : Prop where
  length : bytes.length = statementLen
  magic : bytes.take 8 = magic
  version : bytes.getD Off.version 0 = statementVersion

/-- The kind is a known one, and what is reserved is zero. -/
structure Understood (bytes : Bytes) : Prop where
  kind : bytes.getD Off.subjectKind 0 ≤ 2
  reserved : ∀ b ∈ slice bytes 10 16 ++ slice bytes 56 64, b = 0

/-- A kind is read back from its byte. -/
theorem SubjectKind.fromU8_toU8 (kind : SubjectKind) : .fromU8 kind.toU8 = kind := by
  cases kind <;> rfl

/-- A kind byte is that of the kind it is read as, if that is a known one. -/
theorem SubjectKind.toU8_fromU8_iff (v : UInt8) : (fromU8 v).toU8 = v ↔ v ≤ 2 := by
  unfold fromU8
  split_ifs with hpallet hstack
  · subst hpallet
    exact iff_of_true rfl (by decide)
  · subst hstack
    exact iff_of_true rfl (by decide)
  · have hne : v.toNat ≠ 1 ∧ v.toNat ≠ 2 :=
      ⟨fun h => hpallet (UInt8.toNat_inj.mp h), fun h => hstack (UInt8.toNat_inj.mp h)⟩
    rw [UInt8.le_iff_toNat_le, ← UInt8.toNat_inj]
    change 0 = v.toNat ↔ v.toNat ≤ 2
    omega

/-- The lengths of the fields. -/
structure Widths (head reserved digest signedAt tail : Bytes) : Prop where
  head : head.length = 8
  reserved : reserved.length = 6
  digest : digest.length = 32
  signedAt : signedAt.length = 8
  tail : tail.length = 8

/-- Every 64 bytes are some fields. -/
theorem exists_layout {bytes : Bytes} (h : bytes.length = statementLen) :
    ∃ head version kind reserved digest signedAt tail,
      Widths head reserved digest signedAt tail ∧
        bytes = layout head version kind reserved digest signedAt tail := by
  have hlength : (bytes.drop 8).length = 56 := by rw [List.length_drop, h]; rfl
  rcases hdrop : bytes.drop 8 with _ | ⟨version, _ | ⟨kind, rest⟩⟩
  · rw [hdrop] at hlength
    cases hlength
  · rw [hdrop] at hlength
    cases hlength
  · have hrest : rest.length = 54 := by
      rw [hdrop, List.length_cons, List.length_cons] at hlength
      omega
    refine ⟨bytes.take 8, version, kind, rest.take 6, (rest.drop 6).take 32,
      ((rest.drop 6).drop 32).take 8, ((rest.drop 6).drop 32).drop 8, ?_, ?_⟩
    · constructor
      · rw [List.length_take, h]
        rfl
      · rw [List.length_take, hrest]
        rfl
      · rw [List.length_take, List.length_drop, hrest]
        rfl
      · rw [List.length_take, List.length_drop, List.length_drop, hrest]
        rfl
      · rw [List.length_drop, List.length_drop, List.length_drop, hrest]
    · unfold layout
      rw [List.take_append_drop, List.take_append_drop, List.take_append_drop, ← hdrop,
        List.take_append_drop]

section Fields

variable {head reserved digest signedAt tail : Bytes} {version kind : UInt8}

/-- A statement has its length. -/
theorem length_layout (h : Widths head reserved digest signedAt tail) :
    (layout head version kind reserved digest signedAt tail).length = statementLen := by
  simp [layout, h.head, h.reserved, h.digest, h.signedAt, h.tail, statementLen]

/-- The fields stand where the offsets say. -/
structure FieldsOf (bytes head : Bytes) (version kind : UInt8)
    (reserved digest signedAt tail : Bytes) : Prop where
  head : bytes.take 8 = head
  version : bytes.getD Off.version 0 = version
  kind : bytes.getD Off.subjectKind 0 = kind
  reserved : slice bytes 10 16 = reserved
  digest : slice bytes Off.digest Off.digestEnd = digest
  signedAt : slice bytes Off.signedAt Off.signedAtEnd = signedAt
  tail : slice bytes 56 64 = tail

/-- The fields of a statement are at their offsets. -/
theorem fieldsOf_layout (version kind : UInt8) (h : Widths head reserved digest signedAt tail) :
    FieldsOf (layout head version kind reserved digest signedAt tail) head version kind reserved
      digest signedAt tail where
  head := List.take_left' h.head
  version := by
    rw [layout, List.getD_eq_getElem?_getD,
      List.getElem?_append_right (by rw [h.head]; decide), h.head]
    rfl
  kind := by
    rw [layout, List.getD_eq_getElem?_getD,
      List.getElem?_append_right (by rw [h.head]; decide), h.head]
    rfl
  reserved := slice_append (head ++ [version, kind]) (digest ++ (signedAt ++ tail))
    (by simp [layout]) (by simp [h.head]) (by simp [h.reserved])
  digest := slice_append (head ++ [version, kind] ++ reserved) (signedAt ++ tail)
    (by simp [layout]) (by simp [h.head, h.reserved, Off.digest])
    (by simp [h.digest, Off.digest, Off.digestEnd])
  signedAt := slice_append (head ++ [version, kind] ++ reserved ++ digest) tail
    (by simp [layout]) (by simp [h.head, h.reserved, h.digest, Off.signedAt])
    (by simp [h.signedAt, Off.signedAt, Off.signedAtEnd])
  tail := slice_append (head ++ [version, kind] ++ reserved ++ digest ++ signedAt) []
    (by simp [layout]) (by simp [h.head, h.reserved, h.digest, h.signedAt]) (by simp [h.tail])

/-- What is parsed from fields, where the magic and the version are right. -/
theorem parseStatement_layout_iff (h : Widths head reserved digest signedAt tail)
    (statement : Statement) :
    parseStatement (layout head version kind reserved digest signedAt tail) = .ok statement ↔
      head = magic ∧ version = statementVersion ∧
        statement = ⟨hexEncode digest, .fromU8 kind, fromLeBytes signedAt⟩ := by
  have hfields := fieldsOf_layout version kind h
  rw [parseStatement_ok_iff, and_iff_right (length_layout h), hfields.version, hfields.kind,
    hfields.digest, hfields.signedAt]
  have hmagic : magic.length = 8 := rfl
  rw [hmagic, hfields.head]

/-- The widths of an encoding. -/
theorem widths_encode {digest : Bytes} (hdigest : digest.length = 32) (signedAt : ℕ) :
    Widths magic (List.replicate 6 0) digest (toLeBytes 8 signedAt) (List.replicate 8 0) where
  head := rfl
  reserved := rfl
  digest := hdigest
  signedAt := length_toLeBytes 8 signedAt
  tail := rfl

end Fields

/-- An encoding is accepted and read back. -/
theorem parseStatement_encodeStatement (kind : SubjectKind) {digest : Bytes} {signedAt : ℕ}
    (hdigest : digest.length = 32) (htime : signedAt < 2 ^ 64) :
    parseStatement (encodeStatement kind digest signedAt) =
      .ok ⟨hexEncode digest, kind, signedAt⟩ := by
  refine (parseStatement_layout_iff (widths_encode hdigest signedAt) _).mpr ⟨rfl, rfl, ?_⟩
  rw [SubjectKind.fromU8_toU8, fromLeBytes_toLeBytes htime]

/-- Bytes that encode one statement are the same. -/
theorem Encodes.unique {bytes bytes' : Bytes} {statement : Statement}
    (h : Encodes bytes statement) (h' : Encodes bytes' statement) : bytes = bytes' := by
  obtain ⟨digest, -, hhex, -, rfl⟩ := h
  obtain ⟨digest', -, hhex', -, rfl⟩ := h'
  rw [hexEncode_inj (hhex.symm.trans hhex')]

section Fields

variable {reserved digest signedAt tail : Bytes} {kind : UInt8}

/-- Fields are the encoding of what is parsed from them exactly where the kind is known and what
is reserved is zero. -/
theorem admitsLayout_layout_iff (h : Widths magic reserved digest signedAt tail) :
    AdmitsLayout (layout magic statementVersion kind reserved digest signedAt tail) ↔
      kind ≤ 2 ∧ reserved = List.replicate 6 0 ∧ tail = List.replicate 8 0 := by
  constructor
  · intro hadmits
    obtain ⟨digest', hdigest', -, -, hbytes⟩ :=
      hadmits _ ((parseStatement_layout_iff h _).mpr ⟨rfl, rfl, rfl⟩)
    -- Both are fields of the same bytes.
    have hparsed := fieldsOf_layout statementVersion kind h
    have hencoded := fieldsOf_layout statementVersion (SubjectKind.fromU8 kind).toU8
      (widths_encode hdigest' (fromLeBytes signedAt))
    rw [hbytes] at hparsed
    refine ⟨?_, ?_, ?_⟩
    · exact (SubjectKind.toU8_fromU8_iff kind).mp (hencoded.kind.symm.trans hparsed.kind)
    · exact hparsed.reserved.symm.trans hencoded.reserved
    · exact hparsed.tail.symm.trans hencoded.tail
  · rintro ⟨hkind, rfl, rfl⟩ statement hparse
    obtain ⟨-, -, rfl⟩ := (parseStatement_layout_iff h statement).mp hparse
    have htime := fromLeBytes_lt signedAt
    have hwritten := toLeBytes_fromLeBytes signedAt
    rw [h.signedAt] at htime hwritten
    refine ⟨digest, h.digest, rfl, htime, ?_⟩
    rw [encodeStatement, (SubjectKind.toU8_fromU8_iff kind).mpr hkind, hwritten]

end Fields

/-- Other bytes are not parsed at all. -/
theorem headed_of_parseStatement {bytes : Bytes} {statement : Statement}
    (h : parseStatement bytes = .ok statement) : Headed bytes := by
  obtain ⟨hlength, hmagic, hversion, -⟩ := (parseStatement_ok_iff ..).mp h
  exact ⟨hlength, hmagic, hversion⟩

/-- The parser admits only the encoding of what it parses exactly from bytes that it would not
parse, or whose kind is known and whose reserved bytes are zero. -/
theorem admitsLayout_iff (bytes : Bytes) :
    AdmitsLayout bytes ↔ (Headed bytes → Understood bytes) := by
  by_cases hheaded : Headed bytes
  · rw [forall_prop_of_true hheaded]
    obtain ⟨head, version, kind, reserved, digest, signedAt, tail, hwidths, rfl⟩ :=
      exists_layout hheaded.length
    have hfields := fieldsOf_layout version kind hwidths
    obtain rfl := hfields.head.symm.trans hheaded.magic
    obtain rfl := hfields.version.symm.trans hheaded.version
    rw [admitsLayout_layout_iff hwidths, List.eq_replicate_iff, List.eq_replicate_iff,
      and_iff_right hwidths.reserved, and_iff_right hwidths.tail]
    constructor
    · rintro ⟨hkind, hreserved, htail⟩
      refine ⟨by rw [hfields.kind]; exact hkind, fun b hb => ?_⟩
      rw [hfields.reserved, hfields.tail] at hb
      exact (List.mem_append.mp hb).elim (hreserved b) (htail b)
    · rintro ⟨hkind, hzero⟩
      rw [hfields.kind] at hkind
      rw [hfields.reserved, hfields.tail] at hzero
      exact ⟨hkind, fun b hb => hzero b (List.mem_append_left _ hb),
        fun b hb => hzero b (List.mem_append_right _ hb)⟩
  · refine iff_of_true (fun statement hparse => ?_) fun h => absurd h hheaded
    exact absurd (headed_of_parseStatement hparse) hheaded

/-- Bytes are the encoding of what is parsed from them exactly where their kind is known and what
is reserved is zero, or nothing is parsed. Such bytes are known from the statement they are parsed
to, and every encoding is accepted and read back. -/
theorem parseStatement_layout (bytes : Bytes) :
    (AdmitsLayout bytes ↔ (Headed bytes → Understood bytes)) ∧
      (∀ bytes' statement, Understood bytes → Understood bytes' →
        parseStatement bytes = .ok statement → parseStatement bytes' = .ok statement →
          bytes = bytes') ∧
      ∀ (kind : SubjectKind) (digest : Bytes) (signedAt : ℕ), digest.length = 32 →
        signedAt < 2 ^ 64 → parseStatement (encodeStatement kind digest signedAt) =
          .ok ⟨hexEncode digest, kind, signedAt⟩ := by
  refine ⟨admitsLayout_iff bytes, ?_, fun kind digest signedAt hdigest htime => ?_⟩
  · intro bytes' statement hunderstood hunderstood' hparse hparse'
    have hencodes := (admitsLayout_iff bytes).mpr (fun _ => hunderstood) statement hparse
    have hencodes' := (admitsLayout_iff bytes').mpr (fun _ => hunderstood') statement hparse'
    exact hencodes.unique hencodes'
  · exact parseStatement_encodeStatement kind hdigest htime

/-- A statement of an unknown kind. -/
def unknownKind : Bytes :=
  layout magic statementVersion 7 (List.replicate 6 0) (List.replicate 32 0xab)
    (toLeBytes 8 1756000000) (List.replicate 8 0)

/-- A statement with something in its reserved bytes. -/
def usedReserve : Bytes :=
  layout magic statementVersion 0 [1, 0, 0, 0, 0, 0] (List.replicate 32 0xab)
    (toLeBytes 8 1756000000) (List.replicate 8 0)

/-- Both are accepted, as one and the same statement of which neither is the encoding. -/
theorem not_admitsLayout_unknownKind :
    (∃ statement, parseStatement unknownKind = .ok statement ∧
      parseStatement usedReserve = .ok statement) ∧
        unknownKind ≠ usedReserve ∧ ¬AdmitsLayout unknownKind ∧ ¬AdmitsLayout usedReserve := by
  have hwidths (reserved : Bytes) (h : reserved.length = 6) :
      Widths magic reserved (List.replicate 32 0xab) (toLeBytes 8 1756000000) (List.replicate 8 0) :=
    ⟨rfl, h, rfl, rfl, rfl⟩
  refine ⟨⟨⟨hexEncode (List.replicate 32 0xab), .other, 1756000000⟩, ?_, ?_⟩, by decide, ?_, ?_⟩
  · exact (parseStatement_layout_iff (hwidths _ rfl) _).mpr ⟨rfl, rfl, by decide⟩
  · exact (parseStatement_layout_iff (hwidths _ rfl) _).mpr ⟨rfl, rfl, by decide⟩
  · rw [unknownKind, admitsLayout_layout_iff (hwidths _ rfl)]
    decide
  · rw [usedReserve, admitsLayout_layout_iff (hwidths _ rfl)]
    decide

end Stormnetboot.Server

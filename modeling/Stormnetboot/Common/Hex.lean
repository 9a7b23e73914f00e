import Stormnetboot.Common.Text
import Mathlib.Tactic.IntervalCases

/-!
# Byte strings in hexadecimal

Decoding accepts either case of a digit and refuses an odd number of digits or any other
character; encoding writes lower case. A string that decodes is therefore, once lowercased,
the encoding of what it decoded to.
-/

namespace Stormnetboot.Common

/-- A byte string. -/
abbrev Bytes := List UInt8

/-- The bytes of an ASCII literal. -/
def asciiBytes (s : String) : Bytes :=
  s.toUTF8.data.toList

/-- `str::as_bytes`: the bytes a text is written as. -/
def utf8Encode (s : Text) : Bytes :=
  s.flatMap String.utf8EncodeChar

/-- The bytes from position `start` up to, and not including, `stop`. -/
def slice (bytes : Bytes) (start stop : ℕ) : Bytes :=
  (bytes.take stop).drop start

/-- `u64::from_le_bytes`, for any number of bytes. -/
def fromLeBytes (bytes : Bytes) : ℕ :=
  bytes.foldr (fun b acc => b.toNat + 256 * acc) 0

/-- `u64::to_le_bytes`, for any number of bytes. -/
def toLeBytes : ℕ → ℕ → Bytes
  | 0, _ => []
  | width + 1, n => UInt8.ofNat (n % 256) :: toLeBytes width (n / 256)

/-- The value of a hexadecimal digit of either case. -/
def hexDigit (c : Char) : Option ℕ :=
  let n := c.toNat
  if 48 ≤ n ∧ n ≤ 57 then some (n - 48)
  else if 97 ≤ n ∧ n ≤ 102 then some (n - 87)
  else if 65 ≤ n ∧ n ≤ 70 then some (n - 55)
  else none

/-- `hex::decode`: two digits to a byte, high half first. -/
def hexDecode : Text → Option Bytes
  | [] => some []
  | [_] => none
  | high :: low :: rest => do
    let h ← hexDigit high
    let l ← hexDigit low
    let bytes ← hexDecode rest
    some (UInt8.ofNat (16 * h + l) :: bytes)

/-- `hex::encode`. -/
def hexEncode (bytes : Bytes) : Text :=
  bytes.flatMap fun b => [Nat.digitChar (b.toNat / 16), Nat.digitChar (b.toNat % 16)]

/-- A number in hexadecimal, with so many digits. -/
def hexText (digits value : ℕ) : Text :=
  (List.range digits).map fun i => Nat.digitChar (value / 16 ^ (digits - 1 - i) % 16)

/-- A slice is taken from what is left after dropping. -/
theorem slice_eq_take_drop (bytes : Bytes) (start stop : ℕ) :
    slice bytes start stop = (bytes.drop start).take (stop - start) :=
  List.drop_take

/-- What stands between two parts is the slice from where the one ends. -/
theorem slice_append {bytes middle : Bytes} (front rest : Bytes)
    (hbytes : bytes = front ++ (middle ++ rest)) {start stop : ℕ} (hstart : front.length = start)
    (hstop : start + middle.length = stop) : slice bytes start stop = middle := by
  subst hbytes hstart hstop
  rw [slice_eq_take_drop, List.drop_left, Nat.add_sub_cancel_left, List.take_left]

/-! ## Numbers, low byte first -/

/-- A number has as many bytes as its width. -/
@[simp] theorem length_toLeBytes (width n : ℕ) : (toLeBytes width n).length = width := by
  induction width generalizing n with
  | zero => rfl
  | succ width ih => rw [toLeBytes, List.length_cons, ih]

/-- A number is read back from as many bytes as it needs. -/
theorem fromLeBytes_toLeBytes {width n : ℕ} (h : n < 256 ^ width) :
    fromLeBytes (toLeBytes width n) = n := by
  induction width generalizing n with
  | zero =>
    rw [pow_zero, Nat.lt_one_iff] at h
    exact h.symm
  | succ width ih =>
    have hdiv : n / 256 < 256 ^ width := by
      rw [pow_succ] at h
      exact Nat.div_lt_of_lt_mul (by omega)
    have hbyte : (UInt8.ofNat (n % 256)).toNat = n % 256 := by
      rw [UInt8.toNat_ofNat']
      omega
    change (UInt8.ofNat (n % 256)).toNat + 256 * fromLeBytes (toLeBytes width (n / 256)) = n
    rw [ih hdiv, hbyte]
    omega

/-- The bytes it was read from are written again. -/
theorem toLeBytes_fromLeBytes (bytes : Bytes) :
    toLeBytes bytes.length (fromLeBytes bytes) = bytes := by
  induction bytes with
  | nil => rfl
  | cons b rest ih =>
    have hlt := b.toNat_lt
    have hread : fromLeBytes (b :: rest) = b.toNat + 256 * fromLeBytes rest := rfl
    have hlow : (b.toNat + 256 * fromLeBytes rest) % 256 = b.toNat := by omega
    have hhigh : (b.toNat + 256 * fromLeBytes rest) / 256 = fromLeBytes rest := by omega
    rw [List.length_cons, toLeBytes, hread, hlow, hhigh, ih, UInt8.ofNat_toNat]

/-- What some bytes say is below what their count can hold. -/
theorem fromLeBytes_lt (bytes : Bytes) : fromLeBytes bytes < 256 ^ bytes.length := by
  induction bytes with
  | nil => exact Nat.one_pos
  | cons b rest ih =>
    have hlt := b.toNat_lt
    have hread : fromLeBytes (b :: rest) = b.toNat + 256 * fromLeBytes rest := rfl
    rw [List.length_cons, hread, pow_succ]
    omega

/-! ## Digits -/

/-- A digit's value is below sixteen and is written as the digit in lower case. -/
theorem hexDigit_some {c : Char} {v : ℕ} (h : hexDigit c = some v) :
    v < 16 ∧ Nat.digitChar v = c.toLower := by
  have hdigit (n : ℕ) (hn : n < 16) :
      (Nat.digitChar n).toNat = if n < 10 then n + 48 else n + 87 := by
    interval_cases n <;> rfl
  have hlower := toNat_toLower c
  simp only [hexDigit] at h
  split_ifs at h hlower <;> simp only [Option.some.injEq] at h <;> try omega
  all_goals
    refine ⟨by omega, Char.toNat_inj.mp ?_⟩
    rw [hdigit v (by omega), hlower]
    split_ifs <;> omega

/-- What decodes is, up to case, the encoding of what it decoded to. -/
theorem hexEncode_of_hexDecode {s : Text} {bytes : Bytes} (h : hexDecode s = some bytes) :
    hexEncode bytes = toAsciiLowercase s := by
  induction s using hexDecode.induct generalizing bytes with
  | case1 =>
    simp only [hexDecode, Option.some.injEq] at h
    subst h
    rfl
  | case2 c => simp [hexDecode] at h
  | case3 high low rest ih =>
    simp only [hexDecode, Option.bind_eq_bind, Option.bind_eq_some_iff, Option.some.injEq] at h
    obtain ⟨hv, hhigh, lv, hlow, tail, htail, rfl⟩ := h
    obtain ⟨hlt, hchar⟩ := hexDigit_some hhigh
    obtain ⟨llt, lchar⟩ := hexDigit_some hlow
    have hbyte : (UInt8.ofNat (16 * hv + lv)).toNat = 16 * hv + lv := by
      rw [UInt8.toNat_ofNat']
      omega
    have hhi : (16 * hv + lv) / 16 = hv := by omega
    have hlo : (16 * hv + lv) % 16 = lv := by omega
    simp only [hexEncode, List.flatMap_cons, hbyte, hhi, hlo, hchar, lchar]
    simpa [hexEncode, toAsciiLowercase] using ih htail

/-- A digit's value is read back. -/
theorem hexDigit_digitChar (n : ℕ) (h : n < 16) : hexDigit (Nat.digitChar n) = some n := by
  interval_cases n <;> rfl

/-- Encoded bytes are written in digits. -/
theorem exists_of_mem_hexEncode {c : Char} {bytes : Bytes} (h : c ∈ hexEncode bytes) :
    ∃ n < 16, c = Nat.digitChar n := by
  simp only [hexEncode, List.mem_flatMap, List.mem_cons, List.not_mem_nil, or_false] at h
  obtain ⟨b, -, rfl | rfl⟩ := h
  · exact ⟨b.toNat / 16, by have := b.toNat_lt; omega, rfl⟩
  · exact ⟨b.toNat % 16, by omega, rfl⟩

/-- Encoded bytes decode to themselves. -/
theorem hexDecode_hexEncode (bytes : Bytes) : hexDecode (hexEncode bytes) = some bytes := by
  induction bytes with
  | nil => rfl
  | cons b rest ih =>
    have hlt := b.toNat_lt
    change hexDecode (Nat.digitChar (b.toNat / 16) :: Nat.digitChar (b.toNat % 16) ::
      hexEncode rest) = _
    rw [hexDecode, hexDigit_digitChar _ (by omega), hexDigit_digitChar _ (by omega), ih]
    have hbyte : 16 * (b.toNat / 16) + b.toNat % 16 = b.toNat := by omega
    simp only [Option.bind_eq_bind, Option.bind_some, hbyte, UInt8.ofNat_toNat]

/-- Different bytes are encoded differently. -/
theorem hexEncode_inj {a b : Bytes} (h : hexEncode a = hexEncode b) : a = b := by
  have hdecoded := hexDecode_hexEncode a
  rw [h, hexDecode_hexEncode] at hdecoded
  exact (Option.some.inj hdecoded).symm

end Stormnetboot.Common

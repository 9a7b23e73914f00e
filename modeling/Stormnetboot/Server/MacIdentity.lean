import Mathlib.Computability.RegularExpressions
import Stormnetboot.Common.Program
import Stormnetboot.Common.Words
import Stormnetboot.Server.Mac

/-!
# The identity of a MAC

A spelling is accepted for what stands in it, hexadecimal digits and separators, and for the
number of its digits; the MAC it names is given by the digits alone. The pattern of the custom
resource only lets such spellings through.
-/

namespace Stormnetboot.Server

open Stormnetboot.Common

/-- The ASCII hexadecimal digits. -/
def hexDigits : List Char :=
  "0123456789abcdefABCDEF".toList

/-- The characters that may stand anywhere in a MAC. -/
def separators : List Char :=
  ":-._ ".toList

/-- Only these digits have a value. -/
theorem hexDigit_isSome_iff (c : Char) : (hexDigit c).isSome ↔ c ∈ hexDigits := by
  constructor
  · intro h
    rw [← Char.ofNat_toNat c]
    simp only [hexDigit] at h
    split_ifs at h with hdecimal hlower hupper
    · obtain ⟨hlow, hhigh⟩ := hdecimal
      interval_cases c.toNat <;> decide
    · obtain ⟨hlow, hhigh⟩ := hlower
      interval_cases c.toNat <;> decide
    · obtain ⟨hlow, hhigh⟩ := hupper
      interval_cases c.toNat <;> decide
    · cases h
  · have hall : ∀ c ∈ hexDigits, (hexDigit c).isSome := by decide
    exact hall c

/-- The values of the digits in a text, in order. -/
def digitValues (s : Text) : List ℕ :=
  s.filterMap hexDigit

/-- The digits of two texts are those of both. -/
theorem digitValues_append (s t : Text) : digitValues (s ++ t) = digitValues s ++ digitValues t :=
  List.filterMap_append

/-- A digit's value is below sixteen. -/
theorem lt_of_mem_digitValues {s : Text} {d : ℕ} (h : d ∈ digitValues s) : d < 16 := by
  obtain ⟨c, -, hc⟩ := List.mem_filterMap.mp h
  exact (hexDigit_some hc).1

/-- The digits of a text, without what stands between them. -/
def digitsOf (s : Text) : Text :=
  s.filter fun c => c ∈ hexDigits

/-- Written in lower case they are the digits of their values. -/
theorem toAsciiLowercase_digitsOf (s : Text) :
    toAsciiLowercase (digitsOf s) = (digitValues s).map Nat.digitChar := by
  induction s with
  | nil => rfl
  | cons c cs ih =>
    unfold toAsciiLowercase digitsOf digitValues at ih ⊢
    rw [List.filter_cons, List.filterMap_cons]
    cases hvalue : hexDigit c with
    | none =>
      have hc : c ∉ hexDigits := fun hmem => by
        rw [← hexDigit_isSome_iff, hvalue] at hmem
        cases hmem
      rw [if_neg (by simpa using hc), ih]
    | some d =>
      have hc : c ∈ hexDigits := (hexDigit_isSome_iff c).mp (hvalue ▸ rfl)
      rw [if_pos (by simpa using hc), List.map_cons, List.map_cons, ih, (hexDigit_some hvalue).2]

/-- Two texts have the same digits up to case exactly when these have the same values. -/
theorem digitValues_eq_iff (s t : Text) :
    digitValues s = digitValues t ↔
      toAsciiLowercase (digitsOf s) = toAsciiLowercase (digitsOf t) := by
  rw [toAsciiLowercase_digitsOf, toAsciiLowercase_digitsOf]
  constructor
  · exact fun h => congrArg _ h
  · intro h
    have hread : ∀ s : Text, ((digitValues s).map Nat.digitChar).map hexDigit =
        (digitValues s).map some := fun s => by
      rw [List.map_map]
      exact List.map_congr_left fun d hd => hexDigit_digitChar d (lt_of_mem_digitValues hd)
    have hsome := congrArg (List.map hexDigit) h
    rw [hread, hread] at hsome
    exact List.map_injective_iff.mpr (Option.some_injective ℕ) hsome

namespace Mac

/-- The half bytes of a MAC, the high half first. -/
def nibbles (mac : Mac) : List ℕ :=
  mac.octets.toList.flatMap fun octet => [octet.toNat / 16, octet.toNat % 16]

/-- A MAC is its half bytes. -/
theorem nibbles_injective : Function.Injective nibbles := by
  intro m n h
  have hhex : ∀ mac : Mac, (nibbles mac).map Nat.digitChar = hexEncode mac.octets.toList :=
    fun mac => by rw [nibbles, List.map_flatMap]; rfl
  have hoctets := hexEncode_inj ((hhex m).symm.trans ((congrArg _ h).trans (hhex n)))
  obtain ⟨octets⟩ := m
  exact congrArg Mac.mk (Vector.toList_inj.mp hoctets)

/-- A MAC has twelve digits. -/
theorem length_nibbles (mac : Mac) : mac.nibbles.length = 12 := by
  rw [nibbles, List.length_flatMap]
  simp

/-! ## The loop -/

/-- The digits stored from a position on, as far as there is room. -/
def store (nibbles : Vector UInt8 12) (seen : ℕ) : List ℕ → Vector UInt8 12
  | [] => nibbles
  | d :: ds =>
    store (if h : seen < 12 then nibbles.set seen (UInt8.ofNat d) else nibbles) (seen + 1) ds

/-- Each digit stands at its position, and the other places keep what they had. -/
theorem getElem_store (nibbles : Vector UInt8 12) (seen : ℕ) (ds : List ℕ) (i : ℕ) (hi : i < 12) :
    (store nibbles seen ds)[i] =
      if seen ≤ i then (ds[i - seen]?.map UInt8.ofNat).getD nibbles[i] else nibbles[i] := by
  induction ds generalizing nibbles seen with
  | nil => simp [store]
  | cons d ds ih =>
    rw [store, ih]
    rcases Nat.lt_trichotomy seen i with hlt | rfl | hgt
    · have hsub : i - seen = (i - (seen + 1)) + 1 := by omega
      rw [if_pos (by omega), if_pos (by omega), hsub, List.getElem?_cons_succ,
        dif_pos (by omega), Vector.getElem_set_ne _ _ (by omega)]
    · rw [if_neg (by omega), if_pos le_rfl, dif_pos hi, Vector.getElem_set_self]
      simp
    · rw [if_neg (by omega), if_neg (by omega)]
      split_ifs with hroom
      · rw [Vector.getElem_set_ne _ _ (by omega)]
      · rfl

/-- A separator is one of the listed characters. -/
theorem isSeparator_iff (c : Char) : isSeparator c = true ↔ c ∈ separators := by
  simp [isSeparator, separators]
  tauto

/-- A separator is passed over. -/
theorem parseChar_separator {c : Char} (h : c ∈ separators) (acc : Vector UInt8 12 × ℕ) :
    parseChar acc c = .ok acc := by
  rw [parseChar, if_pos ((isSeparator_iff c).mpr h)]

/-- A digit is stored and counted. -/
theorem parseChar_digit {c : Char} {d : ℕ} (h : hexDigit c = some d)
    (acc : Vector UInt8 12 × ℕ) :
    parseChar acc c = .ok (store acc.1 acc.2 [d], acc.2 + 1) := by
  have hc : isSeparator c = false := by
    have hdisjoint : ∀ c ∈ hexDigits, isSeparator c = false := by decide
    exact hdisjoint c ((hexDigit_isSome_iff c).mp (h ▸ rfl))
  unfold parseChar
  rw [hc, h]
  simp only [Bool.false_eq_true, if_false, store]
  split_ifs <;> rfl

/-- Anything else is refused. -/
theorem parseChar_other {c : Char} (hdigit : c ∉ hexDigits) (hseparator : c ∉ separators)
    (acc : Vector UInt8 12 × ℕ) : parseChar acc c = .error (.notHex c) := by
  have hnone : hexDigit c = none := by
    rw [← Option.not_isSome_iff_eq_none, hexDigit_isSome_iff]
    exact hdigit
  rw [parseChar, if_neg fun h => hseparator ((isSeparator_iff c).mp h), hnone]

/-- What the loop takes is digits and separators, and it stores the digits. -/
theorem foldlM_parseChar_eq_ok_iff (s : Text) (acc result : Vector UInt8 12 × ℕ) :
    s.foldlM parseChar acc = .ok result ↔
      (∀ c ∈ s, c ∈ hexDigits ∨ c ∈ separators) ∧
        result = (store acc.1 acc.2 (digitValues s), acc.2 + (digitValues s).length) := by
  induction s generalizing acc with
  | nil =>
    constructor
    · exact fun h => ⟨fun c hc => (nomatch hc), (Except.ok.inj h).symm⟩
    · exact fun h => h.2 ▸ rfl
  | cons c cs ih =>
    rw [List.foldlM_cons, List.forall_mem_cons]
    by_cases hdigit : c ∈ hexDigits
    · obtain ⟨d, hd⟩ := Option.isSome_iff_exists.mp ((hexDigit_isSome_iff c).mpr hdigit)
      have hvalues : digitValues (c :: cs) = d :: digitValues cs := List.filterMap_cons_some hd
      rw [parseChar_digit hd, and_iff_right (Or.inl hdigit), hvalues]
      exact (ih _).trans (by rw [List.length_cons, store, store, store, Nat.add_right_comm]; rfl)
    · have hnone : hexDigit c = none := by
        rw [← Option.not_isSome_iff_eq_none, hexDigit_isSome_iff]
        exact hdigit
      have hvalues : digitValues (c :: cs) = digitValues cs := List.filterMap_cons_none hnone
      by_cases hseparator : c ∈ separators
      · rw [parseChar_separator hseparator, and_iff_right (Or.inr hseparator), hvalues]
        exact ih acc
      · rw [parseChar_other hdigit hseparator]
        exact iff_of_false (fun h => nomatch h) fun h => (h.1.1.elim hdigit hseparator).elim

/-- The high digit of an octet is one of the twelve. -/
theorem high_lt (i : Fin 6) : 2 * i.val < 12 := by omega

/-- So is the low digit. -/
theorem low_lt (i : Fin 6) : 2 * i.val + 1 < 12 := by omega

/-- The MAC of twelve stored digits. -/
def pack (nibbles : Vector UInt8 12) : Mac :=
  ⟨Vector.ofFn fun i =>
    (nibbles.get ⟨2 * i.val, high_lt i⟩ <<< 4) ||| nibbles.get ⟨2 * i.val + 1, low_lt i⟩⟩

/-- A byte packed from two digits has them as its halves. -/
theorem halves_pack (a b : ℕ) (ha : a < 16) (hb : b < 16) :
    ((UInt8.ofNat a <<< 4) ||| UInt8.ofNat b).toNat = 16 * a + b := by
  have hall : ∀ a b : Fin 16, ((UInt8.ofNat a.val <<< 4) ||| UInt8.ofNat b.val).toNat =
      16 * a.val + b.val := by decide
  exact hall ⟨a, ha⟩ ⟨b, hb⟩

/-- Twelve digits are the half bytes of the MAC they are packed into. -/
theorem nibbles_pack (ds : List ℕ) (hlength : ds.length = 12) (hds : ∀ d ∈ ds, d < 16) :
    (pack (store (Vector.replicate 12 0) 0 ds)).nibbles = ds := by
  have hhalves : ∀ (i : ℕ) (hi : i < 6),
      ((store (Vector.replicate 12 0) 0 ds)[2 * i] <<< 4 |||
        (store (Vector.replicate 12 0) 0 ds)[2 * i + 1]).toNat = 16 * ds[2 * i] + ds[2 * i + 1] := by
    intro i hi
    rw [getElem_store, getElem_store, if_pos (Nat.zero_le _), if_pos (Nat.zero_le _), Nat.sub_zero,
      Nat.sub_zero, List.getElem?_eq_getElem (by omega), List.getElem?_eq_getElem (by omega)]
    exact halves_pack _ _ (hds _ (List.getElem_mem _)) (hds _ (List.getElem_mem _))
  have hpair : ∀ (i : ℕ) (hi : i < 6),
      [((store (Vector.replicate 12 0) 0 ds)[2 * i] <<< 4 |||
          (store (Vector.replicate 12 0) 0 ds)[2 * i + 1]).toNat / 16,
        ((store (Vector.replicate 12 0) 0 ds)[2 * i] <<< 4 |||
          (store (Vector.replicate 12 0) 0 ds)[2 * i + 1]).toNat % 16] =
        [ds[2 * i], ds[2 * i + 1]] := by
    intro i hi
    have hlow : ds[2 * i + 1] < 16 := hds _ (List.getElem_mem _)
    rw [hhalves i hi, Nat.mul_add_div (by decide), Nat.div_eq_of_lt hlow, Nat.mul_add_mod,
      Nat.mod_eq_of_lt hlow, Nat.add_zero]
  have hbytes : (pack (store (Vector.replicate 12 0) 0 ds)).nibbles =
      (List.ofFn fun i : Fin 6 => [ds[2 * i.val], ds[2 * i.val + 1]]).flatten := by
    rw [nibbles, pack, Vector.toList_ofFn, List.flatMap_def, List.map_ofFn]
    congr 2
    funext i
    exact hpair i.val i.isLt
  have hpairs : (List.ofFn fun i : Fin 6 => [ds[2 * i.val], ds[2 * i.val + 1]]).flatten =
      List.ofFn fun i : Fin (2 * 6) => ds[i.val] := by
    rw [List.ofFn_mul']
    rfl
  rw [hbytes, hpairs]
  exact List.ext_getElem (by rw [List.length_ofFn, hlength]) fun i _ _ => List.getElem_ofFn ..

/-- What is accepted, and what it is read as. -/
theorem parse_eq_ok_iff (s : Text) (mac : Mac) :
    parse s = .ok mac ↔
      (∀ c ∈ s, c ∈ hexDigits ∨ c ∈ separators) ∧ digitValues s = mac.nibbles := by
  have hloop : parse s = .ok mac ↔ ∃ acc, s.foldlM parseChar (Vector.replicate 12 0, 0) = .ok acc ∧
      acc.2 = 12 ∧ pack acc.1 = mac := by
    unfold parse
    rw [except_bind_eq_ok]
    refine exists_congr fun ⟨nibbles, seen⟩ => and_congr_right fun _ => ?_
    simp only
    split_ifs with hlength
    · exact iff_of_false (fun h => nomatch h) fun h => hlength h.1
    · rw [Except.ok.injEq, and_iff_right (not_not.mp hlength)]
      rfl
  rw [hloop]
  constructor
  · rintro ⟨acc, hacc, hlength, rfl⟩
    obtain ⟨hchars, rfl⟩ := (foldlM_parseChar_eq_ok_iff ..).mp hacc
    refine ⟨hchars, (nibbles_pack _ ?_ fun d hd => lt_of_mem_digitValues hd).symm⟩
    rwa [Nat.zero_add] at hlength
  · rintro ⟨hchars, hvalues⟩
    have hlength : (digitValues s).length = 12 := by rw [hvalues, length_nibbles]
    refine ⟨_, (foldlM_parseChar_eq_ok_iff ..).mpr ⟨hchars, rfl⟩, by rw [Nat.zero_add, hlength], ?_⟩
    apply nibbles_injective
    rw [nibbles_pack _ hlength fun d hd => lt_of_mem_digitValues hd, hvalues]

/-- A spelling is accepted as some MAC when it has twelve digits. -/
theorem exists_parse_eq_ok_iff (s : Text) :
    (∃ mac, parse s = .ok mac) ↔
      (∀ c ∈ s, c ∈ hexDigits ∨ c ∈ separators) ∧ (digitValues s).length = 12 := by
  constructor
  · rintro ⟨mac, hmac⟩
    obtain ⟨hchars, hvalues⟩ := (parse_eq_ok_iff ..).mp hmac
    exact ⟨hchars, by rw [hvalues, length_nibbles]⟩
  · rintro ⟨hchars, hlength⟩
    refine ⟨_, (parse_eq_ok_iff ..).mpr ⟨hchars, (nibbles_pack _ hlength ?_).symm⟩⟩
    exact fun d hd => lt_of_mem_digitValues hd

/-! ## The printed form -/

/-- Joining with a text that has no digits joins the digits. -/
theorem digitValues_joinWith {separator : Text} (hseparator : digitValues separator = [])
    (parts : List Text) : digitValues (joinWith separator parts) = parts.flatMap digitValues := by
  induction parts with
  | nil => rfl
  | cons part rest ih =>
    cases rest with
    | nil => rw [joinWith_singleton, List.flatMap_singleton]
    | cons next rest =>
      rw [joinWith_cons_next, digitValues_append, digitValues_append, hseparator, List.nil_append, ih]
      rfl

/-- A printed byte has the digits of its halves. -/
theorem digitValues_hexEncode (octet : UInt8) :
    digitValues (hexEncode [octet]) = [octet.toNat / 16, octet.toNat % 16] := by
  have hlt := octet.toNat_lt
  change digitValues [Nat.digitChar (octet.toNat / 16), Nat.digitChar (octet.toNat % 16)] = _
  rw [digitValues, List.filterMap_cons_some (hexDigit_digitChar _ (by omega)),
    List.filterMap_cons_some (hexDigit_digitChar _ (by omega)), List.filterMap_nil]

/-- What is printed is read back. -/
theorem parse_display (mac : Mac) : parse mac.display = .ok mac := by
  refine (parse_eq_ok_iff ..).mpr ⟨fun c hc => ?_, ?_⟩
  · rcases mem_joinWith hc with hcolon | ⟨part, hpart, hmem⟩
    · have hseparators : ∀ c ∈ ":".toList, c ∈ separators := by decide
      exact .inr (hseparators c hcolon)
    · obtain ⟨octet, -, rfl⟩ := List.mem_map.mp hpart
      obtain ⟨n, hn, rfl⟩ := exists_of_mem_hexEncode hmem
      exact .inl ((hexDigit_isSome_iff _).mp (by rw [hexDigit_digitChar n hn]; rfl))
  · rw [display, digitValues_joinWith (by decide), List.flatMap_map, nibbles]
    congr 1
    funext octet
    exact digitValues_hexEncode octet

end Mac

/-! ## The pattern of the custom resource -/

/-- One of these characters. -/
def charClass (chars : List Char) : RegularExpression Char :=
  (chars.map RegularExpression.char).foldr (· + ·) 0

/-- A class matches the texts of one of its characters. -/
theorem mem_charClass_iff (chars : List Char) (s : Text) :
    s ∈ (charClass chars).matches' ↔ ∃ c ∈ chars, s = [c] := by
  induction chars with
  | nil => exact iff_of_false (fun h => h) fun ⟨_, hc, _⟩ => nomatch hc
  | cons c rest ih =>
    change s ∈ ({[c]} : Language Char) + (charClass rest).matches' ↔ _
    rw [Language.mem_add, ih, List.exists_mem_cons_iff]
    rfl

/-- The pattern of `bootMACAddress`: `^([0-9a-fA-F]{2}[:-]){5}[0-9a-fA-F]{2}$`. -/
def bootMacAddressPattern : RegularExpression Char :=
  (charClass hexDigits ^ 2 * charClass [':', '-']) ^ 5 * charClass hexDigits ^ 2

/-- Every word of the language is made of a MAC's characters and has so many digits. -/
def Spells (count : ℕ) (language : Language Char) : Prop :=
  ∀ s ∈ language, (∀ c ∈ s, c ∈ hexDigits ∨ c ∈ separators) ∧ (digitValues s).length = count

/-- Two languages that spell some digits spell them one after the other. -/
theorem Spells.mul {m n : ℕ} {first second : Language Char} (hfirst : Spells m first)
    (hsecond : Spells n second) : Spells (m + n) (first * second) := by
  intro s hs
  obtain ⟨a, ha, b, hb, rfl⟩ := Language.mem_mul.mp hs
  obtain ⟨hcharsA, hlengthA⟩ := hfirst a ha
  obtain ⟨hcharsB, hlengthB⟩ := hsecond b hb
  refine ⟨fun c hc => (List.mem_append.mp hc).elim (hcharsA c) (hcharsB c), ?_⟩
  rw [digitValues_append, List.length_append, hlengthA, hlengthB]

/-- A repetition spells as many times the digits. -/
theorem Spells.pow {m : ℕ} {language : Language Char} (h : Spells m language) (n : ℕ) :
    Spells (m * n) (language ^ n) := by
  induction n with
  | zero =>
    intro s hs
    rw [pow_zero, Language.mem_one] at hs
    rw [hs]
    exact ⟨fun c hc => (nomatch hc), rfl⟩
  | succ n ih =>
    rw [pow_succ, Nat.mul_succ]
    exact ih.mul h

/-- A hex digit spells one digit. -/
theorem spells_hexDigits : Spells 1 (charClass hexDigits).matches' := by
  intro s hs
  obtain ⟨c, hc, rfl⟩ := (mem_charClass_iff ..).mp hs
  obtain ⟨d, hd⟩ := Option.isSome_iff_exists.mp ((hexDigit_isSome_iff c).mpr hc)
  refine ⟨fun c' hc' => .inl (List.mem_singleton.mp hc' ▸ hc), ?_⟩
  rw [digitValues, List.filterMap_cons_some hd]
  rfl

/-- A separator spells none. -/
theorem spells_separators : Spells 0 (charClass [':', '-']).matches' := by
  intro s hs
  obtain ⟨c, hc, rfl⟩ := (mem_charClass_iff ..).mp hs
  have hall : ∀ c ∈ [':', '-'], c ∈ separators ∧ digitValues [c] = [] := by decide
  obtain ⟨hseparator, hvalue⟩ := hall c hc
  exact ⟨fun c' hc' => .inr (List.mem_singleton.mp hc' ▸ hseparator), by rw [hvalue]; rfl⟩

/-- A word of the pattern has twelve digits. -/
theorem spells_bootMacAddressPattern : Spells 12 bootMacAddressPattern.matches' := by
  have hoctet := spells_hexDigits.pow 2
  rw [bootMacAddressPattern, RegularExpression.matches'_mul, RegularExpression.matches'_pow,
    RegularExpression.matches'_mul, RegularExpression.matches'_pow]
  exact ((hoctet.mul spells_separators).pow 5).mul hoctet

/-- A text is the spelling of a MAC exactly when it has the MAC's digits and nothing but
separators besides; so two spellings are of one MAC when their digits agree up to case, a printed
MAC is read back, and what the pattern lets through is accepted. -/
theorem mac_identity :
    (∀ s mac, Mac.parse s = .ok mac ↔
      (∀ c ∈ s, c ∈ hexDigits ∨ c ∈ separators) ∧ digitValues s = mac.nibbles) ∧
    (∀ s t m n, Mac.parse s = .ok m → Mac.parse t = .ok n →
      (m = n ↔ toAsciiLowercase (digitsOf s) = toAsciiLowercase (digitsOf t))) ∧
    (∀ mac : Mac, Mac.parse mac.display = .ok mac) ∧
    ∀ s ∈ bootMacAddressPattern.matches', ∃ mac, Mac.parse s = .ok mac := by
  refine ⟨Mac.parse_eq_ok_iff, fun s t m n hs ht => ?_, Mac.parse_display, fun s hs => ?_⟩
  · rw [← digitValues_eq_iff, ((Mac.parse_eq_ok_iff ..).mp hs).2,
      ((Mac.parse_eq_ok_iff ..).mp ht).2, Mac.nibbles_injective.eq_iff]
  · exact (Mac.exists_parse_eq_ok_iff s).mpr (spells_bootMacAddressPattern s hs)

end Stormnetboot.Server

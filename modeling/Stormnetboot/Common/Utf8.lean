import Stormnetboot.Common.Hex

/-!
# Text as bytes

A file holds bytes, and is read as text where they are UTF-8. What is written as text is read back
as it was.
-/

namespace Stormnetboot.Common

/-- `String::from_utf8`: the text some bytes are read as; none where they are not UTF-8. -/
def utf8Decode (bytes : Bytes) : Option Text :=
  bytes.toByteArray.utf8Decode?.map Array.toList

/-- What is written as text is read back as it was. -/
theorem utf8Decode_utf8Encode (s : Text) : utf8Decode (utf8Encode s) = some s := by
  have hbytes : (utf8Encode s).toByteArray = s.utf8Encode := rfl
  rw [utf8Decode, hbytes, List.utf8Decode?_utf8Encode, Option.map_some]

/-! ## Characters of one byte -/

/-- Every character is one byte. -/
def Narrow (s : Text) : Prop :=
  ∀ c ∈ s, c.utf8Size = 1

/-- Whether every character is one byte is decided on the text. -/
instance (s : Text) : Decidable (Narrow s) :=
  inferInstanceAs (Decidable (∀ c ∈ s, c.utf8Size = 1))

/-- Some of the characters of a narrow text make a narrow text. -/
theorem Narrow.mono {s t : Text} (h : Narrow s) (hsub : t ⊆ s) : Narrow t :=
  fun c hc => h c (hsub hc)

/-- Two narrow texts make a narrow text. -/
theorem Narrow.append {s t : Text} (hs : Narrow s) (ht : Narrow t) : Narrow (s ++ t) :=
  fun c hc => (List.mem_append.mp hc).elim (hs c) (ht c)

/-- Such a text can be cut anywhere. -/
theorem Narrow.isSome_takeBytes {s : Text} (hs : Narrow s) {n : ℕ} (hn : n ≤ utf8Len s) :
    (takeBytes n s).isSome := by
  induction s generalizing n with
  | nil =>
    obtain rfl := Nat.le_zero.mp hn
    rfl
  | cons c cs ih =>
    cases n with
    | zero => rfl
    | succ n =>
      have hc : c.utf8Size = 1 := hs c List.mem_cons_self
      have hrest : n ≤ utf8Len cs := by
        rw [utf8Len, List.map_cons, List.sum_cons, hc, Nat.add_comm 1] at hn
        exact Nat.le_of_succ_le_succ hn
      rw [takeBytes, hc, if_pos (Nat.le_add_left 1 n), Option.isSome_map]
      exact ih (hs.mono (List.subset_cons_self ..)) hrest

/-- The first bytes of such a text are a text. -/
theorem Narrow.exists_start {s : Text} (hs : Narrow s) {part : Bytes}
    (hpart : part <+: utf8Encode s) : ∃ start, start <+: s ∧ part = utf8Encode start := by
  induction s generalizing part with
  | nil => exact ⟨[], List.prefix_rfl, List.prefix_nil.mp hpart⟩
  | cons c cs ih =>
    have hlength : (String.utf8EncodeChar c).length = 1 := by
      rw [String.length_utf8EncodeChar]
      exact hs c List.mem_cons_self
    obtain ⟨byte, hbyte⟩ := List.length_eq_one_iff.mp hlength
    have hcons (t : Text) : utf8Encode (c :: t) = byte :: utf8Encode t := by
      rw [utf8Encode, List.flatMap_cons, hbyte]
      rfl
    rw [hcons] at hpart
    cases part with
    | nil => exact ⟨[], List.nil_prefix, rfl⟩
    | cons b rest =>
      obtain ⟨rfl, hrest⟩ := List.cons_prefix_cons.mp hpart
      obtain ⟨start, hstart, rfl⟩ := ih (hs.mono (List.subset_cons_self ..)) hrest
      exact ⟨c :: start, (List.prefix_cons_inj c).mpr hstart, (hcons start).symm⟩

/-! ## Lines of bytes -/

section Parts

variable {α : Type} [DecidableEq α]

/-- The first of the parts with something before it. -/
def prependFirst (a : List α) : List (List α) → List (List α)
  | [] => [a]
  | part :: rest => (a ++ part) :: rest

/-- What has no separator is put before the first part. -/
theorem splitInclusive_append_of_notMem (separator : α) {a : List α} (b : List α) (hne : a ≠ [])
    (h : separator ∉ a) :
    splitInclusive separator (a ++ b) = prependFirst a (splitInclusive separator b) := by
  induction a with
  | nil => exact absurd rfl hne
  | cons c cs ih =>
    have hc : c ≠ separator := fun heq => h (heq ▸ List.mem_cons_self)
    have hrest : splitInclusive separator (cs ++ b) =
        if cs = [] then splitInclusive separator b
        else prependFirst cs (splitInclusive separator b) := by
      split_ifs with hcs
      · rw [hcs, List.nil_append]
      · exact ih hcs fun hmem => h (List.mem_cons_of_mem _ hmem)
    rw [List.cons_append, splitInclusive, if_neg hc, hrest]
    split_ifs with hcs
    · subst hcs
      cases splitInclusive separator b <;> rfl
    · cases splitInclusive separator b <;> rfl

/-- Pieces are put together to the parts they make up: a part ends with the piece that ends with
the separator. -/
def piecesByPart (separator : α) : List (List α) → List (List (List α))
  | [] => []
  | piece :: rest =>
    if piece.getLast? = some separator then [piece] :: piecesByPart separator rest
    else prependFirst [piece] (piecesByPart separator rest)

/-- No piece is lost. -/
theorem flatten_piecesByPart (separator : α) (pieces : List (List α)) :
    (piecesByPart separator pieces).flatten = pieces := by
  induction pieces with
  | nil => rfl
  | cons piece rest ih =>
    have hfirst : (prependFirst [piece] (piecesByPart separator rest)).flatten =
        piece :: (piecesByPart separator rest).flatten := by
      cases piecesByPart separator rest <;> rfl
    rw [piecesByPart]
    split_ifs
    · rw [List.flatten_cons, ih, List.singleton_append]
    · rw [hfirst, ih]

/-- Pieces that each end with the separator are parts of their own. -/
theorem piecesByPart_append_of_ended (separator : α) {ended : List (List α)}
    (h : ∀ piece ∈ ended, piece.getLast? = some separator) (rest : List (List α)) :
    piecesByPart separator (ended ++ rest) =
      ended.map (fun piece => [piece]) ++ piecesByPart separator rest := by
  induction ended with
  | nil => rfl
  | cons piece pieces ih =>
    rw [List.cons_append, piecesByPart, if_pos (h piece List.mem_cons_self),
      ih fun p hp => h p (List.mem_cons_of_mem _ hp)]
    rfl

/-- A part of a list is not empty. -/
theorem ne_nil_of_mem_splitInclusive {separator : α} {s part : List α}
    (h : part ∈ splitInclusive separator s) : part ≠ [] := by
  induction s generalizing part with
  | nil => cases h
  | cons c cs ih =>
    rw [splitInclusive] at h
    split_ifs at h
    · rcases List.mem_cons.mp h with rfl | hmem
      · exact List.cons_ne_nil _ _
      · exact ih hmem
    · cases hsplit : splitInclusive separator cs with
      | nil =>
        rw [hsplit] at h
        exact List.mem_singleton.mp h ▸ List.cons_ne_nil _ _
      | cons first rest =>
        rw [hsplit] at h
        rcases List.mem_cons.mp h with rfl | hmem
        · exact List.cons_ne_nil _ _
        · exact ih (hsplit ▸ List.mem_cons_of_mem _ hmem)

/-- The parts of a list make up the list. -/
theorem flatten_splitInclusive (separator : α) (s : List α) :
    (splitInclusive separator s).flatten = s := by
  induction s with
  | nil => rfl
  | cons c cs ih =>
    rw [splitInclusive]
    split_ifs
    · rw [List.flatten_cons, ih, List.singleton_append]
    · refine Eq.trans ?_ (congrArg (c :: ·) ih)
      cases splitInclusive separator cs <;> rfl

/-- So do the parts of its portions. -/
theorem flatten_flatMap_splitInclusive (separator : α) (portions : List (List α)) :
    (portions.flatMap (splitInclusive separator)).flatten = portions.flatten := by
  induction portions with
  | nil => rfl
  | cons portion rest ih =>
    rw [List.flatMap_cons, List.flatten_append, ih, flatten_splitInclusive, List.flatten_cons]

/-- All parts but the last end with the separator. -/
theorem exists_ended_of_splitInclusive (separator : α) (s : List α) :
    ∃ ended last, splitInclusive separator s = ended ++ last ∧ last.length ≤ 1 ∧
      ∀ part ∈ ended, part.getLast? = some separator := by
  induction s with
  | nil => exact ⟨[], [], rfl, Nat.zero_le _, fun _ h => absurd h List.not_mem_nil⟩
  | cons c cs ih =>
    obtain ⟨ended, last, hsplit, hlast, hended⟩ := ih
    have hne : ∀ part ∈ splitInclusive separator cs, part ≠ [] :=
      fun _ h => ne_nil_of_mem_splitInclusive h
    rw [splitInclusive, hsplit]
    rw [hsplit] at hne
    split_ifs with hc
    · refine ⟨[c] :: ended, last, rfl, hlast, List.forall_mem_cons.mpr ⟨?_, hended⟩⟩
      rw [hc, List.getLast?_singleton]
    · cases ended with
      | nil =>
        cases last with
        | nil => exact ⟨[], [[c]], rfl, le_rfl, hended⟩
        | cons part rest => exact ⟨[], (c :: part) :: rest, rfl, hlast, hended⟩
      | cons part rest =>
        obtain ⟨hpart, hrest⟩ := List.forall_mem_cons.mp hended
        refine ⟨(c :: part) :: rest, last, rfl, hlast, List.forall_mem_cons.mpr ⟨?_, hrest⟩⟩
        rw [List.getLast?_cons_of_ne_nil (hne part List.mem_cons_self), hpart]

/-- What is split behind whole parts makes up parts of one piece each. -/
theorem piecesByPart_append_splitInclusive (separator : α) {whole : List (List α)}
    (h : ∀ piece ∈ whole, piece.getLast? = some separator) (s : List α) :
    piecesByPart separator (whole ++ splitInclusive separator s) =
      (whole ++ splitInclusive separator s).map fun piece => [piece] := by
  obtain ⟨ended, last, hsplit, hlast, hended⟩ := exists_ended_of_splitInclusive separator s
  have hone : piecesByPart separator last = last.map fun piece => [piece] := by
    match last, hlast with
    | [], _ => rfl
    | [piece], _ =>
      rw [piecesByPart]
      split_ifs <;> rfl
  have hboth : ∀ piece ∈ whole ++ ended, piece.getLast? = some separator :=
    fun piece hp => (List.mem_append.mp hp).elim (h piece) (hended piece)
  rw [hsplit, ← List.append_assoc, piecesByPart_append_of_ended separator hboth, hone,
    ← List.map_append]

/-- The parts of what ends with the separator end with it. -/
theorem getLast?_of_mem_splitInclusive {separator : α} {s part : List α}
    (hs : s.getLast? = some separator) (h : part ∈ splitInclusive separator s) :
    part.getLast? = some separator := by
  induction s generalizing part with
  | nil => cases h
  | cons c cs ih =>
    have hrest : cs ≠ [] → cs.getLast? = some separator := by
      intro hne
      rwa [List.getLast?_cons_of_ne_nil hne] at hs
    rw [splitInclusive] at h
    split_ifs at h with hc
    · rcases List.mem_cons.mp h with rfl | hmem
      · rw [hc, List.getLast?_singleton]
      · exact ih (hrest fun hnil => by rw [hnil] at hmem; cases hmem) hmem
    · cases hsplit : splitInclusive separator cs with
      | nil =>
        rw [hsplit] at h
        obtain rfl := List.mem_singleton.mp h
        have hnil : cs = [] := by rw [← flatten_splitInclusive separator cs, hsplit]; rfl
        rw [hnil, List.getLast?_singleton] at hs
        exact absurd (Option.some.inj hs) hc
      | cons first rest =>
        have hne : cs ≠ [] := fun hnil => by rw [hnil] at hsplit; cases hsplit
        rw [hsplit] at h
        rcases List.mem_cons.mp h with rfl | hmem
        · have hfirst : first ∈ splitInclusive separator cs := hsplit ▸ List.mem_cons_self
          rw [List.getLast?_cons_of_ne_nil (ne_nil_of_mem_splitInclusive hfirst)]
          exact ih (hrest hne) hfirst
        · exact ih (hrest hne) (hsplit ▸ List.mem_cons_of_mem _ hmem)

/-- What is split in portions is, put together, split as the whole. -/
theorem map_flatten_piecesByPart (separator : α) (portions : List (List α)) :
    (piecesByPart separator (portions.flatMap (splitInclusive separator))).map List.flatten =
      splitInclusive separator portions.flatten := by
  have hpieces : ∀ pieces : List (List α),
      (∀ piece ∈ pieces, piece ≠ [] ∧
        ∃ a, separator ∉ a ∧ (piece = a ∨ piece = a ++ [separator])) →
      (piecesByPart separator pieces).map List.flatten = splitInclusive separator pieces.flatten := by
    intro pieces h
    induction pieces with
    | nil => rfl
    | cons piece rest ih =>
      have hrest := ih fun p hp => h p (List.mem_cons_of_mem _ hp)
      obtain ⟨hne, a, ha, hpiece⟩ := h piece List.mem_cons_self
      rw [piecesByPart, List.flatten_cons]
      rcases hpiece with rfl | rfl
      · have hopen : piece.getLast? ≠ some separator := fun heq =>
          ha (List.mem_of_getLast? heq)
        rw [if_neg hopen, splitInclusive_append_of_notMem separator _ hne ha, ← hrest]
        cases piecesByPart separator rest <;> simp [prependFirst]
      · rw [if_pos (List.getLast?_concat ..), splitInclusive_append separator _ _
          (.inr (List.getLast?_concat ..)), splitInclusive_singleton separator a ha, ← hrest]
        simp
  rw [← flatten_flatMap_splitInclusive separator portions]
  refine hpieces _ fun piece hpiece => ?_
  obtain ⟨portion, -, hmem⟩ := List.mem_flatMap.mp hpiece
  exact ⟨ne_nil_of_mem_splitInclusive hmem, exists_of_mem_splitInclusive hmem⟩

end Parts

/-- Only a newline has the byte of a newline: every byte of a longer encoding has its high bit
set. -/
theorem newline_notMem_utf8EncodeChar {c : Char} (h : c ≠ '\n') :
    (10 : UInt8) ∉ String.utf8EncodeChar c := by
  have hcode : c.val.toNat ≠ 10 := fun heq => h (Char.toNat_inj.mp heq)
  have hbyte : ∀ n, n < 256 → n ≠ 10 → (10 : UInt8) ≠ UInt8.ofNat n := by
    intro n hlt hne heq
    have hnat := congrArg UInt8.toNat heq
    rw [UInt8.toNat_ofNat_of_lt' hlt] at hnat
    exact hne hnat.symm
  unfold String.utf8EncodeChar
  simp only
  split_ifs with hone htwo hthree
  · simpa using hbyte _ (by omega) hcode
  · simp only [List.mem_cons, List.not_mem_nil, or_false, not_or]
    exact ⟨hbyte _ (by omega) (by omega), hbyte _ (by omega) (by omega)⟩
  · simp only [List.mem_cons, List.not_mem_nil, or_false, not_or]
    exact ⟨hbyte _ (by omega) (by omega), hbyte _ (by omega) (by omega),
      hbyte _ (by omega) (by omega)⟩
  · simp only [List.mem_cons, List.not_mem_nil, or_false, not_or]
    exact ⟨hbyte _ (by omega) (by omega), hbyte _ (by omega) (by omega),
      hbyte _ (by omega) (by omega), hbyte _ (by omega) (by omega)⟩

/-- The lines of a text's bytes are the bytes of its lines. -/
theorem splitInclusive_utf8Encode (s : Text) :
    splitInclusive 10 (utf8Encode s) = (splitInclusive '\n' s).map utf8Encode := by
  induction s with
  | nil => rfl
  | cons c cs ih =>
    have hbytes : utf8Encode (c :: cs) = String.utf8EncodeChar c ++ utf8Encode cs :=
      List.flatMap_cons
    rw [hbytes]
    by_cases hc : c = '\n'
    · have hnewline : String.utf8EncodeChar c = [] ++ [10] := by rw [hc]; decide
      rw [hnewline, splitInclusive_append 10 _ _ (.inr rfl), ih, splitInclusive, if_pos hc,
        List.map_cons, hc]
      rfl
    · have hsplit : splitInclusive '\n' (c :: cs) = prependFirst [c] (splitInclusive '\n' cs) :=
        splitInclusive_append_of_notMem '\n' (a := [c]) cs (List.cons_ne_nil _ _)
          (by simpa using Ne.symm hc)
      have hne : String.utf8EncodeChar c ≠ [] := by
        rw [← List.length_pos_iff, String.length_utf8EncodeChar]
        exact c.utf8Size_pos
      have hchar : utf8Encode [c] = String.utf8EncodeChar c := List.flatMap_singleton ..
      rw [splitInclusive_append_of_notMem 10 _ hne (newline_notMem_utf8EncodeChar hc), ih, hsplit]
      cases splitInclusive '\n' cs with
      | nil => simp [prependFirst, hchar]
      | cons part rest => simp [prependFirst, utf8Encode]

end Stormnetboot.Common

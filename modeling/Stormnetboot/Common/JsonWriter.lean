import Stormnetboot.Common.Json
import Stormnetboot.Common.JsonUnique

/-!
# Written JSON

A value is written without blanks, and of a string what may not stand in it as it is is escaped.
The text stands for the value it was written from and for no other, by the rules of the grammar:
blanks may stand nowhere in it, a string ends at its closing quote, and a number at the first
character that no number holds.
-/

namespace Stormnetboot.Common

open JsonGrammar JsonText

namespace Json

/-- What holds of the parts of a value holds of every value. -/
theorem induction {motive : Json → Prop} (null : motive .null) (bool : ∀ b, motive (.bool b))
    (num : ∀ n, motive (.num n)) (str : ∀ s, motive (.str s))
    (arr : ∀ items, (∀ item ∈ items, motive item) → motive (.arr items))
    (obj : ∀ members, (∀ m ∈ members, motive m.2) → motive (.obj members)) (value : Json) :
    motive value := by
  match value with
  | .null => exact null
  | .bool b => exact bool b
  | .num n => exact num n
  | .str s => exact str s
  | .arr items => exact arr items fun item hitem => induction null bool num str arr obj item
  | .obj members =>
    exact obj members fun m hm => induction null bool num str arr obj m.2
termination_by sizeOf value
decreasing_by
  · have := List.sizeOf_lt_of_mem hitem
    simp only [Json.arr.sizeOf_spec]
    omega
  · have hlt := List.sizeOf_lt_of_mem hm
    have hsnd : sizeOf m.2 < sizeOf m := by
      cases m
      simp only [Prod.mk.sizeOf_spec]
      omega
    simp only [Json.obj.sizeOf_spec]
    omega

/-! ## The writer -/

/-- A character of a string. -/
def charText (c : Char) : Text :=
  match c with
  | '"' => "\\\"".toList
  | '\\' => "\\\\".toList
  | '\x08' => "\\b".toList
  | '\x0c' => "\\f".toList
  | '\n' => "\\n".toList
  | '\r' => "\\r".toList
  | '\t' => "\\t".toList
  | c => if c.toNat < 0x20 then "\\u00".toList ++ hexEncode [UInt8.ofNat c.toNat] else [c]

/-- What stands between the quotes of a string. -/
def contents (s : Text) : Text :=
  s.flatMap charText

/-- A string. -/
def strText (s : Text) : Text :=
  '"' :: (contents s ++ ['"'])

/-- An integer. -/
def intText : ℤ → Text
  | .ofNat n => natText n
  | .negSucc n => '-' :: natText (n + 1)

mutual

/-- A value. -/
def text : Json → Text
  | .null => "null".toList
  | .bool b => if b then "true".toList else "false".toList
  | .num n => intText n
  | .str s => strText s
  | .arr items => '[' :: (itemsText items ++ [']'])
  | .obj members => '\x7b' :: (membersText members ++ ['\x7d'])
termination_by structural value => value

/-- The items of an array. -/
def itemsText : List Json → Text
  | [] => []
  | item :: rest => text item ++ moreItems rest
termination_by structural items => items

/-- The items after the first. -/
def moreItems : List Json → Text
  | [] => []
  | item :: rest => ',' :: (text item ++ moreItems rest)
termination_by structural items => items

/-- The members of an object. -/
def membersText : List (Text × Json) → Text
  | [] => []
  | m :: rest => memberText m ++ moreMembers rest
termination_by structural members => members

/-- The members after the first. -/
def moreMembers : List (Text × Json) → Text
  | [] => []
  | m :: rest => ',' :: (memberText m ++ moreMembers rest)
termination_by structural members => members

/-- A member, its name before its value. -/
def memberText : Text × Json → Text
  | (name, value) => strText name ++ ':' :: text value
termination_by structural m => m

end

mutual

/-- What the text of a value stands for. -/
def tree : Json → Tree
  | .null => .null
  | .bool b => .bool b
  | .num n => .number (intText n)
  | .str s => .string (utf16 s)
  | .arr items => .array (trees items)
  | .obj members => .object (memberTrees members)
termination_by structural value => value

/-- The trees of the items of an array. -/
def trees : List Json → List Tree
  | [] => []
  | item :: rest => tree item :: trees rest
termination_by structural items => items

/-- The trees of the members of an object. -/
def memberTrees : List (Text × Json) → List (List ℕ × Tree)
  | [] => []
  | m :: rest => memberTree m :: memberTrees rest
termination_by structural members => members

/-- The tree of one member, under the code units of its name. -/
def memberTree : Text × Json → List ℕ × Tree
  | (name, value) => (utf16 name, tree value)
termination_by structural m => m

end

end Json

namespace JsonGrammar

/-! ## Strings -/

/-- An escape is derived as the character it stands for. -/
theorem characters_escape_iff {e c : Char} (hescape : (e, c) ∈ escapes) (text rest : Text)
    (units : List ℕ) : Characters ('\\' :: e :: text) units rest ↔
      ∃ units', units = utf16Char c ++ units' ∧ Characters text units' rest := by
  constructor
  · intro h
    generalize hs : '\\' :: e :: text = s at h
    cases h with
    | close => exact absurd (List.cons.inj hs).1 (by decide)
    | unescaped hplain _ => exact absurd (List.cons.inj hs).1.symm ((unescaped_iff _).mp hplain).2.1
    | @escaped e' c' text' _ units hescape' hmore =>
      obtain ⟨rfl, rfl⟩ := List.cons.inj (List.cons.inj hs).2
      have hsame : c' = c :=
        Option.some.inj ((lookup_escapes hescape').symm.trans (lookup_escapes hescape))
      exact ⟨units, by rw [hsame], hmore⟩
    | unicode _ _ =>
      obtain ⟨rfl, -⟩ := List.cons.inj (List.cons.inj hs).2
      have hnone : escapes.lookup 'u' = none := by decide
      exact absurd ((lookup_escapes hescape).symm.trans hnone) (by simp)
  · rintro ⟨units', rfl, hmore⟩
    exact .escaped hescape hmore

/-- A character that needs no escape is derived as itself. -/
theorem characters_plain_iff {c : Char} (hplain : Unescaped c) (text rest : Text)
    (units : List ℕ) : Characters (c :: text) units rest ↔
      ∃ units', units = utf16Char c ++ units' ∧ Characters text units' rest := by
  obtain ⟨hquote, hbackslash, -⟩ := (unescaped_iff c).mp hplain
  constructor
  · intro h
    generalize hs : c :: text = s at h
    cases h with
    | close => exact absurd (List.cons.inj hs).1 hquote
    | unescaped _ hmore =>
      obtain ⟨rfl, rfl⟩ := List.cons.inj hs
      exact ⟨_, rfl, hmore⟩
    | escaped _ _ => exact absurd (List.cons.inj hs).1 hbackslash
    | unicode _ _ => exact absurd (List.cons.inj hs).1 hbackslash
  · rintro ⟨units', rfl, hmore⟩
    exact .unescaped hplain hmore

/-- Four digits are derived as the code unit they write. -/
theorem characters_unicode_iff {a b c d : Char} {high low : UInt8}
    (hdigits : hexDecode [a, b, c, d] = some [high, low]) (text rest : Text) (units : List ℕ) :
    Characters ('\\' :: 'u' :: a :: b :: c :: d :: text) units rest ↔
      ∃ units', units = (256 * high.toNat + low.toNat) :: units' ∧ Characters text units' rest := by
  constructor
  · intro h
    generalize hs : '\\' :: 'u' :: a :: b :: c :: d :: text = s at h
    cases h with
    | close => exact absurd (List.cons.inj hs).1 (by decide)
    | unescaped hplain _ => exact absurd (List.cons.inj hs).1.symm ((unescaped_iff _).mp hplain).2.1
    | escaped hescape _ =>
      obtain ⟨rfl, -⟩ := List.cons.inj (List.cons.inj hs).2
      have hnone : escapes.lookup 'u' = none := by decide
      exact absurd ((lookup_escapes hescape).symm.trans hnone) (by simp)
    | unicode hdigits' hmore =>
      simp only [List.cons.injEq, true_and] at hs
      obtain ⟨rfl, rfl, rfl, rfl, rfl⟩ := hs
      rw [hdigits] at hdigits'
      simp only [Option.some.injEq, List.cons.injEq, and_true] at hdigits'
      obtain ⟨rfl, rfl⟩ := hdigits'
      exact ⟨_, rfl, hmore⟩
  · rintro ⟨units', rfl, hmore⟩
    exact .unicode hdigits hmore

/-- A written character is derived as that character. -/
theorem characters_charText_iff (c : Char) (text rest : Text) (units : List ℕ) :
    Characters (Json.charText c ++ text) units rest ↔
      ∃ units', units = utf16Char c ++ units' ∧ Characters text units' rest := by
  unfold Json.charText
  split
  iterate 7 exact characters_escape_iff (by decide) text rest units
  rename_i hquote hbackslash _ _ _ _ _
  split_ifs with hcontrol
  · -- The control characters without an escape of their own are those of one byte.
    have hbyte : (UInt8.ofNat c.toNat).toNat = c.toNat := by
      rw [UInt8.toNat_ofNat']
      omega
    have hunit : utf16Char c = [256 * (0 : UInt8).toNat + (UInt8.ofNat c.toNat).toNat] := by
      rw [utf16Char, if_pos (by omega), hbyte]
      simp
    rw [hunit]
    exact characters_unicode_iff (hexDecode_hexEncode [0, UInt8.ofNat c.toNat]) text rest units
  · have hplain : Unescaped c := by
      rw [unescaped_iff]
      exact ⟨fun h => hquote h, fun h => hbackslash h, by omega⟩
    exact characters_plain_iff hplain text rest units

/-- The contents of a written string are derived up to its closing quote. -/
theorem characters_contents_iff (s text rest : Text) (units : List ℕ) :
    Characters (Json.contents s ++ '"' :: text) units rest ↔ units = utf16 s ∧ rest = text := by
  induction s generalizing units with
  | nil =>
    constructor
    · intro h
      generalize hs : Json.contents [] ++ '"' :: text = t at h
      cases h with
      | close => exact ⟨rfl, (List.cons.inj hs).2.symm⟩
      | unescaped hplain _ => exact absurd (List.cons.inj hs).1.symm ((unescaped_iff _).mp hplain).1
      | escaped _ _ => exact absurd (List.cons.inj hs).1 (by decide)
      | unicode _ _ => exact absurd (List.cons.inj hs).1 (by decide)
    · rintro ⟨rfl, rfl⟩
      exact .close
  | cons c s ih =>
    have htext : Json.contents (c :: s) ++ '"' :: text =
        Json.charText c ++ (Json.contents s ++ '"' :: text) := by
      simp [Json.contents]
    rw [htext, characters_charText_iff]
    constructor
    · rintro ⟨units', rfl, h⟩
      obtain ⟨rfl, rfl⟩ := (ih _).mp h
      exact ⟨rfl, rfl⟩
    · rintro ⟨rfl, rfl⟩
      exact ⟨utf16 s, rfl, (ih _).mpr ⟨rfl, rfl⟩⟩

end JsonGrammar

namespace Json

/-! ## What is written -/

/-- The text of some items is theirs, separated. -/
theorem itemsText_eq (items : List Json) : itemsText items = separatedText text items := by
  have hmore (rest : List Json) : moreItems rest = rest.flatMap fun item => ',' :: text item := by
    induction rest with
    | nil => rfl
    | cons item rest ih => rw [moreItems, ih, List.flatMap_cons, List.cons_append]
  cases items with
  | nil => rfl
  | cons item rest => rw [itemsText, separatedText, hmore]

/-- So is that of some members. -/
theorem membersText_eq (members : List (Text × Json)) :
    membersText members = separatedText memberText members := by
  have hmore (rest : List (Text × Json)) :
      moreMembers rest = rest.flatMap fun m => ',' :: memberText m := by
    induction rest with
    | nil => rfl
    | cons m rest ih => rw [moreMembers, ih, List.flatMap_cons, List.cons_append]
  cases members with
  | nil => rfl
  | cons m rest => rw [membersText, separatedText, hmore]

/-- The trees of items are the items' trees. -/
theorem trees_eq_map (items : List Json) : trees items = items.map tree := by
  induction items with
  | nil => rfl
  | cons item rest ih => rw [trees, ih, List.map_cons]

/-- The trees of members are the members' trees. -/
theorem memberTrees_eq_map (members : List (Text × Json)) :
    memberTrees members = members.map memberTree := by
  induction members with
  | nil => rfl
  | cons m rest ih => rw [memberTrees, ih, List.map_cons]

/-- No number but zero starts with a zero. -/
theorem head?_natText_ne (n : ℕ) (hn : n ≠ 0) : (natText n).head? ≠ some '0' := by
  induction n using Nat.strong_induction_on with
  | _ n ih =>
    unfold natText at ih ⊢
    by_cases hlt : n < 10
    · have hdigits : ∀ n < 10, n ≠ 0 → (Nat.toDigits 10 n).head? ≠ some '0' := by decide
      exact hdigits n hlt hn
    · have hfirst := ih (n / 10) (by omega) (by omega)
      rw [Nat.toDigits_of_base_le (by decide) (not_lt.mp hlt), List.head?_append]
      intro hzero
      rcases Option.or_eq_some_iff.mp hzero with h | ⟨h, -⟩
      · exact hfirst h
      · exact Nat.toDigits_ne_nil (List.head?_eq_none_iff.mp h)

/-- The digits of a number are an integer part. -/
theorem intPart_natText (n : ℕ) : IntPart (natText n) := by
  by_cases h : n = 0
  · exact .inl (by rw [h]; rfl)
  · exact .inr ⟨⟨natText_ne_nil n, natText_isDigit n⟩, head?_natText_ne n h⟩

/-- An integer is written as a number. -/
theorem number_intText (n : ℤ) : Number (intText n) := by
  cases n with
  | ofNat n =>
    exact ⟨[], natText n, [], [], by simp [intText], by decide, intPart_natText n, .inl rfl, .inl rfl⟩
  | negSucc n =>
    exact ⟨['-'], natText (n + 1), [], [], by simp [intText], by decide, intPart_natText (n + 1),
      .inl rfl, .inl rfl⟩

/-- A digit opens a value. -/
theorem opens_of_isDigit {c : Char} (h : c.isDigit = true) : Opens c := by
  have hall : ∀ c ∈ [' ', '\t', '\n', '\r', ',', ':', ']', '\x7d'], c.isDigit = false := by decide
  exact fun hmem => absurd h (by rw [hall c hmem]; decide)

/-- An integer is derived up to where no number goes on. -/
theorem writes_num (n : ℤ) : Writes Value (intText n) (.number (intText n)) where
  opens := by
    cases n with
    | ofNat n =>
      obtain ⟨c, rest, htext⟩ := List.exists_cons_of_ne_nil (natText_ne_nil n)
      exact ⟨c, rest, htext, opens_of_isDigit (natText_isDigit n c (htext ▸ List.mem_cons_self))⟩
    | negSucc n => exact ⟨'-', natText (n + 1), rfl, by unfold Opens; decide⟩
  derives rest := .number (number_intText n)
  unique other rest last hrest _ hlast h := by
    obtain ⟨c, digits, htext, hc⟩ := (number_intText n).head
    have hopens : Opens c := by
      rcases hc with rfl | hdigit
      · unfold Opens
        decide
      · exact opens_of_isDigit hdigit
    rw [htext, List.cons_append] at h
    have hselect := h.select (hopens.tight _)
    rw [ruleOf_number hc] at hselect
    obtain ⟨lexeme, rfl, hlexeme, htext'⟩ := hselect
    rw [← List.cons_append, ← htext] at htext'
    obtain ⟨hsame, hrests⟩ := append_inj_of_ends (number_intText n).numberChar hlexeme.numberChar
      hrest hlast htext'
    exact ⟨by rw [hsame], hrests.symm⟩

/-- A string is derived up to its closing quote. -/
theorem writes_str (s : Text) : Writes Value (strText s) (.string (utf16 s)) where
  opens := ⟨'"', _, rfl, by unfold Opens; decide⟩
  derives rest := by
    rw [strText, List.cons_append, List.append_assoc]
    exact .string ((characters_contents_iff s rest rest _).mpr ⟨rfl, rfl⟩)
  unique other rest last _ _ _ h := by
    rw [strText, List.cons_append, List.append_assoc] at h
    obtain ⟨units, rfl, hcharacters⟩ := h.select (by rintro c ⟨⟩; decide)
    obtain ⟨rfl, rfl⟩ := (characters_contents_iff s rest last units).mp hcharacters
    exact ⟨rfl, rfl⟩

/-- A member is, if its value is. -/
theorem writes_member {m : Text × Json} (h : Writes Value m.2.text m.2.tree) :
    Writes Member (memberText m) (memberTree m) := by
  obtain ⟨name, value⟩ := m
  have htext (rest : Text) : memberText (name, value) ++ rest =
      '"' :: (contents name ++ '"' :: ':' :: (value.text ++ rest)) := by
    simp [memberText, strText]
  refine ⟨⟨'"', _, rfl, by unfold Opens; decide⟩, fun rest => ?_,
    fun other rest last hrest htight hlast hm => ?_⟩
  · rw [htext]
    exact .pair ((characters_contents_iff name _ _ _).mpr ⟨rfl, rfl⟩) (token_cons ..) (h.derives rest)
  · rw [htext] at hm
    generalize hs : '"' :: (contents name ++ '"' :: ':' :: (value.text ++ rest)) = s at hm
    obtain ⟨hname, hcolon, hvalue⟩ := hm
    obtain ⟨-, rfl⟩ := List.cons.inj hs
    obtain ⟨rfl, rfl⟩ := (characters_contents_iff ..).mp hname
    obtain ⟨-, rfl⟩ := hcolon.eq_of_tight (by rintro c ⟨⟩; decide) (h.tight rest)
    obtain ⟨rfl, rfl⟩ := h.unique _ _ _ hrest htight hlast hvalue
    exact ⟨rfl, rfl⟩

/-- The null literal is written as the grammar has it. -/
theorem writes_null : Writes Value "null".toList .null where
  opens := ⟨'n', "ull".toList, rfl, by unfold Opens; decide⟩
  derives rest := .null
  unique other rest last _ _ _ h := by
    obtain ⟨rfl, htext⟩ := Value.select (c := 'n') (by rintro c ⟨⟩; decide) h
    exact ⟨rfl, (List.append_cancel_left htext).symm⟩

/-- So are the two truth values. -/
theorem writes_bool (b : Bool) :
    Writes Value (if b then "true".toList else "false".toList) (.bool b) where
  opens := by
    cases b with
    | true => exact ⟨'t', "rue".toList, rfl, by unfold Opens; decide⟩
    | false => exact ⟨'f', "alse".toList, rfl, by unfold Opens; decide⟩
  derives rest := .bool
  unique other rest last _ _ _ h := by
    cases b with
    | true =>
      obtain ⟨rfl, htext⟩ := Value.select (c := 't') (by rintro c ⟨⟩; decide) h
      exact ⟨rfl, (List.append_cancel_left htext).symm⟩
    | false =>
      obtain ⟨rfl, htext⟩ := Value.select (c := 'f') (by rintro c ⟨⟩; decide) h
      exact ⟨rfl, (List.append_cancel_left htext).symm⟩

/-- An array is derived, if its items are. -/
theorem writes_arr {items : List Json} (h : ∀ item ∈ items, Writes Value item.text item.tree) :
    Writes Value (text (.arr items)) (tree (.arr items)) := by
  have htext (rest : Text) : text (.arr items) ++ rest =
      '[' :: (separatedText text items ++ ']' :: rest) := by
    rw [text, itemsText_eq, List.cons_append, List.append_assoc, List.singleton_append]
  have hclose : ∀ rest, Tight (']' :: rest) := fun rest => by
    rintro c ⟨⟩
    decide
  have hinside (rest : Text) : Tight (separatedText text items ++ ']' :: rest) := by
    cases items with
    | nil => exact hclose rest
    | cons item more =>
      rw [separatedText, List.append_assoc]
      exact (h item List.mem_cons_self).tight _
  rw [tree, trees_eq_map]
  refine ⟨⟨'[', _, by rw [text], by unfold Opens; decide⟩, fun rest => ?_,
    fun other rest last _ htight _ hvalue => ?_⟩
  · rw [htext]
    exact .array (token_cons ..)
      (elements_iff_separated.mpr (separated_separatedText items h _)) (token_cons ..)
  · rw [htext] at hvalue
    obtain ⟨first, others, after, rfl, hblanks, hitems, htoken⟩ :=
      hvalue.select (by rintro c ⟨⟩; decide)
    obtain rfl := hblanks.eq_of_tight (hinside rest)
    obtain ⟨rfl, rfl⟩ := separated_unique (by unfold NumberChar; decide) (by decide)
      (by unfold Opens; decide) h
      (fun rest a last hvalue => hvalue.select (hclose rest)) hclose htight
      (elements_iff_separated.mp hitems) htoken
    exact ⟨rfl, rfl⟩

/-- An object is, if its members are. -/
theorem writes_obj {members : List (Text × Json)}
    (h : ∀ m ∈ members, Writes Member (memberText m) (memberTree m)) :
    Writes Value (text (.obj members)) (tree (.obj members)) := by
  have htext (rest : Text) : text (.obj members) ++ rest =
      '\x7b' :: (separatedText memberText members ++ '\x7d' :: rest) := by
    rw [text, membersText_eq, List.cons_append, List.append_assoc, List.singleton_append]
  have hclose : ∀ rest, Tight ('\x7d' :: rest) := fun rest => by
    rintro c ⟨⟩
    decide
  have hinside (rest : Text) : Tight (separatedText memberText members ++ '\x7d' :: rest) := by
    cases members with
    | nil => exact hclose rest
    | cons m more =>
      rw [separatedText, List.append_assoc]
      exact (h m List.mem_cons_self).tight _
  rw [tree, memberTrees_eq_map]
  refine ⟨⟨'\x7b', _, by rw [text], by unfold Opens; decide⟩, fun rest => ?_,
    fun other rest last _ htight _ hvalue => ?_⟩
  · rw [htext]
    exact .object (token_cons ..)
      (members_iff_separated.mpr (separated_separatedText members h _)) (token_cons ..)
  · rw [htext] at hvalue
    obtain ⟨first, others, after, rfl, hblanks, hmembers, htoken⟩ :=
      hvalue.select (by rintro c ⟨⟩; decide)
    obtain rfl := hblanks.eq_of_tight (hinside rest)
    obtain ⟨rfl, rfl⟩ := separated_unique (by unfold NumberChar; decide) (by decide)
      (by unfold Opens; decide) h
      (fun rest a last hmember => by cases hmember) hclose htight
      (members_iff_separated.mp hmembers) htoken
    exact ⟨rfl, rfl⟩

/-- So is every value. -/
theorem writes_text (value : Json) : Writes Value value.text value.tree := by
  induction value using Json.induction with
  | null => exact writes_null
  | bool b => exact writes_bool b
  | num n => exact writes_num n
  | str s => exact writes_str s
  | arr items ih => exact writes_arr ih
  | obj members ih => exact writes_obj fun m hm => writes_member (ih m hm)

/-- The text of a value is a document that stands for it, and for nothing else. -/
theorem document_text_iff (value : Json) (tree : Tree) :
    Document value.text tree ↔ tree = value.tree := by
  have hwrites := writes_text value
  have hnil : EndsNumber [] := fun c hc => by cases hc
  constructor
  · rintro ⟨first, last, hbefore, hvalue, hafter⟩
    obtain rfl := hbefore.eq_of_tight (by simpa using hwrites.tight [])
    exact (hwrites.unique tree [] last hnil (fun c hc => by cases hc) hafter.endsNumber
      (by rwa [List.append_nil])).1
  · rintro rfl
    exact ⟨value.text, [], .none, by simpa using hwrites.derives [], .none⟩

end Json

end Stormnetboot.Common

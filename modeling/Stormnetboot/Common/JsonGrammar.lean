import Stormnetboot.Common.Hex
import Stormnetboot.Common.JsonText

/-!
# The JSON grammar

The rules of RFC 8259, each as a relation between a text, the value at its front and what is left
of the text. A string stands for UTF-16 code units, since an escape may name half of a surrogate
pair, and a number is kept as it is written. The text of an object of strings derives that object
and no other value.
-/

namespace Stormnetboot.Common

namespace JsonGrammar

open JsonText

/-- What a text of the grammar stands for. -/
inductive Tree where
  | null
  | bool (b : Bool)
  | number (lexeme : Text)
  | string (units : List ℕ)
  | array (items : List Tree)
  | object (members : List (List ℕ × Tree))

/-! ## Code units -/

/-- The UTF-16 code units of a character. -/
def utf16Char (c : Char) : List ℕ :=
  if c.toNat < 0x10000 then [c.toNat]
  else [0xd800 + (c.toNat - 0x10000) / 0x400, 0xdc00 + (c.toNat - 0x10000) % 0x400]

/-- The code units of a text. -/
def utf16 (s : Text) : List ℕ :=
  s.flatMap utf16Char

/-- No character has the number of a surrogate. -/
theorem toNat_lt_or_gt (c : Char) : c.toNat < 0xd800 ∨ 0xdfff < c.toNat ∧ c.toNat < 0x110000 :=
  c.valid

/-- The units of a text tell its first character from the rest. -/
theorem utf16Char_append_inj {c d : Char} {units units' : List ℕ}
    (h : utf16Char c ++ units = utf16Char d ++ units') : c = d ∧ units = units' := by
  have hc := toNat_lt_or_gt c
  have hd := toNat_lt_or_gt d
  have hchar (heq : c.toNat = d.toNat) : c = d := Char.ext (UInt32.toNat_inj.mp heq)
  unfold utf16Char at h
  split_ifs at h with hsmall hsmall' hsmall'
  · obtain ⟨hfirst, hrest⟩ := List.cons.inj h
    exact ⟨hchar hfirst, hrest⟩
  · -- A character below the surrogates or between them and 0x10000 is no leading surrogate.
    have hfirst := (List.cons.inj h).1
    omega
  · have hfirst := (List.cons.inj h).1
    omega
  · obtain ⟨hfirst, hsecond⟩ := List.cons.inj h
    obtain ⟨hsecond, hrest⟩ := List.cons.inj hsecond
    exact ⟨hchar (by omega), hrest⟩

/-- A text is known from its code units. -/
theorem utf16_injective : Function.Injective utf16 := by
  intro s t h
  induction s generalizing t with
  | nil =>
    cases t with
    | nil => rfl
    | cons d t =>
      have hnil : utf16Char d = [] := (List.append_eq_nil_iff.mp h.symm).1
      unfold utf16Char at hnil
      split_ifs at hnil
  | cons c s ih =>
    cases t with
    | nil =>
      have hnil : utf16Char c = [] := (List.append_eq_nil_iff.mp h).1
      unfold utf16Char at hnil
      split_ifs at hnil
    | cons d t =>
      obtain ⟨rfl, hrest⟩ := utf16Char_append_inj h
      rw [ih hrest]

/-! ## The rules -/

/-- `ws = *( %x20 / %x09 / %x0A / %x0D )` -/
inductive Blanks : Text → Text → Prop where
  | none {text : Text} : Blanks text text
  | more {c : Char} {text rest : Text} (hblank : c ∈ [' ', '\t', '\n', '\r'])
      (hmore : Blanks text rest) : Blanks (c :: text) rest

/-- A structural character, `ws` on both sides. -/
def Token (c : Char) (text rest : Text) : Prop :=
  ∃ after, Blanks text (c :: after) ∧ Blanks after rest

/-- `unescaped = %x20-21 / %x23-5B / %x5D-10FFFF` -/
def Unescaped (c : Char) : Prop :=
  0x20 ≤ c.toNat ∧ c.toNat ≤ 0x21 ∨ 0x23 ≤ c.toNat ∧ c.toNat ≤ 0x5b ∨
    0x5d ≤ c.toNat ∧ c.toNat ≤ 0x10ffff

/-- `*char quotation-mark`, what follows the opening quotation mark of a string. -/
inductive Characters : Text → List ℕ → Text → Prop where
  | close {rest : Text} : Characters ('"' :: rest) [] rest
  | unescaped {c : Char} {text rest : Text} {units : List ℕ} (hplain : Unescaped c)
      (hmore : Characters text units rest) : Characters (c :: text) (utf16Char c ++ units) rest
  | escaped {e c : Char} {text rest : Text} {units : List ℕ} (hescape : (e, c) ∈ escapes)
      (hmore : Characters text units rest) :
      Characters ('\\' :: e :: text) (utf16Char c ++ units) rest
  | unicode {a b c d : Char} {high low : UInt8} {text rest : Text} {units : List ℕ}
      (hdigits : hexDecode [a, b, c, d] = some [high, low])
      (hmore : Characters text units rest) :
      Characters ('\\' :: 'u' :: a :: b :: c :: d :: text)
        ((256 * high.toNat + low.toNat) :: units) rest

/-- `1*DIGIT` -/
def Digits (s : Text) : Prop :=
  s ≠ [] ∧ ∀ c ∈ s, c.isDigit = true

/-- `int = zero / ( digit1-9 *DIGIT )` -/
def IntPart (s : Text) : Prop :=
  s = ['0'] ∨ Digits s ∧ s.head? ≠ some '0'

/-- `frac = decimal-point 1*DIGIT` -/
def FracPart (s : Text) : Prop :=
  ∃ digits, s = '.' :: digits ∧ Digits digits

/-- `exp = e [ minus / plus ] 1*DIGIT` -/
def ExpPart (s : Text) : Prop :=
  ∃ e sign digits, s = e :: (sign ++ digits) ∧ e ∈ ['e', 'E'] ∧ sign ∈ [[], ['-'], ['+']] ∧
    Digits digits

/-- `number = [ minus ] int [ frac ] [ exp ]` -/
def Number (s : Text) : Prop :=
  ∃ minus int frac exp, s = minus ++ int ++ frac ++ exp ∧ minus ∈ [[], ['-']] ∧ IntPart int ∧
    (frac = [] ∨ FracPart frac) ∧ (exp = [] ∨ ExpPart exp)

mutual

/-- `value = false / null / true / object / array / number / string` -/
inductive Value : Text → Tree → Text → Prop where
  | null {rest : Text} : Value ("null".toList ++ rest) .null rest
  | bool {b : Bool} {rest : Text} :
      Value ((if b then "true".toList else "false".toList) ++ rest) (.bool b) rest
  | number {lexeme rest : Text} (hnumber : Number lexeme) :
      Value (lexeme ++ rest) (.number lexeme) rest
  | string {text rest : Text} {units : List ℕ} (hcharacters : Characters text units rest) :
      Value ('"' :: text) (.string units) rest
  | array {text first last rest : Text} {items : List Tree} (hopen : Token '[' text first)
      (hitems : Elements first items last) (hclose : Token ']' last rest) :
      Value text (.array items) rest
  | object {text first last rest : Text} {members : List (List ℕ × Tree)}
      (hopen : Token '\x7b' text first) (hmembers : Members first members last)
      (hclose : Token '\x7d' last rest) : Value text (.object members) rest

/-- `[ value *( value-separator value ) ]` -/
inductive Elements : Text → List Tree → Text → Prop where
  | none {text : Text} : Elements text [] text
  | last {text rest : Text} {item : Tree} (hitem : Value text item rest) :
      Elements text [item] rest
  | more {text after next rest : Text} {item item' : Tree} {items : List Tree}
      (hitem : Value text item after) (hcomma : Token ',' after next)
      (hmore : Elements next (item' :: items) rest) : Elements text (item :: item' :: items) rest

/-- `[ member *( value-separator member ) ]` -/
inductive Members : Text → List (List ℕ × Tree) → Text → Prop where
  | none {text : Text} : Members text [] text
  | last {text rest : Text} {member : List ℕ × Tree} (hmember : Member text member rest) :
      Members text [member] rest
  | more {text after next rest : Text} {member member' : List ℕ × Tree}
      {members : List (List ℕ × Tree)} (hmember : Member text member after)
      (hcomma : Token ',' after next) (hmore : Members next (member' :: members) rest) :
      Members text (member :: member' :: members) rest

/-- `member = string name-separator value` -/
inductive Member : Text → List ℕ × Tree → Text → Prop where
  | pair {text after next rest : Text} {name : List ℕ} {value : Tree}
      (hname : Characters text name after) (hcolon : Token ':' after next)
      (hvalue : Value next value rest) : Member ('"' :: text) (name, value) rest

end

/-- `JSON-text = ws value ws` -/
def Document (text : Text) (value : Tree) : Prop :=
  ∃ first last, Blanks text first ∧ Value first value last ∧ Blanks last []

/-! ## What a text can derive -/

/-- No blank stands at the front. -/
def Tight (text : Text) : Prop :=
  ∀ c ∈ text.head?, c ∉ [' ', '\t', '\n', '\r']

/-- There are no blanks to skip in front of what is no blank. -/
theorem Blanks.eq_of_tight {text rest : Text} (h : Blanks text rest) (htight : Tight text) :
    rest = text := by
  cases h with
  | none => rfl
  | more hblank _ => exact absurd hblank (htight _ rfl)

/-- A structural character at the front of a text without blanks. -/
theorem Token.cons_of_tight {c d : Char} {text rest : Text} (h : Token c (d :: text) rest)
    (hfirst : Tight (d :: text)) : d = c ∧ Blanks text rest := by
  obtain ⟨after, hbefore, hafter⟩ := h
  obtain ⟨rfl, rfl⟩ := List.cons.inj (hbefore.eq_of_tight hfirst)
  exact ⟨rfl, hafter⟩

/-- Between texts without blanks, it is the one that stands there. -/
theorem Token.eq_of_tight {c d : Char} {text rest : Text} (h : Token c (d :: text) rest)
    (hfirst : Tight (d :: text)) (htext : Tight text) : d = c ∧ rest = text := by
  obtain ⟨rfl, hblanks⟩ := h.cons_of_tight hfirst
  exact ⟨rfl, hblanks.eq_of_tight htext⟩

/-- A character is the token of itself. -/
theorem token_cons (c : Char) (text : Text) : Token c (c :: text) text :=
  ⟨text, .none, .none⟩

/-- An unescaped character is neither quote nor backslash nor control character. -/
theorem unescaped_iff (c : Char) :
    Unescaped c ↔ c ≠ '"' ∧ c ≠ '\\' ∧ 0x20 ≤ c.toNat := by
  have hc := toNat_lt_or_gt c
  have hquote : c ≠ '"' ↔ c.toNat ≠ 0x22 := not_congr (Char.toNat_inj (d := '"')).symm
  have hbackslash : c ≠ '\\' ↔ c.toNat ≠ 0x5c := not_congr (Char.toNat_inj (d := '\\')).symm
  rw [hquote, hbackslash, Unescaped]
  omega

/-- What a literal denotes is derived from it, and the quote after it is the closing one. -/
theorem characters_literal_iff {contents value : Text} (hliteral : Literal contents value)
    (text rest : Text) (units : List ℕ) :
    Characters (contents ++ '"' :: text) units rest ↔ units = utf16 value ∧ rest = text := by
  induction hliteral generalizing units with
  | nil =>
    constructor
    · intro h
      generalize hs : [] ++ '"' :: text = s at h
      cases h with
      | close => exact ⟨rfl, (List.cons.inj hs).2.symm⟩
      | unescaped hplain _ => exact absurd (List.cons.inj hs).1.symm ((unescaped_iff _).mp hplain).1
      | escaped _ _ => exact absurd (List.cons.inj hs).1 (by decide)
      | unicode _ _ => exact absurd (List.cons.inj hs).1 (by decide)
    · rintro ⟨rfl, rfl⟩
      exact .close
  | @plain c contents value hquote hbackslash hcontrol _ ih =>
    constructor
    · intro h
      generalize hs : (c :: contents) ++ '"' :: text = s at h
      cases h with
      | close => exact absurd (List.cons.inj hs).1 hquote
      | unescaped _ hmore =>
        obtain ⟨rfl, rfl⟩ := List.cons.inj hs
        obtain ⟨rfl, rfl⟩ := (ih _).mp hmore
        exact ⟨rfl, rfl⟩
      | escaped _ _ => exact absurd (List.cons.inj hs).1 hbackslash
      | unicode _ _ => exact absurd (List.cons.inj hs).1 hbackslash
    · rintro ⟨rfl, rfl⟩
      exact .unescaped ((unescaped_iff c).mpr ⟨hquote, hbackslash, hcontrol⟩)
        ((ih _).mpr ⟨rfl, rfl⟩)
  | @escaped e c contents value hescape _ ih =>
    constructor
    · intro h
      generalize hs : ('\\' :: e :: contents) ++ '"' :: text = s at h
      cases h with
      | close => exact absurd (List.cons.inj hs).1 (by decide)
      | unescaped hplain _ =>
        exact absurd (List.cons.inj hs).1.symm ((unescaped_iff _).mp hplain).2.1
      | @escaped e' c' text' _ units hescape' hmore =>
        obtain ⟨rfl, rfl⟩ := List.cons.inj (List.cons.inj hs).2
        have hsame : c' = c :=
          Option.some.inj ((lookup_escapes hescape').symm.trans (lookup_escapes hescape))
        obtain ⟨rfl, rfl⟩ := (ih _).mp hmore
        exact ⟨by rw [hsame]; rfl, rfl⟩
      | unicode _ _ =>
        -- The one letter that no literal has after a backslash.
        obtain ⟨rfl, -⟩ := List.cons.inj (List.cons.inj hs).2
        have hnone : escapes.lookup 'u' = none := by decide
        exact absurd ((lookup_escapes hescape).symm.trans hnone) (by simp)
    · rintro ⟨rfl, rfl⟩
      exact .escaped hescape ((ih _).mpr ⟨rfl, rfl⟩)

/-! ## Objects of strings -/

/-- A number starts with a minus or a digit. -/
theorem Number.head {s : Text} (h : Number s) : ∃ c rest, s = c :: rest ∧ (c = '-' ∨ c.isDigit) := by
  obtain ⟨minus, int, frac, exp, rfl, hminus, hint, -, -⟩ := h
  have hdigits : ∃ c rest, int = c :: rest ∧ c.isDigit := by
    rcases hint with rfl | ⟨⟨hne, hdigits⟩, -⟩
    · exact ⟨'0', [], rfl, by decide⟩
    · cases int with
      | nil => exact absurd rfl hne
      | cons c rest => exact ⟨c, rest, rfl, hdigits c List.mem_cons_self⟩
  obtain ⟨c, rest, rfl, hdigit⟩ := hdigits
  rcases List.mem_pair.mp hminus with rfl | rfl
  · exact ⟨c, rest ++ frac ++ exp, rfl, .inr hdigit⟩
  · exact ⟨'-', c :: rest ++ frac ++ exp, rfl, .inl rfl⟩

/-- The first character of a value without blanks before it says which rule derives it. -/
theorem Value.cons_cases {c : Char} {text rest : Text} {value : Tree}
    (hfirst : Tight (c :: text)) (h : Value (c :: text) value rest) :
    (c ∈ ['n', 't', 'f', '-', '['] ∨ c.isDigit) ∨
      (c = '"' ∧ ∃ units, value = .string units ∧ Characters text units rest) ∨
      (c = '\x7b' ∧ ∃ first members last, value = .object members ∧ Blanks text first ∧
        Members first members last ∧ Token '\x7d' last rest) := by
  generalize hs : c :: text = s at h
  cases h with
  | null =>
    obtain ⟨rfl, -⟩ := List.cons.inj hs
    exact .inl (.inl (by decide))
  | @bool b rest =>
    cases b with
    | false =>
      obtain ⟨rfl, -⟩ := List.cons.inj hs
      exact .inl (.inl (by decide))
    | true =>
      obtain ⟨rfl, -⟩ := List.cons.inj hs
      exact .inl (.inl (by decide))
  | number hnumber =>
    obtain ⟨d, rest, rfl, hd⟩ := hnumber.head
    obtain ⟨rfl, -⟩ := List.cons.inj hs
    exact .inl (hd.imp_left fun hminus => by simp [hminus])
  | string hcharacters =>
    obtain ⟨rfl, rfl⟩ := List.cons.inj hs
    exact .inr (.inl ⟨rfl, _, rfl, hcharacters⟩)
  | array hopen _ _ =>
    subst hs
    obtain ⟨rfl, -⟩ := hopen.cons_of_tight hfirst
    exact .inl (.inl (by decide))
  | object hopen hmembers hclose =>
    subst hs
    obtain ⟨rfl, hblanks⟩ := hopen.cons_of_tight hfirst
    exact .inr (.inr ⟨rfl, _, _, _, rfl, hblanks, hmembers, hclose⟩)

/-- An object of strings. -/
def stringObject (members : List (Text × Text)) : Tree :=
  .object (members.map fun member => (utf16 member.1, .string (utf16 member.2)))

/-- Different texts are written as different objects. -/
theorem stringObject_injective : Function.Injective stringObject := by
  intro members members' h
  refine List.map_injective_iff.mpr ?_ (Tree.object.inj h)
  intro member member' heq
  obtain ⟨hname, hvalue⟩ := Prod.mk.inj heq
  exact Prod.ext (utf16_injective hname) (utf16_injective (Tree.string.inj hvalue))

section

variable {member value : Text × Text} {members values : List (Text × Text)}

/-- The text of a member derives its name and its value, and ends with it. -/
theorem member_memberText_iff (hdenotes : Denotes member value) (text rest : Text)
    (m : List ℕ × Tree) :
    Member (memberText member ++ text) m rest ↔
      m = (utf16 value.1, .string (utf16 value.2)) ∧ rest = text := by
  have htext : memberText member ++ text =
      '"' :: (member.1 ++ '"' :: ':' :: '"' :: (member.2 ++ '"' :: text)) := by
    simp [memberText]
  have hname := characters_literal_iff hdenotes.1 (':' :: '"' :: (member.2 ++ '"' :: text))
  have hvalue := characters_literal_iff hdenotes.2 text
  rw [htext]
  constructor
  · intro h
    generalize hs : '"' :: (member.1 ++ '"' :: ':' :: '"' :: (member.2 ++ '"' :: text)) = s at h
    obtain ⟨hcharacters, hcolon, hstring⟩ := h
    obtain ⟨-, rfl⟩ := List.cons.inj hs
    obtain ⟨rfl, rfl⟩ := (hname _ _).mp hcharacters
    obtain ⟨-, rfl⟩ := hcolon.eq_of_tight (by rintro c ⟨⟩; decide) (by rintro c ⟨⟩; decide)
    rcases hstring.cons_cases (by rintro c ⟨⟩; decide) with
      hother | ⟨-, units, rfl, hcharacters⟩ | ⟨hbrace, -⟩
    · exact absurd hother (by decide)
    · obtain ⟨rfl, rfl⟩ := (hvalue _ _).mp hcharacters
      exact ⟨rfl, rfl⟩
    · exact absurd hbrace (by decide)
  · rintro ⟨rfl, rfl⟩
    exact .pair ((hname _ _).mpr ⟨rfl, rfl⟩) (token_cons ..)
      (.string ((hvalue _ _).mpr ⟨rfl, rfl⟩))

/-- The members that start with the text of a member: none of them, that one, or more after a
comma. -/
theorem Members.memberText_cases (hdenotes : Denotes member value) {text last : Text}
    {ms : List (List ℕ × Tree)} (h : Members (memberText member ++ text) ms last) :
    (ms = [] ∧ last = memberText member ++ text) ∨
      ∃ ms', ms = (utf16 value.1, .string (utf16 value.2)) :: ms' ∧
        (ms' = [] ∧ last = text ∨ ∃ next, Token ',' text next ∧ Members next ms' last) := by
  generalize hs : memberText member ++ text = s at h
  cases h with
  | none => exact .inl ⟨rfl, rfl⟩
  | last hmember =>
    subst hs
    obtain ⟨rfl, rfl⟩ := (member_memberText_iff hdenotes text _ _).mp hmember
    exact .inr ⟨[], rfl, .inl ⟨rfl, rfl⟩⟩
  | more hmember hcomma hmore =>
    subst hs
    obtain ⟨rfl, rfl⟩ := (member_memberText_iff hdenotes text _ _).mp hmember
    exact .inr ⟨_, rfl, .inr ⟨_, hcomma, hmore⟩⟩

/-- A member starts with its name's quote, so with no blank. -/
theorem tight_memberText (member : Text × Text) (text : Text) :
    Tight (memberText member ++ text) := by
  rintro c ⟨⟩
  decide

/-- The text of some members starts with that of the first. -/
theorem joinWith_memberText (member : Text × Text) (members : List (Text × Text)) (text : Text) :
    ∃ text', joinWith ",".toList ((member :: members).map memberText) ++ text =
      memberText member ++ text' := by
  cases members with
  | nil => exact ⟨text, by rw [joinWith_member]⟩
  | cons next members =>
    exact ⟨_, by rw [joinWith_members_cons, List.append_assoc]⟩

/-- A member is no closing brace. -/
theorem not_token_memberText (member : Text × Text) (text rest : Text) :
    ¬Token '\x7d' (memberText member ++ text) rest := by
  intro h
  obtain ⟨heq, -⟩ := h.cons_of_tight (tight_memberText member text)
  exact absurd heq (by decide)

/-- The text of some members derives them all, up to the closing brace. -/
theorem members_joinWith_iff (hmember : Denotes member value)
    (hmembers : List.Forall₂ Denotes members values) (rest : Text) (ms : List (List ℕ × Tree)) :
    (∃ last, Members (joinWith ",".toList ((member :: members).map memberText) ++ "\x7d".toList)
        ms last ∧ Token '\x7d' last rest) ↔
      .object ms = stringObject (value :: values) ∧ rest = [] := by
  induction hmembers generalizing member value ms with
  | nil =>
    rw [joinWith_member]
    constructor
    · rintro ⟨last, hms, hclose⟩
      rcases hms.memberText_cases hmember with
        ⟨-, rfl⟩ | ⟨ms', rfl, ⟨rfl, rfl⟩ | ⟨next, hcomma, -⟩⟩
      · exact absurd hclose (not_token_memberText member _ _)
      · exact ⟨rfl, (hclose.eq_of_tight (by rintro c ⟨⟩; decide) (by rintro c ⟨⟩)).2⟩
      · exact absurd (hcomma.cons_of_tight (by rintro c ⟨⟩; decide)).1 (by decide)
    · rintro ⟨hms, rfl⟩
      obtain rfl := Tree.object.inj hms
      exact ⟨_, .last ((member_memberText_iff hmember _ _ _).mpr ⟨rfl, rfl⟩), token_cons ..⟩
  | @cons next value' members values hnext hmembers ih =>
    rw [joinWith_members_cons, List.append_assoc, List.append_assoc]
    obtain ⟨text, htext⟩ := joinWith_memberText next members "\x7d".toList
    constructor
    · rintro ⟨last, hms, hclose⟩
      rcases hms.memberText_cases hmember with
        ⟨-, rfl⟩ | ⟨ms', rfl, ⟨rfl, rfl⟩ | ⟨after, hcomma, hmore⟩⟩
      · exact absurd hclose (not_token_memberText member _ _)
      · exact absurd (hclose.cons_of_tight (by rintro c ⟨⟩; decide)).1 (by decide)
      · obtain ⟨-, rfl⟩ := hcomma.eq_of_tight (by rintro c ⟨⟩; decide)
          (by rw [htext]; exact tight_memberText next text)
        obtain ⟨hms', rfl⟩ := (ih hnext ms').mp ⟨last, hmore, hclose⟩
        obtain rfl := Tree.object.inj hms'
        exact ⟨rfl, rfl⟩
    · rintro ⟨hms, rfl⟩
      obtain rfl := Tree.object.inj hms
      obtain ⟨last, hmore, hclose⟩ := (ih hnext _).mpr ⟨rfl, rfl⟩
      exact ⟨last, .more ((member_memberText_iff hmember _ _ _).mpr ⟨rfl, rfl⟩) (token_cons ..)
        hmore, hclose⟩

/-- So does the text between the braces of any object of strings. -/
theorem members_objectText_iff (h : List.Forall₂ Denotes members values) :
    ∃ text, objectText members = '\x7b' :: text ∧ Tight text ∧ ∀ ms rest,
      (∃ last, Members text ms last ∧ Token '\x7d' last rest) ↔
        .object ms = stringObject values ∧ rest = [] := by
  cases h with
  | nil =>
    refine ⟨"\x7d".toList, rfl, by rintro c ⟨⟩; decide, fun ms rest => ⟨?_, ?_⟩⟩
    · rintro ⟨last, hms, hclose⟩
      generalize hs : "\x7d".toList = s at hms
      cases hms with
      | none =>
        subst hs
        exact ⟨rfl, (hclose.eq_of_tight (by rintro c ⟨⟩; decide) (by rintro c ⟨⟩)).2⟩
      | last hmember =>
        cases hmember
        exact absurd (List.cons.inj hs).1 (by decide)
      | more hmember _ _ =>
        cases hmember
        exact absurd (List.cons.inj hs).1 (by decide)
    · rintro ⟨hms, rfl⟩
      obtain rfl := Tree.object.inj hms
      exact ⟨_, .none, token_cons ..⟩
  | @cons member value members values hmember hmembers =>
    obtain ⟨text, htext⟩ := joinWith_memberText member members "\x7d".toList
    refine ⟨joinWith ",".toList ((member :: members).map memberText) ++ "\x7d".toList, rfl,
      by rw [htext]; exact tight_memberText member text, fun ms rest => ?_⟩
    exact members_joinWith_iff hmember hmembers rest ms

/-- The text of an object of strings derives that object, and nothing else. -/
theorem document_objectText_iff (h : List.Forall₂ Denotes members values) (tree : Tree) :
    Document (objectText members) tree ↔ tree = stringObject values := by
  obtain ⟨text, htext, htight, hmembers⟩ := members_objectText_iff h
  have hstart : Tight ('\x7b' :: text) := by
    rintro c ⟨⟩
    decide
  rw [htext]
  constructor
  · rintro ⟨first, last, hbefore, hvalue, -⟩
    obtain rfl := hbefore.eq_of_tight hstart
    rcases hvalue.cons_cases hstart with
      hother | ⟨hquote, -⟩ | ⟨-, inside, ms, close, rfl, hblanks, hms, hclose⟩
    · exact absurd hother (by decide)
    · exact absurd hquote (by decide)
    · obtain rfl := hblanks.eq_of_tight htight
      exact ((hmembers ms last).mp ⟨close, hms, hclose⟩).1
  · rintro rfl
    obtain ⟨close, hms, hclose⟩ := (hmembers _ []).mpr ⟨rfl, rfl⟩
    exact ⟨_, [], .none, .object (token_cons ..) hms hclose, .none⟩

end

end JsonGrammar

end Stormnetboot.Common

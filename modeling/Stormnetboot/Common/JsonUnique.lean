import Stormnetboot.Common.JsonGrammar

/-!
# Texts the grammar reads in one way

A value is derived by the rule of its first character. A number goes on as long as there are
characters it can hold, so it is known where it ends when something else follows, and a list
between commas is known item by item, up to the character that closes it.
-/

namespace Stormnetboot.Common

namespace JsonGrammar

open JsonText

/-! ## Where a value ends -/

/-- A character that a number can hold. -/
def NumberChar (c : Char) : Prop :=
  c.isDigit = true ∨ c ∈ ['-', '+', '.', 'e', 'E']

/-- No number goes on at the front of a text. -/
def EndsNumber (text : Text) : Prop :=
  ∀ c ∈ text.head?, ¬NumberChar c

/-- A character that starts a value. -/
def Opens (c : Char) : Prop :=
  c ∉ [' ', '\t', '\n', '\r', ',', ':', ']', '\x7d']

/-- Runs of characters of a kind, each up to a character of another kind, can be told apart. -/
theorem append_inj_of_ends {P : Char → Prop} {a b s t : Text} (ha : ∀ c ∈ a, P c)
    (hb : ∀ c ∈ b, P c) (hs : ∀ c ∈ s.head?, ¬P c) (ht : ∀ c ∈ t.head?, ¬P c)
    (h : a ++ s = b ++ t) : a = b ∧ s = t := by
  induction a generalizing b with
  | nil =>
    cases b with
    | nil => exact ⟨rfl, h⟩
    | cons d b =>
      rw [List.nil_append] at h
      exact absurd (hb d List.mem_cons_self) (hs d (by rw [h]; rfl))
  | cons c a ih =>
    cases b with
    | nil =>
      rw [List.nil_append] at h
      exact absurd (ha c List.mem_cons_self) (ht c (by rw [← h]; rfl))
    | cons d b =>
      obtain ⟨rfl, hrest⟩ := List.cons.inj h
      obtain ⟨rfl, rfl⟩ := ih (fun c hc => ha c (List.mem_cons_of_mem _ hc))
        (fun c hc => hb c (List.mem_cons_of_mem _ hc)) hrest
      exact ⟨rfl, rfl⟩

/-- A digit is a character of a number. -/
theorem Digits.numberChar {s : Text} (h : Digits s) : ∀ c ∈ s, NumberChar c :=
  fun c hc => .inl (h.2 c hc)

/-- A number holds such characters only. -/
theorem Number.numberChar {s : Text} (h : Number s) : ∀ c ∈ s, NumberChar c := by
  obtain ⟨minus, int, frac, exp, rfl, hminus, hint, hfrac, hexp⟩ := h
  have hsign (sign : Text) (hsign : sign ∈ [[], ['-'], ['+']]) : ∀ c ∈ sign, NumberChar c := by
    have hall : ∀ sign ∈ ([[], ['-'], ['+']] : List Text), ∀ c ∈ sign,
        c ∈ ['-', '+', '.', 'e', 'E'] := by decide
    exact fun c hc => .inr (hall sign hsign c hc)
  have hpart : ∀ c ∈ int, NumberChar c := by
    rcases hint with rfl | ⟨hdigits, -⟩
    · exact fun c hc => .inl (by rw [List.mem_singleton.mp hc]; rfl)
    · exact hdigits.numberChar
  intro c hc
  rcases List.mem_append.mp hc with hc | hc
  · rcases List.mem_append.mp hc with hc | hc
    · rcases List.mem_append.mp hc with hc | hc
      · refine hsign minus ?_ c hc
        rcases List.mem_pair.mp hminus with rfl | rfl
        all_goals decide
      · exact hpart c hc
    · rcases hfrac with rfl | ⟨digits, rfl, hdigits⟩
      · cases hc
      · rcases List.mem_cons.mp hc with rfl | hc
        · exact .inr (by decide)
        · exact hdigits.numberChar c hc
  · rcases hexp with rfl | ⟨e, sign, digits, rfl, he, hmem, hdigits⟩
    · cases hc
    · rcases List.mem_cons.mp hc with rfl | hc
      · rcases List.mem_pair.mp he with rfl | rfl
        all_goals exact .inr (by decide)
      · rcases List.mem_append.mp hc with hc | hc
        · exact hsign sign hmem c hc
        · exact hdigits.numberChar c hc

/-- Nor does it go on where a structural character stands, blanks before it or not. -/
theorem Token.endsNumber {c : Char} {text rest : Text} (h : Token c text rest)
    (hc : ¬NumberChar c) : EndsNumber text := by
  obtain ⟨after, hblanks, -⟩ := h
  cases hblanks with
  | none => exact fun d hd => by cases hd; exact hc
  | @more d text _ hblank _ =>
    have hall : ∀ c ∈ [' ', '\t', '\n', '\r'], ¬NumberChar c := by
      unfold NumberChar
      decide
    exact fun e he => by cases he; exact hall d hblank

/-- A number ends where only blanks follow. -/
theorem Blanks.endsNumber {text : Text} (h : Blanks text []) : EndsNumber text := by
  cases h with
  | none => exact fun c hc => by cases hc
  | @more d text _ hblank _ =>
    have hall : ∀ c ∈ [' ', '\t', '\n', '\r'], ¬NumberChar c := by
      unfold NumberChar
      decide
    exact fun e he => by cases he; exact hall d hblank

/-- What opens a value is no blank. -/
theorem Opens.tight {c : Char} (h : Opens c) (text : Text) : Tight (c :: text) := by
  rintro d ⟨⟩ hd
  exact h (List.mem_append_left [',', ':', ']', '\x7d'] hd)

/-- The rules for values. -/
inductive Rule where
  | null
  | bool (b : Bool)
  | number
  | string
  | array
  | object
  | none

/-- The rule that can derive a value with this first character. -/
def ruleOf (c : Char) : Rule :=
  match c with
  | 'n' => .null
  | 't' => .bool true
  | 'f' => .bool false
  | '"' => .string
  | '[' => .array
  | '\x7b' => .object
  | c => if c = '-' || c.isDigit then .number else .none

/-- What it derives from the first character and the text after it. -/
def Rule.Derives (c : Char) (text : Text) (value : Tree) (rest : Text) : Rule → Prop
  | .null => value = .null ∧ text = "ull".toList ++ rest
  | .bool true => value = .bool true ∧ text = "rue".toList ++ rest
  | .bool false => value = .bool false ∧ text = "alse".toList ++ rest
  | .number => ∃ lexeme, value = .number lexeme ∧ Number lexeme ∧ c :: text = lexeme ++ rest
  | .string => ∃ units, value = .string units ∧ Characters text units rest
  | .array => ∃ first items last, value = .array items ∧ Blanks text first ∧
      Elements first items last ∧ Token ']' last rest
  | .object => ∃ first members last, value = .object members ∧ Blanks text first ∧
      Members first members last ∧ Token '\x7d' last rest
  | .none => False

/-- A digit or a minus sign opens a number. -/
theorem ruleOf_number {c : Char} (hc : c = '-' ∨ c.isDigit = true) : ruleOf c = .number := by
  rcases hc with rfl | hdigit
  · rfl
  · unfold ruleOf
    split
    iterate 6 exact absurd hdigit (by decide)
    rw [if_pos (by rw [hdigit, Bool.or_true])]

/-- A value is derived by the rule of its first character. -/
theorem Value.select {c : Char} {text rest : Text} {value : Tree} (hfirst : Tight (c :: text))
    (h : Value (c :: text) value rest) : (ruleOf c).Derives c text value rest := by
  generalize hs : c :: text = s at h
  cases h with
  | null =>
    obtain ⟨rfl, rfl⟩ := List.cons.inj hs
    exact ⟨rfl, rfl⟩
  | @bool b rest =>
    cases b with
    | true =>
      obtain ⟨rfl, rfl⟩ := List.cons.inj hs
      exact ⟨rfl, rfl⟩
    | false =>
      obtain ⟨rfl, rfl⟩ := List.cons.inj hs
      exact ⟨rfl, rfl⟩
  | @number lexeme _ hnumber =>
    obtain ⟨d, digits, rfl, hd⟩ := hnumber.head
    obtain ⟨rfl, rfl⟩ := List.cons.inj hs
    rw [ruleOf_number hd]
    exact ⟨_, rfl, hnumber, rfl⟩
  | string hcharacters =>
    obtain ⟨rfl, rfl⟩ := List.cons.inj hs
    exact ⟨_, rfl, hcharacters⟩
  | array hopen hitems hclose =>
    subst hs
    obtain ⟨rfl, hblanks⟩ := hopen.cons_of_tight hfirst
    exact ⟨_, _, _, rfl, hblanks, hitems, hclose⟩
  | object hopen hmembers hclose =>
    subst hs
    obtain ⟨rfl, hblanks⟩ := hopen.cons_of_tight hfirst
    exact ⟨_, _, _, rfl, hblanks, hmembers, hclose⟩

/-! ## Lists between commas -/

/-- A list of what `R` derives, separated by commas. -/
inductive Separated {α : Type} (R : Text → α → Text → Prop) : Text → List α → Text → Prop where
  | none {text : Text} : Separated R text [] text
  | last {text rest : Text} {item : α} (hitem : R text item rest) : Separated R text [item] rest
  | more {text after next rest : Text} {item item' : α} {items : List α}
      (hitem : R text item after) (hcomma : Token ',' after next)
      (hmore : Separated R next (item' :: items) rest) :
      Separated R text (item :: item' :: items) rest

/-- The elements of an array are values separated by commas. -/
theorem elements_iff_separated {text rest : Text} {items : List Tree} :
    Elements text items rest ↔ Separated Value text items rest := by
  induction items generalizing text with
  | nil => exact ⟨fun h => by cases h; exact .none, fun h => by cases h; exact .none⟩
  | cons item more ih =>
    constructor
    · intro h
      cases h with
      | last hitem => exact .last hitem
      | more hitem hcomma hmore => exact .more hitem hcomma (ih.mp hmore)
    · intro h
      cases h with
      | last hitem => exact .last hitem
      | more hitem hcomma hmore => exact .more hitem hcomma (ih.mpr hmore)

/-- The members of an object are members separated by commas. -/
theorem members_iff_separated {text rest : Text} {members : List (List ℕ × Tree)} :
    Members text members rest ↔ Separated Member text members rest := by
  induction members generalizing text with
  | nil => exact ⟨fun h => by cases h; exact .none, fun h => by cases h; exact .none⟩
  | cons member more ih =>
    constructor
    · intro h
      cases h with
      | last hmember => exact .last hmember
      | more hmember hcomma hmore => exact .more hmember hcomma (ih.mp hmore)
    · intro h
      cases h with
      | last hmember => exact .last hmember
      | more hmember hcomma hmore => exact .more hmember hcomma (ih.mpr hmore)

/-- The text is derived as one thing, wherever it stands, and where neither a number nor a blank
follows it as no other that ends before no number. -/
structure Writes {α : Type} (R : Text → α → Text → Prop) (text : Text) (item : α) : Prop where
  opens : ∃ c rest, text = c :: rest ∧ Opens c
  derives : ∀ rest, R (text ++ rest) item rest
  unique : ∀ other rest last, EndsNumber rest → Tight rest → EndsNumber last →
    R (text ++ rest) other last → other = item ∧ last = rest

/-- What is written starts with no blank. -/
theorem Writes.tight {α : Type} {R : Text → α → Text → Prop} {text : Text} {item : α}
    (h : Writes R text item) (rest : Text) : Tight (text ++ rest) := by
  obtain ⟨c, text, rfl, hopens⟩ := h.opens
  exact hopens.tight _

/-- No structural character stands at its front. -/
theorem Writes.not_token {α : Type} {R : Text → α → Text → Prop} {text : Text} {item : α}
    (h : Writes R text item) {d : Char} (hd : ¬Opens d) (rest last : Text) :
    ¬Token d (text ++ rest) last := by
  intro htoken
  obtain ⟨c, text, rfl, hopens⟩ := h.opens
  obtain ⟨rfl, -⟩ := htoken.cons_of_tight (hopens.tight _)
  exact hd hopens

/-- Things written one after the other, with commas between them. -/
def separatedText {β : Type} (write : β → Text) : List β → Text
  | [] => []
  | x :: rest => write x ++ rest.flatMap fun y => ',' :: write y

/-- The first element is separated from the second by a comma. -/
theorem separatedText_cons_cons {β : Type} (write : β → Text) (x y : β) (rest : List β) :
    separatedText write (x :: y :: rest) = write x ++ ',' :: separatedText write (y :: rest) := by
  simp [separatedText]

section

variable {α β : Type} {R : Text → α → Text → Prop} {write : β → Text} {item : β → α}

/-- What follows the first of them before a closing character. -/
theorem endsNumber_flatMap (xs : List β) {close : Char} (hclose : ¬NumberChar close) (rest : Text) :
    EndsNumber ((xs.flatMap fun y => ',' :: write y) ++ close :: rest) := by
  cases xs with
  | nil => exact fun c hc => by cases hc; exact hclose
  | cons x xs =>
    have hcomma : ¬NumberChar ',' := by
      unfold NumberChar
      decide
    exact fun c hc => by cases hc; exact hcomma

/-- What follows an element, a comma or the end, starts with no blank. -/
theorem tight_flatMap (xs : List β) {close : Char} (hclose : ∀ rest, Tight (close :: rest))
    (rest : Text) : Tight ((xs.flatMap fun y => ',' :: write y) ++ close :: rest) := by
  cases xs with
  | nil => exact hclose rest
  | cons x xs =>
    rintro c ⟨⟩
    decide

/-- They are derived in turn. -/
theorem separated_separatedText (xs : List β) (h : ∀ x ∈ xs, Writes R (write x) (item x))
    (rest : Text) : Separated R (separatedText write xs ++ rest) (xs.map item) rest := by
  induction xs with
  | nil => exact .none
  | cons x more ih =>
    have hx := h x List.mem_cons_self
    cases more with
    | nil =>
      rw [separatedText, List.flatMap_nil, List.append_nil]
      exact .last (hx.derives rest)
    | cons y more =>
      rw [separatedText_cons_cons, List.append_assoc]
      exact .more (hx.derives _) (token_cons ..) (ih fun z hz => h z (List.mem_cons_of_mem _ hz))

/-- And as nothing else, up to the character that closes the list. -/
theorem separated_unique {close : Char} (hclose : ¬NumberChar close) (hcomma : close ≠ ',')
    (hopens : ¬Opens close) {xs : List β} (h : ∀ x ∈ xs, Writes R (write x) (item x))
    (hempty : ∀ rest a last, ¬R (close :: rest) a last) (htightClose : ∀ rest, Tight (close :: rest))
    {rest last after : Text} {items : List α} (htight : Tight rest)
    (hitems : Separated R (separatedText write xs ++ close :: rest) items after)
    (htoken : Token close after last) : items = xs.map item ∧ last = rest := by
  induction xs generalizing items with
  | nil =>
    rw [separatedText, List.nil_append] at hitems
    generalize hs : close :: rest = s at hitems
    cases hitems with
    | none =>
      subst hs
      exact ⟨rfl, (htoken.eq_of_tight (htightClose rest) htight).2⟩
    | last hitem => exact (hempty _ _ _ (hs ▸ hitem)).elim
    | more hitem _ _ => exact (hempty _ _ _ (hs ▸ hitem)).elim
  | cons x more ih =>
    have hx := h x List.mem_cons_self
    have hnext : EndsNumber ((more.flatMap fun y => ',' :: write y) ++ close :: rest) :=
      endsNumber_flatMap more hclose rest
    have htightNext : Tight ((more.flatMap fun y => ',' :: write y) ++ close :: rest) :=
      tight_flatMap more htightClose rest
    rw [separatedText, List.append_assoc] at hitems
    generalize hs : write x ++ ((more.flatMap fun y => ',' :: write y) ++ close :: rest) = s at hitems
    cases hitems with
    | none =>
      subst hs
      exact absurd htoken (hx.not_token hopens _ _)
    | last hitem =>
      subst hs
      obtain ⟨rfl, rfl⟩ := hx.unique _ _ _ hnext htightNext (htoken.endsNumber hclose) hitem
      cases more with
      | nil => exact ⟨rfl, (htoken.eq_of_tight (htightClose rest) htight).2⟩
      | cons y more =>
        -- A comma stands where the list would have to close.
        exact absurd (htoken.cons_of_tight (by rintro c ⟨⟩; decide)).1.symm hcomma
    | more hitem hsep hmore =>
      subst hs
      have hcommaEnds : ¬NumberChar ',' := by
        unfold NumberChar
        decide
      obtain ⟨rfl, rfl⟩ := hx.unique _ _ _ hnext htightNext (hsep.endsNumber hcommaEnds) hitem
      cases more with
      | nil => exact absurd (hsep.cons_of_tight (htightClose rest)).1 hcomma
      | cons y more =>
        have hy := h y (List.mem_cons_of_mem _ List.mem_cons_self)
        have htext : ((y :: more).flatMap fun y => ',' :: write y) ++ close :: rest =
            ',' :: (write y ++ ((more.flatMap fun y => ',' :: write y) ++ close :: rest)) := by
          simp
        rw [htext] at hsep
        obtain ⟨-, rfl⟩ := hsep.eq_of_tight (by rintro c ⟨⟩; decide) (hy.tight _)
        rw [← List.append_assoc] at hmore
        obtain ⟨hrest, rfl⟩ := ih (fun z hz => h z (List.mem_cons_of_mem _ hz)) hmore
        exact ⟨congrArg (item x :: ·) hrest, rfl⟩

end

end JsonGrammar

end Stormnetboot.Common

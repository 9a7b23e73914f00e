import Stormnetboot.Common.Text
import Mathlib.Data.List.Forall2

/-!
# Objects of strings, as JSON text

What a string literal denotes, given by the escapes a backslash may introduce (all of them but
`\u`), and the text of an object whose members are all such literals, written without blanks. A
reader of these texts returns what their literals denote.
-/

namespace Stormnetboot.Common

namespace JsonText

/-- What may stand after a backslash, and the character it stands for. -/
def escapes : List (Char × Char) :=
  [('"', '"'), ('\\', '\\'), ('/', '/'), ('b', '\x08'), ('f', '\x0c'), ('n', '\n'), ('r', '\r'),
    ('t', '\t')]

/-- What stands between the quotes of a string literal, and the text it denotes. -/
inductive Literal : Text → Text → Prop where
  | nil : Literal [] []
  | plain {c : Char} {rest value : Text} (hquote : c ≠ '"') (hbackslash : c ≠ '\\')
      (hcontrol : 0x20 ≤ c.toNat) (hrest : Literal rest value) : Literal (c :: rest) (c :: value)
  | escaped {e c : Char} {rest value : Text} (hescape : (e, c) ∈ escapes)
      (hrest : Literal rest value) : Literal ('\\' :: e :: rest) (c :: value)

/-- A member of an object: its name and its value, between quotes. -/
def memberText (member : Text × Text) : Text :=
  "\"".toList ++ member.1 ++ "\":\"".toList ++ member.2 ++ "\"".toList

/-- An object with these members. -/
def objectText (members : List (Text × Text)) : Text :=
  "\x7b".toList ++ joinWith ",".toList (members.map memberText) ++ "\x7d".toList

/-- The literals of a member denote its name and its value. -/
def Denotes (literal value : Text × Text) : Prop :=
  Literal literal.1 value.1 ∧ Literal literal.2 value.2

/-- A concatenation of literals denotes the concatenation of what they denote. -/
theorem Literal.append {front value rest value' : Text} (hfront : Literal front value)
    (hrest : Literal rest value') : Literal (front ++ rest) (value ++ value') := by
  induction hfront with
  | nil => exact hrest
  | plain hquote hbackslash hcontrol _ ih => exact .plain hquote hbackslash hcontrol ih
  | escaped hescape _ ih => exact .escaped hescape ih

/-! ## Reading -/

/-- Read a literal up to its closing quote; the rest of the text is returned with its value. -/
def readLiteral : Text → Option (Text × Text)
  | [] => none
  | '"' :: rest => some ([], rest)
  | '\\' :: e :: rest =>
    match escapes.lookup e with
    | some c => (readLiteral rest).map fun (value, rest) => (c :: value, rest)
    | none => none
  | c :: rest =>
    if c = '\\' || c.toNat < 0x20 then none
    else (readLiteral rest).map fun (value, rest) => (c :: value, rest)

/-- Read a member, without its comma. -/
def readMember (text : Text) : Option ((Text × Text) × Text) := do
  let rest ← stripPrefix "\"".toList text
  let (name, rest) ← readLiteral rest
  let rest ← stripPrefix ":\"".toList rest
  let (value, rest) ← readLiteral rest
  some ((name, value), rest)

/-- Read the members of an object, at most so many. -/
def readMembers : ℕ → Text → Option (List (Text × Text))
  | 0, _ => none
  | fuel + 1, text =>
    match readMember text with
    | none => none
    | some (member, rest) =>
      match stripPrefix ",".toList rest with
      | some rest => (readMembers fuel rest).map (member :: ·)
      | none => if rest = "\x7d".toList then some [member] else none

/-- Read an object whose members are strings. -/
def readObject (text : Text) : Option (List (Text × Text)) :=
  if text = "\x7b\x7d".toList then some []
  else (stripPrefix "\x7b".toList text).bind fun rest => readMembers text.length rest

/-- A character that stands after a backslash is found with what it stands for. -/
theorem lookup_escapes {e c : Char} (h : (e, c) ∈ escapes) : escapes.lookup e = some c := by
  have hall : ∀ escape ∈ escapes, escapes.lookup escape.1 = some escape.2 := by decide
  exact hall (e, c) h

/-- A literal is read back. -/
theorem readLiteral_literal {contents value : Text} (h : Literal contents value) (rest : Text) :
    readLiteral (contents ++ '"' :: rest) = some (value, rest) := by
  induction h with
  | nil => rfl
  | @plain c contents value hquote hbackslash hcontrol _ ih =>
    rw [List.cons_append, readLiteral]
    · rw [if_neg (by simp [hbackslash]; omega), ih]
      rfl
    · exact fun h => hquote h
    · exact fun _ _ h => absurd h hbackslash
  | escaped hescape _ ih =>
    rw [List.cons_append, List.cons_append, readLiteral]
    simp only [lookup_escapes hescape, ih]
    rfl

/-- So is a member. -/
theorem readMember_memberText {member value : Text × Text} (h : Denotes member value)
    (rest : Text) : readMember (memberText member ++ rest) = some (value, rest) := by
  have hname : readLiteral (member.1 ++ '"' :: (":\"".toList ++ (member.2 ++ '"' :: rest))) =
      some (value.1, ":\"".toList ++ (member.2 ++ '"' :: rest)) := readLiteral_literal h.1 _
  have hvalue : readLiteral (member.2 ++ '"' :: rest) = some (value.2, rest) :=
    readLiteral_literal h.2 rest
  have htext : memberText member ++ rest =
      '"' :: (member.1 ++ '"' :: (":\"".toList ++ (member.2 ++ '"' :: rest))) := by
    simp [memberText]
  rw [htext, readMember]
  show (readLiteral _).bind _ = _
  rw [hname]
  show (readLiteral (member.2 ++ '"' :: rest)).bind _ = _
  rw [hvalue]
  rfl

/-- Two members are joined by a comma. -/
theorem joinWith_members_cons (member next : Text × Text) (members : List (Text × Text)) :
    joinWith ",".toList ((member :: next :: members).map memberText) =
      memberText member ++ (",".toList ++ joinWith ",".toList ((next :: members).map memberText)) := by
  simp [joinWith, List.intercalate]

/-- One member is joined with nothing. -/
theorem joinWith_member (member : Text × Text) :
    joinWith ",".toList ([member].map memberText) = memberText member := by
  simp [joinWith, List.intercalate]

/-- So are the members of an object, with fuel for as many. -/
theorem readMembers_joinWith {member value : Text × Text} {members values : List (Text × Text)}
    (hmember : Denotes member value) (hmembers : List.Forall₂ Denotes members values) (fuel : ℕ)
    (hfuel : members.length < fuel) :
    readMembers fuel (joinWith ",".toList ((member :: members).map memberText) ++ "\x7d".toList) =
      some (value :: values) := by
  induction hmembers generalizing member value fuel with
  | nil =>
    obtain ⟨fuel, rfl⟩ := Nat.exists_eq_succ_of_ne_zero (Nat.ne_zero_of_lt hfuel)
    rw [joinWith_member, readMembers, readMember_memberText hmember]
    rfl
  | @cons next value' members values hnext _ ih =>
    obtain ⟨fuel, rfl⟩ := Nat.exists_eq_succ_of_ne_zero (Nat.ne_zero_of_lt hfuel)
    have hrest := ih hnext fuel (Nat.lt_of_succ_lt_succ hfuel)
    rw [joinWith_members_cons, List.append_assoc, List.append_assoc, readMembers,
      readMember_memberText hmember]
    exact congrArg (Option.map (value :: ·)) hrest

/-- Every member takes at least a character. -/
theorem length_lt_joinWith (member : Text × Text) (members : List (Text × Text)) :
    members.length < (joinWith ",".toList ((member :: members).map memberText)).length := by
  induction members generalizing member with
  | nil =>
    rw [joinWith_member, memberText]
    simp
  | cons next members ih =>
    have hrest := ih next
    rw [joinWith_members_cons, List.length_append, List.length_append, List.length_cons]
    have hcomma : ",".toList.length = 1 := rfl
    omega

/-- The text of an object is read back as what its literals denote. -/
theorem readObject_objectText {members values : List (Text × Text)}
    (h : List.Forall₂ Denotes members values) : readObject (objectText members) = some values := by
  cases h with
  | nil => rfl
  | @cons member value members values hmember hmembers =>
    have hquote : ∃ rest, objectText (member :: members) = '\x7b' :: '"' :: rest := by
      cases members with
      | nil => exact ⟨_, rfl⟩
      | cons next members =>
        rw [objectText, joinWith_members_cons]
        exact ⟨_, rfl⟩
    have hne : objectText (member :: members) ≠ "\x7b\x7d".toList := by
      obtain ⟨rest, hrest⟩ := hquote
      rw [hrest]
      intro heq
      exact absurd (List.cons.inj (List.cons.inj heq).2).1 (by decide)
    rw [readObject, if_neg hne]
    refine readMembers_joinWith hmember hmembers _ ?_
    have hlength := length_lt_joinWith member members
    rw [objectText, List.length_append, List.length_append]
    omega

end JsonText

end Stormnetboot.Common

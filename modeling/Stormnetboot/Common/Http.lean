import Stormnetboot.Common.Words

/-!
# HTTP/1.1 requests as text

A request is a line, fields and a body, and the body is as long as the fields announce. The reader
refuses a carriage return or a newline that does not end a line, and takes no more of the text
than the request; a request whose parts hold no such characters is therefore read back whole, and
what follows it is left alone.
-/

namespace Stormnetboot.Common

/-- A request. The fields are in the order they are sent in. -/
structure HttpRequest where
  method : Text
  target : Text
  fields : List (Text × Text)
  body : Text
  deriving DecidableEq, Repr

namespace HttpRequest

/-- A field and the end of its line. -/
def fieldText (field : Text × Text) : Text :=
  field.1 ++ ": ".toList ++ field.2 ++ "\r\n".toList

/-- The request line and the end of it. -/
def lineText (method target : Text) : Text :=
  method ++ " ".toList ++ target ++ " HTTP/1.1\r\n".toList

/-- The request as it goes over the connection. -/
def text (r : HttpRequest) : Text :=
  lineText r.method r.target ++ r.fields.flatMap fieldText ++ "\r\n".toList ++ r.body

/-! ## The reader -/

/-- A line up to the carriage return and newline that end it, and what follows them. -/
def readLine : Text → Option (Text × Text)
  | [] => none
  | '\r' :: '\n' :: rest => some ([], rest)
  | c :: rest =>
    if c = '\r' ∨ c = '\n' then none else (readLine rest).map fun (line, rest) => (c :: line, rest)

/-- `OWS = *( SP / HTAB )`, taken away at both ends. -/
def trimBlanks (s : Text) : Text :=
  (s.dropWhile fun c => c = ' ' || c = '\t').rdropWhile fun c => c = ' ' || c = '\t'

/-- `field-line = field-name ":" OWS field-value OWS` -/
def readField (line : Text) : Option (Text × Text) :=
  match splitOnce ':' line with
  | some (name, value) =>
    if name.isEmpty || name.any (fun c => c = ' ' || c = '\t') then none
    else some (name, trimBlanks value)
  | none => none

/-- The fields up to the empty line, at most so many. -/
def readFields : ℕ → Text → Option (List (Text × Text) × Text)
  | 0, _ => none
  | fuel + 1, text =>
    match readLine text with
    | none => none
    | some ([], rest) => some ([], rest)
    | some (line, rest) =>
      match readField line with
      | none => none
      | some field => (readFields fuel rest).map fun (fields, rest) => (field :: fields, rest)

/-- `request-line = method SP request-target SP HTTP-version` -/
def readRequestLine (line : Text) : Option (Text × Text) :=
  match splitOnce ' ' line with
  | none => none
  | some (method, rest) =>
    match splitOnce ' ' rest with
    | some (target, version) =>
      if version = "HTTP/1.1".toList ∧ method ≠ [] ∧ target ≠ [] then some (method, target) else none
    | none => none

/-- The values of a field, which is named in any case. -/
def valuesOf (name : String) (fields : List (Text × Text)) : List Text :=
  (fields.filter fun field => toAsciiLowercase field.1 = name.toList).map Prod.snd

/-- How long the body is: as long as one field says, or empty. -/
def contentLength (fields : List (Text × Text)) : Option ℕ :=
  match valuesOf "content-length" fields with
  | [] => some 0
  | [value] => parseDigits value
  | _ => none

/-- Read a request, and what follows it. -/
def read (text : Text) : Option (HttpRequest × Text) := do
  let (line, rest) ← readLine text
  let (method, target) ← readRequestLine line
  let (fields, rest) ← readFields text.length rest
  let length ← contentLength fields
  let body ← takeBytes length rest
  some (⟨method, target, fields, body⟩, rest.drop body.length)

/-! ## What is read back -/

/-- No character of a text ends a line. -/
def OneLine (s : Text) : Prop :=
  ∀ c ∈ s, c ≠ '\r' ∧ c ≠ '\n'

/-- A request without anything in its line and fields that could be read as the end of them, and
which announces the body it has. -/
structure WellFormed (r : HttpRequest) : Prop where
  method : r.method ≠ [] ∧ ' ' ∉ r.method ∧ OneLine r.method
  target : r.target ≠ [] ∧ ' ' ∉ r.target ∧ OneLine r.target
  names : ∀ field ∈ r.fields, field.1 ≠ [] ∧ OneLine field.1 ∧
    ∀ c ∈ field.1, c ≠ ':' ∧ c ≠ ' ' ∧ c ≠ '\t'
  values : ∀ field ∈ r.fields, OneLine field.2 ∧ trimBlanks field.2 = field.2
  length : contentLength r.fields = some (utf8Len r.body)

/-- Two texts on one line make one on one line. -/
theorem OneLine.append {s t : Text} (hs : OneLine s) (ht : OneLine t) : OneLine (s ++ t) :=
  fun c hc => (List.mem_append.mp hc).elim (hs c) (ht c)

/-- A line is read up to its end. -/
theorem readLine_append {line : Text} (h : OneLine line) (rest : Text) :
    readLine (line ++ "\r\n".toList ++ rest) = some (line, rest) := by
  induction line with
  | nil => rfl
  | cons c line ih =>
    obtain ⟨hreturn, hnewline⟩ := h c List.mem_cons_self
    rw [List.cons_append, List.cons_append, readLine]
    · rw [if_neg (by simp [hreturn, hnewline]), ih fun d hd => h d (List.mem_cons_of_mem _ hd)]
      rfl
    · exact fun _ h _ => hreturn h

/-- A field is read from its line. -/
theorem readField_append {field : Text × Text} (hne : field.1 ≠ [])
    (hname : ∀ c ∈ field.1, c ≠ ':' ∧ c ≠ ' ' ∧ c ≠ '\t')
    (hvalue : trimBlanks field.2 = field.2) :
    readField (field.1 ++ ": ".toList ++ field.2) = some field := by
  have hline : field.1 ++ ": ".toList ++ field.2 = field.1 ++ ':' :: (' ' :: field.2) := by simp
  have hblank : (field.1.any fun c => c = ' ' || c = '\t') = false := by
    rw [List.any_eq_false]
    intro c hc
    simp [(hname c hc).2]
  have htrim : trimBlanks (' ' :: field.2) = field.2 := hvalue
  rw [readField, hline, splitOnce_append _ _ fun hmem => (hname ':' hmem).1 rfl]
  simp only
  rw [hblank, Bool.or_false, if_neg (by simpa using hne), htrim]

/-- So are all of them, up to the empty line. -/
theorem readFields_flatMap {fields : List (Text × Text)}
    (hnames : ∀ field ∈ fields, field.1 ≠ [] ∧ OneLine field.1 ∧
      ∀ c ∈ field.1, c ≠ ':' ∧ c ≠ ' ' ∧ c ≠ '\t')
    (hvalues : ∀ field ∈ fields, OneLine field.2 ∧ trimBlanks field.2 = field.2) (rest : Text)
    (fuel : ℕ) (hfuel : fields.length < fuel) :
    readFields fuel (fields.flatMap fieldText ++ "\r\n".toList ++ rest) = some (fields, rest) := by
  induction fields generalizing fuel with
  | nil =>
    obtain ⟨fuel, rfl⟩ := Nat.exists_eq_succ_of_ne_zero (Nat.ne_zero_of_lt hfuel)
    rfl
  | cons field fields ih =>
    obtain ⟨fuel, rfl⟩ := Nat.exists_eq_succ_of_ne_zero (Nat.ne_zero_of_lt hfuel)
    obtain ⟨hne, hline, hname⟩ := hnames field List.mem_cons_self
    obtain ⟨hvalueLine, hvalue⟩ := hvalues field List.mem_cons_self
    have hsep : OneLine ": ".toList := by
      unfold OneLine
      decide
    have htext : (field :: fields).flatMap fieldText ++ "\r\n".toList ++ rest =
        field.1 ++ ": ".toList ++ field.2 ++ "\r\n".toList ++
          (fields.flatMap fieldText ++ "\r\n".toList ++ rest) := by
      simp [fieldText]
    rw [htext, readFields, readLine_append ((hline.append hsep).append hvalueLine)]
    have hcons : ∃ c s, field.1 ++ ": ".toList ++ field.2 = c :: s := by
      obtain ⟨c, s, hcs⟩ := List.exists_cons_of_ne_nil hne
      exact ⟨c, s ++ ": ".toList ++ field.2, by rw [hcs]; rfl⟩
    obtain ⟨c, s, hcs⟩ := hcons
    simp only [hcs]
    rw [← hcs, readField_append hne hname hvalue]
    simp only
    rw [ih (fun f hf => hnames f (List.mem_cons_of_mem _ hf))
      (fun f hf => hvalues f (List.mem_cons_of_mem _ hf)) fuel (Nat.lt_of_succ_lt_succ hfuel)]
    rfl

/-- The request line is read apart. -/
theorem readRequestLine_append {method target : Text} (hmethod : method ≠ []) (htarget : target ≠ [])
    (hmethodSpace : ' ' ∉ method) (htargetSpace : ' ' ∉ target) :
    readRequestLine (method ++ " ".toList ++ target ++ " HTTP/1.1".toList) =
      some (method, target) := by
  have hline : method ++ " ".toList ++ target ++ " HTTP/1.1".toList =
      method ++ ' ' :: (target ++ ' ' :: "HTTP/1.1".toList) := by simp
  rw [readRequestLine, hline, splitOnce_append _ _ hmethodSpace]
  simp only
  rw [splitOnce_append _ _ htargetSpace]
  simp only
  rw [if_pos ⟨trivial, hmethod, htarget⟩]

/-- As many bytes as a text has are the text. -/
theorem takeBytes_utf8Len (s rest : Text) : takeBytes (utf8Len s) (s ++ rest) = some s := by
  induction s with
  | nil => cases rest <;> rfl
  | cons c s ih =>
    have hpos := Char.utf8Size_pos c
    have hlen : utf8Len (c :: s) = (utf8Len s + c.utf8Size - 1) + 1 := by
      simp only [utf8Len, List.map_cons, List.sum_cons]
      omega
    rw [hlen, List.cons_append, takeBytes, if_pos (by omega)]
    have hrest : utf8Len s + c.utf8Size - 1 + 1 - c.utf8Size = utf8Len s := by omega
    rw [hrest, ih]
    rfl

/-- Every field takes at least a line. -/
theorem length_lt_text (r : HttpRequest) (rest : Text) :
    r.fields.length < (r.text ++ rest).length := by
  have hfields (fields : List (Text × Text)) :
      fields.length ≤ (fields.flatMap fieldText).length := by
    induction fields with
    | nil => exact le_rfl
    | cons field fields ih =>
      rw [List.flatMap_cons, List.length_append, List.length_cons]
      have hfield : 0 < (fieldText field).length := by
        rw [fieldText, List.length_append]
        exact Nat.add_pos_right _ (by decide)
      omega
  have hend : "\r\n".toList.length = 2 := rfl
  have := hfields r.fields
  rw [text]
  simp only [List.length_append]
  omega

/-- A request is read back whole, and nothing after it is read. -/
theorem read_text {r : HttpRequest} (h : r.WellFormed) (rest : Text) :
    read (r.text ++ rest) = some (r, rest) := by
  obtain ⟨hmethod, hmethodSpace, hmethodLine⟩ := h.method
  obtain ⟨htarget, htargetSpace, htargetLine⟩ := h.target
  have hline : OneLine (r.method ++ " ".toList ++ r.target ++ " HTTP/1.1".toList) := by
    have hspace : OneLine " ".toList := by
      unfold OneLine
      decide
    have hversion : OneLine " HTTP/1.1".toList := by
      unfold OneLine
      decide
    exact ((hmethodLine.append hspace).append htargetLine).append hversion
  have htext : r.text ++ rest = r.method ++ " ".toList ++ r.target ++ " HTTP/1.1".toList ++
      "\r\n".toList ++ (r.fields.flatMap fieldText ++ "\r\n".toList ++ (r.body ++ rest)) := by
    simp [text, lineText]
  have hfuel := length_lt_text r rest
  unfold read
  rw [htext] at hfuel ⊢
  rw [readLine_append hline]
  simp only [Option.bind_eq_bind, Option.bind_some]
  rw [readRequestLine_append hmethod htarget hmethodSpace htargetSpace]
  simp only [Option.bind_some]
  rw [readFields_flatMap h.names h.values (r.body ++ rest) _ hfuel]
  simp only [Option.bind_some]
  rw [h.length, Option.bind_some, takeBytes_utf8Len, Option.bind_some, List.drop_left]

/-- A request that is all there is is read with nothing left over. -/
theorem read_alone {r : HttpRequest} (h : r.WellFormed) : read r.text = some (r, []) := by
  have hread := read_text h []
  rwa [List.append_nil] at hread

/-! ## A posted body -/

/-- A JSON body, posted over a connection of its own. -/
def jsonPost (host target body : Text) : HttpRequest where
  method := "POST".toList
  target := target
  fields := [("Host".toList, host), ("Content-Type".toList, "application/json".toList),
    ("Content-Length".toList, natText (utf8Len body)), ("Connection".toList, "close".toList)]
  body := body

/-- The text of a request with a JSON body. -/
theorem text_jsonPost (host target body : Text) : (jsonPost host target body).text =
    "POST ".toList ++ target ++ " HTTP/1.1\r\nHost: ".toList ++ host ++
      "\r\nContent-Type: application/json\r\nContent-Length: ".toList ++
      natText (utf8Len body) ++ "\r\nConnection: close\r\n\r\n".toList ++ body := by
  simp [text, jsonPost, lineText, fieldText]

/-- There is nothing to trim from a text without blanks. -/
theorem trimBlanks_eq_self {s : Text} (h : ∀ c ∈ s, c ≠ ' ' ∧ c ≠ '\t') : trimBlanks s = s := by
  have hplain (c : Char) (hc : c ∈ s) : ¬(c = ' ' || c = '\t') = true := by simp [h c hc]
  have hfront : (s.dropWhile fun c => c = ' ' || c = '\t') = s :=
    List.dropWhile_eq_self_iff.mpr fun hlen => hplain _ (List.getElem_mem hlen)
  rw [trimBlanks, hfront]
  exact List.rdropWhile_eq_self_iff.mpr fun hne => hplain _ (List.getLast_mem hne)

/-- A posted body is read back, whatever it is. -/
theorem wellFormed_jsonPost {host target : Text} (body : Text)
    (hhost : ∀ c ∈ host, isWhitespace c = false) (hne : target ≠ [])
    (htarget : ∀ c ∈ target, isWhitespace c = false) : WellFormed (jsonPost host target body) := by
  have hoff {s : Text} (hs : ∀ c ∈ s, isWhitespace c = false) {c : Char}
      (hc : isWhitespace c = true) : ∀ d ∈ s, d ≠ c := by
    rintro d hd rfl
    rw [hs d hd] at hc
    cases hc
  have hline {s : Text} (hs : ∀ c ∈ s, isWhitespace c = false) : OneLine s := fun c hc =>
    ⟨hoff hs (by decide) c hc, hoff hs (by decide) c hc⟩
  have htrim {s : Text} (hs : ∀ c ∈ s, isWhitespace c = false) : trimBlanks s = s :=
    trimBlanks_eq_self fun c hc => ⟨hoff hs (by decide) c hc, hoff hs (by decide) c hc⟩
  have hmethod : "POST".toList ≠ [] ∧ ' ' ∉ "POST".toList ∧ OneLine "POST".toList := by
    unfold OneLine
    decide
  refine ⟨hmethod, ⟨hne, fun hmem => hoff htarget (by decide) ' ' hmem rfl, hline htarget⟩,
    ?_, ?_, ?_⟩
  · simp only [jsonPost, List.forall_mem_cons]
    unfold OneLine
    decide
  · simp only [jsonPost, List.forall_mem_cons, List.not_mem_nil, false_imp_iff, implies_true,
      and_true]
    refine ⟨⟨hline hhost, htrim hhost⟩, ⟨hline (by decide), by decide⟩, ?_,
      ⟨hline (by decide), by decide⟩⟩
    exact ⟨hline (solid_natText _), htrim (solid_natText _)⟩
  · exact parseDigits_natText (utf8Len body)

end HttpRequest

end Stormnetboot.Common

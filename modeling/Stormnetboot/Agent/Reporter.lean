import Stormnetboot.Agent.Inventory
import Stormnetboot.Common.Http
import Stormnetboot.Common.JsonReader

/-!
# How the agent posts

Every report and the inventory go out as one request each, over a connection of their own, with a
JSON body that a library writes. What was posted counts as taken exactly if the answer begins with
a status line whose second word is a number from 200 to 299; anything else is complained about on
the console and not tried again.
-/

namespace Stormnetboot.Agent

open Stormnetboot.Common

/-- Where the agent reports and as which machine. -/
structure Reporter where
  url : Text
  mac : Text
  deriving DecidableEq, Repr

/-- `str::trim_end_matches` of a slash. -/
def trimEndSlashes (url : Text) : Text :=
  url.rdropWhile (· = '/')

/-- The reporter of `main`. -/
def Reporter.ofArgs (reportUrl mac : Text) : Reporter where
  url := trimEndSlashes reportUrl
  mac := mac

/-- What a URL names: what to connect to, the `Host` header and the path. -/
def urlParts (url : Text) : Except Text (Text × Text × Text) :=
  match stripPrefix "http://".toList url with
  | none => .error "only http:// is supported".toList
  | some rest =>
    let authority := rest.takeWhile (· ≠ '/')
    let path := if '/' ∈ rest then rest.dropWhile (· ≠ '/') else "/".toList
    .ok (if ':' ∈ authority then authority else authority ++ ":80".toList, authority, path)

/-- What `ureq_post` connects to, and what it writes there. -/
def ureqPost (url body : Text) : Except Text (Text × Text) :=
  (urlParts url).map fun (connect, authority, path) =>
    (connect, "POST ".toList ++ path ++ " HTTP/1.1\r\nHost: ".toList ++ authority ++
      "\r\nContent-Type: application/json\r\nContent-Length: ".toList ++ natText (utf8Len body) ++
      "\r\nConnection: close\r\n\r\n".toList ++ body)

/-- The status of an answer. -/
def parseStatus (response : Text) : Option ℕ :=
  (lines response).head?.bind fun line =>
    (splitWhitespace line)[1]?.bind (parseUnsigned 16)

/-- What a network does with an exchange: it fails, or answers with some text. -/
abbrev Exchange := Text × Text → Except Text Text

namespace Reporter

/-- `post`: the status it is answered with. -/
def post (reporter : Reporter) (network : Exchange) (path body : Text) : Except Text ℕ := do
  let sent ← ureqPost (reporter.url ++ path) body
  let response ← network sent
  match parseStatus response with
  | some status => .ok status
  | none => .error "no status line in response".toList

/-- `(200..300).contains(&status)`. -/
def isSuccess (status : ℕ) : Bool :=
  200 ≤ status && status < 300

/-- The body of a report. The members of an object are kept in the order of their names. -/
def reportJson (reporter : Reporter) (phase : Text) (detail : Option Text) : Json :=
  .ofFields [("detail", detail.map .str), ("mac", some (.str reporter.mac)),
    ("phase", some (.str phase))]

/-- The body that describes the node. -/
def inventoryJson (reporter : Reporter) (inv : Inventory) : Json :=
  .ofFields [("cpus", some (.num inv.cpus.toNat)), ("disks", some (.arr (inv.disks.map .str))),
    ("mac", some (.str reporter.mac)), ("memory_kb", some (.num inv.memoryKb.toNat)),
    ("product", inv.product.map .str), ("serial", inv.serial.map .str)]

/-- `report`: what it complains of on the console, if anything. -/
def report (reporter : Reporter) (network : Exchange) (phase : Text) (detail : Option Text) :
    Option Text :=
  let complaint (err : Text) :=
    "stormnetboot-agent: reporting ".toList ++ phase ++ " failed: ".toList ++ err
  match reporter.post network "/api/v1/report".toList (reporter.reportJson phase detail).text with
  | .error err => some (complaint err)
  | .ok status =>
    if isSuccess status then none
    else some (complaint ("boot server returned ".toList ++ natText status))

/-- `report_inventory`: what it complains of on the console, if anything. -/
def reportInventory (reporter : Reporter) (network : Exchange) (inv : Inventory) : Option Text :=
  match reporter.post network "/api/v1/inventory".toList (reporter.inventoryJson inv).text with
  | .error err => some ("stormnetboot-agent: reporting inventory failed: ".toList ++ err)
  | .ok status =>
    if isSuccess status then none
    else some ("stormnetboot-agent: inventory rejected (".toList ++ natText status ++ ")".toList)

end Reporter

/-! ## The request -/

/-- What is written is a posted body. -/
theorem ureqPost_eq (url body : Text) : ureqPost url body =
    (urlParts url).map fun parts =>
      (parts.1, (HttpRequest.jsonPost parts.2.1 parts.2.2 body).text) := by
  simp only [ureqPost, HttpRequest.text_jsonPost]

/-- A URL of an authority and a path behind it, if any. -/
theorem urlParts_of_path {authority path : Text} (hslash : '/' ∉ authority)
    (hpath : path.head? = some '/') : urlParts ("http://".toList ++ authority ++ path) =
      .ok (if ':' ∈ authority then authority else authority ++ ":80".toList, authority, path) := by
  have hstrip : stripPrefix "http://".toList ("http://".toList ++ authority ++ path) =
      some (authority ++ path) := by
    rw [stripPrefix_eq_some_iff, List.append_assoc]
  have hclean : ∀ c ∈ authority, decide (c ≠ '/') = true := by
    intro c hc
    exact decide_eq_true fun heq => hslash (heq ▸ hc)
  obtain ⟨rest, rfl⟩ : ∃ rest, path = '/' :: rest := by
    cases path with
    | nil => cases hpath
    | cons c rest =>
      cases hpath
      exact ⟨rest, rfl⟩
  have htake : (authority ++ '/' :: rest).takeWhile (· ≠ '/') = authority := by
    rw [List.takeWhile_append_of_pos hclean, List.takeWhile_cons_of_neg (by simp), List.append_nil]
  have hdrop : (authority ++ '/' :: rest).dropWhile (· ≠ '/') = '/' :: rest := by
    rw [List.dropWhile_append_of_pos hclean, List.dropWhile_cons_of_neg (by simp)]
  have hmem : '/' ∈ authority ++ '/' :: rest := by simp
  rw [urlParts, hstrip]
  simp only
  rw [htake, hdrop, if_pos hmem]

/-! ## The status -/

/-- The end of a line holds no words. -/
theorem splitWhitespace_stripLineEnd (line : Text) :
    splitWhitespace (stripLineEnd line) = splitWhitespace line := by
  have hdrop (front : Text) {c : Char} (hc : isWhitespace c = true) :
      splitWhitespace (front ++ [c]) = splitWhitespace front := by
    rw [splitWhitespace_eq, splitWhitespace_eq, wordsBy_append_cons front [] hc, wordsBy_nil,
      List.append_nil]
  unfold stripLineEnd
  split
  · rename_i hlast
    obtain ⟨front, rfl⟩ := List.getLast?_eq_some_iff.mp hlast
    rw [hdrop front (by decide), List.dropLast_concat]
    simp only
    split_ifs with hreturn
    · obtain ⟨front, rfl⟩ := List.getLast?_eq_some_iff.mp hreturn
      rw [List.dropLast_concat, hdrop front (by decide)]
    · rfl
  · rfl

/-- What a text begins with is in its first line. -/
theorem head?_splitInclusive {front : Text} (hne : front ≠ []) (hclean : '\n' ∉ front)
    (back : Text) :
    ∃ more, more <+: back ∧ (splitInclusive '\n' (front ++ back)).head? = some (front ++ more) := by
  have hparts (s : Text) : ((splitInclusive '\n' s).head?.getD []) <+: s := by
    induction s with
    | nil => exact List.prefix_rfl
    | cons c cs ih =>
      rw [splitInclusive]
      split_ifs
      · exact List.cons_prefix_cons.mpr ⟨rfl, List.nil_prefix⟩
      · cases hsplit : splitInclusive '\n' cs with
        | nil => exact List.cons_prefix_cons.mpr ⟨rfl, List.nil_prefix⟩
        | cons part rest =>
          rw [hsplit] at ih
          exact List.cons_prefix_cons.mpr ⟨rfl, ih⟩
  refine ⟨(splitInclusive '\n' back).head?.getD [], hparts back, ?_⟩
  induction front with
  | nil => exact absurd rfl hne
  | cons c cs ih =>
    have hc : c ≠ '\n' := fun heq => hclean (heq ▸ List.mem_cons_self)
    rw [List.cons_append, splitInclusive, if_neg hc]
    cases cs with
    | nil => rw [List.nil_append]; cases splitInclusive '\n' back <;> rfl
    | cons d ds =>
      have hrest := ih (List.cons_ne_nil d ds) fun hmem => hclean (List.mem_cons_of_mem _ hmem)
      cases hsplit : splitInclusive '\n' (d :: ds ++ back) with
      | nil =>
        rw [hsplit] at hrest
        cases hrest
      | cons part rest =>
        rw [hsplit, List.head?_cons, Option.some.injEq] at hrest
        rw [hrest]
        rfl

/-- The status is the second word, whatever follows it. -/
theorem parseStatus_append {front version number back : Text} (hclean : '\n' ∉ front)
    (hwords : splitWhitespace front = [version, number])
    (hback : ∀ c ∈ back.head?, isWhitespace c = true) :
    parseStatus (front ++ back) = parseUnsigned 16 number := by
  have hne : front ≠ [] := by
    rintro rfl
    cases hwords
  obtain ⟨more, hmore, hhead⟩ := head?_splitInclusive hne hclean back
  have hblank : ∀ c ∈ more.head?, isWhitespace c = true := by
    obtain ⟨rest, rfl⟩ := hmore
    cases more with
    | nil => exact fun c hc => nomatch hc
    | cons c cs => exact hback
  have hline : (lines (front ++ back)).head? = some (stripLineEnd (front ++ more)) := by
    rw [lines, List.head?_map, hhead]
    rfl
  have hsecond : (splitWhitespace (stripLineEnd (front ++ more)))[1]? = some number := by
    rw [splitWhitespace_stripLineEnd, splitWhitespace_eq, wordsBy_append_of_head front hblank,
      ← splitWhitespace_eq, hwords]
    rfl
  rw [parseStatus, hline, Option.bind_some, hsecond, Option.bind_some]

end Stormnetboot.Agent

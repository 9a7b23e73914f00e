import Mathlib.Tactic.FinCases
import Stormnetboot.Common.JsonGrammar
import Stormnetboot.Common.JsonText
import Stormnetboot.Init.BootOps
import Stormnetboot.Init.MediaReturns
import Stormnetboot.Init.Report
import Stormnetboot.Server.PhaseReport

/-!
# Whether the server takes what the initramfs reports

The initramfs writes its reports by hand: phase names at the place of each step, and a JSON body
with its own escaping. The server extracts a body with its web framework, which is given here by
what it is documented to do, and matches the phase against a list of its own. A report is taken
or refused by its phase and its size alone, whatever the error text it carries.
-/

namespace Stormnetboot.Boot

open Stormnetboot.Common Stormnetboot.Common.JsonText Stormnetboot.Init Stormnetboot.Server

/-! ## The body -/

/-- The character a report carries for a character: a space for the control characters it has no
escape for. -/
def sentChar (c : Char) : Char :=
  if c = '\n' ∨ c = '\r' ∨ c = '\t' then c
  else if c.toNat < 0x20 then ' '
  else c

/-- The text a report carries for a text. -/
def sentText (s : Text) : Text :=
  s.map sentChar

/-- A written character is the literal of the character that was sent. -/
theorem literal_escapeChar (c : Char) : Literal (escapeChar c) [sentChar c] := by
  by_cases hescaped : c ∈ ['"', '\\', '\n', '\r', '\t']
  · fin_cases hescaped
    all_goals exact .escaped (by decide) .nil
  · simp only [List.mem_cons, List.not_mem_nil, or_false, not_or] at hescaped
    obtain ⟨hquote, hbackslash, hnewline, hreturn, htab⟩ := hescaped
    have hsent : sentChar c = if c.toNat < 0x20 then ' ' else c := by
      rw [sentChar, if_neg (by simp [hnewline, hreturn, htab])]
    rw [escapeChar, if_neg hquote, if_neg hbackslash, if_neg hnewline, if_neg hreturn,
      if_neg htab, hsent]
    split_ifs with hcontrol
    · exact .plain (by decide) (by decide) (by decide) .nil
    · exact .plain hquote hbackslash (by omega) .nil

/-- An escaped text is a literal of what is sent. -/
theorem literal_escape (s : Text) : Literal (escape s) (sentText s) := by
  induction s with
  | nil => exact .nil
  | cons c rest ih => exact (literal_escapeChar c).append ih

/-- What is not a control character is sent as it is. -/
theorem sentChar_eq_self {c : Char} (h : 0x20 ≤ c.toNat) : sentChar c = c := by
  unfold sentChar
  split_ifs with _ hcontrol
  · rfl
  · omega
  · rfl

/-- A text without control characters is sent as it is, and needs no escape but for a quote and a
backslash. -/
theorem sentText_eq_self {s : Text} (h : ∀ c ∈ s, 0x20 ≤ c.toNat) : sentText s = s := by
  induction s with
  | nil => rfl
  | cons c rest ih =>
    rw [sentText, List.map_cons, sentChar_eq_self (h c List.mem_cons_self)]
    exact congrArg (c :: ·) (ih fun c hc => h c (List.mem_cons_of_mem _ hc))

/-- The members of a report, as literals and as what they denote. -/
def reportLiterals (mac phase : Text) (detail : Option Text) : List (Text × Text) :=
  [("mac".toList, escape mac), ("phase".toList, escape phase)] ++
    (detail.map fun detail => ("detail".toList, escape detail)).toList

/-- The fields of a report, with the texts they carry. -/
def reportValues (mac phase : Text) (detail : Option Text) : List (Text × Text) :=
  [("mac".toList, sentText mac), ("phase".toList, sentText phase)] ++
    (detail.map fun detail => ("detail".toList, sentText detail)).toList

/-- The body is the object of its literals. -/
theorem buildBody_eq (mac phase : Text) (detail : Option Text) :
    buildBody mac phase detail = objectText (reportLiterals mac phase detail) := by
  have hmac : "\x7b\"mac\":\"".toList =
      "\x7b".toList ++ ("\"".toList ++ ("mac".toList ++ "\":\"".toList)) := by decide
  have hphase : "\",\"phase\":\"".toList = "\"".toList ++ (",".toList ++
      ("\"".toList ++ ("phase".toList ++ "\":\"".toList))) := by decide
  have hdetail : ",\"detail\":\"".toList =
      ",".toList ++ ("\"".toList ++ ("detail".toList ++ "\":\"".toList)) := by decide
  cases detail with
  | none =>
    have hmembers : reportLiterals mac phase none =
        [("mac".toList, escape mac), ("phase".toList, escape phase)] := rfl
    have hbody : buildBody mac phase none = "\x7b\"mac\":\"".toList ++ escape mac ++
        "\",\"phase\":\"".toList ++ escape phase ++ "\"".toList ++ [] ++ "\x7d".toList := rfl
    simp only [hbody, objectText, hmembers, joinWith_members_cons, joinWith_member, hmac, hphase,
      memberText, List.append_assoc, List.nil_append]
  | some detail =>
    have hmembers : reportLiterals mac phase (some detail) =
        [("mac".toList, escape mac), ("phase".toList, escape phase),
          ("detail".toList, escape detail)] := rfl
    have hbody : buildBody mac phase (some detail) = "\x7b\"mac\":\"".toList ++ escape mac ++
        "\",\"phase\":\"".toList ++ escape phase ++ "\"".toList ++
        (",\"detail\":\"".toList ++ escape detail ++ "\"".toList) ++ "\x7d".toList := rfl
    simp only [hbody, objectText, hmembers, joinWith_members_cons, joinWith_member, hmac, hphase,
      hdetail, memberText, List.append_assoc]

/-- A name of lower-case letters denotes itself. -/
theorem literal_self {name : Text} (h : ∀ c ∈ name, 'a' ≤ c ∧ c ≤ 'z') : Literal name name := by
  induction name with
  | nil => exact .nil
  | cons c rest ih =>
    have hc := (h c List.mem_cons_self).1
    have hrest := ih fun c hc => h c (List.mem_cons_of_mem _ hc)
    refine .plain ?_ ?_ ?_ hrest
    · rintro rfl
      exact absurd hc (by decide)
    · rintro rfl
      exact absurd hc (by decide)
    · exact le_trans (by decide) (Char.le_def.mp hc)

/-- The literals denote the fields. -/
theorem reportLiterals_denote (mac phase : Text) (detail : Option Text) :
    List.Forall₂ Denotes (reportLiterals mac phase detail) (reportValues mac phase detail) := by
  have hmac : Literal "mac".toList "mac".toList := literal_self (by decide)
  have hphase : Literal "phase".toList "phase".toList := literal_self (by decide)
  have hdetail : Literal "detail".toList "detail".toList := literal_self (by decide)
  refine .cons ⟨hmac, literal_escape mac⟩ (.cons ⟨hphase, literal_escape phase⟩ ?_)
  cases detail with
  | none => exact .nil
  | some detail => exact .cons ⟨hdetail, literal_escape detail⟩ .nil

/-- No two fields have one name. -/
theorem names_reportValues_nodup (mac phase : Text) (detail : Option Text) :
    ((reportValues mac phase detail).map (·.1)).Nodup := by
  cases detail with
  | none => exact (by decide : (words ["mac", "phase"]).Nodup)
  | some detail => exact (by decide : (words ["mac", "phase", "detail"]).Nodup)

/-- Whatever it reports, the body is JSON and stands for one value: the object of these members,
no name of which occurs twice. No text that is reported ends its string early. -/
theorem document_buildBody_iff (mac phase : Text) (detail : Option Text) :
    (∀ tree, JsonGrammar.Document (buildBody mac phase detail) tree ↔
        tree = JsonGrammar.stringObject (reportValues mac phase detail)) ∧
      (∀ members, JsonGrammar.Document (buildBody mac phase detail)
          (JsonGrammar.stringObject members) ↔ members = reportValues mac phase detail) ∧
      ((reportValues mac phase detail).map (·.1)).Nodup := by
  have hdocument (tree : JsonGrammar.Tree) :
      JsonGrammar.Document (buildBody mac phase detail) tree ↔
        tree = JsonGrammar.stringObject (reportValues mac phase detail) := by
    rw [buildBody_eq]
    exact JsonGrammar.document_objectText_iff (reportLiterals_denote mac phase detail) tree
  refine ⟨hdocument, fun members => ?_, names_reportValues_nodup mac phase detail⟩
  rw [hdocument]
  exact JsonGrammar.stringObject_injective.eq_iff

/-- The server reads the report out of them. -/
theorem ofMembers_reportValues (mac phase : Text) (detail : Option Text) :
    ReportRequest.ofMembers (reportValues mac phase detail) =
      some ⟨sentText mac, sentText phase, detail.map sentText⟩ := by
  cases detail with
  | none => rfl
  | some detail => rfl

/-! ## The server's side -/

/-- What the server's extractor of a JSON body is documented to do with a report: an object of
strings is read as the fields it holds, and a body beyond the limit is refused unread. -/
structure ExtractsReports (extract : Text → Option ReportRequest) (limit : ℕ) : Prop where
  reads : ∀ members values, List.Forall₂ Denotes members values → (values.map (·.1)).Nodup →
    utf8Len (objectText members) ≤ limit →
      extract (objectText members) = ReportRequest.ofMembers values
  refuses : ∀ body, limit < utf8Len body → extract body = none

/-- The body is extracted, the phase is known, and the observation is recorded. -/
def Accepted (extract : Text → Option ReportRequest) (mac : Mac) (phase body : Text) : Prop :=
  ∃ req known, extract body = some req ∧ parsePhase phase = some known ∧
    ∀ moment boot, report moment req boot = .ok (boot.observe moment mac known req.detail)

/-- A character that the MAC parser takes is printable. -/
theorem printable_of_parseChar {acc next : Vector UInt8 12 × ℕ} {c : Char}
    (h : Mac.parseChar acc c = .ok next) : 0x20 ≤ c.toNat := by
  by_cases hseparator : Mac.isSeparator c = true
  · simp only [Mac.isSeparator, Bool.or_eq_true, beq_iff_eq] at hseparator
    rcases hseparator with (((rfl | rfl) | rfl) | rfl) | rfl
    all_goals decide
  · rw [Mac.parseChar, if_neg hseparator] at h
    cases hdigit : hexDigit c with
    | none =>
      rw [hdigit] at h
      cases h
    | some digit =>
      unfold hexDigit at hdigit
      simp only at hdigit
      split_ifs at hdigit
      all_goals omega

/-- The characters of a MAC are printable. -/
theorem printable_of_parse {text : Text} {mac : Mac} (h : Mac.parse text = .ok mac) :
    ∀ c ∈ text, 0x20 ≤ c.toNat := by
  have hfold : ∀ (text : Text) (acc result : Vector UInt8 12 × ℕ),
      text.foldlM Mac.parseChar acc = .ok result → ∀ c ∈ text, 0x20 ≤ c.toNat := by
    intro text
    induction text with
    | nil => exact fun _ _ _ c hc => by cases hc
    | cons first rest ih =>
      intro acc result hok c hc
      rw [List.foldlM_cons] at hok
      obtain ⟨next, hnext, hrest⟩ := (except_bind_eq_ok ..).mp hok
      rcases List.mem_cons.mp hc with rfl | hc
      · exact printable_of_parseChar hnext
      · exact ih next result hrest c hc
  unfold Mac.parse at h
  obtain ⟨result, hresult, -⟩ := (except_bind_eq_ok ..).mp h
  exact hfold text _ result hresult

section

variable {extract : Text → Option ReportRequest} {limit : ℕ}

/-- A report within the limit is extracted as it was sent. -/
theorem extract_buildBody (hextract : ExtractsReports extract limit) {mac phase : Text}
    {detail : Option Text} (hfits : utf8Len (buildBody mac phase detail) ≤ limit) :
    extract (buildBody mac phase detail) =
      some ⟨sentText mac, sentText phase, detail.map sentText⟩ := by
  rw [buildBody_eq] at hfits ⊢
  rw [hextract.reads _ _ (reportLiterals_denote mac phase detail)
    (names_reportValues_nodup mac phase detail) hfits, ofMembers_reportValues]

/-- The server knows every phase of the initramfs but one. -/
theorem parsePhase_initPhases {phase : Text} (hphase : phase ∈ initPhases) :
    sentText phase = phase ∧
      ((parsePhase phase).isSome ↔ phase ≠ "media-updated".toList) := by
  have hall : ∀ phase ∈ initPhases, sentText phase = phase ∧
      ((parsePhase phase).isSome ↔ phase ≠ "media-updated".toList) := by decide
  exact hall phase hphase

/-- A report of the initramfs is accepted by its phase and its size alone. -/
theorem accepted_iff (hextract : ExtractsReports extract limit) {macText : Text} {mac : Mac}
    (hmac : Mac.parse macText = .ok mac) {phase : Text} (hphase : phase ∈ initPhases)
    (detail : Option Text) :
    Accepted extract mac phase (buildBody macText phase detail) ↔
      phase ≠ "media-updated".toList ∧ utf8Len (buildBody macText phase detail) ≤ limit := by
  obtain ⟨hsent, hknown⟩ := parsePhase_initPhases hphase
  constructor
  · rintro ⟨req, known, hreq, hparse, -⟩
    refine ⟨hknown.mp (by rw [hparse]; rfl), ?_⟩
    by_contra hlong
    rw [hextract.refuses _ (not_le.mp hlong)] at hreq
    cases hreq
  · rintro ⟨hne, hfits⟩
    obtain ⟨known, hparse⟩ := Option.isSome_iff_exists.mp (hknown.mpr hne)
    refine ⟨_, known, extract_buildBody hextract hfits, hparse, fun moment boot => ?_⟩
    rw [report, sentText_eq_self (printable_of_parse hmac), hsent]
    simp only [hmac, hparse]

end

/-! ## The reports of a boot -/

/-- What a boot reports, in order. -/
def reportsOf {σ : Type} (h : Handler SysOp SysOp.Ans σ) (params : BootParams) (s : σ) :
    List (Text × Option Text) :=
  (Program.trace h (reportRun params) s).filterMap fun
    | .report phase detail => some (phase, detail)
    | _ => none

/-- A report is posted where the reporter has something to connect to, with the body it builds. -/
def Posts {σ : Type} (h : Handler SysOp SysOp.Ans σ) (params : BootParams) (s : σ) (phase : Text)
    (detail : Option Text) (body : Text) : Prop :=
  (phase, detail) ∈ reportsOf h params s ∧
    ∃ url macText target, params.reportUrl = some url ∧ params.mac = some macText ∧
      splitUrl url = .ok target ∧ body = buildBody macText phase detail

/-- Everything a boot posts is accepted. -/
def AllAccepted {σ : Type} (extract : Text → Option ReportRequest) (mac : Mac)
    (h : Handler SysOp SysOp.Ans σ) (params : BootParams) (s : σ) : Prop :=
  ∀ phase detail body, Posts h params s phase detail body → Accepted extract mac phase body

/-- A boot reports only the phases of its own list. -/
theorem phase_of_mem_reportsOf {σ : Type} {h : Handler SysOp SysOp.Ans σ} {params : BootParams}
    {s : σ} {phase : Text} {detail : Option Text} (hmem : (phase, detail) ∈ reportsOf h params s) :
    phase ∈ initPhases := by
  obtain ⟨op, hop, heq⟩ := List.mem_filterMap.mp hmem
  have hreports := (reportRun_reportsPhase params).of_mem_trace hop
  cases op with
  | report phase' detail' =>
    cases heq
    exact hreports
  | _ => cases heq

/-- In any boot, all that is posted is accepted exactly if the boot posts no media update and no
report beyond the size the server reads. -/
theorem posts_accepted_iff {extract : Text → Option ReportRequest} {limit : ℕ}
    (hextract : ExtractsReports extract limit) {σ : Type} (h : Handler SysOp SysOp.Ans σ)
    (params : BootParams) (s : σ) (macText : Text) (mac : Mac) (htext : params.mac = some macText)
    (hmac : Mac.parse macText = .ok mac) :
    AllAccepted extract mac h params s ↔
      ∀ phase detail body, Posts h params s phase detail body →
        phase ≠ "media-updated".toList ∧ utf8Len body ≤ limit := by
  refine forall₃_congr fun phase detail body => imp_congr_right fun hposts => ?_
  obtain ⟨hmem, url, text, target, -, htext', -, rfl⟩ := hposts
  cases htext.symm.trans htext'
  exact accepted_iff hextract hmac (phase_of_mem_reportsOf hmem) detail

/-! ## A node that rewrites its media -/

namespace Updated

/-- An extractor that reads the objects of strings it is sent. -/
def extract (limit : ℕ) (body : Text) : Option ReportRequest :=
  if utf8Len body ≤ limit then (readObject body).bind ReportRequest.ofMembers else none

/-- A reader of the JSON grammar is such an extractor. -/
theorem extractsReports (limit : ℕ) : ExtractsReports (extract limit) limit where
  reads members values hdenote _ hfits := by
    rw [extract, if_pos hfits, readObject_objectText hdenote]
    rfl
  refuses body hlong := by rw [extract, if_neg (not_le.mpr hlong)]

/-- The framework's limit on a body, where the server sets no other. -/
def bodyLimit : ℕ := 2097152

/-- The machine of the runs below. -/
def mac : Mac := .ofOctets 0xaa 0xbb 0xcc 0xdd 0xee 0x01

/-- A node with a report URL that boots from its disk. -/
def node : BootParams where
  slabs := ["/dev/sda".toList]
  reportUrl := some "http://10.0.0.5:8080".toList
  mac := some "aa:bb:cc:dd:ee:01".toList

/-- The same node with a boot stick to refresh. -/
def stickNode : BootParams :=
  { node with mediaDev := some "/dev/sdb1".toList }

/-- A golden with other media than the stick's, and a handover that fails at the end. -/
def system : Handler SysOp SysOp.Ans Unit :=
  obliging (some "pallet=sha256:b\n".toList) (some "pallet=sha256:a\n".toList)

/-- The node reports each step up to the handover, which fails here. -/
theorem reportsOf_node : reportsOf system node () =
    [("assets-fetched".toList, none), ("root-attached".toList, none), ("running".toList, none),
      ("failed".toList, some "switch_root failed: ".toList)] :=
  rfl

/-- The node on a stick reports its update too. -/
theorem reportsOf_stickNode : reportsOf system stickNode () =
    [("assets-fetched".toList, none), ("root-attached".toList, none),
      ("media-updated".toList, some "a -> b".toList), ("running".toList, none),
      ("failed".toList, some "switch_root failed: ".toList)] :=
  rfl

/-- The node's MAC parses. -/
theorem parse_mac : Mac.parse "aa:bb:cc:dd:ee:01".toList = .ok mac := by
  decide

end Updated

/-- Without a stick every report of the node is accepted. -/
theorem allAccepted_node :
    AllAccepted (Updated.extract Updated.bodyLimit) Updated.mac Updated.system Updated.node () := by
  refine (posts_accepted_iff (Updated.extractsReports Updated.bodyLimit) Updated.system Updated.node
    () "aa:bb:cc:dd:ee:01".toList Updated.mac rfl Updated.parse_mac).mpr fun phase detail body h => ?_
  obtain ⟨hmem, url, text, target, -, htext, -, rfl⟩ := h
  cases htext
  have hall : ∀ report ∈ reportsOf Updated.system Updated.node (),
      report.1 ≠ "media-updated".toList ∧
        utf8Len (buildBody "aa:bb:cc:dd:ee:01".toList report.1 report.2) ≤ Updated.bodyLimit := by
    rw [Updated.reportsOf_node]
    decide
  exact hall (phase, detail) hmem

/-- With one the server reads the report of the update and refuses its phase. -/
theorem not_allAccepted_stickNode :
    (∃ body, Posts Updated.system Updated.stickNode () "media-updated".toList
      (some "a -> b".toList) body ∧
        ∃ req, Updated.extract Updated.bodyLimit body = some req ∧ ∀ moment boot,
          report moment req boot = .error (.unknownPhase "media-updated".toList)) ∧
      ¬AllAccepted (Updated.extract Updated.bodyLimit) Updated.mac Updated.system
        Updated.stickNode () := by
  have hposts : Posts Updated.system Updated.stickNode () "media-updated".toList
      (some "a -> b".toList)
      (buildBody "aa:bb:cc:dd:ee:01".toList "media-updated".toList (some "a -> b".toList)) := by
    refine ⟨?_, _, _, ("10.0.0.5:8080".toList, "10.0.0.5:8080".toList), rfl, rfl, by decide,
      rfl⟩
    rw [Updated.reportsOf_stickNode]
    decide
  have hread : Updated.extract Updated.bodyLimit
      (buildBody "aa:bb:cc:dd:ee:01".toList "media-updated".toList (some "a -> b".toList)) =
        some ⟨"aa:bb:cc:dd:ee:01".toList, "media-updated".toList, some "a -> b".toList⟩ := by
    decide
  have hunknown : parsePhase "media-updated".toList = none := by decide
  refine ⟨⟨_, hposts, _, hread, fun moment boot => ?_⟩, fun haccepted => ?_⟩
  · simp only [report, Updated.parse_mac, hunknown]
  · obtain ⟨req, known, -, hknown, -⟩ := haccepted _ _ _ hposts
    rw [hunknown] at hknown
    cases hknown

end Stormnetboot.Boot

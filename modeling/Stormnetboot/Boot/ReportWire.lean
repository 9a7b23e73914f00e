import Stormnetboot.Agent.Reporter
import Stormnetboot.Init.Report
import Stormnetboot.Init.Settings

/-!
# What two reporters write

A node reports from inside its initramfs and again once it runs, each time with a client written
for the purpose. Both write their request by hand. What either writes is read as one request, with
the body whole and nothing behind it; they are sent to the same place as long as nothing but
slashes follows the authority of the URL, since the initramfs drops what does and the agent keeps
it in front of the path.
-/

namespace Stormnetboot.Boot

open Stormnetboot.Common Stormnetboot.Init

/-- Where a report is posted to. -/
def reportPath : Text := "/api/v1/report".toList

/-- The reporting path is one word. -/
theorem solid_reportPath : Solid isWhitespace reportPath := by
  decide

/-! ## URLs -/

/-- A URL of an authority and what follows it. -/
def urlOf (authority path : Text) : Text :=
  "http://".toList ++ authority ++ path

/-- An authority, and what can follow it. -/
structure PlainUrl (authority path : Text) : Prop where
  ne_nil : authority ≠ []
  noSlash : '/' ∉ authority
  solid : Solid isWhitespace authority
  slash : ∀ c, path.head? = some c → c = '/'
  solidPath : Solid isWhitespace path

/-- A plain URL is split into its address, with the port that http has, and its authority. -/
theorem splitUrl_urlOf {authority path : Text} (h : PlainUrl authority path) :
    splitUrl (urlOf authority path) =
      .ok (if ':' ∈ authority then authority else authority ++ ":80".toList, authority) := by
  have hstrip : stripPrefix "http://".toList (urlOf authority path) = some (authority ++ path) := by
    exact (stripPrefix_eq_some_iff ..).mpr (List.append_assoc ..)
  have htake : (authority ++ path).takeWhile (· ≠ '/') = authority := by
    have hclean : ∀ c ∈ authority, decide (c ≠ '/') = true := fun c hc =>
      decide_eq_true fun heq => h.noSlash (heq ▸ hc)
    rw [List.takeWhile_append_of_pos hclean]
    cases hpath : path with
    | nil => simp
    | cons c rest => simp [h.slash c (by rw [hpath]; rfl)]
  rw [splitUrl, hstrip]
  simp only
  rw [htake, if_neg (by simpa using h.ne_nil)]
  split_ifs <;> rfl

/-- A URL that can be taken apart is an authority and what follows it; its host is what is connected
to, but for a port that it does not name. -/
theorem exists_urlOf_of_splitUrl {url hostPort host : Text} (hsolid : Solid isWhitespace url)
    (h : splitUrl url = .ok (hostPort, host)) :
    ∃ path, url = urlOf host path ∧ PlainUrl host path ∧
      hostPort = if ':' ∈ host then host else host ++ ":80".toList := by
  unfold splitUrl at h
  cases hstrip : stripPrefix "http://".toList url with
  | none =>
    rw [hstrip] at h
    cases h
  | some rest =>
    rw [hstrip] at h
    simp only at h
    have hurl : url = urlOf (rest.takeWhile (· ≠ '/')) (rest.dropWhile (· ≠ '/')) := by
      have hrest : rest.takeWhile (· ≠ '/') ++ rest.dropWhile (· ≠ '/') = rest :=
        List.takeWhile_append_dropWhile
      unfold urlOf
      rw [List.append_assoc, hrest]
      exact (stripPrefix_eq_some_iff ..).mp hstrip
    have hall : Solid isWhitespace
        (urlOf (rest.takeWhile (· ≠ '/')) (rest.dropWhile (· ≠ '/'))) := hurl ▸ hsolid
    have hplain : rest.takeWhile (· ≠ '/') ≠ [] →
        PlainUrl (rest.takeWhile (· ≠ '/')) (rest.dropWhile (· ≠ '/')) := fun hne => {
      ne_nil := hne
      noSlash := fun hmem => by simpa using List.mem_takeWhile_imp hmem
      solid := fun c hc => hall c (List.mem_append_left _ (List.mem_append_right _ hc))
      slash := fun c hc => by
        have hdrop := List.head?_dropWhile_not (fun c => decide (c ≠ '/')) rest
        rw [hc] at hdrop
        simpa using hdrop
      solidPath := fun c hc => hall c (List.mem_append_right _ hc) }
    split_ifs at h with hempty hport
    · cases h
      exact ⟨_, hurl, hplain (by simpa using hempty), (if_pos hport).symm⟩
    · cases h
      exact ⟨_, hurl, hplain (by simpa using hempty), (if_neg hport).symm⟩

/-! ## The initramfs -/

/-- What the initramfs writes is a posted body. -/
theorem message_of_splitUrl {url mac hostPort host : Text} (hsplit : splitUrl url = .ok (hostPort, host))
    (phase : Text) (detail : Option Text) :
    (Reporter.mk (some url) (some mac)).message phase detail = .ok (some (hostPort,
      (HttpRequest.jsonPost host reportPath (buildBody mac phase detail)).text)) := by
  have hline : "POST ".toList ++ reportPath ++ " HTTP/1.1\r\nHost: ".toList =
      "POST /api/v1/report HTTP/1.1\r\n".toList ++ "Host: ".toList := by decide
  have htype : "\r\nContent-Type: application/json\r\nContent-Length: ".toList =
      "\r\n".toList ++ ("Content-Type: application/json\r\n".toList ++
        "Content-Length: ".toList) := by decide
  have hclose : "\r\nConnection: close\r\n\r\n".toList =
      "\r\n".toList ++ "Connection: close\r\n\r\n".toList := by decide
  rw [HttpRequest.text_jsonPost, hline, htype, hclose]
  simp only [Reporter.message, hsplit, List.append_assoc]

/-- What the initramfs posts is a request that can be read back. -/
theorem wellFormed_earlyPost {authority path : Text} (h : PlainUrl authority path) (body : Text) :
    (HttpRequest.jsonPost authority reportPath body).WellFormed :=
  HttpRequest.wellFormed_jsonPost body h.solid (by decide) solid_reportPath

/-- What a boot sends from inside the initramfs, on any kernel line and whatever it reports, is one
request that posts the report it built to the host its report URL names, read with nothing left
over. -/
theorem read_message (cmdline phase : Text) (detail : Option Text) {target wire : Text}
    (hsent : (Reporter.mk (BootParams.parse cmdline).reportUrl (BootParams.parse cmdline).mac).message
      phase detail = .ok (some (target, wire))) :
    ∃ host path mac, (BootParams.parse cmdline).reportUrl = some (urlOf host path) ∧
      PlainUrl host path ∧ (BootParams.parse cmdline).mac = some mac ∧
      target = (if ':' ∈ host then host else host ++ ":80".toList) ∧
      HttpRequest.read wire =
        some (HttpRequest.jsonPost host reportPath (buildBody mac phase detail), []) := by
  have hset := BootParams.setBy_parse cmdline
  obtain ⟨url, mac, hurl, hmac, host, hsplit⟩ := Reporter.exists_of_message hsent
  change (BootParams.parse cmdline).reportUrl = some url at hurl
  change (BootParams.parse cmdline).mac = some mac at hmac
  have hsolid : Solid isWhitespace url := by
    refine solid_of_lastSetting ?_ (hset.reportUrl.symm.trans hurl)
    exact fun word hword => solid_of_mem_wordsBy hword
  obtain ⟨path, rfl, hplain, hport⟩ := exists_urlOf_of_splitUrl hsolid hsplit
  rw [hurl, hmac, message_of_splitUrl hsplit] at hsent
  simp only [Except.ok.injEq, Option.some.injEq, Prod.mk.injEq, true_and] at hsent
  have hread := HttpRequest.read_alone (wellFormed_earlyPost hplain (buildBody mac phase detail))
  rw [hsent] at hread
  exact ⟨host, path, mac, hurl, hplain, hmac, hport, hread⟩

/-- A node reports an attach that failed. -/
theorem read_message_failed : ∃ host path mac,
    (BootParams.parse
        "storm.report=http://10.0.0.5:8080/ storm.mac=aa:bb:cc:dd:ee:01".toList).reportUrl =
      some (urlOf host path) ∧ PlainUrl host path ∧
    (BootParams.parse "storm.report=http://10.0.0.5:8080/ storm.mac=aa:bb:cc:dd:ee:01".toList).mac =
      some mac ∧ "10.0.0.5:8080".toList = (if ':' ∈ host then host else host ++ ":80".toList) ∧
    HttpRequest.read (HttpRequest.jsonPost "10.0.0.5:8080".toList reportPath
        (buildBody "aa:bb:cc:dd:ee:01".toList "failed".toList (some "line\r\n\r\n".toList))).text =
      some (HttpRequest.jsonPost host reportPath
        (buildBody mac "failed".toList (some "line\r\n\r\n".toList)), []) :=
  read_message "storm.report=http://10.0.0.5:8080/ storm.mac=aa:bb:cc:dd:ee:01".toList
    "failed".toList (some "line\r\n\r\n".toList) (by
      have hparse : (BootParams.parse
          "storm.report=http://10.0.0.5:8080/ storm.mac=aa:bb:cc:dd:ee:01".toList).reportUrl =
            some "http://10.0.0.5:8080/".toList ∧ (BootParams.parse
          "storm.report=http://10.0.0.5:8080/ storm.mac=aa:bb:cc:dd:ee:01".toList).mac =
            some "aa:bb:cc:dd:ee:01".toList := by decide
      rw [hparse.1, hparse.2]
      exact message_of_splitUrl (by decide) _ _)

/-! ## The agent -/

/-- What is dropped at the end of a text is dropped behind a front that loses nothing itself. -/
theorem rdropWhile_append_of_kept {p : Char → Bool} {front : Text} (h : front.rdropWhile p = front)
    (back : Text) : (front ++ back).rdropWhile p = front ++ back.rdropWhile p := by
  induction back using List.reverseRecOn with
  | nil => rw [List.append_nil, h, List.rdropWhile_nil, List.append_nil]
  | append_singleton rest c ih =>
    rw [← List.append_assoc, List.rdropWhile_concat, List.rdropWhile_concat, ih]
    split_ifs
    · rfl
    · exact List.append_assoc ..

/-- The slashes at the end of a URL are those behind its authority. -/
theorem trimEndSlashes_urlOf {authority path : Text} (h : PlainUrl authority path) :
    Agent.trimEndSlashes (urlOf authority path) = urlOf authority (Agent.trimEndSlashes path) := by
  refine rdropWhile_append_of_kept (List.rdropWhile_eq_self_iff.mpr fun hne => ?_) path
  rw [List.getLast_append_of_ne_nil _ h.ne_nil, decide_eq_true_eq]
  exact fun heq => h.noSlash (heq ▸ List.getLast_mem _)

/-- The agent posts to an endpoint behind the path of its URL. -/
theorem ureqPost_urlOf {authority path : Text} (h : PlainUrl authority path) (endpoint : Text)
    (hendpoint : endpoint.head? = some '/') (mac body : Text) :
    Agent.ureqPost ((Agent.Reporter.ofArgs (urlOf authority path) mac).url ++ endpoint) body =
      .ok (if ':' ∈ authority then authority else authority ++ ":80".toList,
        (HttpRequest.jsonPost authority (Agent.trimEndSlashes path ++ endpoint) body).text) := by
  have hurl : (Agent.Reporter.ofArgs (urlOf authority path) mac).url ++ endpoint =
      "http://".toList ++ authority ++ (Agent.trimEndSlashes path ++ endpoint) := by
    rw [Agent.Reporter.ofArgs, trimEndSlashes_urlOf h]
    exact List.append_assoc ..
  have hslash : (Agent.trimEndSlashes path ++ endpoint).head? = some '/' := by
    obtain ⟨rest, hrest⟩ := List.rdropWhile_prefix (fun c => decide (c = '/')) path
    cases htrim : Agent.trimEndSlashes path with
    | nil => exact hendpoint
    | cons c tail =>
      have hhead : path.head? = some c := by
        rw [← hrest, show path.rdropWhile (fun c => decide (c = '/')) = c :: tail from htrim]
        rfl
      rw [h.slash c hhead]
      rfl
  rw [hurl, Agent.ureqPost_eq, Agent.urlParts_of_path h.noSlash hslash]
  rfl

/-- What it posts there can be read back. -/
theorem wellFormed_agentPost {authority path : Text} (h : PlainUrl authority path) (endpoint : Text)
    (hne : endpoint ≠ []) (hsolid : Solid isWhitespace endpoint) (body : Text) :
    (HttpRequest.jsonPost authority (Agent.trimEndSlashes path ++ endpoint) body).WellFormed := by
  have htarget : Solid isWhitespace (Agent.trimEndSlashes path ++ endpoint) :=
    solid_append (fun c hc => h.solidPath c ((List.rdropWhile_prefix _ _).subset hc)) hsolid
  exact HttpRequest.wellFormed_jsonPost body h.solid
    (List.append_ne_nil_of_right_ne_nil _ hne) htarget

/-- Only slashes are trimmed away before the reporting path. -/
theorem trimEndSlashes_append_eq_iff (path : Text) :
    Agent.trimEndSlashes path ++ reportPath = reportPath ↔ ∀ c ∈ path, c = '/' := by
  rw [List.append_left_eq_self, Agent.trimEndSlashes, List.rdropWhile_eq_nil_iff]
  simp only [decide_eq_true_eq]

section Endpoints

variable (authority path mac phase : Text) (detail : Option Text)

/-- The request of the initramfs. -/
def earlyRequest : HttpRequest :=
  .jsonPost authority reportPath (buildBody mac phase detail)

/-- The request of the agent. -/
def lateRequest : HttpRequest :=
  .jsonPost authority (Agent.trimEndSlashes path ++ reportPath)
    ((Agent.Reporter.ofArgs (urlOf authority path) mac).reportJson phase detail).text

/-- Both reporters connect to the address and write one request each there; they post to the same
path exactly if only slashes follow the authority. -/
structure Reaches (address : Text) : Prop where
  early : ∃ wire, (Reporter.mk (some (urlOf authority path)) (some mac)).message phase detail =
      .ok (some (address, wire)) ∧
    HttpRequest.read wire = some (earlyRequest authority mac phase detail, [])
  late : ∃ wire,
    Agent.ureqPost ((Agent.Reporter.ofArgs (urlOf authority path) mac).url ++ reportPath)
        ((Agent.Reporter.ofArgs (urlOf authority path) mac).reportJson phase detail).text =
      .ok (address, wire) ∧
    HttpRequest.read wire = some (lateRequest authority path mac phase detail, [])
  samePath : (lateRequest authority path mac phase detail).target =
    (earlyRequest authority mac phase detail).target ↔ ∀ c ∈ path, c = '/'

variable {authority path}

/-- Given one URL, and whatever they report, both reporters reach the address it names. -/
theorem reaches_authority (h : PlainUrl authority path) : Reaches authority path mac phase detail
    (if ':' ∈ authority then authority else authority ++ ":80".toList) where
  early := ⟨_, message_of_splitUrl (splitUrl_urlOf h) phase detail,
    HttpRequest.read_alone (wellFormed_earlyPost h _)⟩
  late := ⟨_, ureqPost_urlOf h reportPath rfl mac _,
    HttpRequest.read_alone (wellFormed_agentPost h reportPath (by decide) solid_reportPath _)⟩
  samePath := trimEndSlashes_append_eq_iff path

end Endpoints

/-- A boot server behind a path of its own. -/
theorem reaches_prefixed : Reaches "boot.storm.lo".toList "/netboot/".toList
    "aa:bb:cc:dd:ee:01".toList "running".toList none "boot.storm.lo:80".toList :=
  reaches_authority "aa:bb:cc:dd:ee:01".toList "running".toList none
    ⟨by decide, by decide, by decide, fun _ h => (Option.some.inj h).symm, by decide⟩

end Stormnetboot.Boot

import Stormnetboot.Boot.ReportWire
import Stormnetboot.Common.Program
import Stormnetboot.Server.NodePosts

/-!
# What the agent learns of its posts

A post can be lost on its way, and so can its answer, wholly or in part. The agent sees only what
arrives of the answer. It is silent about a post exactly if the server recorded it and the status
line of the answer arrived, so its silence can be trusted; its complaint cannot, since an answer
may be lost behind a record. Nothing is recorded but what the post said.
-/

namespace Stormnetboot.Boot

open Stormnetboot.Common Stormnetboot.Server

/-- The boot server behind its HTTP library, by what the library is documented to do: it reads a
request that keeps to the grammar, and its answers begin with a status line. -/
structure BootServer where
  ex : Extractor
  readRequest : Text → Option HttpRequest
  reads : ∀ r : HttpRequest, r.WellFormed → readRequest r.text = some r
  answer : ℕ → Text
  statusLine : ∀ status, ∃ rest, answer status = "HTTP/1.1 ".toList ++ natText status ++ ' ' :: rest

/-- What becomes of a post on its way. -/
inductive Passage where
  /-- The server does not get the whole of it. -/
  | unreached (err : Text)
  /-- The server does, and the agent gives up before it has read any of the answer. -/
  | lost (err : Text)
  /-- So many characters of the answer arrive. -/
  | answered (length : ℕ)

namespace Passage

/-- The server gets the post. -/
def Reaches : Passage → Prop
  | .unreached _ => False
  | _ => True

/-- The agent gets the answer, as far as its status. -/
def Arrives : Passage → Prop
  | .answered length => 12 ≤ length
  | _ => False

end Passage

/-- What the server does with what is written to it. A request that cannot be read is a bad one. -/
def BootServer.handle (server : BootServer) (moment : Moment) (boot : BootState) (wire : Text) :
    ℕ × BootState :=
  match server.readRequest wire with
  | some r => servePost server.ex moment r boot
  | none => (400, boot)

/-- What the agent reads, and the state the server is left in. -/
def BootServer.exchange (server : BootServer) (moment : Moment) (boot : BootState)
    (passage : Passage) (wire : Text) : Except Text Text × BootState :=
  let (status, after) := server.handle moment boot wire
  match passage with
  | .unreached err => (.error err, boot)
  | .lost err => (.error err, after)
  | .answered length => (.ok ((server.answer status).take length), after)

/-- The network as the agent sees it. -/
def BootServer.network (server : BootServer) (moment : Moment) (boot : BootState)
    (passage : Passage) : Agent.Exchange :=
  fun sent => (server.exchange moment boot passage sent.2).1

/-- The state of the server after a post. -/
def BootServer.afterPost (server : BootServer) (moment : Moment) (boot : BootState)
    (passage : Passage) (url body : Text) : BootState :=
  match Agent.ureqPost url body with
  | .error _ => boot
  | .ok sent => (server.exchange moment boot passage sent.2).2

/-! ## The status that arrives -/

/-- A status a post is answered with. -/
def IsAnswer (status : ℕ) : Prop :=
  status = 202 ∨ IsError status

/-- The status of an answer has three digits. -/
theorem length_natText_of_isAnswer {status : ℕ} (h : IsAnswer status) :
    (natText status).length = 3 := by
  have hall : ∀ n < 100, (natText (400 + n)).length = 3 := by decide +kernel
  rcases h with rfl | ⟨hmin, hmax⟩
  · decide
  · obtain ⟨n, rfl⟩ := Nat.exists_eq_add_of_le hmin
    exact hall n (by omega)

/-- Of a status line that is cut off, no success is read. -/
theorem not_isSuccess_of_cut {status length : ℕ} (h : IsAnswer status) (hlength : length < 12) :
    ¬∃ code, Agent.parseStatus (("HTTP/1.1 ".toList ++ natText status).take length) = some code ∧
      Agent.Reporter.isSuccess code = true := by
  have hall : ∀ n < 100, ∀ length < 12, ((Agent.parseStatus
      (("HTTP/1.1 ".toList ++ natText (400 + n)).take length)).any Agent.Reporter.isSuccess) =
        false := by decide +kernel
  have haccepted : ∀ length < 12, ((Agent.parseStatus
      (("HTTP/1.1 ".toList ++ natText 202).take length)).any Agent.Reporter.isSuccess) = false := by
    decide
  have hnone : ((Agent.parseStatus (("HTTP/1.1 ".toList ++ natText status).take length)).any
      Agent.Reporter.isSuccess) = false := by
    rcases h with rfl | ⟨hmin, hmax⟩
    · exact haccepted length hlength
    · obtain ⟨n, rfl⟩ := Nat.exists_eq_add_of_le hmin
      exact hall n (by omega) length hlength
  rintro ⟨code, hcode, hsuccess⟩
  rw [hcode, Option.any_some, hsuccess] at hnone
  cases hnone

/-- A success is read of an answer exactly if the status is one and arrives. -/
theorem success_iff (server : BootServer) {status : ℕ} (h : IsAnswer status) (length : ℕ) :
    (∃ code, Agent.parseStatus ((server.answer status).take length) = some code ∧
      Agent.Reporter.isSuccess code = true) ↔ 12 ≤ length ∧ status = 202 := by
  obtain ⟨rest, hanswer⟩ := server.statusLine status
  have hlen : ("HTTP/1.1 ".toList ++ natText status).length = 12 := by
    rw [List.length_append, length_natText_of_isAnswer h]
    rfl
  rw [hanswer]
  rcases Nat.lt_or_ge length 12 with hlt | hge
  · have htake : ("HTTP/1.1 ".toList ++ natText status ++ ' ' :: rest).take length =
        ("HTTP/1.1 ".toList ++ natText status).take length :=
      List.take_append_of_le_length (by omega)
    rw [htake]
    exact iff_of_false (not_isSuccess_of_cut h hlt) fun hboth => absurd hboth.1 (by omega)
  · have htake : ("HTTP/1.1 ".toList ++ natText status ++ ' ' :: rest).take length =
        "HTTP/1.1 ".toList ++ natText status ++ (' ' :: rest).take (length - 12) := by
      rw [List.take_append, hlen, List.take_of_length_le (by omega)]
    have hclean : '\n' ∉ "HTTP/1.1 ".toList ++ natText status := by
      intro hmem
      rcases List.mem_append.mp hmem with hmem | hmem
      · exact absurd hmem (by decide)
      · exact absurd (solid_natText status '\n' hmem) (by decide)
    have hwords : splitWhitespace ("HTTP/1.1 ".toList ++ natText status) =
        ["HTTP/1.1".toList, natText status] := by
      have hline : "HTTP/1.1 ".toList ++ natText status =
          "HTTP/1.1".toList ++ ' ' :: natText status := rfl
      rw [hline, splitWhitespace_eq, wordsBy_append_cons _ _ (by decide),
        wordsBy_of_solid (by decide) (by decide),
        wordsBy_of_solid (solid_natText status) (natText_ne_nil status)]
      rfl
    have hback : ∀ c ∈ ((' ' :: rest).take (length - 12)).head?, isWhitespace c = true := by
      intro c hc
      cases hcount : length - 12 with
      | zero =>
        rw [hcount] at hc
        cases hc
      | succ n =>
        rw [hcount] at hc
        cases hc
        decide
    have hsmall : status < 2 ^ 16 := by
      rcases h with rfl | ⟨-, hmax⟩
      · decide
      · omega
    rw [htake, Agent.parseStatus_append hclean hwords hback, parseUnsigned_natText 16 status hsmall]
    simp only [Option.some.injEq, exists_eq_left', hge, true_and]
    rcases h with rfl | ⟨hmin, hmax⟩
    · exact iff_of_true (by decide) rfl
    · refine iff_of_false (fun hsuccess => ?_) (by omega)
      simp only [Agent.Reporter.isSuccess, Bool.and_eq_true, decide_eq_true_eq] at hsuccess
      omega

/-! ## One post -/

/-- What a post comes to that is this operation where it is recorded: what the agent complains of,
and the state it leaves. -/
structure Told (moment : Moment) (boot : BootState) (passage : Passage) (op : Option BootOp)
    (complaint : Option Text) (after : BootState) : Prop where
  silent : complaint = none ↔ passage.Arrives ∧ op.isSome
  reached : passage.Reaches → after = op.elim boot fun op => boot.apply ⟨moment, op⟩
  unreached : ¬passage.Reaches → after = boot

section Post

variable (server : BootServer) (moment : Moment) (boot : BootState) (passage : Passage)

/-- A request that is read is answered with a status of its own. -/
theorem handle_cases {r : HttpRequest} (hr : r.WellFormed) :
    ∃ status, IsAnswer status ∧ (status = 202 ↔ (postedOp server.ex r).isSome) ∧
      server.handle moment boot r.text =
        (status, (postedOp server.ex r).elim boot fun op => boot.apply ⟨moment, op⟩) := by
  have hcases := servePost_cases server.ex moment r boot
  have hhandle : server.handle moment boot r.text = servePost server.ex moment r boot := by
    rw [BootServer.handle, server.reads r hr]
  cases hop : postedOp server.ex r with
  | some op =>
    rw [hop] at hcases
    exact ⟨202, .inl rfl, by simp, hhandle.trans hcases⟩
  | none =>
    rw [hop] at hcases
    obtain ⟨status, herror, heq⟩ := hcases
    exact ⟨status, .inr herror, by have := herror.1; simp; omega, hhandle.trans heq⟩

/-- A post succeeds for the agent exactly if it is recorded and its status arrives; the state is
changed by what it says, or not at all. -/
theorem post_cases {url body target : Text} {r : HttpRequest}
    (hpost : Agent.ureqPost url body = .ok (target, r.text)) (hr : r.WellFormed)
    {complaint : Option Text}
    (hcomplaint : complaint = none ↔ ∃ response code,
      server.network moment boot passage (target, r.text) = .ok response ∧
        Agent.parseStatus response = some code ∧ Agent.Reporter.isSuccess code = true) :
    Told moment boot passage (postedOp server.ex r) complaint
      (server.afterPost moment boot passage url body) := by
  obtain ⟨status, hanswer, haccepted, hhandle⟩ := handle_cases server moment boot hr
  have hafter : server.afterPost moment boot passage url body =
      (server.exchange moment boot passage r.text).2 := by rw [BootServer.afterPost, hpost]
  have hnetwork : server.network moment boot passage (target, r.text) =
      (server.exchange moment boot passage r.text).1 := rfl
  rw [hnetwork] at hcomplaint
  rw [hafter]
  unfold BootServer.exchange at hcomplaint ⊢
  rw [hhandle] at hcomplaint ⊢
  cases passage with
  | unreached err => exact ⟨by simp [hcomplaint, Passage.Arrives], False.elim, fun _ => rfl⟩
  | lost err =>
    exact ⟨by simp [hcomplaint, Passage.Arrives], fun _ => rfl, fun h => absurd trivial h⟩
  | answered length =>
    refine ⟨hcomplaint.trans ?_, fun _ => rfl, fun h => absurd trivial h⟩
    simp only [Except.ok.injEq, exists_eq_left', exists_and_left]
    rw [success_iff server hanswer length, haccepted]
    rfl

end Post

/-! ## What the agent posts -/

/-- A report is read as it was written. -/
theorem ofJson_reportJson (reporter : Agent.Reporter) (phase : Text) (detail : Option Text) :
    ReportRequest.ofJson (reporter.reportJson phase detail) =
      some ⟨reporter.mac, phase, detail⟩ := by
  let fields : List (String × Option Json) := [("detail", detail.map .str),
    ("mac", some (.str reporter.mac)), ("phase", some (.str phase))]
  have hnodup : (fields.map Prod.fst).Nodup := by
    simp only [fields, List.map_cons, List.map_nil]
    decide
  have hget := Json.get_ofFields fields hnodup
  have honce := namesOnce_ofFields hnodup ["mac", "phase", "detail"]
  have hread : ReportRequest.ofJson (Json.ofFields fields) =
      ReportRequest.ofGet (Json.ofFields fields).get := if_pos honce
  have hdetail : (Json.ofFields fields).get "detail" = detail.map .str := hget "detail"
  have hmac : (Json.ofFields fields).get "mac" = some (.str reporter.mac) := hget "mac"
  have hphase : (Json.ofFields fields).get "phase" = some (.str phase) := hget "phase"
  refine hread.trans ?_
  rw [ReportRequest.ofGet, hdetail, hmac, hphase, readOptional_map_str]
  rfl

/-- The hardware as the server keeps it. -/
def hardwareOf (inv : Agent.Inventory) : Inventory where
  cpus := UInt32.ofNat inv.cpus.toNat
  memoryKb := inv.memoryKb
  product := inv.product
  serial := inv.serial
  disks := inv.disks

/-- The server counts processors in fewer bits than the agent. -/
theorem readU32_toNat (n : UInt64) : readU32 (.num n.toNat) =
    if n.toNat < 2 ^ 32 then some (UInt32.ofNat n.toNat) else none := by
  have hrange : (0 : ℤ) ≤ n.toNat ∧ (n.toNat : ℤ) < UInt32.size ↔ n.toNat < 2 ^ 32 := by
    have hsize : UInt32.size = 2 ^ 32 := rfl
    rw [hsize]
    omega
  rw [readU32, Int.toNat_natCast]
  exact if_congr hrange rfl rfl

/-- An inventory is read as it was written, unless the node has more processors than the server
counts. -/
theorem ofJson_inventoryJson (reporter : Agent.Reporter) (inv : Agent.Inventory) :
    InventoryRequest.ofJson (reporter.inventoryJson inv) =
      if inv.cpus.toNat < 2 ^ 32 then some ⟨reporter.mac, hardwareOf inv⟩ else none := by
  let fields : List (String × Option Json) := [("cpus", some (.num inv.cpus.toNat)),
    ("disks", some (.arr (inv.disks.map .str))), ("mac", some (.str reporter.mac)),
    ("memory_kb", some (.num inv.memoryKb.toNat)), ("product", inv.product.map .str),
    ("serial", inv.serial.map .str)]
  have hnodup : (fields.map Prod.fst).Nodup := by
    simp only [fields, List.map_cons, List.map_nil]
    decide
  have hget := Json.get_ofFields fields hnodup
  have honce := namesOnce_ofFields hnodup ["mac", "cpus", "memory_kb", "product", "serial", "disks"]
  have hread : InventoryRequest.ofJson (Json.ofFields fields) =
      InventoryRequest.ofGet (Json.ofFields fields).get := if_pos honce
  have hcpus : (Json.ofFields fields).get "cpus" = some (.num inv.cpus.toNat) := hget "cpus"
  have hdisks : (Json.ofFields fields).get "disks" = some (.arr (inv.disks.map .str)) :=
    hget "disks"
  have hmac : (Json.ofFields fields).get "mac" = some (.str reporter.mac) := hget "mac"
  have hmemory : (Json.ofFields fields).get "memory_kb" = some (.num inv.memoryKb.toNat) :=
    hget "memory_kb"
  have hproduct : (Json.ofFields fields).get "product" = inv.product.map .str := hget "product"
  have hserial : (Json.ofFields fields).get "serial" = inv.serial.map .str := hget "serial"
  have htext (disk : Text) : readText (.str disk) = some disk := rfl
  refine hread.trans ?_
  rw [InventoryRequest.ofGet, hmac, Inventory.ofGet, hcpus, hmemory, hproduct, hserial, hdisks,
    readOptional_map_str, readOptional_map_str, readDefault, readDefault, readU32_toNat,
    readU64_num, readList_map htext]
  split_ifs <;> rfl

/-- Neither body is deep, nor holds a large integer. -/
theorem within_reportJson (reporter : Agent.Reporter) (phase : Text) (detail : Option Text) :
    Json.Within 127 (reporter.reportJson phase detail) := by
  refine (Json.within_ofFields (n := 0) fun f hf value hvalue => ?_).mono (by decide)
  simp only [List.mem_cons, List.not_mem_nil, or_false] at hf
  rcases hf with rfl | rfl | rfl
  · exact within_map_str hvalue
  · cases hvalue
    exact .str 0 _
  · cases hvalue
    exact .str 0 _

/-- The inventory is not nested deeper than the parser goes. -/
theorem within_inventoryJson (reporter : Agent.Reporter) (inv : Agent.Inventory) :
    Json.Within 127 (reporter.inventoryJson inv) := by
  refine (Json.within_ofFields (n := 1) fun f hf value hvalue => ?_).mono (by decide)
  simp only [List.mem_cons, List.not_mem_nil, or_false] at hf
  rcases hf with rfl | rfl | rfl | rfl | rfl | rfl
  · cases hvalue
    exact Json.within_nat inv.cpus.toNat_lt 1
  · cases hvalue
    exact within_map (.str 0) inv.disks
  · cases hvalue
    exact .str 1 _
  · cases hvalue
    exact Json.within_nat inv.memoryKb.toNat_lt 1
  · exact within_map_str hvalue
  · exact within_map_str hvalue

/-- A post gives a status exactly if one is read of the answer. -/
theorem post_eq_ok_iff {reporter : Agent.Reporter} (network : Agent.Exchange) {path body : Text}
    {sent : Text × Text} (h : Agent.ureqPost (reporter.url ++ path) body = .ok sent) (code : ℕ) :
    reporter.post network path body = .ok code ↔
      ∃ response, network sent = .ok response ∧ Agent.parseStatus response = some code := by
  simp only [Agent.Reporter.post, except_bind_eq_ok, h, Except.ok.injEq, exists_eq_left']
  refine exists_congr fun response => and_congr_right fun _ => ?_
  cases Agent.parseStatus response with
  | none => simp
  | some status => simp

/-- A report is not lost exactly when it is answered with a success. -/
theorem report_eq_none_iff {reporter : Agent.Reporter} {network : Agent.Exchange} {phase : Text}
    {detail : Option Text} {sent : Text × Text}
    (h : Agent.ureqPost (reporter.url ++ reportPath) (reporter.reportJson phase detail).text =
      .ok sent) :
    reporter.report network phase detail = none ↔ ∃ response code, network sent = .ok response ∧
      Agent.parseStatus response = some code ∧ Agent.Reporter.isSuccess code = true := by
  have hpost := post_eq_ok_iff network h
  simp only [← and_assoc, exists_comm (α := Text), exists_and_right, ← hpost]
  have hpath : "/api/v1/report".toList = reportPath := rfl
  rw [Agent.Reporter.report, hpath]
  cases reporter.post network reportPath (reporter.reportJson phase detail).text with
  | error err => simp
  | ok status => by_cases hsuccess : Agent.Reporter.isSuccess status = true <;> simp [hsuccess]

/-- Where the inventory is posted to. -/
def inventoryPath : Text := "/api/v1/inventory".toList

/-- The same of the inventory. -/
theorem reportInventory_eq_none_iff {reporter : Agent.Reporter} {network : Agent.Exchange}
    {inv : Agent.Inventory} {sent : Text × Text}
    (h : Agent.ureqPost (reporter.url ++ inventoryPath) (reporter.inventoryJson inv).text =
      .ok sent) :
    reporter.reportInventory network inv = none ↔ ∃ response code, network sent = .ok response ∧
      Agent.parseStatus response = some code ∧ Agent.Reporter.isSuccess code = true := by
  have hpost := post_eq_ok_iff network h
  simp only [← and_assoc, exists_comm (α := Text), exists_and_right, ← hpost]
  have hpath : "/api/v1/inventory".toList = inventoryPath := rfl
  rw [Agent.Reporter.reportInventory, hpath]
  cases reporter.post network inventoryPath (reporter.inventoryJson inv).text with
  | error err => simp
  | ok status => by_cases hsuccess : Agent.Reporter.isSuccess status = true <;> simp [hsuccess]

section Told

variable (server : BootServer) (moment : Moment) (boot : BootState) (passage : Passage)
  {authority path : Text} (mac : Text)

/-- The operation a report is, if its body is not too long. -/
def reportOp (limit : ℕ) (reporter : Agent.Reporter) (phase : Text) (detail : Option Text) :
    Option BootOp :=
  if utf8Len (reporter.reportJson phase detail).text ≤ limit then
    ReportRequest.op ⟨reporter.mac, phase, detail⟩
  else none

/-- The operation an inventory is, if its body is not too long and the server can count as far. -/
def inventoryOp (limit : ℕ) (reporter : Agent.Reporter) (inv : Agent.Inventory) : Option BootOp :=
  if utf8Len (reporter.inventoryJson inv).text ≤ limit ∧ inv.cpus.toNat < 2 ^ 32 then
    InventoryRequest.op ⟨reporter.mac, hardwareOf inv⟩
  else none

/-- What the agent writes for a report is a request that is that operation. -/
theorem read_report (ex : Extractor) (h : PlainUrl authority path) (hpath : ∀ c ∈ path, c = '/')
    (phase : Text) (detail : Option Text) :
    let reporter := Agent.Reporter.ofArgs (urlOf authority path) mac
    ∃ target r, Agent.ureqPost (reporter.url ++ reportPath)
        (reporter.reportJson phase detail).text = .ok (target, HttpRequest.text r) ∧
      r.WellFormed ∧
        postedOp ex r = reportOp ex.limit reporter phase detail := by
  intro reporter
  have hpost := ureqPost_urlOf h reportPath rfl mac
    (reporter.reportJson phase detail).text
  have hformed := wellFormed_agentPost h reportPath (by decide) solid_reportPath
    (reporter.reportJson phase detail).text
  rw [(trimEndSlashes_append_eq_iff path).mpr hpath] at hpost hformed
  refine ⟨_, _, hpost, hformed, ?_⟩
  have hbody := ex.body_jsonPost ReportRequest.ofJson authority reportPath
    (within_reportJson reporter phase detail)
  have hroute : pathOf (HttpRequest.jsonPost authority reportPath
      (reporter.reportJson phase detail).text).target = "/api/v1/report".toList := rfl
  rw [postedOp, if_pos hroute, hbody, ofJson_reportJson, reportOp]
  split_ifs <;> rfl

/-- So it is for its inventory. -/
theorem read_inventory (ex : Extractor) (h : PlainUrl authority path) (hpath : ∀ c ∈ path, c = '/')
    (inv : Agent.Inventory) :
    let reporter := Agent.Reporter.ofArgs (urlOf authority path) mac
    ∃ target r, Agent.ureqPost (reporter.url ++ inventoryPath)
        (reporter.inventoryJson inv).text = .ok (target, HttpRequest.text r) ∧
      r.WellFormed ∧
        postedOp ex r = inventoryOp ex.limit reporter inv := by
  intro reporter
  have htrim : Agent.trimEndSlashes path = [] :=
    List.rdropWhile_eq_nil_iff.mpr fun c hc => decide_eq_true (hpath c hc)
  have hpost := ureqPost_urlOf h inventoryPath rfl mac
    (reporter.inventoryJson inv).text
  have hformed := wellFormed_agentPost h inventoryPath (by decide) (by decide)
    (reporter.inventoryJson inv).text
  rw [htrim, List.nil_append] at hpost hformed
  refine ⟨_, _, hpost, hformed, ?_⟩
  have hbody := ex.body_jsonPost InventoryRequest.ofJson authority inventoryPath
    (within_inventoryJson reporter inv)
  have hroute : pathOf (HttpRequest.jsonPost authority inventoryPath
      (reporter.inventoryJson inv).text).target = "/api/v1/inventory".toList := rfl
  have hother : pathOf (HttpRequest.jsonPost authority inventoryPath
      (reporter.inventoryJson inv).text).target ≠ "/api/v1/report".toList := by
    rw [hroute]
    decide
  rw [postedOp, if_neg hother, if_pos hroute, hbody, ofJson_inventoryJson, inventoryOp]
  by_cases hsize : utf8Len (reporter.inventoryJson inv).text ≤ ex.limit
  · by_cases hcpus : inv.cpus.toNat < 2 ^ 32
    · rw [if_pos hsize, if_pos hcpus, if_pos ⟨hsize, hcpus⟩]
      rfl
    · rw [if_pos hsize, if_neg hcpus, if_neg fun hboth => hcpus hboth.2]
      rfl
  · rw [if_neg hsize, if_neg fun hboth => hsize hboth.1]
    rfl

/-- The agent's report, whatever becomes of it: the agent is silent exactly if the server recorded
it and said so. -/
theorem report_told (h : PlainUrl authority path) (hpath : ∀ c ∈ path, c = '/') (phase : Text)
    (detail : Option Text) :
    let reporter := Agent.Reporter.ofArgs (urlOf authority path) mac
    Told moment boot passage (reportOp server.ex.limit reporter phase detail)
      (reporter.report (server.network moment boot passage) phase detail)
      (server.afterPost moment boot passage (reporter.url ++ reportPath)
        (reporter.reportJson phase detail).text) := by
  intro reporter
  obtain ⟨target, r, hpost, hformed, hop⟩ := read_report mac server.ex h hpath phase detail
  rw [← hop]
  exact post_cases server moment boot passage hpost hformed (report_eq_none_iff hpost)

/-- So it is about its inventory. -/
theorem inventory_told (h : PlainUrl authority path) (hpath : ∀ c ∈ path, c = '/')
    (inv : Agent.Inventory) :
    let reporter := Agent.Reporter.ofArgs (urlOf authority path) mac
    Told moment boot passage (inventoryOp server.ex.limit reporter inv)
      (reporter.reportInventory (server.network moment boot passage) inv)
      (server.afterPost moment boot passage (reporter.url ++ inventoryPath)
        (reporter.inventoryJson inv).text) := by
  intro reporter
  obtain ⟨target, r, hpost, hformed, hop⟩ := read_inventory mac server.ex h hpath inv
  rw [← hop]
  exact post_cases server moment boot passage hpost hformed (reportInventory_eq_none_iff hpost)

end Told

/-- A boot server with a library that reads HTTP and JSON by their grammars. -/
noncomputable def grammarServer : BootServer where
  ex := {
    read := Json.readMeaning
    reads := Json.reads_readMeaning
    isJson := fun r => HttpRequest.valuesOf "content-type" r.fields = ["application/json".toList]
    announced := fun _ h => decide_eq_true h
    limit := 2097152
    refuse := fun _ => 422
    refuses := fun _ => by decide }
  readRequest wire := (HttpRequest.read wire).map Prod.fst
  reads r hr := by rw [HttpRequest.read_alone hr, Option.map_some]
  answer status := "HTTP/1.1 ".toList ++ natText status ++ ' ' :: "\r\n\r\n".toList
  statusLine _ := ⟨_, rfl⟩

/-- The node's report URL is plain. -/
theorem plainUrl_node : PlainUrl "10.0.0.5:8080".toList "/".toList :=
  ⟨by decide, by decide, by decide, fun _ h => (Option.some.inj h).symm, by decide⟩

/-- A node reports that it runs, and of the answer no more than the status line arrives. -/
theorem report_told_running : ∃ order,
    let reporter := Agent.Reporter.ofArgs (urlOf "10.0.0.5:8080".toList "/".toList)
      "aa:bb:cc:dd:ee:01".toList
    Told ⟨0, order⟩ ∅ (.answered 12) (reportOp 2097152 reporter "running".toList none)
      (reporter.report (grammarServer.network ⟨0, order⟩ ∅ (.answered 12)) "running".toList none)
      (grammarServer.afterPost ⟨0, order⟩ ∅ (.answered 12) (reporter.url ++ reportPath)
        (reporter.reportJson "running".toList none).text) := by
  obtain ⟨order⟩ : Nonempty (HashMap.Iteration Mac HostState) := inferInstance
  exact ⟨order, report_told grammarServer ⟨0, order⟩ ∅ (.answered 12) "aa:bb:cc:dd:ee:01".toList
    plainUrl_node (by decide) "running".toList none⟩

/-! ## From a node's files to its object -/

/-- The hardware of a host that reported it. -/
theorem hardware_apply_setInventory (boot : BootState) (moment : Moment) (mac : Mac)
    (hardware : Inventory) :
    ((boot.apply ⟨moment, .setInventory mac hardware⟩).lookup mac).bind HostState.hardware =
      some hardware := by
  have hself := boot.lookup_apply_self ⟨moment, .setInventory mac hardware⟩
  rw [BootOp.host] at hself
  rw [hself]
  cases (boot.room ⟨moment, .setInventory mac hardware⟩).lookup mac <;> rfl

/-- Hardware as an inventory says it is: processors and memory as they are, and what the inventory
does not name as it was before. -/
structure Says (inv : Agent.Inventory) (before : Option HardwareStatus)
    (hardware : HardwareStatus) : Prop where
  cpus : hardware.cpus.toNat = inv.cpus.toNat
  memoryKb : hardware.memoryKb = inv.memoryKb
  product : hardware.product = inv.product.or (before.bind HardwareStatus.product)
  serial : hardware.serial = inv.serial.or (before.bind HardwareStatus.serial)
  disks : hardware.disks =
    if inv.disks = [] then (before.map HardwareStatus.disks).getD [] else inv.disks

/-- What is merged onto the stored hardware says what the inventory says, if its processors can be
counted by the server. -/
theorem says_mergedOnto {inv : Agent.Inventory} (hcpus : inv.cpus.toNat < 2 ^ 32)
    (before : Option HardwareStatus) :
    Says inv before ((HardwareStatus.ofInventory (hardwareOf inv)).mergedOnto before) where
  cpus := UInt32.toNat_ofNat_of_lt' hcpus
  memoryKb := rfl
  product := rfl
  serial := rfl
  disks := by
    rw [HardwareStatus.mergedOnto]
    simp only [HardwareStatus.ofInventory, hardwareOf, List.isEmpty_iff]

/-- The next patch of the object of the node with this MAC leaves hardware in its status that is
what the inventory says. -/
def ShowsHardware (boot : BootState) (mac : Text) (inv : Agent.Inventory) : Prop :=
  ∃ m, Mac.parse mac = .ok m ∧
    ∀ metadata spec stored online claimId generation now, ∃ status hardware,
      heldStatus (Json.mergePatch (storedObject metadata spec stored) (statusPatch
          (desiredStatus (boot.lookup m) online claimId generation stored now))) =
        some (some status) ∧
      status.hardware = some hardware ∧
      Says inv (stored.bind BootHostStatus.hardware) hardware

/-- Whenever the agent is silent about the inventory it collected, the node's object is about to show
what the node's files say. -/
theorem hardware_reaches_status (server : BootServer) (moment : Moment) (boot : BootState)
    (passage : Passage) {authority path : Text} (mac : Text) (h : PlainUrl authority path)
    (hpath : ∀ c ∈ path, c = '/') (files : Agent.HardwareFiles)
    (hsilent : (Agent.Reporter.ofArgs (urlOf authority path) mac).reportInventory
      (server.network moment boot passage) files.collect = none) :
    let reporter := Agent.Reporter.ofArgs (urlOf authority path) mac
    ShowsHardware (server.afterPost moment boot passage (reporter.url ++ inventoryPath)
      (reporter.inventoryJson files.collect).text) mac files.collect := by
  intro reporter
  set after := server.afterPost moment boot passage (reporter.url ++ inventoryPath)
    (reporter.inventoryJson files.collect).text
  obtain ⟨hsilence, hreached, -⟩ := inventory_told server moment boot passage mac h hpath files.collect
  obtain ⟨harrives, hsome⟩ := hsilence.mp hsilent
  obtain ⟨op, hop⟩ := Option.isSome_iff_exists.mp hsome
  have hafter : after = boot.apply ⟨moment, op⟩ := by
    have hreaches : passage.Reaches := by
      cases passage with
      | answered length => trivial
      | unreached err => cases harrives
      | lost err => cases harrives
    have := hreached hreaches
    rwa [hop] at this
  rw [inventoryOp, InventoryRequest.op] at hop
  split_ifs at hop with hfits
  cases hmac : Mac.parse mac with
  | error err =>
    simp only [Agent.Reporter.ofArgs, hmac, reduceCtorEq] at hop
  | ok m =>
    simp only [Agent.Reporter.ofArgs, hmac, Option.some.injEq] at hop
    refine ⟨m, hmac, fun metadata spec stored online claimId generation now => ?_⟩
    refine ⟨_, _, heldStatus_mergePatch metadata spec stored _, ?_,
      says_mergedOnto hfits.2 (stored.bind BootHostStatus.hardware)⟩
    have hhardware : (desiredStatus (after.lookup m) online claimId generation stored now).hardware =
        some (HardwareStatus.ofInventory (hardwareOf files.collect)) := by
      rw [desiredStatus, hafter, ← hop, hardware_apply_setInventory]
      rfl
    simp only [BootHostStatus.mergedOnto, hhardware]

/-- A node with two processors, a firmware that names the product and no serial number, and a disk
beside its own root. -/
def describedNode : Agent.HardwareFiles where
  cpuinfo := some "processor\t: 0\nprocessor\t: 1\n".toList
  meminfo := some "MemTotal:       16384000 kB\n".toList
  dmiFile field :=
    if field = "product_name".toList then some "PowerEdge R640\n".toList
    else if field = "product_serial".toList then some "To be filled by O.E.M.\n".toList
    else none
  block := some ["ublkb0".toList, "sda".toList]

/-- What the agent collects on the described machine. -/
theorem collect_describedNode : describedNode.collect =
    ⟨2, 16384000, some "PowerEdge R640".toList, none, ["sda".toList]⟩ := by
  have hdisks : describedNode.blockDevices = ["sda".toList] := by
    have hreal : ["ublkb0".toList, "sda".toList].filter Agent.isRealDisk = ["sda".toList] := by
      decide
    simp only [Agent.HardwareFiles.blockDevices, describedNode]
    rw [hreal, List.mergeSort_singleton]
  have hrest : describedNode.countCpus = 2 ∧ describedNode.totalMemoryKb = 16384000 ∧
      describedNode.dmi "product_name".toList = some "PowerEdge R640".toList ∧
      describedNode.dmi "product_serial".toList = none := by
    decide +kernel
  rw [Agent.HardwareFiles.collect, hdisks, hrest.1, hrest.2.1, hrest.2.2.1, hrest.2.2.2]

/-- It says so in its object. -/
theorem hardware_reaches_status_described : ∃ order,
    let reporter := Agent.Reporter.ofArgs (urlOf "10.0.0.5:8080".toList "/".toList)
      "aa:bb:cc:dd:ee:01".toList
    ShowsHardware (grammarServer.afterPost ⟨0, order⟩ ∅ (.answered 40) (reporter.url ++ inventoryPath)
      (reporter.inventoryJson describedNode.collect).text) "aa:bb:cc:dd:ee:01".toList
        describedNode.collect := by
  obtain ⟨order⟩ : Nonempty (HashMap.Iteration Mac HostState) := inferInstance
  refine ⟨order, hardware_reaches_status grammarServer ⟨0, order⟩ ∅ (.answered 40)
    "aa:bb:cc:dd:ee:01".toList plainUrl_node (by decide) describedNode ?_⟩
  refine (inventory_told grammarServer ⟨0, order⟩ ∅ (.answered 40) "aa:bb:cc:dd:ee:01".toList
    plainUrl_node (by decide) _).silent.mpr ⟨(by decide : 12 ≤ 40), ?_⟩
  rw [collect_describedNode]
  have hfits : utf8Len ((Agent.Reporter.ofArgs (urlOf "10.0.0.5:8080".toList "/".toList)
      "aa:bb:cc:dd:ee:01".toList).inventoryJson
        ⟨2, 16384000, some "PowerEdge R640".toList, none, ["sda".toList]⟩).text ≤ 2097152 ∧
      (2 : UInt64).toNat < 2 ^ 32 := by
    decide
  have hop : (inventoryOp grammarServer.ex.limit (Agent.Reporter.ofArgs
      (urlOf "10.0.0.5:8080".toList "/".toList) "aa:bb:cc:dd:ee:01".toList)
        ⟨2, 16384000, some "PowerEdge R640".toList, none, ["sda".toList]⟩) = InventoryRequest.op
          ⟨"aa:bb:cc:dd:ee:01".toList,
            hardwareOf ⟨2, 16384000, some "PowerEdge R640".toList, none, ["sda".toList]⟩⟩ :=
    if_pos hfits
  rw [hop]
  decide +kernel

end Stormnetboot.Boot

import Stormnetboot.Common.Http
import Stormnetboot.Server.BoundedTracking
import Stormnetboot.Server.JsonFields
import Stormnetboot.Server.PhaseReport

/-!
# What nodes post

The boot surface takes two kinds of posts, a report and an inventory, each as a JSON body that the
web framework extracts. A post that is recorded is one operation on the boot state and is answered
with 202; any other leaves the state as it was and is answered with an error status.
-/

namespace Stormnetboot.Server

open Stormnetboot.Common

/-! ## The bodies -/

/-- Read a report from its members. -/
def ReportRequest.ofGet (get : String → Option Json) : Option ReportRequest := do
  let mac ← (get "mac").bind readText
  let phase ← (get "phase").bind readText
  let detail ← readOptional readText (get "detail")
  some ⟨mac, phase, detail⟩

/-- A report may also be an array of its fields. -/
def ReportRequest.ofJson : Json → Option ReportRequest
  | .obj members =>
    if namesOnce ["mac", "phase", "detail"] members then ofGet (Json.obj members).get else none
  | .arr [mac, phase] => do some ⟨← readText mac, ← readText phase, none⟩
  | .arr [mac, phase, detail] => do
    some ⟨← readText mac, ← readText phase, ← readOptional readText (some detail)⟩
  | _ => none

/-- A node describing its own hardware. -/
structure InventoryRequest where
  mac : Text
  hardware : Inventory
  deriving DecidableEq, Repr

/-- Read what a node is made of from the members that are left for it. -/
def Inventory.ofGet (get : String → Option Json) : Option Inventory := do
  let cpus ← readDefault readU32 0 (get "cpus")
  let memoryKb ← readDefault readU64 0 (get "memory_kb")
  let product ← readOptional readText (get "product")
  let serial ← readOptional readText (get "serial")
  let disks ← readList readText (get "disks")
  some ⟨cpus, memoryKb, product, serial, disks⟩

/-- The request that some members make. -/
def InventoryRequest.ofGet (get : String → Option Json) : Option InventoryRequest := do
  let mac ← (get "mac").bind readText
  let hardware ← Inventory.ofGet get
  some ⟨mac, hardware⟩

/-- Read an `InventoryRequest`; no member may stand twice. -/
def InventoryRequest.ofJson : Json → Option InventoryRequest
  | .obj members =>
    if namesOnce ["mac", "cpus", "memory_kb", "product", "serial", "disks"] members then
      ofGet (Json.obj members).get
    else none
  | _ => none

/-! ## The handlers -/

/-- `inventory`: what it records, or why it refuses. -/
def inventory (moment : Moment) (req : InventoryRequest) (boot : BootState) :
    Except MacParseError BootState :=
  match Mac.parse req.mac with
  | .error err => .error err
  | .ok mac => .ok (boot.setInventory moment mac req.hardware)

/-- The web framework's extractor of a JSON body, by what it is documented to do: it gives the
handler the value in a body that is announced as JSON and no longer than its limit, and answers
anything else with a client error. A body is announced as JSON at least by `application/json`. -/
structure Extractor where
  read : Text → Option Json
  reads : Json.Reads read
  isJson : HttpRequest → Bool
  announced : ∀ r, HttpRequest.valuesOf "content-type" r.fields = ["application/json".toList] →
    isJson r = true
  limit : ℕ
  refuse : HttpRequest → ℕ
  refuses : ∀ r, 400 ≤ refuse r ∧ refuse r < 500

namespace Extractor

/-- The body a handler is given, or the status of the answer. -/
def body {α : Type} (ex : Extractor) (ofJson : Json → Option α) (r : HttpRequest) : Except ℕ α :=
  if ex.isJson r = true ∧ utf8Len r.body ≤ ex.limit then
    match (ex.read r.body).bind ofJson with
    | some a => .ok a
    | none => .error (ex.refuse r)
  else .error (ex.refuse r)

/-- A body that stands for a value is given to the handler as that value, unless it is too long. -/
theorem body_of_standsFor {α : Type} (ex : Extractor) (ofJson : Json → Option α) (host target : Text)
    {text : Text} {value : Json} (hvalue : Json.StandsFor text value)
    (hwithin : Json.Within 127 value) :
    ex.body ofJson (.jsonPost host target text) =
      match if utf8Len text ≤ ex.limit then ofJson value else none with
      | some a => .ok a
      | none => .error (ex.refuse (.jsonPost host target text)) := by
  have htype : ex.isJson (.jsonPost host target text) = true := ex.announced _ rfl
  rw [body]
  simp only [htype, true_and]
  have hbody : (HttpRequest.jsonPost host target text).body = text := rfl
  rw [hbody, ex.reads.reads text value hvalue hwithin, Option.bind_some]
  split_ifs <;> rfl

/-- So is what a JSON library wrote. -/
theorem body_jsonPost {α : Type} (ex : Extractor) (ofJson : Json → Option α) (host target : Text)
    {value : Json} (hwithin : Json.Within 127 value) :
    ex.body ofJson (.jsonPost host target value.text) =
      match if utf8Len value.text ≤ ex.limit then ofJson value else none with
      | some a => .ok a
      | none => .error (ex.refuse (.jsonPost host target value.text)) :=
  ex.body_of_standsFor ofJson host target (Json.standsFor_text value) hwithin

end Extractor

/-- The paths of the boot surface that are only read. -/
def isReadOnly (path : Text) : Bool :=
  ["/health", "/readyz", "/boot.ipxe", "/boot.json", "/boot"].any (fun p => path = p.toList) ||
    "/boot/".toList.isPrefixOf path

/-- The path a request is for. -/
def pathOf (target : Text) : Text :=
  target.takeWhile (· ≠ '?')

/-- The answer to a post whose body a handler takes, and the state it leaves: only what the handler
records is accepted. -/
def answerPost {ε α : Type} (boot : BootState) (handler : α → Except ε BootState) :
    Except ℕ α → ℕ × BootState
  | .error status => (status, boot)
  | .ok req =>
    match handler req with
    | .error _ => (400, boot)
    | .ok after => (202, after)

/-- What the boot surface answers a post with, and the state it leaves. -/
def servePost (ex : Extractor) (moment : Moment) (r : HttpRequest) (boot : BootState) :
    ℕ × BootState :=
  if pathOf r.target = "/api/v1/report".toList then
    answerPost boot (report moment · boot) (ex.body ReportRequest.ofJson r)
  else if pathOf r.target = "/api/v1/inventory".toList then
    answerPost boot (inventory moment · boot) (ex.body InventoryRequest.ofJson r)
  else if isReadOnly (pathOf r.target) then (405, boot)
  else (404, boot)

/-! ## What is recorded -/

/-- The operation a report is. -/
def ReportRequest.op (req : ReportRequest) : Option BootOp :=
  match Mac.parse req.mac with
  | .error _ => none
  | .ok mac => (parsePhase req.phase).map fun phase => .observe mac phase req.detail

/-- The operation an inventory is. -/
def InventoryRequest.op (req : InventoryRequest) : Option BootOp :=
  match Mac.parse req.mac with
  | .error _ => none
  | .ok mac => some (.setInventory mac req.hardware)

/-- The operation a post is, if the surface records it. -/
def postedOp (ex : Extractor) (r : HttpRequest) : Option BootOp :=
  if pathOf r.target = "/api/v1/report".toList then
    (ex.body ReportRequest.ofJson r).toOption.bind ReportRequest.op
  else if pathOf r.target = "/api/v1/inventory".toList then
    (ex.body InventoryRequest.ofJson r).toOption.bind InventoryRequest.op
  else none

/-- A report is accepted exactly when it stands for an operation, which is applied. -/
theorem report_eq_ok_iff (moment : Moment) (req : ReportRequest) (boot after : BootState) :
    report moment req boot = .ok after ↔
      ∃ op, req.op = some op ∧ after = boot.apply ⟨moment, op⟩ := by
  unfold report ReportRequest.op
  cases Mac.parse req.mac with
  | error err => simp
  | ok mac =>
    cases parsePhase req.phase with
    | none => simp
    | some phase => simp [BootState.apply, eq_comm]

/-- So is an inventory. -/
theorem inventory_eq_ok_iff (moment : Moment) (req : InventoryRequest) (boot after : BootState) :
    inventory moment req boot = .ok after ↔
      ∃ op, req.op = some op ∧ after = boot.apply ⟨moment, op⟩ := by
  unfold inventory InventoryRequest.op
  cases Mac.parse req.mac with
  | error err => simp
  | ok mac => simp [BootState.apply, eq_comm]

/-- An error status. -/
def IsError (status : ℕ) : Prop :=
  400 ≤ status ∧ status < 500

/-- A body that is refused is refused with an error status. -/
theorem Extractor.isError_of_body {α : Type} {ex : Extractor} {ofJson : Json → Option α}
    {r : HttpRequest} {status : ℕ} (h : ex.body ofJson r = .error status) : IsError status := by
  have hrefuse : ex.refuse r = status := by
    rw [body] at h
    split_ifs at h with hjson
    · cases hread : (ex.read r.body).bind ofJson with
      | none =>
        rw [hread] at h
        exact Except.error.inj h
      | some a =>
        rw [hread] at h
        cases h
    · exact Except.error.inj h
  exact hrefuse ▸ ex.refuses r

/-- The answer is 202 exactly to what a handler makes an operation of. -/
theorem answerPost_cases {ε α : Type} {moment : Moment} {boot : BootState}
    {handler : α → Except ε BootState} {op : α → Option BootOp}
    (hhandler : ∀ req after, handler req = .ok after ↔
      ∃ o, op req = some o ∧ after = boot.apply ⟨moment, o⟩)
    {extracted : Except ℕ α} (hextracted : ∀ status, extracted = .error status → IsError status) :
    match extracted.toOption.bind op with
    | some o => answerPost boot handler extracted = (202, boot.apply ⟨moment, o⟩)
    | none => ∃ status, IsError status ∧ answerPost boot handler extracted = (status, boot) := by
  cases extracted with
  | error status => exact ⟨status, hextracted status rfl, rfl⟩
  | ok req =>
    have hoption : (Except.ok req : Except ℕ α).toOption.bind op = op req := rfl
    rw [hoption]
    cases hop : op req with
    | none =>
      refine ⟨400, ⟨le_rfl, by decide⟩, ?_⟩
      cases hhandled : handler req with
      | error err => simp only [answerPost, hhandled]
      | ok after =>
        obtain ⟨o, ho, -⟩ := (hhandler req after).mp hhandled
        rw [hop] at ho
        cases ho
    | some o => simp only [answerPost, (hhandler req _).mpr ⟨o, hop, rfl⟩]

/-- A post is recorded and answered with 202, or it is not and leaves the state alone. -/
theorem servePost_cases (ex : Extractor) (moment : Moment) (r : HttpRequest) (boot : BootState) :
    match postedOp ex r with
    | some op => servePost ex moment r boot = (202, boot.apply ⟨moment, op⟩)
    | none => ∃ status, IsError status ∧ servePost ex moment r boot = (status, boot) := by
  unfold servePost postedOp
  split_ifs with hreport hinventory hread
  · exact answerPost_cases (report_eq_ok_iff moment · boot) fun _ => ex.isError_of_body
  · exact answerPost_cases (inventory_eq_ok_iff moment · boot) fun _ => ex.isError_of_body
  · exact ⟨405, ⟨by decide, by decide⟩, rfl⟩
  · exact ⟨404, ⟨by decide, by decide⟩, rfl⟩

end Stormnetboot.Server

import Stormnetboot.Server.BootScript

/-!
# Taking a node's report

The handler of `/api/v1/report`. Nothing else can see a machine between the fetch of its assets
and its joining a cluster.
-/

namespace Stormnetboot.Server

open Stormnetboot.Common

/-- A report as its JSON body is decoded. -/
structure ReportRequest where
  mac : Text
  phase : Text
  detail : Option Text
  deriving DecidableEq, Repr

/-- The report that the members of a JSON object make up: the MAC and the phase have to be there,
and what is not a field is ignored. -/
def ReportRequest.ofMembers (members : List (Text × Text)) : Option ReportRequest := do
  let mac ← members.lookup "mac".toList
  let phase ← members.lookup "phase".toList
  some ⟨mac, phase, members.lookup "detail".toList⟩

/-- A phase as a node may spell it. -/
def parsePhase (raw : Text) : Option Phase :=
  let name := replaceChar '_' '-' (toAsciiLowercase (trim raw))
  if name = "script-fetched".toList then some .scriptFetched
  else if name = "assets-fetched".toList then some .assetsFetched
  else if name = "root-attached".toList then some .rootAttached
  else if name = "running".toList then some .running
  else if name = "assimilating".toList then some .assimilating
  else if name = "local".toList then some .local
  else if name = "failed".toList then some .failed
  else none

/-- Why a report is refused. -/
inductive ReportRefusal where
  | badMac (err : MacParseError)
  | unknownPhase (raw : Text)
  deriving DecidableEq, Repr

/-- The body a refused report is answered with, with status 400. A recorded one is answered
with 202. -/
def ReportRefusal.body (lib : Library) (debugText : Text → Text) : ReportRefusal → Text
  | .badMac err => "bad mac: ".toList ++ err.display lib ++ "\n".toList
  | .unknownPhase raw => "unknown phase ".toList ++ debugText raw ++ "\n".toList

/-- `report`: the observation it records, or the refusal. -/
def report (moment : Moment) (req : ReportRequest) (boot : BootState) :
    Except ReportRefusal BootState :=
  match Mac.parse req.mac with
  | .error err => .error (.badMac err)
  | .ok mac =>
    match parsePhase req.phase with
    | none => .error (.unknownPhase req.phase)
    | some phase => .ok (boot.observe moment mac phase req.detail)

/-- A phase is read back from its wire spelling. -/
theorem parsePhase_slug (phase : Phase) : parsePhase phase.slug = some phase := by
  cases phase <;> decide

end Stormnetboot.Server

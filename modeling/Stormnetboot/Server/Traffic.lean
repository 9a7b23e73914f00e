import Stormnetboot.Server.BootSurface
import Stormnetboot.Server.KubeStore
import Stormnetboot.Server.Metrics
import Stormnetboot.Server.Pallet

/-!
# What the counters of the server add up to

Every request to the boot surface is counted as it comes and again by how it ends. Boot scripts
are counted when they are asked for, whatever their help text says, so that count is made up of
what was refused, what failed on its claim, what was served, whom the client left and what is
still under way. The other counters are those of the tasks beside it: the refresh of the pallet,
the status patches and the watch.
-/

namespace Stormnetboot.Server

open Stormnetboot.Common

/-! ## Boot scripts under way -/

namespace BootSurface

/-- How many requests have neither been answered nor been dropped. -/
def inFlight (surface : BootSurface) : ℕ :=
  surface.waiting.length + surface.holder.toList.length + surface.ready.length

/-- Whether a client leaves whom the surface has not answered. -/
def drops (surface : BootSurface) : SurfaceEvent → Bool
  | .hangUpWaiting i => i < surface.waiting.length
  | .hangUpHolder _ => surface.holder.isSome
  | _ => false

end BootSurface

namespace SurfaceEvent

/-- A request comes in. -/
def isRequest : SurfaceEvent → Bool
  | .request _ => true
  | _ => false

end SurfaceEvent

namespace SurfaceEntry

/-- A machine is turned away before a claim is looked at. -/
def isRefusal : SurfaceEntry → Bool
  | .refused (.claimFailed _) => false
  | .refused _ => true
  | _ => false

/-- A claim has failed. -/
def isClaimFailure : SurfaceEntry → Bool
  | .refused (.claimFailed _) => true
  | _ => false

/-- An asset was served. -/
def isServed : SurfaceEntry → Bool
  | .served .. => true
  | _ => false

end SurfaceEntry

/-! ## The counters -/

/-- The path is that of a boot asset. -/
def isAssetPath (path : Text) : Bool :=
  (stripPrefix "/boot/".toList path).isSome

namespace Metrics

/-- `count_requests`, before the request is handled. -/
def countRequest (path : Text) (metrics : Metrics) : Metrics :=
  let metrics := { metrics with requestsTotal := incr metrics.requestsTotal }
  if isAssetPath path then
    { metrics with assetRequests := incr metrics.assetRequests }
  else metrics

/-- `count_requests`, with the status of the response. -/
def countResponse (status : ℕ) (metrics : Metrics) : Metrics :=
  if status = 404 then { metrics with notFound := incr metrics.notFound } else metrics

/-- What `boot_script` counts of what it does. -/
def countEntry (metrics : Metrics) : SurfaceEntry → Metrics
  | .refused refusal =>
    let metrics := match refusal with
      | .claimFailed _ => { metrics with claimFailures := incr metrics.claimFailures }
      | _ => { metrics with refused := incr metrics.refused }
    metrics.countResponse refusal.status
  | .served .. => metrics.countResponse 200
  | _ => metrics

/-- What `spawn_refresh_loop` counts of a round: a refresh that changed what is served, or one that
failed. -/
def countRefresh (metrics : Metrics) : Except PalletError Refreshed → Metrics
  | .ok refreshed =>
    if refreshed.changed then
      { metrics with palletRefreshes := incr metrics.palletRefreshes }
    else metrics
  | .error _ => { metrics with palletRefreshFailures := incr metrics.palletRefreshFailures }

/-- What `reconcile_status` counts of a patch, by whether the apiserver takes it. -/
def countPatch (metrics : Metrics) : Bool → Metrics
  | true => { metrics with statusWrites := incr metrics.statusWrites }
  | false => { metrics with statusWriteFailures := incr metrics.statusWriteFailures }

/-- What `spawn_watch` counts of an event: an error, and nothing else. -/
def countWatch (metrics : Metrics) : WatchEvent → Metrics
  | .error => { metrics with watchErrors := incr metrics.watchErrors }
  | _ => metrics

end Metrics

/-- The boot surface and the counters. -/
structure Traffic where
  surface : BootSurface
  metrics : Metrics

/-- What happens to boot scripts, the requests and responses of everything else, and what the tasks
beside the boot surface are told. -/
inductive TrafficEvent where
  | boot (event : SurfaceEvent)
  | request (path : Text)
  | response (status : ℕ)
  | refresh (outcome : Except PalletError Refreshed)
  | patch (accepted : Bool)
  | watch (event : WatchEvent)

/-- What has happened. -/
inductive TrafficEntry where
  | script
  | left
  | boot (entry : SurfaceEntry)
  | request (path : Text)
  | response (status : ℕ)
  | refresh (outcome : Except PalletError Refreshed)
  | patch (accepted : Bool)
  | watch (event : WatchEvent)

namespace Traffic

/-- Nothing has been asked and nothing is counted. -/
def opened (hosts : HostStore) : Traffic where
  surface := .opened hosts
  metrics := .zero

section Steps

variable (lib : Library) (cfg : Config)

/-- One step. -/
def step (traffic : Traffic) : TrafficEvent → Traffic × List TrafficEntry
  | .boot event =>
    let (surface, entries) := traffic.surface.step lib cfg event
    let asked := if event.isRequest then [TrafficEntry.script] else []
    let left := if traffic.surface.drops event then [TrafficEntry.left] else []
    let metrics := if event.isRequest then
      let metrics := traffic.metrics.countRequest "/boot.ipxe".toList
      { metrics with bootScriptRequests := Metrics.incr metrics.bootScriptRequests }
    else traffic.metrics
    (⟨surface, entries.foldl Metrics.countEntry metrics⟩,
      asked ++ entries.map .boot ++ left)
  | .request path =>
    ({ traffic with metrics := traffic.metrics.countRequest path }, [.request path])
  | .response status =>
    ({ traffic with metrics := traffic.metrics.countResponse status }, [.response status])
  | .refresh outcome =>
    ({ traffic with metrics := traffic.metrics.countRefresh outcome }, [.refresh outcome])
  | .patch accepted =>
    ({ traffic with metrics := traffic.metrics.countPatch accepted }, [.patch accepted])
  | .watch event => ({ traffic with metrics := traffic.metrics.countWatch event }, [.watch event])

end Steps

end Traffic

/-! ## What has been logged -/

namespace TrafficEntry

/-- A boot script was asked for. -/
@[simp]
def isScript : TrafficEntry → Bool
  | .script => true
  | _ => false

/-- A client left that had not been answered. -/
@[simp]
def isLeft : TrafficEntry → Bool
  | .left => true
  | _ => false

/-- A boot script request that ended in such an entry. -/
@[simp]
def ends (p : SurfaceEntry → Bool) : TrafficEntry → Bool
  | .boot entry => p entry
  | _ => false

/-- Something was asked of the boot surface. -/
@[simp]
def isRequest : TrafficEntry → Bool
  | .script => true
  | .request _ => true
  | _ => false

/-- A boot asset was asked for. -/
@[simp]
def isAsset : TrafficEntry → Bool
  | .request path => isAssetPath path
  | _ => false

/-- A response that there is nothing under that path. -/
@[simp]
def isMissing : TrafficEntry → Bool
  | .response status => status = 404
  | _ => false

/-- A refresh of the pallet changed what is served. -/
@[simp]
def isRefresh : TrafficEntry → Bool
  | .refresh (.ok refreshed) => refreshed.changed
  | _ => false

/-- A refresh of the pallet failed. -/
@[simp]
def isRefreshFailure : TrafficEntry → Bool
  | .refresh (.error _) => true
  | _ => false

/-- A status patch that the apiserver answered so. -/
@[simp]
def isPatch (answer : Bool) : TrafficEntry → Bool
  | .patch accepted => accepted == answer
  | _ => false

/-- The watch gave an error. -/
@[simp]
def isWatchError : TrafficEntry → Bool
  | .watch .error => true
  | _ => false

end TrafficEntry

/-- The counters, counted on by what was logged. -/
def Metrics.add (metrics : Metrics) (log : List TrafficEntry) : Metrics where
  requestsTotal := metrics.requestsTotal + .ofNat (log.countP TrafficEntry.isRequest)
  bootScriptRequests := metrics.bootScriptRequests + .ofNat (log.countP TrafficEntry.isScript)
  assetRequests := metrics.assetRequests + .ofNat (log.countP TrafficEntry.isAsset)
  notFound := metrics.notFound + .ofNat (log.countP TrafficEntry.isMissing)
  refused := metrics.refused + .ofNat (log.countP (TrafficEntry.ends SurfaceEntry.isRefusal))
  claimFailures := metrics.claimFailures +
    .ofNat (log.countP (TrafficEntry.ends SurfaceEntry.isClaimFailure))
  palletRefreshes := metrics.palletRefreshes + .ofNat (log.countP TrafficEntry.isRefresh)
  palletRefreshFailures :=
    metrics.palletRefreshFailures + .ofNat (log.countP TrafficEntry.isRefreshFailure)
  statusWrites := metrics.statusWrites + .ofNat (log.countP (TrafficEntry.isPatch true))
  statusWriteFailures :=
    metrics.statusWriteFailures + .ofNat (log.countP (TrafficEntry.isPatch false))
  watchErrors := metrics.watchErrors + .ofNat (log.countP TrafficEntry.isWatchError)

/-- Every counter holds the number of what it counts, as far as 64 bits go, and every request for
a boot script is accounted for. -/
structure Accounted (log : List TrafficEntry) (traffic : Traffic) : Prop where
  counters : traffic.metrics = Metrics.zero.add log
  conserved : log.countP TrafficEntry.isScript =
    log.countP (TrafficEntry.ends SurfaceEntry.isRefusal) +
      log.countP (TrafficEntry.ends SurfaceEntry.isClaimFailure) +
      log.countP (TrafficEntry.ends SurfaceEntry.isServed) +
      log.countP TrafficEntry.isLeft + traffic.surface.inFlight

/-! ## Every run -/

namespace BootSurface

section Steps

variable (lib : Library) (cfg : Config)

/-- A refusal is counted once, as one or the other. -/
theorem countP_refused (refusal : Refusal) :
    [SurfaceEntry.refused refusal].countP SurfaceEntry.isRefusal +
      [SurfaceEntry.refused refusal].countP SurfaceEntry.isClaimFailure = 1 := by
  cases refusal <;> rfl

/-- A step lets in a request or not, and ends some: by an entry of the log, or because the client
left. -/
theorem inFlight_step (surface : BootSurface) (event : SurfaceEvent) :
    surface.inFlight + event.isRequest.toNat =
      (step lib cfg surface event).1.inFlight +
        ((step lib cfg surface event).2.countP SurfaceEntry.isRefusal +
          (step lib cfg surface event).2.countP SurfaceEntry.isClaimFailure) +
        (step lib cfg surface event).2.countP SurfaceEntry.isServed +
        (surface.drops event).toNat := by
  cases event with
  | change change => rfl
  | request query =>
    simp only [step]
    cases hadmitted : admitBoot cfg surface.hosts query with
    | error refusal =>
      rw [countP_refused]
      rfl
    | ok request =>
      simp only
      split_ifs
      · simp [inFlight, SurfaceEvent.isRequest, drops]
        omega
      · simp [inFlight, SurfaceEvent.isRequest, drops]
        omega
  | acquire i =>
    obtain ⟨hosts, claims, waiting, holder, ready⟩ := surface
    simp only [step]
    cases holder with
    | some held => rfl
    | none =>
      cases hwaiting : waiting[i]? with
      | none => rfl
      | some request =>
        obtain ⟨hlt, -⟩ := List.getElem?_eq_some_iff.mp hwaiting
        have hlength : (waiting.eraseIdx i).length + 1 = waiting.length := by
          rw [List.length_eraseIdx_of_lt hlt]
          omega
        simp only
        cases claimStart (ClaimClient.ofConfig cfg) claims request with
        | fail err =>
          simp only [countP_refused]
          simp [inFlight, SurfaceEvent.isRequest, drops, SurfaceEntry.isServed]
          omega
        | reuse claim =>
          simp [inFlight, SurfaceEvent.isRequest, drops]
          omega
        | ask ask =>
          simp [inFlight, SurfaceEvent.isRequest, drops, SurfaceEntry.isServed,
            SurfaceEntry.isRefusal, SurfaceEntry.isClaimFailure]
          omega
  | answer answer =>
    obtain ⟨hosts, claims, waiting, holder, ready⟩ := surface
    simp only [step]
    cases holder with
    | none => rfl
    | some held =>
      obtain ⟨request, ask⟩ := held
      simp only
      cases ClaimClient.claim lib ask answer with
      | ok claim =>
        simp [inFlight, SurfaceEvent.isRequest, drops, SurfaceEntry.isServed,
          SurfaceEntry.isRefusal, SurfaceEntry.isClaimFailure]
        omega
      | error err =>
        simp [inFlight, SurfaceEvent.isRequest, drops, SurfaceEntry.isServed,
          SurfaceEntry.isRefusal, SurfaceEntry.isClaimFailure]
        omega
  | respond i =>
    obtain ⟨hosts, claims, waiting, holder, ready⟩ := surface
    simp only [step]
    cases hready : ready[i]? with
    | none => rfl
    | some answered =>
      obtain ⟨hlt, -⟩ := List.getElem?_eq_some_iff.mp hready
      simp [inFlight, SurfaceEvent.isRequest, drops, SurfaceEntry.isServed,
        SurfaceEntry.isRefusal, SurfaceEntry.isClaimFailure, List.length_eraseIdx_of_lt hlt]
      omega
  | hangUpWaiting i =>
    simp only [step, inFlight, SurfaceEvent.isRequest, drops, List.length_eraseIdx]
    by_cases hlt : i < surface.waiting.length
    · simp [hlt]
      omega
    · simp [hlt]
  | hangUpHolder answer =>
    obtain ⟨hosts, claims, waiting, holder, ready⟩ := surface
    simp only [step]
    cases holder with
    | none => rfl
    | some held =>
      simp [inFlight, SurfaceEvent.isRequest, drops, SurfaceEntry.isServed,
        SurfaceEntry.isRefusal, SurfaceEntry.isClaimFailure]
      omega

end Steps

end BootSurface

namespace Metrics

/-- Two logs are counted one after the other. -/
theorem add_append (metrics : Metrics) (first rest : List TrafficEntry) :
    metrics.add (first ++ rest) = (metrics.add first).add rest := by
  simp only [add, List.countP_append, UInt64.ofNat_add, UInt64.add_assoc]

/-- Counting one entry. -/
theorem add_singleton (metrics : Metrics) (entry : TrafficEntry) :
    metrics.add [entry] =
      { requestsTotal := metrics.requestsTotal + .ofNat entry.isRequest.toNat
        bootScriptRequests := metrics.bootScriptRequests + .ofNat entry.isScript.toNat
        assetRequests := metrics.assetRequests + .ofNat entry.isAsset.toNat
        notFound := metrics.notFound + .ofNat entry.isMissing.toNat
        refused := metrics.refused + .ofNat (entry.ends SurfaceEntry.isRefusal).toNat
        claimFailures :=
          metrics.claimFailures + .ofNat (entry.ends SurfaceEntry.isClaimFailure).toNat
        palletRefreshes := metrics.palletRefreshes + .ofNat entry.isRefresh.toNat
        palletRefreshFailures :=
          metrics.palletRefreshFailures + .ofNat entry.isRefreshFailure.toNat
        statusWrites := metrics.statusWrites + .ofNat (entry.isPatch true).toNat
        statusWriteFailures := metrics.statusWriteFailures + .ofNat (entry.isPatch false).toNat
        watchErrors := metrics.watchErrors + .ofNat entry.isWatchError.toNat } := by
  have hcount (p : TrafficEntry → Bool) : [entry].countP p = (p entry).toNat := by
    rw [List.countP_singleton]
    cases p entry <;> rfl
  simp only [add, hcount]

/-- Nothing is counted by adding none. -/
theorem add_ofNat_zero (counter : UInt64) : counter + .ofNat 0 = counter :=
  UInt64.add_zero counter

/-- A request is counted as what is logged of it. -/
theorem countRequest_eq (path : Text) (metrics : Metrics) :
    metrics.countRequest path = metrics.add [.request path] := by
  rw [add_singleton]
  cases hasset : isAssetPath path <;> simp [countRequest, hasset, incr]

/-- A response is counted as what is logged of it. -/
theorem countResponse_eq (status : ℕ) (metrics : Metrics) :
    metrics.countResponse status = metrics.add [.response status] := by
  rw [add_singleton]
  by_cases hmissing : status = 404 <;> simp [countResponse, hmissing, incr]

/-- No boot script request is answered with the status that is counted. -/
theorem countEntry_eq (metrics : Metrics) (entry : SurfaceEntry) :
    metrics.countEntry entry = metrics.add [.boot entry] := by
  rw [add_singleton]
  cases entry with
  | refused refusal =>
    cases refusal <;>
      simp [countEntry, countResponse, Refusal.status, incr, SurfaceEntry.isRefusal,
        SurfaceEntry.isClaimFailure]
  | _ =>
    simp [countEntry, countResponse, SurfaceEntry.isRefusal, SurfaceEntry.isClaimFailure]

/-- A round of the refresh task is counted as what is logged of it. -/
theorem countRefresh_eq (metrics : Metrics) (outcome : Except PalletError Refreshed) :
    metrics.countRefresh outcome = metrics.add [.refresh outcome] := by
  rw [add_singleton]
  cases outcome with
  | error err => simp [countRefresh, incr]
  | ok refreshed => cases hchanged : refreshed.changed <;> simp [countRefresh, hchanged, incr]

/-- A status patch is counted as what is logged of it. -/
theorem countPatch_eq (metrics : Metrics) (accepted : Bool) :
    metrics.countPatch accepted = metrics.add [.patch accepted] := by
  rw [add_singleton]
  cases accepted <;> simp [countPatch, incr]

/-- An event of the watch is counted as what is logged of it. -/
theorem countWatch_eq (metrics : Metrics) (event : WatchEvent) :
    metrics.countWatch event = metrics.add [.watch event] := by
  rw [add_singleton]
  cases event <;> simp [countWatch, incr]

/-- What a step of the boot surface logs is counted entry by entry. -/
theorem foldl_countEntry (entries : List SurfaceEntry) (metrics : Metrics) :
    entries.foldl countEntry metrics = metrics.add (entries.map .boot) := by
  induction entries generalizing metrics with
  | nil => simp only [List.foldl_nil, List.map_nil, add, List.countP_nil, add_ofNat_zero]
  | cons entry rest ih =>
    rw [List.foldl_cons, ih, countEntry_eq, ← add_append]
    rfl

/-- A request for a script, under a path that is not that of an asset. -/
theorem countScript_eq (metrics : Metrics) {path : Text} (hpath : isAssetPath path = false) :
    { metrics.countRequest path with
      bootScriptRequests := incr (metrics.countRequest path).bootScriptRequests } =
      metrics.add [.script] := by
  rw [countRequest_eq, add_singleton, add_singleton]
  simp [hpath, incr]

/-- An empty log counts nothing. -/
theorem add_nil (metrics : Metrics) : metrics.add [] = metrics := by
  simp only [add, List.countP_nil, add_ofNat_zero]

end Metrics

namespace Traffic

variable (lib : Library) (cfg : Config)

/-- The counters are counted on by what a step logs. -/
theorem metrics_step (traffic : Traffic) (event : TrafficEvent) :
    (step lib cfg traffic event).1.metrics =
      traffic.metrics.add (step lib cfg traffic event).2 := by
  cases event with
  | boot event =>
    have hleft (metrics : Metrics) :
        metrics.add (if traffic.surface.drops event then [.left] else []) = metrics := by
      split_ifs
      · simp [Metrics.add_singleton]
      · exact metrics.add_nil
    have hasked : (if event.isRequest then
        { traffic.metrics.countRequest "/boot.ipxe".toList with
          bootScriptRequests :=
            Metrics.incr (traffic.metrics.countRequest "/boot.ipxe".toList).bootScriptRequests }
        else traffic.metrics) =
          traffic.metrics.add (if event.isRequest then [.script] else []) := by
      split_ifs
      · exact Metrics.countScript_eq _ (by decide)
      · exact (Metrics.add_nil _).symm
    simp only [step]
    rw [hasked, Metrics.foldl_countEntry, Metrics.add_append, Metrics.add_append, hleft]
  | request path => exact Metrics.countRequest_eq ..
  | response status => exact Metrics.countResponse_eq ..
  | refresh outcome => exact Metrics.countRefresh_eq ..
  | patch accepted => exact Metrics.countPatch_eq ..
  | watch event => exact Metrics.countWatch_eq ..

/-- What a step logs of boot scripts adds up to the change in what is under way. -/
theorem conserved_step (traffic : Traffic) (event : TrafficEvent) :
    traffic.surface.inFlight + (step lib cfg traffic event).2.countP TrafficEntry.isScript =
      (step lib cfg traffic event).2.countP (TrafficEntry.ends SurfaceEntry.isRefusal) +
        (step lib cfg traffic event).2.countP (TrafficEntry.ends SurfaceEntry.isClaimFailure) +
        (step lib cfg traffic event).2.countP (TrafficEntry.ends SurfaceEntry.isServed) +
        (step lib cfg traffic event).2.countP TrafficEntry.isLeft +
        (step lib cfg traffic event).1.surface.inFlight := by
  cases event with
  | boot event =>
    have hsurface := traffic.surface.inFlight_step lib cfg event
    -- Each of the three parts of what is logged holds entries of one kind.
    have hnone (entries : List SurfaceEntry) (p : TrafficEntry → Bool)
        (hp : ∀ entry, p (.boot entry) = false) : (entries.map .boot).countP p = 0 := by
      refine List.countP_eq_zero.mpr fun entry hentry => ?_
      obtain ⟨entry, -, rfl⟩ := List.mem_map.mp hentry
      simp [hp]
    have hends (entries : List SurfaceEntry) (p : SurfaceEntry → Bool) :
        (entries.map .boot).countP (TrafficEntry.ends p) = entries.countP p := List.countP_map
    simp only [step, List.countP_append, hends, hnone _ TrafficEntry.isScript fun _ => rfl,
      hnone _ TrafficEntry.isLeft fun _ => rfl]
    cases hrequest : event.isRequest <;> cases hdrops : traffic.surface.drops event <;>
      simp [hrequest, hdrops] at hsurface ⊢ <;> omega
  | request path => simp [step]
  | response status => simp [step]
  | refresh outcome => simp [step]
  | patch accepted => simp [step]
  | watch event => simp [step]

/-- Whatever boot scripts are asked for and however that ends, and whatever the tasks beside them
are told, in any order, the counters add up to what has happened. -/
theorem accounted_run (hosts : HostStore) (events : List TrafficEvent) :
    Accounted (runFrom (step lib cfg) (.opened hosts) [] events).2
      (runFrom (step lib cfg) (.opened hosts) [] events).1 := by
  have hkept (traffic : Traffic) (log : List TrafficEntry) (event : TrafficEvent)
      (h : Accounted log traffic) (_ : True) :
      Accounted (log ++ (step lib cfg traffic event).2) (step lib cfg traffic event).1 := by
    have hstep := conserved_step lib cfg traffic event
    have hlog := h.conserved
    constructor
    · rw [metrics_step, h.counters, ← Metrics.add_append]
    · simp only [List.countP_append]
      omega
  exact runFrom_invariant (fun traffic log => Accounted log traffic) hkept
    ⟨(Metrics.add_nil _).symm, rfl⟩ events (always_of_forall (fun _ _ => trivial) _ _)

end Traffic

end Stormnetboot.Server

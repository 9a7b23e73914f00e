import Stormnetboot.Server.BootHost

/-!
# Recovery from a failed boot

`Failed` is the greatest phase and observations only move forward, so a host that failed once
stays failed through everything it reports later. The one thing that frees it is the map
running full: making room forgets every finished host, and the next report of the forgotten
one starts its record afresh. Both directions are an induction on the run after the last
failure, with the host's tracked phase as the invariant.
-/

namespace Stormnetboot.Server

open Stormnetboot.Common

/-- The operations on the boot state. -/
inductive BootOp where
  | observe (mac : Mac) (phase : Phase) (detail : Option Text)
  | setPalletVersion (mac : Mac) (version : Text)
  | setInventory (mac : Mac) (hardware : Inventory)

/-- An operation and the moment it arrives in. -/
structure BootEvent where
  moment : Moment
  op : BootOp

namespace BootState

/-- One operation. -/
def apply (hosts : BootState) (event : BootEvent) : BootState :=
  match event.op with
  | .observe mac phase detail => observe event.moment mac phase detail hosts
  | .setPalletVersion mac version => setPalletVersion mac version hosts
  | .setInventory mac hardware => setInventory event.moment mac hardware hosts

/-- A run of operations. -/
def run (hosts : BootState) (events : List BootEvent) : BootState :=
  events.foldl apply hosts

/-- The phase a host is tracked in. -/
def phaseOf (mac : Mac) (hosts : BootState) : Option Phase :=
  (hosts.lookup mac).map HostState.phase

end BootState

/-- The host an operation is about. -/
def BootOp.host : BootOp → Mac
  | .observe mac _ _ => mac
  | .setPalletVersion mac _ => mac
  | .setInventory mac _ => mac

/-- The host whose record the operation creates if there is none. -/
def BootOp.arrival : BootOp → Option Mac
  | .observe mac _ _ => some mac
  | .setPalletVersion _ _ => none
  | .setInventory mac _ => some mac

/-- The operation brings a host the map does not hold, and the map is full. -/
def Evicts (hosts : BootState) (op : BootOp) : Prop :=
  ∃ mac, op.arrival = some mac ∧ HashMap.len hosts ≥ maxTracked ∧ hosts.lookup mac = none

/-- Some operation of the run finds the map full and brings a host it does not hold. -/
def EvictsDuring (hosts : BootState) : List BootEvent → Prop
  | [] => False
  | event :: rest => Evicts hosts event.op ∨ EvictsDuring (hosts.apply event) rest

namespace BootState

/-! ## Making room -/

/-- Nothing is forgotten unless the map is full and the host is new to it. -/
theorem makeRoom_of_not (order : HashMap.Iteration Mac HostState) (mac : Mac) (hosts : BootState)
    (h : ¬(HashMap.len hosts ≥ maxTracked ∧ hosts.lookup mac = none)) :
    makeRoom order mac hosts = hosts := by
  rw [makeRoom, if_neg]
  simpa using h

/-- An operation that forgets nothing has room for the host it brings. -/
theorem makeRoom_of_not_evicts {hosts : BootState} {op : BootOp} (hkeep : ¬Evicts hosts op)
    (order : HashMap.Iteration Mac HostState) {mac : Mac} (harrival : op.arrival = some mac) :
    makeRoom order mac hosts = hosts :=
  makeRoom_of_not order mac hosts fun hfull => hkeep ⟨mac, harrival, hfull⟩

/-- A host tracked after eviction was tracked before it, and is not finished. -/
theorem lookup_evictFinished (order : HashMap.Iteration Mac HostState) (mac : Mac)
    (hosts : BootState) (state : HostState)
    (h : (evictFinished order hosts).lookup mac = some state) :
    hosts.lookup mac = some state ∧ state.phase.isTerminal = false := by
  have hretain : (HashMap.retain (fun s => !s.phase.isTerminal) hosts).lookup mac = some state := by
    unfold evictFinished at h
    simp only at h
    split_ifs at h with hfull
    · cases hmin : (order.values (HashMap.retain (fun s => !s.phase.isTerminal) hosts)).argmin
          HostState.updatedUnix with
      | none => simpa only [hmin] using h
      | some oldest =>
        simp only [hmin] at h
        by_cases hmac : mac = oldest.mac
        · rw [hmac, Finmap.lookup_erase] at h
          cases h
        · rwa [Finmap.lookup_erase_ne hmac] at h
    · exact h
  obtain ⟨hlookup, hp⟩ := (HashMap.lookup_retain_eq_some_iff ..).mp hretain
  exact ⟨hlookup, by simpa using hp⟩

/-- A host tracked after making room was tracked before, and is not finished if anything was
forgotten. -/
theorem lookup_makeRoom (order : HashMap.Iteration Mac HostState) (mac mac' : Mac)
    (hosts : BootState) (state : HostState)
    (h : (makeRoom order mac' hosts).lookup mac = some state) :
    hosts.lookup mac = some state ∧
      (HashMap.len hosts ≥ maxTracked ∧ hosts.lookup mac' = none →
        state.phase.isTerminal = false) := by
  by_cases hfull : HashMap.len hosts ≥ maxTracked ∧ hosts.lookup mac' = none
  · rw [makeRoom, if_pos (by simpa using hfull)] at h
    obtain ⟨hlookup, hterminal⟩ := lookup_evictFinished order mac hosts state h
    exact ⟨hlookup, fun _ => hterminal⟩
  · rw [makeRoom_of_not order mac' hosts hfull] at h
    exact ⟨h, fun h' => absurd h' hfull⟩

/-! ## One operation -/

/-- An observation sets its host's phase to its own, or leaves the phase the host is tracked
in after making room. -/
theorem phaseOf_observe (moment : Moment) (mac mac' : Mac) (phase : Phase)
    (detail : Option Text) (hosts : BootState) :
    phaseOf mac (observe moment mac' phase detail hosts) =
      if mac = mac' then
        match phaseOf mac (makeRoom moment.order mac' hosts) with
        | some old => some (if phase.rank ≥ old.rank ∨ phase = .failed then phase else old)
        | none => some phase
      else phaseOf mac (makeRoom moment.order mac' hosts) := by
  unfold phaseOf observe
  simp only
  split_ifs with hmac
  · subst hmac
    cases (makeRoom moment.order mac hosts).lookup mac with
    | none => simp only [Finmap.lookup_insert, Option.map_some, Option.map_none]
    | some state =>
      simp only [Finmap.lookup_insert, Option.map_some, advance]
      split_ifs <;> rfl
  · cases (makeRoom moment.order mac' hosts).lookup mac' with
    | none => simp only [Finmap.lookup_insert_of_ne _ hmac]
    | some state => simp only [Finmap.lookup_insert_of_ne _ hmac]

/-- An inventory leaves the phase its host is tracked in, and otherwise has it running. -/
theorem phaseOf_setInventory (moment : Moment) (mac mac' : Mac) (hardware : Inventory)
    (hosts : BootState) :
    phaseOf mac (setInventory moment mac' hardware hosts) =
      if mac = mac' then
        some ((phaseOf mac (makeRoom moment.order mac' hosts)).getD .running)
      else phaseOf mac (makeRoom moment.order mac' hosts) := by
  unfold phaseOf setInventory
  simp only
  split_ifs with hmac
  · subst hmac
    cases (makeRoom moment.order mac hosts).lookup mac with
    | none => simp only [Finmap.lookup_insert, Option.map_some, Option.map_none, Option.getD_none]
    | some state => simp only [Finmap.lookup_insert, Option.map_some, Option.getD_some]
  · cases (makeRoom moment.order mac' hosts).lookup mac' with
    | none => simp only [Finmap.lookup_insert_of_ne _ hmac]
    | some state => simp only [Finmap.lookup_insert_of_ne _ hmac]

/-- A pallet version changes no phase. -/
theorem phaseOf_setPalletVersion (mac mac' : Mac) (version : Text) (hosts : BootState) :
    phaseOf mac (setPalletVersion mac' version hosts) = phaseOf mac hosts := by
  unfold phaseOf setPalletVersion
  rw [HashMap.lookup_modify]
  split_ifs with hmac
  · subst hmac
    cases hosts.lookup mac <;> rfl
  · rfl

/-- A failed host stays failed through an operation that forgets nothing. -/
theorem apply_stays_failed (hosts : BootState) (event : BootEvent) (mac : Mac)
    (hfailed : phaseOf mac hosts = some .failed) (hkeep : ¬Evicts hosts event.op) :
    phaseOf mac (hosts.apply event) = some .failed := by
  unfold apply
  cases hop : event.op with
  | observe mac' phase detail =>
    rw [hop] at hkeep
    simp only
    rw [phaseOf_observe, makeRoom_of_not_evicts hkeep _ rfl, hfailed]
    cases phase <;> simp [Phase.rank]
  | setPalletVersion mac' version =>
    simp only
    rw [phaseOf_setPalletVersion, hfailed]
  | setInventory mac' hardware =>
    rw [hop] at hkeep
    simp only
    rw [phaseOf_setInventory, makeRoom_of_not_evicts hkeep _ rfl, hfailed]
    simp

/-- A host that is not failed once room is made only fails by being observed so. -/
theorem apply_not_failed (hosts : BootState) (event : BootEvent) (mac : Mac)
    (hobs : ∀ detail, event.op ≠ .observe mac .failed detail)
    (hroom : ∀ mac', event.op.arrival = some mac' →
      phaseOf mac (makeRoom event.moment.order mac' hosts) ≠ some .failed)
    (hversion : event.op.arrival = none → phaseOf mac hosts ≠ some .failed) :
    phaseOf mac (hosts.apply event) ≠ some .failed := by
  unfold apply
  cases hop : event.op with
  | observe mac' phase detail =>
    have hnot := hroom mac' (by rw [hop]; rfl)
    simp only
    rw [phaseOf_observe]
    split_ifs with hmac
    · have hphase : phase ≠ .failed := fun heq => hobs detail (by rw [hop, hmac, heq])
      cases hold : phaseOf mac (makeRoom event.moment.order mac' hosts) with
      | none => simpa using hphase
      | some old =>
        rw [hold] at hnot
        simp only
        split_ifs
        · simpa using hphase
        · exact hnot
    · exact hnot
  | setPalletVersion mac' version =>
    simp only
    rw [phaseOf_setPalletVersion]
    exact hversion (by rw [hop]; rfl)
  | setInventory mac' hardware =>
    have hnot := hroom mac' (by rw [hop]; rfl)
    simp only
    rw [phaseOf_setInventory]
    split_ifs with hmac
    · cases hold : phaseOf mac (makeRoom event.moment.order mac' hosts) with
      | none => simp
      | some old => simpa [hold] using hnot
    · exact hnot

/-- Making room only takes phases away. -/
theorem phaseOf_makeRoom_not_failed (order : HashMap.Iteration Mac HostState) (mac mac' : Mac)
    (hosts : BootState) (h : phaseOf mac hosts ≠ some .failed) :
    phaseOf mac (makeRoom order mac' hosts) ≠ some .failed := by
  intro hfailed
  obtain ⟨state, hstate, hphase⟩ := Option.map_eq_some_iff.mp hfailed
  obtain ⟨hlookup, -⟩ := lookup_makeRoom order mac mac' hosts state hstate
  exact h (Option.map_eq_some_iff.mpr ⟨state, hlookup, hphase⟩)

/-- A host that is not failed only fails by being observed so. -/
theorem apply_stays_not_failed (hosts : BootState) (event : BootEvent) (mac : Mac)
    (hobs : ∀ detail, event.op ≠ .observe mac .failed detail)
    (h : phaseOf mac hosts ≠ some .failed) : phaseOf mac (hosts.apply event) ≠ some .failed :=
  apply_not_failed hosts event mac hobs
    (fun mac' _ => phaseOf_makeRoom_not_failed event.moment.order mac mac' hosts h) fun _ => h

/-- An operation that makes room leaves no host failed but the one it observes so. -/
theorem apply_frees (hosts : BootState) (event : BootEvent) (mac : Mac)
    (hobs : ∀ detail, event.op ≠ .observe mac .failed detail)
    (hevicts : Evicts hosts event.op) : phaseOf mac (hosts.apply event) ≠ some .failed := by
  obtain ⟨mac', harrival, hfull⟩ := hevicts
  refine apply_not_failed hosts event mac hobs (fun mac'' harrival' => ?_) fun hnone => ?_
  · rw [harrival] at harrival'
    cases harrival'
    intro hfailed
    obtain ⟨state, hstate, hphase⟩ := Option.map_eq_some_iff.mp hfailed
    have hterminal := (lookup_makeRoom _ mac mac' hosts state hstate).2 hfull
    rw [hphase] at hterminal
    cases hterminal
  · rw [harrival] at hnone
    cases hnone

/-! ## Runs -/

/-- A host that is not failed and not observed so is not failed at the end. -/
theorem run_stays_not_failed (hosts : BootState) (events : List BootEvent) (mac : Mac)
    (hobs : ∀ event ∈ events, ∀ detail, event.op ≠ .observe mac .failed detail)
    (h : phaseOf mac hosts ≠ some .failed) : phaseOf mac (hosts.run events) ≠ some .failed := by
  induction events generalizing hosts with
  | nil => exact h
  | cons event rest ih =>
    have hstep := apply_stays_not_failed hosts event mac (hobs event (by simp)) h
    exact ih (hosts.apply event) (fun e he => hobs e (by simp [he])) hstep

/-- A failed host that is not observed failed again stays failed until room is made. -/
theorem run_failed_iff (hosts : BootState) (events : List BootEvent) (mac : Mac)
    (hobs : ∀ event ∈ events, ∀ detail, event.op ≠ .observe mac .failed detail)
    (hfailed : phaseOf mac hosts = some .failed) :
    phaseOf mac (hosts.run events) = some .failed ↔ ¬EvictsDuring hosts events := by
  induction events generalizing hosts with
  | nil => simpa [run, EvictsDuring] using hfailed
  | cons event rest ih =>
    have hrest : ∀ e ∈ rest, ∀ detail, e.op ≠ .observe mac .failed detail :=
      fun e he => hobs e (by simp [he])
    have hrun : hosts.run (event :: rest) = (hosts.apply event).run rest := rfl
    rw [hrun, EvictsDuring]
    by_cases hevicts : Evicts hosts event.op
    · have hfree := apply_frees hosts event mac (hobs event (by simp)) hevicts
      simpa [hevicts] using run_stays_not_failed _ rest mac hrest hfree
    · have hstep := apply_stays_failed hosts event mac hfailed hevicts
      rw [ih (hosts.apply event) hrest hstep]
      simp [hevicts]

/-- A host observed failed is tracked as failed. -/
theorem apply_observe_failed (hosts : BootState) (moment : Moment) (mac : Mac)
    (detail : Option Text) :
    phaseOf mac (hosts.apply ⟨moment, .observe mac .failed detail⟩) = some .failed := by
  unfold apply
  simp only
  rw [phaseOf_observe, if_pos rfl]
  cases phaseOf mac (makeRoom moment.order mac hosts) <;> simp

end BootState

/-! ## Retried boots -/

/-- A run in which a host fails, is later observed running, assimilating or local, and does
not fail again: the events around its last failure. -/
structure Retry (mac : Mac) where
  before : List BootEvent
  moment : Moment
  detail : Option Text
  after : List BootEvent
  no_failure : ∀ event ∈ after, ∀ detail, event.op ≠ .observe mac .failed detail
  recovers : ∃ event ∈ after, ∃ phase ∈ [Phase.running, Phase.assimilating, Phase.local],
    ∃ detail, event.op = .observe mac phase detail

namespace Retry

variable {mac : Mac}

/-- The run up to and including the last failure. -/
def untilFailure (r : Retry mac) : List BootEvent :=
  r.before ++ [⟨r.moment, .observe mac .failed r.detail⟩]

/-- The whole run. -/
def events (r : Retry mac) : List BootEvent :=
  r.untilFailure ++ r.after

end Retry

/-- Any later events after a failure split at the last failure among them. -/
theorem exists_last_failure (mac : Mac) (failure : BootEvent) (detail : Option Text)
    (hfailure : failure.op = .observe mac .failed detail) (events : List BootEvent) :
    ∃ before moment detail' after,
      failure :: events = before ++ ⟨moment, .observe mac .failed detail'⟩ :: after ∧
        ∀ event ∈ after, ∀ d, event.op ≠ .observe mac .failed d := by
  induction events using List.reverseRecOn with
  | nil =>
    obtain ⟨moment, op⟩ := failure
    obtain rfl : op = .observe mac .failed detail := hfailure
    exact ⟨[], moment, detail, [], rfl, by simp⟩
  | append_singleton rest event ih =>
    by_cases hlast : ∃ d, event.op = .observe mac .failed d
    · obtain ⟨moment, op⟩ := event
      obtain ⟨d, rfl⟩ : ∃ d, op = .observe mac .failed d := hlast
      exact ⟨failure :: rest, moment, d, [], by simp, by simp⟩
    · obtain ⟨before, moment, d, after, heq, hno⟩ := ih
      refine ⟨before, moment, d, after ++ [event], ?_, ?_⟩
      · rw [← List.cons_append, heq, List.append_assoc, List.cons_append]
      · intro e he d' hop
        rcases List.mem_append.mp he with hmem | hmem
        · exact hno e hmem d' hop
        · exact hlast ⟨d', List.mem_singleton.mp hmem ▸ hop⟩

/-- A run in which a failure of the host is followed by a recovery, and that by no failure. -/
def RecoversIn (mac : Mac) (events : List BootEvent) : Prop :=
  ∃ first failure between recovery last,
    events = first ++ failure :: between ++ recovery :: last ∧
      (∃ detail, failure.op = .observe mac .failed detail) ∧
      (∃ phase ∈ [Phase.running, Phase.assimilating, Phase.local],
        ∃ detail, recovery.op = .observe mac phase detail) ∧
      ∀ event ∈ last, ∀ detail, event.op ≠ .observe mac .failed detail

/-- The retried boots are the runs with a failure, a later recovery and no failure after it. -/
theorem recoversIn_iff_retry (mac : Mac) (events : List BootEvent) :
    RecoversIn mac events ↔ ∃ r : Retry mac, r.events = events := by
  constructor
  · rintro ⟨first, failure, between, recovery, last, rfl, ⟨detail, hfailure⟩,
      ⟨phase, hphase, detail', hrecovery⟩, hlast⟩
    obtain ⟨before, moment, d, after, heq, hno⟩ :=
      exists_last_failure mac failure detail hfailure between
    have hnot : ∀ event ∈ after ++ recovery :: last, ∀ d, event.op ≠ .observe mac .failed d := by
      intro e he d' hop
      rcases List.mem_append.mp he with hmem | hmem
      · exact hno e hmem d' hop
      rcases List.mem_cons.mp hmem with rfl | hmem
      · rw [hrecovery] at hop
        cases hop
        revert hphase
        decide
      · exact hlast e hmem d' hop
    refine ⟨⟨first ++ before, moment, d, after ++ recovery :: last, hnot,
      recovery, by simp, phase, hphase, detail', hrecovery⟩, ?_⟩
    simp [Retry.events, Retry.untilFailure, heq]
  · rintro ⟨r, rfl⟩
    obtain ⟨recovery, hmem, phase, hphase, detail, hrecovery⟩ := r.recovers
    obtain ⟨between, last, hafter⟩ := List.append_of_mem hmem
    refine ⟨r.before, ⟨r.moment, .observe mac .failed r.detail⟩, between, recovery, last, ?_,
      ⟨r.detail, rfl⟩, ⟨phase, hphase, detail, hrecovery⟩, ?_⟩
    · simp [Retry.events, Retry.untilFailure, hafter]
    · intro event hevent d
      have hin : event ∈ r.after := by
        rw [hafter]
        exact List.mem_append_right _ (List.mem_cons_of_mem _ hevent)
      exact r.no_failure event hin d

/-- The host is not left failed: neither its tracked phase nor its status says so. -/
def NotLeftFailed (mac : Mac) (hosts : BootState) : Prop :=
  hosts.phaseOf mac ≠ some .failed ∧
    ∀ online claimId generation previous now,
      ¬(desiredStatus (hosts.lookup mac) online claimId generation previous now).Degraded

/-- The status follows the tracked phase. -/
theorem notLeftFailed_iff (mac : Mac) (hosts : BootState) :
    NotLeftFailed mac hosts ↔ hosts.phaseOf mac ≠ some .failed := by
  refine ⟨fun h => h.1, fun h => ⟨h, fun online claimId generation previous now hdeg => h ?_⟩⟩
  obtain ⟨state, hlookup, hphase⟩ := (desiredStatus_degraded_iff ..).mp hdeg
  exact Option.map_eq_some_iff.mpr ⟨state, hlookup, hphase⟩

/-- The last failure of a retried boot is undone exactly when, after it, the full map has to make
room. -/
theorem Retry.notLeftFailed_iff_evicts {mac : Mac} (r : Retry mac) :
    NotLeftFailed mac (BootState.run ∅ r.events) ↔
      EvictsDuring (BootState.run ∅ r.untilFailure) r.after := by
  have hfailed : BootState.phaseOf mac (BootState.run ∅ r.untilFailure) = some .failed := by
    unfold BootState.run Retry.untilFailure
    rw [List.foldl_append]
    exact BootState.apply_observe_failed _ r.moment mac r.detail
  have hrun : BootState.run ∅ r.events = BootState.run (BootState.run ∅ r.untilFailure) r.after :=
    List.foldl_append
  rw [notLeftFailed_iff, hrun, ne_eq, BootState.run_failed_iff _ _ mac r.no_failure hfailed,
    not_not]

/-- A host that fails and is later observed running again is left failed exactly unless, after
its last failure, the full map has to make room; and every run of that form is covered. -/
theorem retry_notLeftFailed_iff (mac : Mac) :
    (∀ events, RecoversIn mac events ↔ ∃ r : Retry mac, r.events = events) ∧
      ∀ r : Retry mac, NotLeftFailed mac (BootState.run ∅ r.events) ↔
        EvictsDuring (BootState.run ∅ r.untilFailure) r.after :=
  ⟨recoversIn_iff_retry mac, fun r => r.notLeftFailed_iff_evicts⟩

/-- A single machine whose claim failed once and whose next boot succeeded is left failed. -/
theorem exists_retry_left_failed :
    ∃ (mac : Mac) (r : Retry mac), ¬NotLeftFailed mac (BootState.run ∅ r.events) := by
  obtain ⟨order⟩ := (inferInstance : Nonempty (HashMap.Iteration Mac HostState))
  let mac : Mac := ⟨#v[0xaa, 0xbb, 0xcc, 0xdd, 0xee, 0x01]⟩
  let moment : Moment := ⟨1756000000, order⟩
  refine ⟨mac, ⟨[⟨moment, .observe mac .scriptFetched none⟩], moment,
    some "claim failed: registry answered 503".toList,
    [⟨moment, .observe mac .scriptFetched none⟩, ⟨moment, .observe mac .running none⟩],
    by simp, ⟨moment, .observe mac .running none⟩, by simp, .running, by simp, none, rfl⟩,
    fun h => h.1 ?_⟩
  rfl

end Stormnetboot.Server

import Mathlib.Order.Basic
import Stormnetboot.Common.Runs
import Stormnetboot.Server.BoundedTracking

/-!
# Phases are the running maximum

While a host stays tracked, its entry only changes through operations on the host itself, and an
observation changes the phase only upwards. From the entry's creation on, the phase is therefore
the greatest of those it was created with and observed in; failure is the greatest of all, so
nothing is special about it. The detail is that of the last observation that was not below the
phase the entry had.
-/

namespace Stormnetboot.Server

open Stormnetboot.Common

namespace Phase

/-- No two phases have the same rank. -/
theorem rank_injective : Function.Injective rank := by
  intro a b h
  cases a <;> cases b <;> first | rfl | cases h

/-- Phases are ordered as they are declared. -/
instance : LinearOrder Phase :=
  LinearOrder.lift' rank rank_injective

/-- Failed is the greatest phase. -/
theorem le_failed (phase : Phase) : phase ≤ .failed := by
  cases phase <;> decide

end Phase

/-- The phase an operation creates its host's entry with. -/
def BootOp.phase : BootOp → Phase
  | .observe _ phase _ => phase
  | .setPalletVersion _ _ => .running
  | .setInventory _ _ => .running

/-- The phase the host is observed in. -/
def BootOp.observed (mac : Mac) : BootOp → Option Phase
  | .observe mac' phase _ => if mac' = mac then some phase else none
  | .setPalletVersion _ _ => none
  | .setInventory _ _ => none

/-- The phases the host is observed in, in their order. -/
def observedPhases (mac : Mac) (events : List BootEvent) : List Phase :=
  events.filterMap fun event => event.op.observed mac

/-- The host is observed, with this detail, at or above the phase its entry has. -/
def Raises (mac : Mac) (hosts : BootState) (event : BootEvent) (detail : Option Text) : Prop :=
  ∃ phase, event.op = .observe mac phase detail ∧
    ∀ state, hosts.lookup mac = some state → state.phase ≤ phase

/-- The last such observation of a run has this detail. -/
def LastRaise (mac : Mac) (hosts : BootState) (events : List BootEvent)
    (detail : Option Text) : Prop :=
  ∃ first event rest, events = first ++ event :: rest ∧ Raises mac (hosts.run first) event detail ∧
    ∀ mid later tail, rest = mid ++ later :: tail →
      ∀ d, ¬Raises mac (hosts.run (first ++ event :: mid)) later d

/-- There is none in the run. -/
def NeverRaised (mac : Mac) (hosts : BootState) (events : List BootEvent) : Prop :=
  ∀ first event rest, events = first ++ event :: rest → ∀ d, ¬Raises mac (hosts.run first) event d

/-- The detail is that of the last such observation, or none if there is none. -/
def DetailOfLast (mac : Mac) (hosts : BootState) (events : List BootEvent)
    (detail : Option Text) : Prop :=
  LastRaise mac hosts events detail ∨ NeverRaised mac hosts events ∧ detail = none

section Detail

variable {mac : Mac} {hosts : BootState} {events : List BootEvent} {event : BootEvent}
  {detail : Option Text}

/-- One more such observation is the last. -/
theorem detailOfLast_raises (h : Raises mac (hosts.run events) event detail) :
    DetailOfLast mac hosts (events ++ [event]) detail := by
  refine .inl ⟨events, event, [], rfl, h, ?_⟩
  intro mid later tail hnil
  cases mid <;> cases hnil

/-- Anything else leaves the last one the last. -/
theorem DetailOfLast.keeps (h : DetailOfLast mac hosts events detail)
    (hkeeps : ∀ d, ¬Raises mac (hosts.run events) event d) :
    DetailOfLast mac hosts (events ++ [event]) detail := by
  rcases h with ⟨first, last, rest, rfl, hraises, hlater⟩ | ⟨hnever, hnone⟩
  · refine .inl ⟨first, last, rest ++ [event], by simp, hraises, ?_⟩
    intro mid later tail hsplit
    rcases append_singleton_cases hsplit with ⟨tail', hrest⟩ | ⟨rfl, rfl⟩
    · exact hlater mid later tail' hrest
    · exact hkeeps
  · refine .inr ⟨?_, hnone⟩
    intro first later rest hsplit
    rcases append_singleton_cases hsplit with ⟨rest', hfirst⟩ | ⟨rfl, rfl⟩
    · exact hnever first later rest' hfirst
    · exact hkeeps

end Detail

/-! ## One operation -/

namespace BootState

variable {hosts : BootState} {event : BootEvent} {mac : Mac} {state : HostState}

/-- A host that stays tracked has its entry updated by its own operations, and by no others. -/
theorem lookup_apply_stays (h : hosts.lookup mac = some state) (hstays : mac ∈ hosts.apply event) :
    (hosts.apply event).lookup mac =
      some (if mac = event.op.host then event.update state else state) := by
  split_ifs with hmac
  · subst hmac
    have hmem := Finmap.mem_of_lookup_eq_some h
    rw [lookup_apply_self, room_of_not_evicts (not_evicts_of_mem hmem), h]
    rfl
  · obtain ⟨state', hstate'⟩ := Finmap.mem_iff.mp hstays
    rw [hstate']
    rw [lookup_apply_of_ne hosts hmac] at hstate'
    rw [← h, lookup_room hstate']

/-- An entry that was not there is created by its host's own operation. -/
theorem lookup_apply_created (h : mac ∉ hosts) (hstays : mac ∈ hosts.apply event) :
    event.op.host = mac ∧ (hosts.apply event).lookup mac = event.create := by
  have hroom : (hosts.room event).lookup mac = none := by
    rw [Option.eq_none_iff_forall_ne_some]
    intro state hstate
    exact h (Finmap.mem_of_lookup_eq_some (lookup_room hstate))
  have hmac : event.op.host = mac := by
    by_contra hne
    obtain ⟨state, hstate⟩ := Finmap.mem_iff.mp hstays
    rw [lookup_apply_of_ne hosts (Ne.symm hne), hroom] at hstate
    cases hstate
  subst hmac
  exact ⟨rfl, by rw [lookup_apply_self, hroom]; rfl⟩

/-- An operation on one host changes no other host's entry, other than by removing it. -/
theorem lookup_apply_other (hosts : BootState) (event : BootEvent) (h : mac ≠ event.op.host) :
    (hosts.apply event).lookup mac = hosts.lookup mac ∨
      Evicts hosts event.op ∧ (hosts.apply event).lookup mac = none := by
  rw [lookup_apply_of_ne hosts h]
  by_cases hevicts : Evicts hosts event.op
  · cases hroom : (hosts.room event).lookup mac with
    | none => exact .inr ⟨hevicts, rfl⟩
    | some state => exact .inl (lookup_room hroom).symm
  · exact .inl (by rw [room_of_not_evicts hevicts])

end BootState

/-- An observation at or above the entry's phase sets phase and detail, any other leaves both. -/
theorem BootState.advance_cases (now : ℕ) (phase : Phase) (detail : Option Text)
    (state : HostState) :
    (state.phase ≤ phase ∧ (advance now phase detail state).phase = phase ∧
        (advance now phase detail state).detail = detail) ∨
      phase < state.phase ∧ advance now phase detail state = state := by
  have hcond : phase.rank ≥ state.phase.rank ∨ phase = .failed ↔ state.phase ≤ phase := by
    refine ⟨fun h => h.elim id ?_, .inl⟩
    rintro rfl
    exact Phase.le_failed _
  unfold advance
  by_cases hle : state.phase ≤ phase
  · rw [if_pos (hcond.mpr hle)]
    exact .inl ⟨hle, rfl, rfl⟩
  · rw [if_neg (hle ∘ hcond.mp)]
    exact .inr ⟨not_le.mp hle, rfl⟩

/-! ## From an entry's creation on -/

/-- A host that is observed is tracked. -/
theorem BootState.mem_apply_observe (hosts : BootState) (moment : Moment) (mac : Mac)
    (phase : Phase) (detail : Option Text) :
    mac ∈ hosts.apply ⟨moment, .observe mac phase detail⟩ := by
  have hself := hosts.lookup_apply_self ⟨moment, .observe mac phase detail⟩
  rw [BootOp.host] at hself
  refine Finmap.mem_iff.mpr ?_
  cases hroom : (hosts.room ⟨moment, .observe mac phase detail⟩).lookup mac with
  | none => exact ⟨_, hself.trans (by rw [hroom]; rfl)⟩
  | some state => exact ⟨_, hself.trans (by rw [hroom]; rfl)⟩

/-- An entry is created, and its host stays tracked. -/
structure Stretch (mac : Mac) where
  before : List BootEvent
  creation : BootEvent
  after : List BootEvent
  untracked : mac ∉ BootState.run ∅ before
  tracked : ∀ first rest, after = first ++ rest →
    mac ∈ BootState.run ∅ (before ++ creation :: first)

namespace Stretch

variable {mac : Mac}

/-- The map before the entry is created. -/
def start (s : Stretch mac) : BootState :=
  BootState.run ∅ s.before

/-- The entry at the end. -/
def entry (s : Stretch mac) : Option HostState :=
  (BootState.run ∅ (s.before ++ s.creation :: s.after)).lookup mac

/-- The phase it was created with, and those observed since. -/
def phases (s : Stretch mac) : List Phase :=
  s.creation.op.phase :: observedPhases mac s.after

/-- What the entry says of the stretch. -/
structure Tells (s : Stretch mac) (state : HostState) : Prop where
  phase : s.phases.max? = some state.phase
  detail : DetailOfLast mac s.start (s.creation :: s.after) state.detail
  firstSeen : state.firstSeenUnix = s.creation.moment.now

/-- Nobody but one host is observed, any number of times: its entry is there from the first on. -/
def observing (mac : Mac) (first : Moment × Phase × Option Text)
    (later : List (Moment × Phase × Option Text)) : Stretch mac where
  before := []
  creation := ⟨first.1, .observe mac first.2.1 first.2.2⟩
  after := later.map fun seen => ⟨seen.1, .observe mac seen.2.1 seen.2.2⟩
  untracked := Finmap.notMem_empty
  tracked := by
    intro start rest hsplit
    induction start using List.reverseRecOn with
    | nil => exact BootState.mem_apply_observe ∅ ..
    | append_singleton start event ih =>
      have hmem : event ∈ later.map fun seen =>
          (⟨seen.1, .observe mac seen.2.1 seen.2.2⟩ : BootEvent) := by
        rw [hsplit]
        simp
      obtain ⟨seen, -, rfl⟩ := List.mem_map.mp hmem
      rw [← List.cons_append, List.nil_append, BootState.run, List.foldl_concat]
      exact BootState.mem_apply_observe ..

-- A boot whose script is asked for once more when its agent has reported.
example (mac : Mac) (moment : Moment) :
    (observing mac (moment, .scriptFetched, none)
      [(moment, .running, none), (moment, .scriptFetched, none)]).phases =
        [.scriptFetched, .running, .scriptFetched] := by
  simp [phases, observing, observedPhases, BootOp.phase, BootOp.observed]

/-- The stretch up to an earlier moment. -/
def upTo (s : Stretch mac) (first rest : List BootEvent) (h : s.after = first ++ rest) :
    Stretch mac where
  before := s.before
  creation := s.creation
  after := first
  untracked := s.untracked
  tracked := fun first' rest' hsplit =>
    s.tracked first' (rest' ++ rest) (by rw [h, hsplit, List.append_assoc])

/-- The map at the end, one operation after another. -/
theorem run_concat (s : Stretch mac) (first : List BootEvent) (event : BootEvent) :
    BootState.run ∅ (s.before ++ s.creation :: (first ++ [event])) =
      (BootState.run ∅ (s.before ++ s.creation :: first)).apply event := by
  rw [← List.cons_append, ← List.append_assoc]
  exact List.foldl_concat ..

/-- The stretch starts where the run before it ends. -/
theorem start_run (s : Stretch mac) (events : List BootEvent) :
    s.start.run events = BootState.run ∅ (s.before ++ events) :=
  List.foldl_append.symm

/-- The entry as it is created. -/
theorem tells_created (s : Stretch mac) (h : s.after = []) :
    ∃ state, s.entry = some state ∧ s.Tells state := by
  have hrun : BootState.run ∅ (s.before ++ [s.creation]) = s.start.apply s.creation :=
    List.foldl_concat ..
  have hmem := s.tracked [] [] h
  rw [hrun] at hmem
  obtain ⟨hmac, hlookup⟩ := BootState.lookup_apply_created s.untracked hmem
  obtain ⟨state, hstate⟩ := Finmap.mem_iff.mp hmem
  have hcreate : s.creation.create = some state := hlookup.symm.trans hstate
  refine ⟨state, by rw [entry, h, hrun]; exact hstate, ?_⟩
  have hfirst := (BootEvent.create_eq_some hcreate).2
  have hphases : s.phases = [s.creation.op.phase] := by rw [phases, h]; rfl
  unfold BootEvent.create at hcreate
  cases hop : s.creation.op with
  | observe mac' phase detail =>
    simp only [hop, Option.some.injEq] at hcreate
    obtain rfl : mac' = mac := by rw [← hmac, hop]; rfl
    have hraises : Raises mac' (s.start.run []) s.creation detail :=
      ⟨phase, hop, fun old hold => absurd (Finmap.mem_of_lookup_eq_some hold) s.untracked⟩
    subst hcreate
    exact ⟨by rw [hphases, hop]; rfl, h ▸ detailOfLast_raises hraises, hfirst⟩
  | setPalletVersion mac' version => simp only [hop, reduceCtorEq] at hcreate
  | setInventory mac' hardware =>
    simp only [hop, Option.some.injEq] at hcreate
    have hquiet : ∀ d, ¬Raises mac (s.start.run []) s.creation d := by
      rintro d ⟨phase, hobserve, -⟩
      rw [hop] at hobserve
      cases hobserve
    have hnever : NeverRaised mac s.start [] := by
      intro first event rest hnil
      cases first <;> cases hnil
    have hdetail : DetailOfLast mac s.start [] none := .inr ⟨hnever, rfl⟩
    subst hcreate
    exact ⟨by rw [hphases, hop]; rfl, h ▸ hdetail.keeps hquiet, hfirst⟩

section Concat

variable {s : Stretch mac} {first : List BootEvent} {event : BootEvent} {state state' : HostState}

/-- The phases with one more operation. -/
theorem phases_concat (h : s.after = first ++ [event]) :
    s.phases = (s.upTo first [event] h).phases ++ (event.op.observed mac).toList := by
  have hobserved : observedPhases mac (first ++ [event]) =
      observedPhases mac first ++ (event.op.observed mac).toList := by
    rw [observedPhases, List.filterMap_append]
    cases hone : event.op.observed mac <;> simp [observedPhases, hone]
  rw [phases, h, hobserved]
  rfl

/-- The events from the creation on, with one more operation. -/
theorem detail_concat (h : s.after = first ++ [event]) {detail : Option Text}
    (hdetail : DetailOfLast mac s.start ((s.creation :: first) ++ [event]) detail) :
    DetailOfLast mac s.start (s.creation :: s.after) detail := by
  rw [h]
  exact hdetail

/-- The entry before the operation is the one it finds. -/
theorem raises_upTo (h : s.after = first ++ [event])
    (hentry : (s.upTo first [event] h).entry = some state) (detail : Option Text) :
    Raises mac (s.start.run (s.creation :: first)) event detail ↔
      ∃ phase, event.op = .observe mac phase detail ∧ state.phase ≤ phase := by
  have hlookup : (s.start.run (s.creation :: first)).lookup mac = some state := by
    rw [start_run]
    exact hentry
  simp only [Raises, hlookup, Option.some.injEq, forall_eq']

/-- An operation that does not observe the host. -/
theorem Tells.quiet (h : s.after = first ++ [event])
    (hentry : (s.upTo first [event] h).entry = some state)
    (htells : (s.upTo first [event] h).Tells state) (hquiet : event.op.observed mac = none)
    (hphase : state'.phase = state.phase) (hdetail : state'.detail = state.detail)
    (hfirst : state'.firstSeenUnix = state.firstSeenUnix) : s.Tells state' where
  phase := by
    rw [phases_concat h, hquiet, Option.toList_none, List.append_nil, hphase]
    exact htells.phase
  detail := by
    rw [hdetail]
    refine detail_concat h (htells.detail.keeps fun d hraises => ?_)
    obtain ⟨phase, hop, -⟩ := (raises_upTo h hentry d).mp hraises
    rw [hop, BootOp.observed, if_pos rfl] at hquiet
    cases hquiet
  firstSeen := hfirst.trans htells.firstSeen

/-- An operation that does. -/
theorem Tells.observes (h : s.after = first ++ [event])
    (hentry : (s.upTo first [event] h).entry = some state)
    (htells : (s.upTo first [event] h).Tells state) {phase : Phase} {detail : Option Text}
    (hop : event.op = .observe mac phase detail) :
    s.Tells (BootState.advance event.moment.now phase detail state) := by
  have hphases : s.phases = (s.upTo first [event] h).phases ++ [phase] := by
    rw [phases_concat h, hop, BootOp.observed, if_pos rfl, Option.toList_some]
  obtain ⟨hmem, hmax⟩ := List.max?_eq_some_iff.mp htells.phase
  have hupdate := event.update_keeps state
  unfold BootEvent.update at hupdate
  simp only [hop] at hupdate
  obtain ⟨hle, hphase, hdetail⟩ | ⟨hlt, hsame⟩ :=
    BootState.advance_cases event.moment.now phase detail state
  · refine ⟨?_, ?_, hupdate.2.trans htells.firstSeen⟩
    · rw [hphases, hphase, List.max?_eq_some_iff]
      refine ⟨List.mem_append_right _ (List.mem_singleton_self phase), fun other hother => ?_⟩
      rcases List.mem_append.mp hother with hearlier | hlast
      · exact (hmax other hearlier).trans hle
      · exact (List.mem_singleton.mp hlast).le
    · rw [hdetail]
      exact detail_concat h (detailOfLast_raises ((raises_upTo h hentry detail).mpr
        ⟨phase, hop, hle⟩))
  · rw [hsame]
    refine ⟨?_, ?_, htells.firstSeen⟩
    · rw [hphases, List.max?_eq_some_iff]
      refine ⟨List.mem_append_left _ hmem, fun other hother => ?_⟩
      rcases List.mem_append.mp hother with hearlier | hlast
      · exact hmax other hearlier
      · exact (List.mem_singleton.mp hlast).trans_le hlt.le
    · refine detail_concat h (htells.detail.keeps fun d hraises => ?_)
      obtain ⟨phase', hop', hle⟩ := (raises_upTo h hentry d).mp hraises
      rw [hop, BootOp.observe.injEq] at hop'
      exact absurd (hop'.2.1 ▸ hle) (not_le.mpr hlt)

/-- An operation in the stretch keeps the entry telling it. -/
theorem Tells.concat (h : s.after = first ++ [event])
    (hentry : (s.upTo first [event] h).entry = some state)
    (htells : (s.upTo first [event] h).Tells state) :
    ∃ state', s.entry = some state' ∧ s.Tells state' := by
  have hlast : s.entry = ((BootState.run ∅ (s.before ++ s.creation :: first)).apply event).lookup
      mac := by
    rw [entry, h, run_concat]
  have hmem := s.tracked s.after [] (List.append_nil _).symm
  rw [h, run_concat] at hmem
  refine ⟨_, hlast.trans (BootState.lookup_apply_stays hentry hmem), ?_⟩
  split_ifs with hmac
  · obtain ⟨hkeeps, hfirst⟩ := event.update_keeps state
    cases hop : event.op with
    | observe mac' phase detail =>
      rw [hop] at hmac
      subst hmac
      have hupdate : event.update state =
          BootState.advance event.moment.now phase detail state := by
        rw [BootEvent.update, hop]
      rw [hupdate]
      exact htells.observes h hentry hop
    | setPalletVersion mac' version =>
      have hupdate : event.update state = { state with palletVersion := some version } := by
        rw [BootEvent.update, hop]
      rw [hupdate]
      exact htells.quiet h hentry (by rw [hop]; rfl) rfl rfl rfl
    | setInventory mac' hardware =>
      have hupdate : event.update state =
          { state with hardware := some hardware, updatedUnix := event.moment.now } := by
        rw [BootEvent.update, hop]
      rw [hupdate]
      exact htells.quiet h hentry (by rw [hop]; rfl) rfl rfl rfl
  · have hquiet : event.op.observed mac = none := by
      cases hop : event.op with
      | observe mac' phase detail =>
        rw [hop] at hmac
        exact if_neg (Ne.symm hmac)
      | setPalletVersion mac' version => rfl
      | setInventory mac' hardware => rfl
    exact htells.quiet h hentry hquiet rfl rfl rfl

end Concat

/-- Throughout the stretch the entry tells it. -/
theorem tells (s : Stretch mac) : ∃ state, s.entry = some state ∧ s.Tells state := by
  obtain ⟨after, hafter⟩ : ∃ after, s.after = after := ⟨_, rfl⟩
  induction after using List.reverseRecOn generalizing s with
  | nil => exact s.tells_created hafter
  | append_singleton first event ih =>
    obtain ⟨state, hentry, htells⟩ := ih (s.upTo first [event] hafter) rfl
    exact htells.concat hafter hentry

/-- The phase never decreases. -/
theorem phase_le (s : Stretch mac) (first rest : List BootEvent) (h : s.after = first ++ rest)
    {state state' : HostState} (hentry : (s.upTo first rest h).entry = some state)
    (hentry' : s.entry = some state') : state.phase ≤ state'.phase := by
  obtain ⟨early, hearly, htells⟩ := (s.upTo first rest h).tells
  obtain ⟨late, hlate, htells'⟩ := s.tells
  rw [hentry, Option.some.injEq] at hearly
  rw [hentry', Option.some.injEq] at hlate
  subst hearly
  subst hlate
  refine (List.max?_eq_some_iff.mp htells'.phase).2 _ ?_
  have hphases : s.phases = (s.upTo first rest h).phases ++ observedPhases mac rest := by
    rw [phases, h, observedPhases, List.filterMap_append]
    rfl
  rw [hphases]
  exact List.mem_append_left _ (List.max?_eq_some_iff.mp htells.phase).1

/-- Two stretches with the same phases, in any order and as often as may be, end in the same
phase. -/
theorem phase_eq (s t : Stretch mac) (h : ∀ phase, phase ∈ s.phases ↔ phase ∈ t.phases) :
    s.entry.map HostState.phase = t.entry.map HostState.phase := by
  obtain ⟨state, hstate, htells⟩ := s.tells
  obtain ⟨state', hstate', htells'⟩ := t.tells
  rw [hstate, hstate', Option.map_some, Option.map_some, ← htells.phase, ← htells'.phase]
  obtain ⟨hmem, hmax⟩ := List.max?_eq_some_iff.mp htells.phase
  rw [htells.phase, eq_comm, List.max?_eq_some_iff]
  exact ⟨(h _).mp hmem, fun phase hphase => hmax phase ((h phase).mpr hphase)⟩

end Stretch

/-- From its creation on, an entry tells the greatest of its phases, the detail of the last
observation that was not below the phase it had and when the host was first seen, whatever order
the phases came in; and an operation on one host changes another's entry only by removing it. -/
theorem phases_runningMaximum (mac : Mac) :
    (∀ s : Stretch mac,
      (∃ state, s.entry = some state ∧ s.Tells state) ∧
        ∀ first rest (h : s.after = first ++ rest) state state',
          (s.upTo first rest h).entry = some state → s.entry = some state' →
            state.phase ≤ state'.phase) ∧
      (∀ s t : Stretch mac, (∀ phase, phase ∈ s.phases ↔ phase ∈ t.phases) →
        s.entry.map HostState.phase = t.entry.map HostState.phase) ∧
      ∀ events (event : BootEvent), mac ≠ event.op.host →
        ((BootState.run ∅ events).apply event).lookup mac = (BootState.run ∅ events).lookup mac ∨
          Evicts (BootState.run ∅ events) event.op ∧
            ((BootState.run ∅ events).apply event).lookup mac = none :=
  ⟨fun s => ⟨s.tells, fun first rest h _ _ => s.phase_le first rest h⟩, Stretch.phase_eq,
    fun events event => BootState.lookup_apply_other (BootState.run ∅ events) event⟩

end Stormnetboot.Server

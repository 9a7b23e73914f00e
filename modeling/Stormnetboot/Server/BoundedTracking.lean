import Stormnetboot.Server.FailureRecovery

/-!
# Bounded tracking

Every operation acts on the map after room was made in it: at most one entry, that of the
operation's own host, is then replaced or added. Room is made for a host the map does not hold,
and only when the map is full. Since each entry stands under its own MAC, what is removed by the
MAC inside an entry is that entry, so a full map always loses one, and it loses an unfinished
host only when it holds no finished one.
-/

namespace Stormnetboot.Server

open Stormnetboot.Common

namespace BootEvent

/-- What the operation makes of its host's entry. -/
def update (event : BootEvent) (state : HostState) : HostState :=
  match event.op with
  | .observe _ phase detail => BootState.advance event.moment.now phase detail state
  | .setPalletVersion _ version => { state with palletVersion := some version }
  | .setInventory _ hardware =>
    { state with hardware := some hardware, updatedUnix := event.moment.now }

/-- The entry it creates for a host that has none. -/
def create (event : BootEvent) : Option HostState :=
  match event.op with
  | .observe mac phase detail => some {
      mac := mac
      phase := phase
      detail := detail
      palletVersion := none
      hardware := none
      firstSeenUnix := event.moment.now
      updatedUnix := event.moment.now }
  | .setPalletVersion _ _ => none
  | .setInventory mac hardware => some {
      mac := mac
      phase := .running
      detail := none
      palletVersion := none
      hardware := some hardware
      firstSeenUnix := event.moment.now
      updatedUnix := event.moment.now }

/-- An update keeps the MAC and the time the host was first seen. -/
theorem update_keeps (event : BootEvent) (state : HostState) :
    (event.update state).mac = state.mac ∧
      (event.update state).firstSeenUnix = state.firstSeenUnix := by
  unfold update
  cases event.op with
  | observe mac phase detail =>
    simp only [BootState.advance]
    split_ifs <;> exact ⟨rfl, rfl⟩
  | setPalletVersion mac version => exact ⟨rfl, rfl⟩
  | setInventory mac hardware => exact ⟨rfl, rfl⟩

/-- An entry is created under the host's MAC, at the present time. -/
theorem create_eq_some {event : BootEvent} {state : HostState} (h : event.create = some state) :
    state.mac = event.op.host ∧ state.firstSeenUnix = event.moment.now := by
  unfold create at h
  unfold BootOp.host
  cases hop : event.op with
  | observe mac phase detail =>
    simp only [hop, Option.some.injEq] at h
    exact h ▸ ⟨rfl, rfl⟩
  | setPalletVersion mac version => simp only [hop, reduceCtorEq] at h
  | setInventory mac hardware =>
    simp only [hop, Option.some.injEq] at h
    exact h ▸ ⟨rfl, rfl⟩

end BootEvent

namespace BootState

/-! ## What an operation does -/

/-- The map an operation acts on, after room was made in it. -/
def room (hosts : BootState) (event : BootEvent) : BootState :=
  match event.op.arrival with
  | some mac => makeRoom event.moment.order mac hosts
  | none => hosts

/-- Then its host's entry is updated, or created. -/
theorem apply_eq (hosts : BootState) (event : BootEvent) :
    hosts.apply event =
      match (hosts.room event).lookup event.op.host with
      | some state => (hosts.room event).insert event.op.host (event.update state)
      | none =>
        match event.create with
        | some state => (hosts.room event).insert event.op.host state
        | none => hosts.room event := by
  obtain ⟨moment, op⟩ := event
  cases op with
  | observe mac phase detail => rfl
  | setPalletVersion mac version =>
    have hroom : hosts.room ⟨moment, .setPalletVersion mac version⟩ = hosts := rfl
    simp only [hroom, BootOp.host, apply, setPalletVersion, HashMap.modify]
    cases hosts.lookup mac <;> rfl
  | setInventory mac hardware => rfl

/-- The entry of the operation's own host. -/
theorem lookup_apply_self (hosts : BootState) (event : BootEvent) :
    (hosts.apply event).lookup event.op.host =
      ((hosts.room event).lookup event.op.host).elim event.create fun state =>
        some (event.update state) := by
  rw [apply_eq]
  cases hlookup : (hosts.room event).lookup event.op.host with
  | some state => exact Finmap.lookup_insert _
  | none =>
    simp only [Option.elim_none]
    cases event.create with
    | some state => exact Finmap.lookup_insert _
    | none => exact hlookup

/-- Every other entry is as room was made. -/
theorem lookup_apply_of_ne (hosts : BootState) {event : BootEvent} {mac : Mac}
    (h : mac ≠ event.op.host) : (hosts.apply event).lookup mac = (hosts.room event).lookup mac := by
  rw [apply_eq]
  cases (hosts.room event).lookup event.op.host with
  | some state => exact Finmap.lookup_insert_of_ne _ h
  | none =>
    simp only
    cases event.create with
    | some state => exact Finmap.lookup_insert_of_ne _ h
    | none => rfl

/-- Room is made only for a host that is not tracked, in a full map. -/
theorem room_of_not_evicts {hosts : BootState} {event : BootEvent} (h : ¬Evicts hosts event.op) :
    hosts.room event = hosts := by
  unfold room
  cases harrival : event.op.arrival with
  | none => rfl
  | some mac => exact makeRoom_of_not_evicts h _ harrival

/-- A host that is tracked makes no room. -/
theorem not_evicts_of_mem {hosts : BootState} {op : BootOp} (h : op.host ∈ hosts) :
    ¬Evicts hosts op := by
  rintro ⟨mac, harrival, -, hnone⟩
  have hmac : op.host = mac := by
    cases op with
    | observe mac' phase detail => exact Option.some.inj harrival
    | setPalletVersion mac' version => cases harrival
    | setInventory mac' hardware => exact Option.some.inj harrival
  rw [hmac] at h
  exact absurd h (Finmap.lookup_eq_none.mp hnone)

/-- Where room is made, it is by forgetting the finished hosts. -/
theorem room_of_evicts {hosts : BootState} {event : BootEvent} (h : Evicts hosts event.op) :
    hosts.room event = evictFinished event.moment.order hosts := by
  obtain ⟨mac, harrival, hfull, hnone⟩ := h
  unfold room makeRoom
  rw [harrival]
  exact if_pos ⟨hfull, by rw [hnone]; rfl⟩

end BootState

/-! ## The invariant -/

/-- Each entry stands under its own MAC, and there are not too many. -/
structure Bounded (hosts : BootState) : Prop where
  keyed : ∀ mac state, hosts.lookup mac = some state → state.mac = mac
  len_le : HashMap.len hosts ≤ maxTracked

/-- All the map can hold are tracked, none of them finished. -/
structure AllUnfinished (hosts : BootState) : Prop where
  full : HashMap.len hosts = maxTracked
  unfinished : ∀ mac state, hosts.lookup mac = some state → state.phase.isTerminal = false

namespace BootState

/-- The finished hosts are forgotten, or there are none and the one that was silent for longest
is. -/
theorem evictFinished_cases (order : HashMap.Iteration Mac HostState) {hosts : BootState}
    (h : Bounded hosts) :
    (HashMap.len (evictFinished order hosts) < maxTracked ∧
        evictFinished order hosts = HashMap.retain (fun state => !state.phase.isTerminal) hosts) ∨
      AllUnfinished hosts ∧ ∃ oldest, hosts.lookup oldest.mac = some oldest ∧
        (∀ mac state, hosts.lookup mac = some state → oldest.updatedUnix ≤ state.updatedUnix) ∧
          evictFinished order hosts = hosts.erase oldest.mac := by
  let kept := HashMap.retain (fun state : HostState => !state.phase.isTerminal) hosts
  by_cases hfull : HashMap.len kept ≥ maxTracked
  · right
    have hkept : kept = hosts := HashMap.retain_eq_self (h.len_le.trans hfull)
    have hunfinished : ∀ mac state, hosts.lookup mac = some state →
        state.phase.isTerminal = false := by
      intro mac state hstate
      have hretained : kept.lookup mac = some state := hkept ▸ hstate
      simpa using ((HashMap.lookup_retain_eq_some_iff ..).mp hretained).2
    have hlen : HashMap.len hosts = maxTracked := le_antisymm h.len_le (hkept ▸ hfull)
    have hmem : ∀ mac state, hosts.lookup mac = some state → state ∈ order.values hosts :=
      fun mac state hstate =>
        List.mem_map.mpr ⟨⟨mac, state⟩, (order.mem_list_iff hosts mac state).mpr hstate, rfl⟩
    have hevict : evictFinished order hosts =
        match (order.values hosts).argmin HostState.updatedUnix with
        | some oldest => hosts.erase oldest.mac
        | none => hosts := by
      have hbody : evictFinished order hosts =
          match (order.values kept).argmin HostState.updatedUnix with
          | some oldest => kept.erase oldest.mac
          | none => kept := if_pos hfull
      rw [hbody, hkept]
    cases hmin : (order.values hosts).argmin HostState.updatedUnix with
    | none =>
      have hempty : (order.values hosts).length = 0 := by
        rw [List.argmin_eq_none.mp hmin, List.length_nil]
      rw [HashMap.Iteration.values, List.length_map, order.length_list, hlen] at hempty
      cases hempty
    | some oldest =>
      rw [hmin] at hevict
      obtain ⟨⟨mac, state⟩, hlist, rfl⟩ := List.mem_map.mp (List.argmin_mem hmin)
      have hstate : hosts.lookup mac = some state := (order.mem_list_iff hosts mac state).mp hlist
      refine ⟨⟨hlen, hunfinished⟩, state, ?_, ?_, hevict⟩
      · rw [h.keyed mac state hstate]
        exact hstate
      · intro mac' state' hstate'
        exact List.le_of_mem_argmin (hmem mac' state' hstate') hmin
  · left
    have hevict : evictFinished order hosts = kept := if_neg hfull
    exact ⟨hevict ▸ Nat.not_le.mp hfull, hevict⟩

/-- There is room after room was made. -/
theorem len_evictFinished {order : HashMap.Iteration Mac HostState} {hosts : BootState}
    (h : Bounded hosts) : HashMap.len (evictFinished order hosts) < maxTracked := by
  obtain ⟨hlt, -⟩ | ⟨hall, oldest, holdest, -, hevict⟩ := evictFinished_cases order h
  · exact hlt
  · have hone := HashMap.len_erase_of_mem (Finmap.mem_of_lookup_eq_some holdest)
    rw [hevict]
    have hfull := hall.full
    omega

/-- What is tracked after room was made was tracked before. -/
theorem lookup_room {hosts : BootState} {event : BootEvent} {mac : Mac} {state : HostState}
    (h : (hosts.room event).lookup mac = some state) : hosts.lookup mac = some state := by
  by_cases hevicts : Evicts hosts event.op
  · rw [room_of_evicts hevicts] at h
    exact (lookup_evictFinished _ mac hosts state h).1
  · rwa [room_of_not_evicts hevicts] at h

/-- Either the operation's host is tracked, or there is room for it. -/
theorem len_room {hosts : BootState} (h : Bounded hosts) {event : BootEvent} {state : HostState}
    (hcreate : event.create = some state) (hnone : (hosts.room event).lookup event.op.host = none) :
    HashMap.len (hosts.room event) < maxTracked := by
  have harrival : event.op.arrival = some event.op.host := by
    obtain ⟨moment, op⟩ := event
    cases op with
    | observe mac phase detail => rfl
    | setPalletVersion mac version => cases hcreate
    | setInventory mac hardware => rfl
  by_cases hevicts : Evicts hosts event.op
  · rw [room_of_evicts hevicts]
    exact len_evictFinished h
  · rw [room_of_not_evicts hevicts] at hnone ⊢
    by_contra hfull
    exact hevicts ⟨_, harrival, Nat.not_lt.mp hfull, hnone⟩

end BootState

/-- Making room keeps the bound. -/
theorem Bounded.room {hosts : BootState} (h : Bounded hosts) (event : BootEvent) :
    Bounded (hosts.room event) where
  keyed mac state hstate := h.keyed mac state (BootState.lookup_room hstate)
  len_le := by
    by_cases hevicts : Evicts hosts event.op
    · rw [BootState.room_of_evicts hevicts]
      exact (BootState.len_evictFinished h).le
    · rw [BootState.room_of_not_evicts hevicts]
      exact h.len_le

/-- So does every operation. -/
theorem Bounded.apply {hosts : BootState} (h : Bounded hosts) (event : BootEvent) :
    Bounded (hosts.apply event) where
  keyed := by
    intro mac state hstate
    by_cases hmac : mac = event.op.host
    · subst hmac
      rw [BootState.lookup_apply_self] at hstate
      cases hroom : (hosts.room event).lookup event.op.host with
      | none =>
        rw [hroom] at hstate
        exact (BootEvent.create_eq_some hstate).1
      | some old =>
        rw [hroom, Option.elim_some, Option.some.injEq] at hstate
        rw [← hstate, (event.update_keeps old).1]
        exact (h.room event).keyed _ old hroom
    · rw [BootState.lookup_apply_of_ne hosts hmac] at hstate
      exact (h.room event).keyed mac state hstate
  len_le := by
    rw [BootState.apply_eq]
    cases hroom : (hosts.room event).lookup event.op.host with
    | some old =>
      have hlen := HashMap.len_insert_of_mem (Finmap.mem_of_lookup_eq_some hroom) (event.update old)
      exact hlen.trans_le (h.room event).len_le
    | none =>
      simp only
      cases hcreate : event.create with
      | none => exact (h.room event).len_le
      | some state =>
        have hlt := BootState.len_room h hcreate hroom
        have hlen := HashMap.len_insert_le event.op.host state (hosts.room event)
        simp only
        omega

/-- Every run from an empty map keeps the bound. -/
theorem bounded_run (events : List BootEvent) : Bounded (BootState.run ∅ events) := by
  induction events using List.reverseRecOn with
  | nil => exact ⟨nofun, Nat.zero_le _⟩
  | append_singleton rest event ih =>
    have hrun : BootState.run ∅ (rest ++ [event]) = (BootState.run ∅ rest).apply event :=
      List.foldl_concat ..
    rw [hrun]
    exact ih.apply event

/-! ## What is removed -/

/-- The operation removes this entry. -/
def Removes (hosts : BootState) (event : BootEvent) (mac : Mac) (state : HostState) : Prop :=
  hosts.lookup mac = some state ∧ (hosts.apply event).lookup mac = none

/-- It is the one that was silent for longest. -/
def Oldest (hosts : BootState) (state : HostState) : Prop :=
  ∀ mac' state', hosts.lookup mac' = some state' → state.updatedUnix ≤ state'.updatedUnix

section Removes

variable {hosts : BootState} {event : BootEvent} {mac : Mac} {state : HostState}

/-- What is removed is removed in making room, and is not the operation's host. -/
theorem Removes.evicts (h : Removes hosts event mac state) :
    Evicts hosts event.op ∧ (hosts.room event).lookup mac = none := by
  obtain ⟨hstate, hnone⟩ := h
  have hmac : mac ≠ event.op.host := by
    rintro rfl
    have hmem := Finmap.mem_of_lookup_eq_some hstate
    rw [BootState.lookup_apply_self,
      BootState.room_of_not_evicts (BootState.not_evicts_of_mem hmem), hstate] at hnone
    cases hnone
  rw [BootState.lookup_apply_of_ne hosts hmac] at hnone
  refine ⟨?_, hnone⟩
  by_contra hevicts
  rw [BootState.room_of_not_evicts hevicts, hstate] at hnone
  cases hnone

/-- An operation on a tracked host removes nothing. -/
theorem not_removes_of_mem (h : event.op.host ∈ hosts) : ¬Removes hosts event mac state :=
  fun hremoves => BootState.not_evicts_of_mem h hremoves.evicts.1

/-- An unfinished host is removed only from a map full of unfinished ones, as the one that was
silent for longest. -/
theorem Removes.of_unfinished (hbounded : Bounded hosts) (h : Removes hosts event mac state)
    (hstate : state.phase.isTerminal = false) :
    AllUnfinished hosts ∧ Oldest hosts state ∧
      ∀ mac' state', Removes hosts event mac' state' → mac' = mac := by
  obtain ⟨hevicts, hnone⟩ := h.evicts
  rw [BootState.room_of_evicts hevicts] at hnone
  obtain ⟨-, hevict⟩ | ⟨hall, oldest, holdest, hleast, hevict⟩ :=
    BootState.evictFinished_cases event.moment.order hbounded
  · have hkept := (HashMap.lookup_retain_eq_some_iff (fun s : HostState => !s.phase.isTerminal)
      hosts mac state).mpr ⟨h.1, by rw [hstate]; rfl⟩
    rw [hevict, hkept] at hnone
    cases hnone
  · have herased : ∀ mac' state', Removes hosts event mac' state' → mac' = oldest.mac := by
      intro mac' state' hremoves
      have hnone' := hremoves.evicts.2
      rw [BootState.room_of_evicts hevicts, hevict] at hnone'
      by_contra hmac
      rw [Finmap.lookup_erase_ne hmac, hremoves.1] at hnone'
      cases hnone'
    have hmac := herased mac state h
    have hsame : state = oldest := by
      have hlookup := h.1
      rw [hmac, holdest, Option.some.injEq] at hlookup
      exact hlookup.symm
    exact ⟨hall, hsame ▸ hleast, fun mac' state' hremoves => (herased mac' state' hremoves).trans
      hmac.symm⟩

end Removes

/-- At every moment of a run there are at most so many entries, each under its own MAC; and what
comes next removes nothing if its host is tracked, and an unfinished host only where all are
unfinished: one, and the one that was silent for longest. -/
theorem boundedTracking (events : List BootEvent) :
    Bounded (BootState.run ∅ events) ∧ ∀ event : BootEvent,
      (event.op.host ∈ BootState.run ∅ events →
        ∀ mac state, ¬Removes (BootState.run ∅ events) event mac state) ∧
      ∀ mac state, Removes (BootState.run ∅ events) event mac state →
        state.phase.isTerminal = false →
          AllUnfinished (BootState.run ∅ events) ∧ Oldest (BootState.run ∅ events) state ∧
            ∀ mac' state', Removes (BootState.run ∅ events) event mac' state' → mac' = mac := by
  have hbounded := bounded_run events
  refine ⟨hbounded, fun event => ⟨fun hmem mac state => not_removes_of_mem hmem, ?_⟩⟩
  intro mac state hremoves hstate
  exact hremoves.of_unfinished hbounded hstate

end Stormnetboot.Server

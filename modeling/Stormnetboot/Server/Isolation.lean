import Stormnetboot.Server.RunningPhases

/-!
# Machines do not disturb each other

One map holds what the server knows of every machine. An operation changes the entry of its own
host by what that entry was, and touches another only by forgetting it, which takes a full map. The
entry of a host is therefore what its own operations would have made of an empty map: all of them
while the machines fit into the map, and otherwise those since it was forgotten last.
-/

namespace Stormnetboot.Server

open Stormnetboot.Common

/-- The operations on one host. -/
def own (mac : Mac) (events : List BootEvent) : List BootEvent :=
  events.filter fun event => event.op.host = mac

/-- The hosts there are operations on. -/
def hostsOf (events : List BootEvent) : Finset Mac :=
  (events.map fun event => event.op.host).toFinset

/-- Later events take no host from a history. -/
theorem hostsOf_subset_append (first later : List BootEvent) :
    hostsOf first ⊆ hostsOf (first ++ later) := by
  rw [hostsOf, hostsOf, List.map_append, List.toFinset_append]
  exact Finset.subset_union_left

/-- What makes an entry is about the host of the entry. -/
theorem BootOp.host_of_arrival {op : BootOp} {mac : Mac} (h : op.arrival = some mac) :
    op.host = mac := by
  cases op with
  | observe mac' phase detail => exact Option.some.inj h
  | setPalletVersion mac' version => cases h
  | setInventory mac' hardware => exact Option.some.inj h

namespace BootState

/-- What the server would hold of a host if nobody else had talked to it. -/
def alone (mac : Mac) (events : List BootEvent) : Option HostState :=
  (run ∅ (own mac events)).lookup mac

/-- One more event is applied to what the others left. -/
theorem run_concat (hosts : BootState) (events : List BootEvent) (event : BootEvent) :
    hosts.run (events ++ [event]) = (hosts.run events).apply event :=
  List.foldl_concat ..

/-- What an operation makes of its host's entry depends on that entry alone. -/
theorem lookup_apply_host (hosts : BootState) (event : BootEvent) :
    (hosts.apply event).lookup event.op.host =
      (hosts.lookup event.op.host).elim event.create fun state => some (event.update state) := by
  rw [lookup_apply_self]
  cases hlookup : hosts.lookup event.op.host with
  | some state =>
    rw [room_of_not_evicts (not_evicts_of_mem (Finmap.mem_of_lookup_eq_some hlookup)), hlookup]
  | none =>
    have hroom : (hosts.room event).lookup event.op.host = none := by
      rw [Option.eq_none_iff_forall_ne_some]
      intro state hstate
      cases hlookup.symm.trans (lookup_room hstate)
    rw [hroom]

/-- The host's own operation goes on from what its own operations made. -/
theorem alone_concat_self (events : List BootEvent) (event : BootEvent) :
    alone event.op.host (events ++ [event]) =
      (alone event.op.host events).elim event.create fun state => some (event.update state) := by
  have hown : own event.op.host (events ++ [event]) = own event.op.host events ++ [event] := by
    simp [own, List.filter_append]
  rw [alone, hown, run_concat, lookup_apply_host]
  rfl

/-- Anyone else's is nothing to it. -/
theorem alone_concat_of_ne (events : List BootEvent) {event : BootEvent} {mac : Mac}
    (h : mac ≠ event.op.host) : alone mac (events ++ [event]) = alone mac events := by
  have hown : own mac (events ++ [event]) = own mac events := by
    simp [own, List.filter_append, Ne.symm h]
  rw [alone, hown, alone]

/-- Where an operation forgets nothing of a host that is held as it would be alone, it still is. -/
theorem lookup_apply_alone {hosts : BootState} {mac : Mac} {since : List BootEvent}
    (h : hosts.lookup mac = alone mac since) (event : BootEvent)
    (hkept : mac ≠ event.op.host → (hosts.apply event).lookup mac = hosts.lookup mac) :
    (hosts.apply event).lookup mac = alone mac (since ++ [event]) := by
  by_cases hmac : mac = event.op.host
  · subst hmac
    rw [lookup_apply_host, alone_concat_self, h]
  · rw [alone_concat_of_ne since hmac, hkept hmac, h]

/-! ## Machines that fit -/

/-- Only hosts that were talked about are held. -/
theorem keys_run_subset (events : List BootEvent) : (run ∅ events).keys ⊆ hostsOf events := by
  induction events using List.reverseRecOn with
  | nil => exact fun mac hmac => absurd hmac (Finset.notMem_empty mac)
  | append_singleton rest event ih =>
    intro mac hmac
    rw [hostsOf, List.map_append, List.toFinset_append, Finset.mem_union]
    by_cases hself : mac = event.op.host
    · exact .inr (by simp [hself])
    · refine .inl (ih ?_)
      obtain ⟨state, hstate⟩ := Finmap.mem_iff.mp (Finmap.mem_keys.mp hmac)
      rw [run_concat, lookup_apply_of_ne _ hself] at hstate
      exact Finmap.mem_keys.mpr (Finmap.mem_of_lookup_eq_some (lookup_room hstate))

/-- While they fit into the map, the next operation makes no room. -/
theorem not_evicts_of_fits {events : List BootEvent} {event : BootEvent}
    (h : (hostsOf (events ++ [event])).card ≤ maxTracked) : ¬Evicts (run ∅ events) event.op := by
  rintro ⟨mac, harrival, hfull, hnone⟩
  have hhost := BootOp.host_of_arrival harrival
  have hnew : mac ∉ (run ∅ events).keys := fun hmem =>
    absurd hnone (Finmap.lookup_eq_none.not.mpr (not_not.mpr (Finmap.mem_keys.mp hmem)))
  have hsub : insert mac (run ∅ events).keys ⊆ hostsOf (events ++ [event]) := by
    rw [hostsOf, List.map_append, List.toFinset_append]
    refine Finset.insert_subset (Finset.mem_union_right _ (by simp [hhost])) ?_
    exact (keys_run_subset events).trans Finset.subset_union_left
  have hcard := Finset.card_le_card hsub
  rw [Finset.card_insert_of_notMem hnew, ← HashMap.len_eq_card_keys] at hcard
  omega

/-- As long as all the machines there are fit into the map, each entry is what it would be if its
host were the only one. -/
theorem lookup_run_eq_alone {events : List BootEvent} (h : (hostsOf events).card ≤ maxTracked)
    (mac : Mac) : (run ∅ events).lookup mac = alone mac events := by
  induction events using List.reverseRecOn with
  | nil => rfl
  | append_singleton rest event ih =>
    have hrest := (Finset.card_le_card (hostsOf_subset_append rest [event])).trans h
    rw [run_concat]
    refine lookup_apply_alone (ih hrest) event fun hmac => ?_
    rw [lookup_apply_of_ne _ hmac, room_of_not_evicts (not_evicts_of_fits h)]

/-- What of an entry survives its host's own operations survives everybody's. -/
theorem lookup_run_keeps (mac : Mac) {P : HostState → Prop} {first later : List BootEvent}
    (hfits : (hostsOf (first ++ later)).card ≤ maxTracked)
    (hkeeps : ∀ event ∈ later, event.op.host = mac → ∀ state, P state → P (event.update state))
    (hfirst : ∃ state, (run ∅ first).lookup mac = some state ∧ P state) :
    ∃ state, (run ∅ (first ++ later)).lookup mac = some state ∧ P state := by
  induction later using List.reverseRecOn with
  | nil => rwa [List.append_nil]
  | append_singleton rest event ih =>
    rw [← List.append_assoc] at hfits ⊢
    obtain ⟨state, hstate, hP⟩ := ih
      ((Finset.card_le_card (hostsOf_subset_append (first ++ rest) [event])).trans hfits)
      fun event hevent => hkeeps event (List.mem_append_left _ hevent)
    rw [run_concat]
    by_cases hmac : event.op.host = mac
    · subst hmac
      rw [lookup_apply_host, hstate]
      exact ⟨_, rfl, hkeeps event (by simp) rfl state hP⟩
    · rw [lookup_apply_of_ne _ (Ne.symm hmac), room_of_not_evicts (not_evicts_of_fits hfits)]
      exact ⟨state, hstate, hP⟩

/-- No operation takes a host back to an earlier phase. -/
theorem phase_le_update (event : BootEvent) (state : HostState) :
    state.phase ≤ (event.update state).phase := by
  unfold BootEvent.update
  cases event.op with
  | observe mac phase detail =>
    rcases advance_cases event.moment.now phase detail state with ⟨hle, hphase, -⟩ | ⟨-, hsame⟩
    · exact hle.trans_eq hphase.symm
    · exact (congrArg HostState.phase hsame).ge
  | setPalletVersion mac version => exact le_rfl
  | setInventory mac hardware => exact le_rfl

/-- A host that is observed has come at least so far. -/
theorem lookup_apply_observe (hosts : BootState) (moment : Moment) (mac : Mac) (phase : Phase)
    (detail : Option Text) :
    ∃ state, (hosts.apply ⟨moment, .observe mac phase detail⟩).lookup mac = some state ∧
      phase ≤ state.phase := by
  have hself := hosts.lookup_apply_host ⟨moment, .observe mac phase detail⟩
  rw [BootOp.host] at hself
  rw [hself]
  cases hosts.lookup mac with
  | none => exact ⟨_, rfl, le_rfl⟩
  | some state =>
    refine ⟨_, rfl, ?_⟩
    rcases advance_cases moment.now phase detail state with ⟨-, hphase, -⟩ | ⟨hlt, hsame⟩
    · exact hphase.ge
    · exact hlt.le.trans (congrArg HostState.phase hsame).ge

/-! ## Any number of machines -/

/-- None of the operations of `since` forgets the host, where `before` has gone before them. -/
def NeverForgets (mac : Mac) (before since : List BootEvent) : Prop :=
  ∀ events event state, events ++ [event] <+: since →
    ¬Removes (run ∅ (before ++ events)) event mac state

/-- The next operation does not forget it either. -/
theorem NeverForgets.concat {mac : Mac} {before since : List BootEvent} {event : BootEvent}
    (h : NeverForgets mac before since)
    (hkept : ∀ state, ¬Removes (run ∅ (before ++ since)) event mac state) :
    NeverForgets mac before (since ++ [event]) := by
  intro events later state hprefix
  cases List.prefix_concat_iff.mp hprefix with
  | inl heq =>
    obtain ⟨rfl, hlater⟩ := List.append_inj' heq rfl
    cases hlater
    exact hkept state
  | inr hprefix => exact h events later state hprefix

/-- The run splits where the host was forgotten last, or at its start where it never was; what is
held of it is what its own operations since then would have made of an empty map. -/
def SinceForgotten (mac : Mac) (events : List BootEvent) : Prop :=
  ∃ forgotten since, events = forgotten ++ since ∧
    (forgotten = [] ∨ ∃ before event state, forgotten = before ++ [event] ∧
      Removes (run ∅ before) event mac state) ∧
    NeverForgets mac forgotten since ∧
    (run ∅ events).lookup mac = alone mac since

/-- Every run splits there, for every host. -/
theorem sinceForgotten_run (mac : Mac) (events : List BootEvent) : SinceForgotten mac events := by
  induction events using List.reverseRecOn with
  | nil =>
    refine ⟨[], [], rfl, .inl rfl, ?_, rfl⟩
    intro events event state hprefix
    exact absurd (List.prefix_nil.mp hprefix) (List.concat_ne_nil event events)
  | append_singleton rest event ih =>
    by_cases hremoves : ∃ state, Removes (run ∅ rest) event mac state
    · obtain ⟨state, hremoves⟩ := hremoves
      have hlast : ∃ before event' state, rest ++ [event] = before ++ [event'] ∧
          Removes (run ∅ before) event' mac state := ⟨rest, event, state, rfl, hremoves⟩
      refine ⟨rest ++ [event], [], (List.append_nil _).symm, .inr hlast, ?_, ?_⟩
      · intro events event' state hprefix
        exact absurd (List.prefix_nil.mp hprefix) (List.concat_ne_nil event' events)
      · rw [run_concat]
        exact hremoves.2
    · obtain ⟨forgotten, since, rfl, hforgotten, hkept, hheld⟩ := ih
      have hkeeps : NeverForgets mac forgotten (since ++ [event]) :=
        hkept.concat fun state h => hremoves ⟨state, h⟩
      refine ⟨forgotten, since ++ [event], List.append_assoc .., hforgotten, hkeeps, ?_⟩
      rw [run_concat]
      refine lookup_apply_alone hheld event fun hmac => ?_
      cases lookup_apply_other (run ∅ (forgotten ++ since)) event hmac with
      | inl hsame => exact hsame
      | inr hgone =>
        rw [hgone.2, eq_comm, Option.eq_none_iff_forall_ne_some]
        exact fun state hstate => hremoves ⟨state, hstate, hgone.2⟩

end BootState

end Stormnetboot.Server

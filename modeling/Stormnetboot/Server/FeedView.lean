import Stormnetboot.Common.Listings
import Stormnetboot.Server.BoundedTracking
import Stormnetboot.Server.Components
import Stormnetboot.Server.HostViews
import Stormnetboot.Server.MacIdentity

/-!
# The feed of a state that stands still

Where no call lands between the two reads of the boot state, the feed says exactly what is in it:
how many hosts are in each phase that any host is in, and the hosts in a strict order of which no
more than the first few have a row. The state lists its hosts in an order of its own, which no
longer shows.
-/

namespace Stormnetboot.Server

open Stormnetboot.Common

/-- The host heard of later comes first, and of two that were heard of at once the one with the
lower MAC. -/
def RanksBefore (a b : HostState) : Prop :=
  b.updatedUnix < a.updatedUnix ∨
    a.updatedUnix = b.updatedUnix ∧ a.mac.compare b.mac = .lt

/-- The components of a kind. -/
def rowsOf (kind : String) (feed : List ComponentSummary) : List ComponentSummary :=
  feed.filter fun component => component.kind = kind.toList

/-- The feed says what is in the state: one component for an id, a row for each phase some host is
in with the number of hosts in it, and a row for each of the first hosts in the order. -/
structure ExactView (hosts : BootState) (feed : List ComponentSummary) : Prop where
  ids : (feed.map ComponentSummary.id).Nodup
  phases : ∃ counts : List (Phase × ℕ),
    rowsOf "phase" feed = counts.map phaseComponent ∧ (counts.map Prod.fst).Nodup ∧
      (∀ phase count, (phase, count) ∈ counts ↔
        hosts.InPhase phase ∧ count = hosts.inPhase phase) ∧
      (counts.map Prod.snd).sum = HashMap.len hosts
  rows : ∃ ranked : List HostState,
    rowsOf "host" feed =
        (ranked.take (min maxHostRows (HashMap.len hosts))).map hostComponent ∧
      ranked.Pairwise RanksBefore ∧ ranked.length = HashMap.len hosts ∧
      (∀ state, state ∈ ranked ↔ hosts.lookup state.mac = some state) ∧
      ∀ shown ∈ ranked.take maxHostRows, ∀ omitted ∈ ranked.drop maxHostRows,
        omitted.updatedUnix ≤ shown.updatedUnix

/-- Two hosts have two ids. -/
theorem hostId_inj {mac mac' : Mac} (h : hostId mac = hostId mac') : mac = mac' := by
  have hdisplay : mac.display = mac'.display := List.append_cancel_left h
  have hparse := Mac.parse_display mac
  rw [hdisplay, Mac.parse_display] at hparse
  exact (Except.ok.inj hparse).symm

/-! ## The order of the rows -/

/-- A host ranks before another if it was updated later, or at the same time with a smaller MAC.
-/
theorem isLE_rank_iff (a b : HostState) :
    ((compare b.updatedUnix a.updatedUnix).then (compare a.mac.octets b.mac.octets)).isLE = true ↔
      b.updatedUnix < a.updatedUnix ∨
        a.updatedUnix = b.updatedUnix ∧ (a.mac.compare b.mac).isLE = true := by
  rcases Nat.lt_trichotomy b.updatedUnix a.updatedUnix with hlt | heq | hgt
  · rw [Nat.compare_eq_lt.mpr hlt]
    exact iff_of_true rfl (.inl hlt)
  · rw [Nat.compare_eq_eq.mpr heq]
    exact ⟨fun h => .inr ⟨heq.symm, h⟩, fun h => (h.resolve_left heq.not_lt).2⟩
  · rw [Nat.compare_eq_gt.mpr hgt]
    exact iff_of_false nofun (by omega)

namespace BootState

variable {hosts : BootState}

/-- No two of the listed hosts have one MAC. -/
theorem pairwise_mac_values (hkeyed : ∀ mac state, hosts.lookup mac = some state → state.mac = mac)
    (order : HashMap.Iteration Mac HostState) :
    (order.values hosts).Pairwise fun a b => a.mac ≠ b.mac := by
  have hmacs : (order.values hosts).map HostState.mac = (order.list hosts).map Sigma.fst := by
    rw [HashMap.Iteration.values, List.map_map]
    refine List.map_congr_left fun entry hmem => ?_
    exact hkeyed entry.1 entry.2 ((order.mem_list_iff ..).mp hmem)
  refine List.pairwise_map.mp ?_
  rw [hmacs]
  exact order.nodup_keys hosts

/-- The snapshot is in the order of the rows. -/
theorem pairwise_snapshot (hkeyed : ∀ mac state, hosts.lookup mac = some state → state.mac = mac)
    (order : HashMap.Iteration Mac HostState) :
    (hosts.snapshot order).Pairwise RanksBefore := by
  have hstrict : (hosts.snapshot order).Pairwise fun a b =>
      ((compare a.updatedUnix b.updatedUnix).then (compare b.mac.octets a.mac.octets)).isLE =
        false := by
    refine strict_mergeSort (fun a b c hab hbc => ?_) (fun a b => ?_) ?_
    · rw [isLE_rank_iff] at hab hbc ⊢
      rcases hab with hab | ⟨hab, hle⟩
      · exact .inl (by omega)
      · rcases hbc with hbc | ⟨hbc, hle'⟩
        · exact .inl (by omega)
        · exact .inr ⟨hab.trans hbc, Mac.isLE_compare_trans hle hle'⟩
    · rw [Bool.or_eq_true, isLE_rank_iff, isLE_rank_iff]
      rcases Nat.lt_trichotomy b.updatedUnix a.updatedUnix with hlt | heq | hgt
      · exact .inl (.inl hlt)
      · have htotal := Mac.isLE_compare_total a.mac b.mac
        rw [Bool.or_eq_true] at htotal
        exact htotal.imp (fun hle => .inr ⟨heq.symm, hle⟩) fun hle => .inr ⟨heq, hle⟩
      · exact .inr (.inl hgt)
    · refine (pairwise_mac_values hkeyed order).imp fun {a b} hne ⟨hab, hba⟩ => hne ?_
      rw [isLE_rank_iff] at hab hba
      obtain ⟨heq, hle⟩ := hab.resolve_left fun hlt => by omega
      obtain ⟨-, hge⟩ := hba.resolve_left fun hlt => by omega
      exact Mac.eq_of_isLE_compare hle hge
  refine hstrict.imp fun {a b} h => ?_
  rw [Bool.eq_false_iff, ne_eq, isLE_rank_iff, not_or, not_and] at h
  obtain ⟨hlater, hmac⟩ := h
  rcases Nat.lt_or_ge b.updatedUnix a.updatedUnix with hlt | hge
  · exact .inl hlt
  · have heq : a.updatedUnix = b.updatedUnix := by omega
    exact .inr ⟨heq, Mac.compare_eq_lt (hmac heq.symm)⟩

end BootState

/-! ## The rows -/

section Rows

variable (counts : List (Phase × ℕ)) (hosts : List HostState) (assets : AssetStatus)

/-- The rows of a kind are those of the parts. -/
theorem rowsOf_append (kind : String) (feed rest : List ComponentSummary) :
    rowsOf kind (feed ++ rest) = rowsOf kind feed ++ rowsOf kind rest :=
  List.filter_append ..

/-- Components that are all of one kind. -/
theorem rowsOf_map {α : Type} (kind kind' : String) (row : α → ComponentSummary)
    (hkind : ∀ a, (row a).kind = kind'.toList) (l : List α) :
    rowsOf kind (l.map row) = if kind'.toList = kind.toList then l.map row else [] := by
  unfold rowsOf
  split_ifs with h
  · refine List.filter_eq_self.mpr fun component hmem => ?_
    obtain ⟨a, -, rfl⟩ := List.mem_map.mp hmem
    exact decide_eq_true ((hkind a).trans h)
  · refine List.filter_eq_nil_iff.mpr fun component hmem => ?_
    obtain ⟨a, -, rfl⟩ := List.mem_map.mp hmem
    rw [decide_eq_true_eq, hkind]
    exact h

/-- The rows of a kind are among the fixed ones, the phases and the hosts. -/
theorem rowsOf_collectFrom (kind : String) :
    rowsOf kind (collectFrom counts hosts assets) =
      rowsOf kind [systemComponent counts assets, assetsComponent assets] ++
        (if "phase".toList = kind.toList then counts.map phaseComponent else []) ++
        (if "host".toList = kind.toList then (hosts.take maxHostRows).map hostComponent else []) := by
  rw [← rowsOf_map kind "phase" phaseComponent fun _ => rfl,
    ← rowsOf_map kind "host" hostComponent fun _ => rfl, ← rowsOf_append, ← rowsOf_append]
  rfl

/-- The rows of phases are those of the counts. -/
theorem rowsOf_phase : rowsOf "phase" (collectFrom counts hosts assets) =
    counts.map phaseComponent := by
  rw [rowsOf_collectFrom, if_pos rfl, if_neg (by decide), List.append_nil]
  rfl

/-- The rows of hosts are those of the first hosts. -/
theorem rowsOf_host : rowsOf "host" (collectFrom counts hosts assets) =
    (hosts.take maxHostRows).map hostComponent := by
  rw [rowsOf_collectFrom, if_neg (by decide), if_pos rfl, List.append_nil]
  rfl

variable {counts hosts}

/-- Different phases have different rows. -/
theorem nodup_phaseIds (hcounts : (counts.map Prod.fst).Nodup) :
    (counts.map fun count => phaseId count.1).Nodup := by
  have hmap : counts.map (fun count => phaseId count.1) = (counts.map Prod.fst).map phaseId := by
    rw [List.map_map]
    rfl
  rw [hmap]
  exact hcounts.map fun _ _ => phaseId_inj

/-- Different hosts have different rows. -/
theorem nodup_hostIds (hhosts : hosts.Pairwise fun a b => a.mac ≠ b.mac) (n : ℕ) :
    ((hosts.take n).map fun host => hostId host.mac).Nodup :=
  List.pairwise_map.mpr ((hhosts.sublist (List.take_sublist ..)).imp fun hne h => hne (hostId_inj h))

/-- Where no phase is counted twice and no MAC listed twice, there is one component for an id. -/
theorem nodup_ids_collectFrom (hcounts : (counts.map Prod.fst).Nodup)
    (hhosts : hosts.Pairwise fun a b => a.mac ≠ b.mac) :
    ((collectFrom counts hosts assets).map ComponentSummary.id).Nodup := by
  -- The first letter of an id says what it is the id of.
  have hphase : ∀ id ∈ counts.map fun count => phaseId count.1, id.head? = some 'p' := by
    intro id hid
    obtain ⟨count, -, rfl⟩ := List.mem_map.mp hid
    rfl
  have hhost : ∀ id ∈ (hosts.take maxHostRows).map fun host => hostId host.mac,
      id.head? = some 'h' := by
    intro id hid
    obtain ⟨host, -, rfl⟩ := List.mem_map.mp hid
    rfl
  have hrows : ((counts.map fun count => phaseId count.1) ++
      (hosts.take maxHostRows).map fun host => hostId host.mac).Nodup := by
    refine (nodup_phaseIds hcounts).append (nodup_hostIds hhosts maxHostRows) fun id hp hh => ?_
    exact absurd ((hphase id hp).symm.trans (hhost id hh)) (by decide)
  have hhead : ∀ id ∈ (counts.map fun count => phaseId count.1) ++
      (hosts.take maxHostRows).map fun host => hostId host.mac,
      id.head? = some 'p' ∨ id.head? = some 'h' :=
    fun id hid => (List.mem_append.mp hid).imp (hphase id) (hhost id)
  rw [ids_collectFrom, List.cons_append, List.cons_append, List.nodup_cons, List.nodup_cons,
    List.mem_cons]
  refine ⟨?_, fun h => ?_, hrows⟩
  · rintro (h | h)
    · exact absurd h (by decide)
    · exact absurd (hhead _ h) (by decide)
  · exact absurd (hhead _ h) (by decide)

end Rows

/-! ## The view -/

/-- Of two parts of a ranked list, the first has no host that was heard of earlier. -/
theorem updatedUnix_le_of_ranked {ranked : List HostState} (h : ranked.Pairwise RanksBefore)
    (n : ℕ) {shown omitted : HostState} (hshown : shown ∈ ranked.take n)
    (homitted : omitted ∈ ranked.drop n) : omitted.updatedUnix ≤ shown.updatedUnix := by
  rw [← List.take_append_drop n ranked, List.pairwise_append] at h
  rcases h.2.2 shown hshown omitted homitted with hlt | ⟨heq, -⟩
  · exact hlt.le
  · exact heq.ge

/-- A state that keeps every host under its own MAC is seen exactly. -/
theorem exactView_of_keyed {hosts : BootState}
    (hkeyed : ∀ mac state, hosts.lookup mac = some state → state.mac = mac) (orders : ReadOrders)
    (assets : AssetStatus) : ExactView hosts (collect orders hosts hosts assets) := by
  have hranked := BootState.pairwise_snapshot hkeyed orders.listed
  have hmacs : (hosts.snapshot orders.listed).Pairwise fun a b => a.mac ≠ b.mac :=
    ((List.mergeSort_perm ..).pairwise_iff fun h => Ne.symm h).mpr
      (BootState.pairwise_mac_values hkeyed orders.listed)
  refine ⟨nodup_ids_collectFrom assets (BootState.nodup_phaseCounts ..) hmacs, ?_, ?_⟩
  · exact ⟨_, rowsOf_phase .., BootState.nodup_phaseCounts ..,
      fun _ _ => BootState.mem_phaseCounts ..,
      BootState.sum_phaseCounts ..⟩
  · refine ⟨_, ?_, hranked, BootState.length_snapshot .., fun state => ?_, fun shown hshown omitted => ?_⟩
    · rw [collect, rowsOf_host, ← BootState.length_snapshot orders.listed, List.take_eq_take_min]
    · rw [BootState.mem_snapshot_iff]
      constructor
      · rintro ⟨mac, hlookup⟩
        rw [hkeyed mac state hlookup]
        exact hlookup
      · exact fun hlookup => ⟨_, hlookup⟩
    · exact updatedUnix_le_of_ranked hranked maxHostRows hshown

/-- Whatever calls the state has seen, a feed collected while it stands still is an exact view of
it, in whatever order its maps are listed. -/
theorem exactView_collect (events : List BootEvent) (orders : ReadOrders) (assets : AssetStatus) :
    ExactView (BootState.run ∅ events)
      (collect orders (BootState.run ∅ events) (BootState.run ∅ events) assets) :=
  exactView_of_keyed (bounded_run events).keyed orders assets

end Stormnetboot.Server

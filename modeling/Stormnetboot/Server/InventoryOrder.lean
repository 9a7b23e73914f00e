import Stormnetboot.Server.RunningPhases

/-!
# Inventory and phase reports in either order

A host's inventory and its phase reports are separate requests. Where the host is tracked, they
commute: an inventory leaves the phase, a report the hardware. Where it is not, the request that
comes first creates the entry, and an inventory creates it running: the phase then is at least
that, which it is not when a report of an earlier phase came first. So the order shows exactly in
the calls that hold an inventory and reports, none of them of a machine that is up.
-/

namespace Stormnetboot.Server

open Stormnetboot.Common

/-- A request about one host, whose inventory is always the same. -/
inductive HostCall where
  | observe (phase : Phase) (detail : Option Text)
  | setInventory
  deriving DecidableEq

namespace HostCall

/-- The operation it is. -/
def op (mac : Mac) (hardware : Inventory) : HostCall → BootOp
  | .observe phase detail => .observe mac phase detail
  | .setInventory => .setInventory mac hardware

/-- The phase it reports. -/
def phase? : HostCall → Option Phase
  | .observe phase _ => some phase
  | .setInventory => none

/-- The phase it creates an entry with. -/
def creates (call : HostCall) : Phase :=
  call.phase?.getD .running

end HostCall

/-- The operations, each at the moment it arrives in. -/
def arrivals (mac : Mac) (hardware : Inventory) (calls : List (Moment × HostCall)) :
    List BootEvent :=
  calls.map fun call => ⟨call.1, call.2.op mac hardware⟩

/-- What is known of a host in the end. -/
def outcome (mac : Mac) (hosts : BootState) : Option (Phase × Option Inventory) :=
  (hosts.lookup mac).map fun state => (state.phase, state.hardware)

/-- The phases that are reported. -/
def reported (calls : List HostCall) : List Phase :=
  calls.filterMap HostCall.phase?

/-- A phase is reported exactly when it was observed. -/
theorem mem_reported_iff (calls : List HostCall) (phase : Phase) :
    phase ∈ reported calls ↔ ∃ detail, .observe phase detail ∈ calls := by
  rw [reported, List.mem_filterMap]
  constructor
  · rintro ⟨call, hmem, hphase⟩
    cases call with
    | observe phase' detail =>
      cases hphase
      exact ⟨detail, hmem⟩
    | setInventory => cases hphase
  · rintro ⟨detail, hmem⟩
    exact ⟨_, hmem, rfl⟩

/-- The hardware after the calls. -/
def hardwareAfter (hardware : Inventory) (calls : List HostCall) (before : Option Inventory) :
    Option Inventory :=
  if .setInventory ∈ calls then some hardware else before

/-- The first call reports its own phase. -/
theorem reported_cons (call : HostCall) (rest : List HostCall) :
    reported (call :: rest) = call.phase?.toList ++ reported rest := by
  cases call <;> rfl

/-- The hardware after some calls follows from that after the first. -/
theorem hardwareAfter_cons (hardware : Inventory) (call : HostCall) (rest : List HostCall)
    (before : Option Inventory) :
    hardwareAfter hardware (call :: rest) before =
      hardwareAfter hardware rest (hardwareAfter hardware [call] before) := by
  unfold hardwareAfter
  cases call with
  | observe phase detail => simp
  | setInventory => simp

/-- The greatest of one list after another. -/
theorem max?_append {first rest : List Phase} {a b : Phase} (h : (a :: first).max? = some b) :
    (a :: (first ++ rest)).max? = (b :: rest).max? := by
  rw [List.max?_cons', Option.some.injEq] at h
  rw [List.max?_cons', List.max?_cons', List.foldl_append, h]

/-- The greatest of the same phases. -/
theorem max?_congr {xs ys : List Phase} (h : xs.Perm ys) : xs.max? = ys.max? := by
  cases hmax : ys.max? with
  | none =>
    have hnil : ys = [] := List.max?_eq_none_iff.mp hmax
    subst hnil
    rw [h.eq_nil]
    rfl
  | some phase =>
    obtain ⟨hmem, hle⟩ := List.max?_eq_some_iff.mp hmax
    rw [List.max?_eq_some_iff]
    exact ⟨h.mem_iff.mpr hmem, fun other hother => hle other (h.mem_iff.mp hother)⟩

/-- A phase below another does not count. -/
theorem max?_cons_of_le {xs : List Phase} {a b : Phase} (hb : b ∈ xs) (hle : a ≤ b) :
    (a :: xs).max? = xs.max? := by
  obtain ⟨greatest, hgreatest⟩ := Option.ne_none_iff_exists'.mp
    fun hnone => List.ne_nil_of_mem hb (List.max?_eq_none_iff.mp hnone)
  obtain ⟨hmem, hmax⟩ := List.max?_eq_some_iff.mp hgreatest
  rw [hgreatest, List.max?_eq_some_iff]
  refine ⟨List.mem_cons_of_mem _ hmem, fun other hother => ?_⟩
  rcases List.mem_cons.mp hother with rfl | hrest
  · exact hle.trans (hmax b hb)
  · exact hmax other hrest

section Outcome

variable (mac : Mac) (hardware : Inventory) {hosts : BootState}

/-- Every call is about the one host. -/
theorem host_op (call : HostCall) : (call.op mac hardware).host = mac := by
  cases call <;> rfl

/-- What one call makes of a tracked host. -/
theorem lookup_call (moment : Moment) (call : HostCall) {state : HostState}
    (h : hosts.lookup mac = some state) :
    ∃ state', (hosts.apply ⟨moment, call.op mac hardware⟩).lookup mac = some state' ∧
      (state.phase :: call.phase?.toList).max? = some state'.phase ∧
        state'.hardware = hardwareAfter hardware [call] state.hardware := by
  have hmac := host_op mac hardware call
  have hmem : mac ∈ hosts := Finmap.mem_of_lookup_eq_some h
  have hlookup := BootState.lookup_apply_self hosts ⟨moment, call.op mac hardware⟩
  rw [BootState.room_of_not_evicts (BootState.not_evicts_of_mem (hmac.symm ▸ hmem)), hmac, h]
    at hlookup
  refine ⟨_, hlookup, ?_⟩
  cases call with
  | observe phase detail =>
    have hupdate : BootEvent.update ⟨moment, (HostCall.observe phase detail).op mac hardware⟩
        state = BootState.advance moment.now phase detail state := rfl
    rw [hupdate]
    have hhardware : (BootState.advance moment.now phase detail state).hardware =
        state.hardware := by
      unfold BootState.advance
      split_ifs <;> rfl
    refine ⟨?_, hhardware⟩
    rw [List.max?_eq_some_iff]
    obtain ⟨hle, hphase, -⟩ | ⟨hlt, hsame⟩ := BootState.advance_cases moment.now phase detail state
    · rw [hphase]
      simp [HostCall.phase?, hle]
    · rw [hsame]
      simp [HostCall.phase?, hlt.le]
  | setInventory => exact ⟨rfl, rfl⟩

/-- What any number of calls make of a tracked host. -/
theorem outcome_tracked (calls : List (Moment × HostCall)) {state : HostState}
    (h : hosts.lookup mac = some state) :
    ∃ phase, (state.phase :: reported (calls.map Prod.snd)).max? = some phase ∧
      outcome mac (hosts.run (arrivals mac hardware calls)) =
        some (phase, hardwareAfter hardware (calls.map Prod.snd) state.hardware) := by
  induction calls generalizing hosts state with
  | nil =>
    refine ⟨state.phase, rfl, ?_⟩
    exact congrArg (Option.map _) h
  | cons call rest ih =>
    obtain ⟨state', hstate', hphase', hhardware'⟩ := lookup_call mac hardware call.1 call.2 h
    obtain ⟨phase, hphase, houtcome⟩ := ih hstate'
    refine ⟨phase, ?_, ?_⟩
    · rw [List.map_cons, reported_cons, max?_append hphase']
      exact hphase
    · rw [List.map_cons, hardwareAfter_cons, ← hhardware']
      exact houtcome

/-- What any number of calls make of a host that is not tracked: the first creates its entry. -/
theorem outcome_untracked (call : Moment × HostCall) (rest : List (Moment × HostCall))
    (h : mac ∉ hosts) :
    ∃ phase, (call.2.creates :: reported (rest.map Prod.snd)).max? = some phase ∧
      outcome mac (hosts.run (arrivals mac hardware (call :: rest))) =
        some (phase, hardwareAfter hardware ((call :: rest).map Prod.snd) none) := by
  obtain ⟨moment, first⟩ := call
  have hmac := host_op mac hardware first
  have hroom : (hosts.room ⟨moment, first.op mac hardware⟩).lookup mac = none := by
    rw [Option.eq_none_iff_forall_ne_some]
    intro state hstate
    exact h (Finmap.mem_of_lookup_eq_some (BootState.lookup_room hstate))
  have hlookup := BootState.lookup_apply_self hosts ⟨moment, first.op mac hardware⟩
  rw [hmac, hroom, Option.elim_none] at hlookup
  obtain ⟨state, hstate, hphase, hhardware⟩ : ∃ state,
      BootEvent.create ⟨moment, first.op mac hardware⟩ = some state ∧
        state.phase = first.creates ∧ state.hardware = hardwareAfter hardware [first] none := by
    cases first with
    | observe phase detail => exact ⟨_, rfl, rfl, rfl⟩
    | setInventory => exact ⟨_, rfl, rfl, rfl⟩
  rw [hstate] at hlookup
  obtain ⟨phase, hmax, houtcome⟩ := outcome_tracked mac hardware rest hlookup
  refine ⟨phase, hphase ▸ hmax, ?_⟩
  rw [List.map_cons, hardwareAfter_cons, ← hhardware]
  exact houtcome

end Outcome

/-! ## Two orders -/

/-- The calls end alike, in whatever order and at whatever moments they arrive. -/
def OrderIrrelevant (mac : Mac) (hosts : BootState) (hardware : Inventory)
    (calls : List HostCall) : Prop :=
  ∀ first second : List (Moment × HostCall),
    (first.map Prod.snd).Perm calls → (second.map Prod.snd).Perm calls →
      outcome mac (hosts.run (arrivals mac hardware first)) =
        outcome mac (hosts.run (arrivals mac hardware second))

/-- A machine that describes itself is up, or nothing else is said of it. -/
def ReportsUp (calls : List HostCall) : Prop :=
  .setInventory ∉ calls ∨ reported calls = [] ∨ ∃ phase ∈ reported calls, .running ≤ phase

section Order

variable {mac : Mac} {hosts : BootState} {hardware : Inventory} {calls : List HostCall}

/-- Only which calls there were decides on the hardware. -/
theorem hardwareAfter_congr {first : List HostCall} (h : first.Perm calls)
    (before : Option Inventory) :
    hardwareAfter hardware first before = hardwareAfter hardware calls before := by
  unfold hardwareAfter
  simp only [h.mem_iff]

/-- Where a machine is reported up, it does not matter which call creates its entry. -/
theorem greatest_of_reportsUp {call : HostCall} {rest : List HostCall}
    (hperm : (call :: rest).Perm calls) (h : ReportsUp calls) :
    (call.creates :: reported rest).max? =
      if .setInventory ∈ calls then (.running :: reported calls).max?
      else (reported calls).max? := by
  have hreported : (reported (call :: rest)).Perm (reported calls) := hperm.filterMap _
  cases call with
  | observe phase detail =>
    have hmem : phase ∈ reported calls := hreported.mem_iff.mp List.mem_cons_self
    rw [← max?_congr hreported]
    split_ifs with hinventory
    · rcases h with hnone | hnil | ⟨up, hup, hle⟩
      · exact absurd hinventory hnone
      · rw [hnil] at hmem
        cases hmem
      · rw [max?_cons_of_le hup hle, ← max?_congr hreported]
        rfl
    · rfl
  | setInventory =>
    have hinventory : .setInventory ∈ calls := hperm.mem_iff.mp List.mem_cons_self
    rw [if_pos hinventory]
    exact max?_congr (hreported.cons _)

/-- Calls on a tracked host end alike. -/
theorem orderIrrelevant_of_mem (h : mac ∈ hosts) : OrderIrrelevant mac hosts hardware calls := by
  obtain ⟨state, hstate⟩ := Finmap.mem_iff.mp h
  have hend : ∀ order : List (Moment × HostCall), (order.map Prod.snd).Perm calls →
      outcome mac (hosts.run (arrivals mac hardware order)) =
        (state.phase :: reported calls).max?.map fun phase =>
          (phase, hardwareAfter hardware calls state.hardware) := by
    intro order hperm
    obtain ⟨phase, hphase, houtcome⟩ := outcome_tracked mac hardware order hstate
    have hreported : (reported (order.map Prod.snd)).Perm (reported calls) := hperm.filterMap _
    rw [houtcome, ← max?_congr (hreported.cons _), hphase, hardwareAfter_congr hperm]
    rfl
  intro first second hfirst hsecond
  rw [hend first hfirst, hend second hsecond]

/-- So do calls on a host that is not tracked, if it is reported up. -/
theorem orderIrrelevant_of_reportsUp (hmac : mac ∉ hosts) (h : ReportsUp calls) :
    OrderIrrelevant mac hosts hardware calls := by
  have hend : ∀ order : List (Moment × HostCall), (order.map Prod.snd).Perm calls →
      outcome mac (hosts.run (arrivals mac hardware order)) =
        if calls = [] then none
        else
          (if .setInventory ∈ calls then (.running :: reported calls).max?
            else (reported calls).max?).map fun phase =>
              (phase, hardwareAfter hardware calls none) := by
    intro order hperm
    cases order with
    | nil =>
      rw [if_pos (List.Perm.nil_eq hperm).symm]
      exact congrArg (Option.map _) (Finmap.lookup_eq_none.mpr hmac)
    | cons call rest =>
      have hne : calls ≠ [] := fun hnil => by
        rw [hnil] at hperm
        cases hperm.eq_nil
      obtain ⟨phase, hphase, houtcome⟩ := outcome_untracked mac hardware call rest hmac
      rw [if_neg hne, ← greatest_of_reportsUp hperm h, hphase, houtcome, hardwareAfter_congr hperm]
      rfl
  intro first second hfirst hsecond
  rw [hend first hfirst, hend second hsecond]

/-- Otherwise the first call decides whether the machine was up. -/
theorem not_orderIrrelevant (hmac : mac ∉ hosts) (h : ¬ReportsUp calls) :
    ¬OrderIrrelevant mac hosts hardware calls := by
  obtain ⟨order⟩ : Nonempty (HashMap.Iteration Mac HostState) := inferInstance
  let moment : Moment := ⟨0, order⟩
  have hcalls : ∀ xs : List HostCall, (xs.map (Prod.mk moment)).map Prod.snd = xs := by
    intro xs
    rw [List.map_map]
    exact List.map_id _
  unfold ReportsUp at h
  push Not at h
  obtain ⟨hinventory, hreports, hbelow⟩ := h
  obtain ⟨report, hreport⟩ := List.exists_mem_of_ne_nil _ hreports
  obtain ⟨detail, hobserve⟩ := (mem_reported_iff calls report).mp hreport
  have hfirst := List.perm_cons_erase hinventory
  have hsecond := List.perm_cons_erase hobserve
  intro hsame
  obtain ⟨up, hup, houtcome⟩ := outcome_untracked mac hardware (moment, .setInventory)
    ((calls.erase .setInventory).map (Prod.mk moment)) hmac
  obtain ⟨down, hdown, houtcome'⟩ := outcome_untracked mac hardware
    (moment, .observe report detail) ((calls.erase (.observe report detail)).map (Prod.mk moment))
    hmac
  have hend := hsame ((moment, .setInventory) :: (calls.erase .setInventory).map (Prod.mk moment))
    ((moment, .observe report detail) ::
      (calls.erase (.observe report detail)).map (Prod.mk moment))
    (by rw [List.map_cons, hcalls]; exact hfirst.symm)
    (by rw [List.map_cons, hcalls]; exact hsecond.symm)
  rw [houtcome, houtcome', Option.some.injEq, Prod.mk.injEq] at hend
  rw [hcalls] at hup hdown
  have hrunning : Phase.running ≤ up := (List.max?_eq_some_iff.mp hup).2 _ List.mem_cons_self
  have hmem : down ∈ reported (.observe report detail :: calls.erase (.observe report detail)) :=
    (List.max?_eq_some_iff.mp hdown).1
  have hdowncalls : down ∈ reported calls := (hsecond.symm.filterMap _).mem_iff.mp hmem
  exact absurd (hend.1 ▸ hrunning) (not_le.mpr (hbelow down hdowncalls))

/-- Phase reports and inventories end alike in every order exactly for a host that is tracked
already, and for calls that report a machine up if one of them is an inventory and another is
not. -/
theorem orderIrrelevant_iff (mac : Mac) (hosts : BootState) (hardware : Inventory)
    (calls : List HostCall) :
    OrderIrrelevant mac hosts hardware calls ↔ mac ∈ hosts ∨ ReportsUp calls := by
  by_cases hmac : mac ∈ hosts
  · exact iff_of_true (orderIrrelevant_of_mem hmac) (.inl hmac)
  by_cases h : ReportsUp calls
  · exact iff_of_true (orderIrrelevant_of_reportsUp hmac h) (.inr h)
  · exact iff_of_false (not_orderIrrelevant hmac h) fun hor => hor.elim hmac h

/-- A machine that fetched its script and describes itself. -/
theorem not_orderIrrelevant_scriptFetched :
    ¬OrderIrrelevant (.ofOctets 0xaa 0xbb 0xcc 0xdd 0xee 0x05) ∅ ⟨64, 268435456, none, none, []⟩
      [.observe .scriptFetched none, .setInventory] := by
  refine not_orderIrrelevant Finmap.notMem_empty ?_
  unfold ReportsUp
  decide

end Order

end Stormnetboot.Server

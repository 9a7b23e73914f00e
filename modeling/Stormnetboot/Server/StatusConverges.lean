import Mathlib.Algebra.Order.Floor.Div
import Stormnetboot.Server.QuietPasses
import Stormnetboot.Server.WriteBurst

/-!
# Status passes converge

The passes again, on the index alone, for the case that every patch succeeds. A pass brings the
objects it patches to the status they should have and leaves the others alone, and it ends with
nothing more to patch or with as many patches as it may send. So enough passes, in any orders and
at any times, patch every object that needs it once, and from then on nothing is written.
-/

namespace Stormnetboot.Server

open Stormnetboot.Common

/-! ## One pass -/

/-- The loop of `reconcile_status` where every patch succeeds: the index it leaves, and the
patches it sends. -/
def reconcileFrom (seen : Observed) (now : Text) :
    List (Mac × BootHost) → ℕ → BootHostIndex → BootHostIndex × List StatusPatch
  | [], _, index => (index, [])
  | entry :: rest, written, index =>
    match StatusPass.turn seen ⟨now, entry :: rest, written, .walking⟩ with
    | none => (index, [])
    | some pass =>
      match pass.stage with
      | .sending patch =>
        let result := reconcileFrom seen now rest (pass.written + 1)
          (BootHostIndex.noteStatus patch.mac patch.desired index)
        (result.1, patch :: result.2)
      | _ => reconcileFrom seen now rest pass.written index

/-- `reconcile_status` where every patch succeeds. -/
def reconcileStatus (seen : Observed) (now : Text) (order : HashMap.Iteration Mac BootHost)
    (index : BootHostIndex) : BootHostIndex × List StatusPatch :=
  reconcileFrom seen now (BootHostIndex.snapshot order index) 0 index

/-- Passes one after the other. -/
def reconcilePasses (seen : Observed) :
    List (Text × HashMap.Iteration Mac BootHost) → BootHostIndex → BootHostIndex × List StatusPatch
  | [], index => (index, [])
  | (now, order) :: rest, index =>
    let first := reconcileStatus seen now order index
    let result := reconcilePasses seen rest first.1
    (result.1, first.2 ++ result.2)

section Loop

variable {seen : Observed} {now : Text} {mac : Mac} {object : BootHost}
  {rest : List (Mac × BootHost)} {written : ℕ} {index : BootHostIndex}

/-- Nothing more is patched once the pass has written all it may. -/
theorem reconcileFrom_full (todo : List (Mac × BootHost)) (index : BootHostIndex)
    (hfull : written ≥ maxPatchesPerPass) :
    reconcileFrom seen now todo written index = (index, []) := by
  cases todo with
  | nil => rfl
  | cons entry rest =>
    have hturn : StatusPass.turn seen ⟨now, entry :: rest, written, .walking⟩ = none :=
      StatusPass.turn_full hfull
    rw [reconcileFrom, hturn]

/-- An object with the desired status, or without a place to patch it, is passed over. -/
theorem reconcileFrom_settled (index : BootHostIndex) (hroom : written < maxPatchesPerPass)
    (hsettled : ∀ key, object.key = some key → object.status = some (seen.desired mac now object)) :
    reconcileFrom seen now ((mac, object) :: rest) written index =
      reconcileFrom seen now rest written index := by
  have hturn : StatusPass.turn seen ⟨now, (mac, object) :: rest, written, .walking⟩ =
      some ⟨now, rest, written, .walking⟩ := StatusPass.turn_settled rfl hroom hsettled
  rw [reconcileFrom, hturn]

/-- Any other object is patched. -/
theorem reconcileFrom_stale {key : ObjectKey} (index : BootHostIndex)
    (hroom : written < maxPatchesPerPass) (hkey : object.key = some key)
    (hstale : object.status ≠ some (seen.desired mac now object)) :
    reconcileFrom seen now ((mac, object) :: rest) written index =
      ((reconcileFrom seen now rest (written + 1)
          (BootHostIndex.noteStatus mac (seen.desired mac now object) index)).1,
        ⟨mac, key, seen.desired mac now object⟩ :: (reconcileFrom seen now rest (written + 1)
          (BootHostIndex.noteStatus mac (seen.desired mac now object) index)).2) := by
  have hturn : StatusPass.turn seen ⟨now, (mac, object) :: rest, written, .walking⟩ =
      some ⟨now, rest, written, .sending ⟨mac, key, seen.desired mac now object⟩⟩ :=
    StatusPass.turn_stale rfl hroom hkey hstale
  rw [reconcileFrom, hturn]

end Loop

/-! ## What a pass comes to -/

/-- The object under the MAC is not settled. -/
def Waits (seen : Observed) (index : BootHostIndex) (mac : Mac) : Prop :=
  ∃ object, index.lookup mac = some object ∧ ¬seen.Settled mac object

/-- Every object can be patched: it has a namespace and a name. -/
def Placed (index : BootHostIndex) : Prop :=
  ∀ mac object, index.lookup mac = some object → object.key.isSome

/-- An object apart from its status. -/
def BootHost.bare (object : BootHost) : ObjectMeta × BootHostSpec :=
  (object.metadata, object.spec)

/-- The macs of the patches. -/
def patchedMacs (patches : List StatusPatch) : List Mac :=
  patches.map StatusPatch.mac

/-- What passes do to an index: each object that was patched waited and waits no more, and nothing
else changed. -/
structure Reconciles (seen : Observed) (index : BootHostIndex)
    (result : BootHostIndex × List StatusPatch) : Prop where
  nodup : (patchedMacs result.2).Nodup
  waited : ∀ mac ∈ patchedMacs result.2, Waits seen index mac
  settled : ∀ mac ∈ patchedMacs result.2, ¬Waits seen result.1 mac
  others : ∀ mac, mac ∉ patchedMacs result.2 → result.1.lookup mac = index.lookup mac
  bare : ∀ mac, (result.1.lookup mac).map BootHost.bare = (index.lookup mac).map BootHost.bare
  keys : ∀ patch ∈ result.2, ∃ object, index.lookup patch.mac = some object ∧
    object.key = some patch.key

/-- Objects that agree apart from their status are patched in one place. -/
theorem BootHost.key_of_bare {object other : BootHost} (h : object.bare = other.bare) :
    object.key = other.key := by
  have hmeta : object.metadata = other.metadata := congrArg Prod.fst h
  rw [key, key, hmeta]

namespace Reconciles

variable {seen : Observed} {index : BootHostIndex} {result : BootHostIndex × List StatusPatch}

/-- Nothing is done. -/
theorem idle (seen : Observed) (index : BootHostIndex) : Reconciles seen index (index, []) where
  nodup := List.nodup_nil
  waited := fun _ h => nomatch h
  settled := fun _ h => nomatch h
  others := fun _ _ => rfl
  bare := fun _ => rfl
  keys := fun _ h => nomatch h

/-- What stands under a MAC afterwards stood there before, apart from its status. -/
theorem exists_before (h : Reconciles seen index result) {mac : Mac} {object : BootHost}
    (hobject : result.1.lookup mac = some object) :
    ∃ before, index.lookup mac = some before ∧ before.bare = object.bare := by
  have hbare := h.bare mac
  rw [hobject, Option.map_some] at hbare
  exact Option.map_eq_some_iff.mp hbare.symm

/-- Who waits afterwards. -/
theorem waits_iff (h : Reconciles seen index result) (mac : Mac) :
    Waits seen result.1 mac ↔ Waits seen index mac ∧ mac ∉ patchedMacs result.2 := by
  by_cases hmac : mac ∈ patchedMacs result.2
  · exact iff_of_false (h.settled mac hmac) fun hwaits => hwaits.2 hmac
  · unfold Waits
    rw [h.others mac hmac]
    exact (and_iff_left hmac).symm

/-- A key stays a key. -/
theorem placed (h : Reconciles seen index result) (hplaced : Placed index) : Placed result.1 := by
  intro mac object hobject
  obtain ⟨before, hbefore, hbare⟩ := h.exists_before hobject
  rw [← BootHost.key_of_bare hbare]
  exact hplaced mac before hbefore

/-- One after the other. -/
theorem append {patches : List StatusPatch} {after : BootHostIndex}
    (h : Reconciles seen index result) (hnext : Reconciles seen result.1 (after, patches)) :
    Reconciles seen index (after, result.2 ++ patches) := by
  have hmacs : patchedMacs (result.2 ++ patches) = patchedMacs result.2 ++ patchedMacs patches :=
    List.map_append
  have hlater : ∀ mac ∈ patchedMacs patches, Waits seen index mac ∧ mac ∉ patchedMacs result.2 :=
    fun mac hmac => (h.waits_iff mac).mp (hnext.waited mac hmac)
  refine ⟨?_, fun mac hmac => ?_, fun mac hmac => ?_, fun mac hmac => ?_, fun mac => ?_,
    fun patch hpatch => ?_⟩
  · rw [hmacs]
    exact h.nodup.append hnext.nodup fun mac hfirst hsecond => (hlater mac hsecond).2 hfirst
  · rw [hmacs, List.mem_append] at hmac
    exact hmac.elim (h.waited mac) fun hsecond => (hlater mac hsecond).1
  · rw [hmacs, List.mem_append] at hmac
    intro hwaits
    obtain ⟨hbefore, hnot⟩ := (hnext.waits_iff mac).mp hwaits
    exact hmac.elim (fun hfirst => h.settled mac hfirst hbefore) hnot
  · rw [hmacs, List.mem_append, not_or] at hmac
    exact (hnext.others mac hmac.2).trans (h.others mac hmac.1)
  · exact (hnext.bare mac).trans (h.bare mac)
  · rcases List.mem_append.mp hpatch with hfirst | hsecond
    · exact h.keys patch hfirst
    · obtain ⟨object, hobject, hkey⟩ := hnext.keys patch hsecond
      obtain ⟨before, hbefore, hbare⟩ := h.exists_before hobject
      exact ⟨before, hbefore, (BootHost.key_of_bare hbare).trans hkey⟩

end Reconciles

/-- A note of the desired status settles the object under the MAC. -/
theorem Reconciles.note {seen : Observed} {index : BootHostIndex} {mac : Mac} {object : BootHost}
    {now : Text} {key : ObjectKey} (hobject : index.lookup mac = some object)
    (hkey : object.key = some key)
    (hstale : object.status ≠ some (seen.desired mac now object)) :
    Reconciles seen index
      (BootHostIndex.noteStatus mac (seen.desired mac now object) index,
        [⟨mac, key, seen.desired mac now object⟩]) := by
  have hlookup : ∀ mac', (BootHostIndex.noteStatus mac (seen.desired mac now object) index).lookup
      mac' = if mac' = mac then
        some { object with status := some (seen.desired mac now object) } else index.lookup mac' := by
    intro mac'
    rw [BootHostIndex.lookup_noteStatus, hobject]
    rfl
  have honly : ∀ mac', mac' ∈ patchedMacs [⟨mac, key, seen.desired mac now object⟩] ↔ mac' = mac :=
    fun mac' => List.mem_singleton
  refine ⟨List.nodup_singleton _, fun mac' hmac => ?_, fun mac' hmac => ?_, fun mac' hmac => ?_,
    fun mac' => ?_, fun patch hpatch => ?_⟩
  · rw [honly] at hmac
    subst hmac
    exact ⟨object, hobject, fun hsettled => hstale (hsettled now)⟩
  · rw [honly] at hmac
    subst hmac
    rintro ⟨object', hobject', hwaits⟩
    rw [hlookup, if_pos rfl, Option.some.injEq] at hobject'
    subst hobject'
    exact hwaits (seen.settled_patched mac' now object)
  · rw [honly] at hmac
    rw [hlookup, if_neg hmac]
  · rw [hlookup]
    split_ifs with hmac
    · rw [hmac, hobject]
      rfl
    · rfl
  · obtain rfl := List.mem_singleton.mp hpatch
    exact ⟨object, hobject, hkey⟩

/-- The snapshot of a pass, as far as it is still to be walked: what the index holds. -/
structure Current (index : BootHostIndex) (todo : List (Mac × BootHost)) : Prop where
  nodup : (todo.map Prod.fst).Nodup
  lookup : ∀ e ∈ todo, index.lookup e.1 = some e.2

section Pass

variable {seen : Observed} {now : Text} {mac : Mac} {object : BootHost} {index : BootHostIndex}
  {rest : List (Mac × BootHost)}

/-- What is current of a list is current of its tail. -/
theorem Current.tail (h : Current index ((mac, object) :: rest)) : Current index rest where
  nodup := (List.nodup_cons.mp h.nodup).2
  lookup := fun e he => h.lookup e (List.mem_cons_of_mem _ he)

/-- A note of the first leaves the rest as it is. -/
theorem Current.note (h : Current index ((mac, object) :: rest)) (status : BootHostStatus) :
    Current (BootHostIndex.noteStatus mac status index) rest where
  nodup := h.tail.nodup
  lookup := by
    intro e he
    have hne : e.1 ≠ mac := fun heq =>
      (List.nodup_cons.mp h.nodup).1 (heq ▸ List.mem_map.mpr ⟨e, he, rfl⟩)
    rw [BootHostIndex.lookup_noteStatus, if_neg hne]
    exact h.tail.lookup e he

/-- The loop does to the index what passes do. -/
theorem reconciles_from (seen : Observed) (now : Text) (todo : List (Mac × BootHost)) (written : ℕ)
    (index : BootHostIndex) (h : Current index todo) :
    Reconciles seen index (reconcileFrom seen now todo written index) := by
  induction todo generalizing written index with
  | nil => exact .idle seen index
  | cons entry rest ih =>
    obtain ⟨mac, object⟩ := entry
    by_cases hroom : written < maxPatchesPerPass
    · by_cases hsettled : ∀ key, object.key = some key →
          object.status = some (seen.desired mac now object)
      · rw [reconcileFrom_settled index hroom hsettled]
        exact ih written index h.tail
      · push Not at hsettled
        obtain ⟨key, hkey, hstale⟩ := hsettled
        have hobject : index.lookup mac = some object := h.lookup _ List.mem_cons_self
        rw [reconcileFrom_stale index hroom hkey hstale]
        exact (Reconciles.note hobject hkey hstale).append (ih _ _ (h.note _))
    · rw [reconcileFrom_full _ index (Nat.not_lt.mp hroom)]
      exact .idle seen index

/-- It ends with nothing that waits, or with as many patches as it may send. -/
theorem reconcileFrom_complete (seen : Observed) (now : Text) (todo : List (Mac × BootHost))
    (written : ℕ) (index : BootHostIndex) (h : Current index todo)
    (hplaced : ∀ e ∈ todo, e.2.key.isSome) :
    (∀ mac ∈ todo.map Prod.fst, ¬Waits seen (reconcileFrom seen now todo written index).1 mac) ∨
      maxPatchesPerPass ≤ written + (reconcileFrom seen now todo written index).2.length := by
  induction todo generalizing written index with
  | nil => exact .inl fun _ hmem => nomatch hmem
  | cons entry rest ih =>
    obtain ⟨mac, object⟩ := entry
    have hobject : index.lookup mac = some object := h.lookup _ List.mem_cons_self
    have hrest : ∀ e ∈ rest, e.2.key.isSome := fun e he => hplaced e (List.mem_cons_of_mem _ he)
    have hkeyed : object.key.isSome := hplaced _ List.mem_cons_self
    obtain ⟨key, hkey⟩ := Option.isSome_iff_exists.mp hkeyed
    by_cases hroom : written < maxPatchesPerPass
    · by_cases hstale : object.status = some (seen.desired mac now object)
      · rw [reconcileFrom_settled index hroom fun _ _ => hstale]
        refine (ih written index h.tail hrest).imp_left fun hall => ?_
        have hmac : ¬Waits seen index mac := by
          rintro ⟨object', hobject', hwaits⟩
          rw [hobject, Option.some.injEq] at hobject'
          exact hwaits (hobject' ▸ Observed.settled_of_eq hstale)
        have hpass := reconciles_from seen now rest written index h.tail
        rw [List.map_cons, List.forall_mem_cons]
        exact ⟨fun hwaits => hmac ((hpass.waits_iff mac).mp hwaits).1, hall⟩
      · rw [reconcileFrom_stale index hroom hkey hstale, List.length_cons]
        have hnote := Reconciles.note hobject hkey hstale
        have hpass := reconciles_from seen now rest (written + 1) _
          (h.note (seen.desired mac now object))
        have hdone := ih (written + 1) _ (h.note (seen.desired mac now object)) hrest
        rw [List.map_cons, List.forall_mem_cons]
        refine hdone.imp (fun hall => ⟨fun hwaits => ?_, hall⟩) fun hfull => by omega
        exact hnote.settled mac List.mem_cons_self ((hpass.waits_iff mac).mp hwaits).1
    · rw [reconcileFrom_full _ index (Nat.not_lt.mp hroom)]
      exact .inr (Nat.not_lt.mp hroom)

/-- The snapshot of an index. -/
theorem current_snapshot (order : HashMap.Iteration Mac BootHost) (index : BootHostIndex) :
    Current index (BootHostIndex.snapshot order index) where
  nodup := by
    have hmacs : (BootHostIndex.snapshot order index).map Prod.fst =
        (order.list index).map Sigma.fst := List.map_map ..
    rw [hmacs]
    exact order.nodup_keys index
  lookup := by
    intro e he
    obtain ⟨⟨mac, object⟩, hmem, rfl⟩ := List.mem_map.mp he
    exact (order.mem_list_iff index mac object).mp hmem

/-- A pass ends with nothing that waits, or with as many patches as it may send. -/
theorem reconcileStatus_complete (seen : Observed) (now : Text)
    (order : HashMap.Iteration Mac BootHost) (index : BootHostIndex) (hplaced : Placed index) :
    (∀ mac, ¬Waits seen (reconcileStatus seen now order index).1 mac) ∨
      maxPatchesPerPass ≤ (reconcileStatus seen now order index).2.length := by
  have hcurrent := current_snapshot order index
  have hkeys : ∀ e ∈ BootHostIndex.snapshot order index, e.2.key.isSome :=
    fun e he => hplaced e.1 e.2 (hcurrent.lookup e he)
  have hdone := reconcileFrom_complete seen now _ 0 index hcurrent hkeys
  rw [Nat.zero_add] at hdone
  refine hdone.imp_left fun hall mac hwaits => ?_
  have hpass := reconciles_from seen now _ 0 index hcurrent
  obtain ⟨object, hobject, -⟩ := ((hpass.waits_iff mac).mp hwaits).1
  have hmem : (mac, object) ∈ BootHostIndex.snapshot order index :=
    List.mem_map.mpr ⟨⟨mac, object⟩, (order.mem_list_iff index mac object).mpr hobject, rfl⟩
  exact hall mac (List.mem_map.mpr ⟨_, hmem, rfl⟩) hwaits

end Pass

/-! ## Passes one after the other -/

section Passes

variable (seen : Observed)

/-- Passes do to the index what each of them does. -/
theorem reconciles_passes (passes : List (Text × HashMap.Iteration Mac BootHost))
    (index : BootHostIndex) : Reconciles seen index (reconcilePasses seen passes index) := by
  induction passes generalizing index with
  | nil => exact .idle seen index
  | cons pass rest ih =>
    exact (reconciles_from seen pass.1 _ 0 index (current_snapshot pass.2 index)).append (ih _)

open Classical in
/-- The MACs whose object is not settled. -/
noncomputable def waitingMacs (index : BootHostIndex) : Finset Mac :=
  index.keys.filter (Waits seen index)

variable {seen}

/-- The MACs that wait are those whose object is not settled. -/
theorem mem_waitingMacs_iff (index : BootHostIndex) (mac : Mac) :
    mac ∈ waitingMacs seen index ↔ Waits seen index mac := by
  classical
  unfold waitingMacs
  rw [Finset.mem_filter, Finmap.mem_keys, and_iff_right_iff_imp]
  rintro ⟨object, hobject, -⟩
  exact Finmap.mem_of_lookup_eq_some hobject

/-- There are no more of them than objects. -/
theorem card_waitingMacs_le (index : BootHostIndex) :
    (waitingMacs seen index).card ≤ HashMap.len index := by
  classical
  rw [HashMap.len_eq_card_keys]
  exact Finset.card_filter_le ..

/-- Each patch leaves one object less that waits. -/
theorem Reconciles.card_waitingMacs {index : BootHostIndex}
    {result : BootHostIndex × List StatusPatch} (h : Reconciles seen index result) :
    (waitingMacs seen result.1).card + result.2.length = (waitingMacs seen index).card := by
  have hafter : waitingMacs seen result.1 =
      waitingMacs seen index \ (patchedMacs result.2).toFinset := by
    ext mac
    rw [Finset.mem_sdiff, mem_waitingMacs_iff, mem_waitingMacs_iff, List.mem_toFinset, h.waits_iff]
  have hsub : (patchedMacs result.2).toFinset ⊆ waitingMacs seen index := by
    intro mac hmac
    rw [mem_waitingMacs_iff]
    exact h.waited mac (List.mem_toFinset.mp hmac)
  have hpatched : (patchedMacs result.2).toFinset.card = result.2.length := by
    rw [List.toFinset_card_of_nodup h.nodup, patchedMacs, List.length_map]
  rw [hafter, ← hpatched]
  exact Finset.card_sdiff_add_card_eq_card hsub

/-- After enough passes nothing waits. -/
theorem not_waits_passes (passes : List (Text × HashMap.Iteration Mac BootHost))
    (index : BootHostIndex) (hplaced : Placed index)
    (henough : (waitingMacs seen index).card ≤ maxPatchesPerPass * passes.length) (mac : Mac) :
    ¬Waits seen (reconcilePasses seen passes index).1 mac := by
  induction passes generalizing index with
  | nil =>
    rw [List.length_nil, Nat.mul_zero, Nat.le_zero, Finset.card_eq_zero] at henough
    rw [← mem_waitingMacs_iff, reconcilePasses, henough]
    exact Finset.notMem_empty mac
  | cons pass rest ih =>
    have hpass := reconciles_from seen pass.1 _ 0 index (current_snapshot pass.2 index)
    refine ih _ (hpass.placed hplaced) ?_
    have hcard := hpass.card_waitingMacs
    rw [List.length_cons, Nat.mul_succ] at henough
    rcases reconcileStatus_complete seen pass.1 pass.2 index hplaced with hnone | hfull
    · have hempty : waitingMacs seen (reconcileStatus seen pass.1 pass.2 index).1 = ∅ :=
        Finset.eq_empty_of_forall_notMem fun mac hmac =>
          hnone mac ((mem_waitingMacs_iff _ mac).mp hmac)
      rw [hempty, Finset.card_empty]
      exact Nat.zero_le _
    · unfold reconcileStatus at hfull ⊢
      omega

/-- Where nothing waits, passes write nothing. -/
theorem reconcilePasses_idle (passes : List (Text × HashMap.Iteration Mac BootHost))
    {index : BootHostIndex} (h : ∀ mac, ¬Waits seen index mac) :
    reconcilePasses seen passes index = (index, []) := by
  have hpasses := reconciles_passes seen passes index
  have hnone : (reconcilePasses seen passes index).2 = [] := by
    rw [← List.map_eq_nil_iff, List.eq_nil_iff_forall_not_mem]
    exact fun mac hmac => h mac (hpasses.waited mac hmac)
  refine Prod.ext (Finmap.ext_lookup fun mac => hpasses.others mac ?_) hnone
  rw [hnone]
  exact List.not_mem_nil

/-- No key is patched twice where no two MACs have the same object. -/
theorem Reconciles.nodup_keys {index : BootHostIndex} {result : BootHostIndex × List StatusPatch}
    (h : Reconciles seen index result)
    (hdistinct : ∀ mac mac' object object', index.lookup mac = some object →
      index.lookup mac' = some object' → object.key = object'.key → mac = mac') :
    (result.2.map StatusPatch.key).Nodup := by
  refine (List.Nodup.of_map _ h.nodup).map_on fun patch hpatch patch' hpatch' hkeys => ?_
  obtain ⟨object, hobject, hkey⟩ := h.keys patch hpatch
  obtain ⟨object', hobject', hkey'⟩ := h.keys patch' hpatch'
  refine List.inj_on_of_nodup_map h.nodup hpatch hpatch' ?_
  exact hdistinct _ _ object object' hobject hobject' (by rw [hkey, hkey', hkeys])

/-- An object that does not wait has the status it should have, whatever the clock reads. -/
theorem Reconciles.desired_of_not_waits {index : BootHostIndex}
    {result : BootHostIndex × List StatusPatch} (h : Reconciles seen index result) {mac : Mac}
    {object : BootHost} (hobject : index.lookup mac = some object)
    (hsettled : ¬Waits seen result.1 mac) :
    ∃ status, result.1.lookup mac = some { object with status := some status } ∧
      ∀ now, status = seen.desired mac now { object with status := some status } := by
  have hbare := h.bare mac
  rw [hobject, Option.map_some] at hbare
  obtain ⟨after, hafter, heq⟩ := Option.map_eq_some_iff.mp hbare
  have hdone : seen.Settled mac after := by
    by_contra hwaits
    exact hsettled ⟨after, hafter, hwaits⟩
  have hstatus := hdone []
  have hwhole : after = { object with status := some (seen.desired mac [] after) } := by
    obtain ⟨metadata, spec, status⟩ := after
    obtain ⟨rfl, rfl⟩ := Prod.mk.inj heq
    rw [← hstatus]
  refine ⟨seen.desired mac [] after, hafter.trans (congrArg some hwhole), fun now => ?_⟩
  rw [← hwhole]
  exact Option.some.inj (hstatus.symm.trans (hdone now))

/-- What passes come to once there were enough of them. -/
structure Converged (seen : Observed) (index : BootHostIndex)
    (result : BootHostIndex × List StatusPatch) : Prop where
  desired : ∀ mac object, index.lookup mac = some object →
    ∃ status, result.1.lookup mac = some { object with status := some status } ∧
      ∀ now, status = seen.desired mac now { object with status := some status }
  once : (result.2.map StatusPatch.mac).Nodup
  addressed : ∀ patch ∈ result.2, ∃ object, index.lookup patch.mac = some object ∧
    object.key = some patch.key
  onceByKey : (∀ mac mac' object object', index.lookup mac = some object →
    index.lookup mac' = some object' → object.key = object'.key → mac = mac') →
      (result.2.map StatusPatch.key).Nodup
  quiet : ∀ later, reconcilePasses seen later result.1 = (result.1, [])

/-- After as many passes as it takes to patch every object, in any orders and at any times, every
object has the status it should have, none was patched twice and nothing more is written. -/
theorem converged_passes (seen : Observed) (index : BootHostIndex) (hplaced : Placed index)
    (passes : List (Text × HashMap.Iteration Mac BootHost))
    (henough : HashMap.len index ⌈/⌉ maxPatchesPerPass ≤ passes.length) :
    Converged seen index (reconcilePasses seen passes index) := by
  have hroom : 0 < maxPatchesPerPass := by decide
  have hpasses := reconciles_passes seen passes index
  have hsettled : ∀ mac, ¬Waits seen (reconcilePasses seen passes index).1 mac :=
    not_waits_passes passes index hplaced
      ((card_waitingMacs_le index).trans ((ceilDiv_le_iff_le_mul hroom).mp henough))
  exact {
    desired := fun mac _ hobject => hpasses.desired_of_not_waits hobject (hsettled mac)
    once := hpasses.nodup
    addressed := hpasses.keys
    onceByKey := hpasses.nodup_keys
    quiet := fun later => reconcilePasses_idle later hsettled }

end Passes

/-- A fleet of one more machine than a pass may patch is all there after two passes. -/
theorem converged_fleet : ∃ order,
    Converged Fleet.seen Fleet.index
      (reconcilePasses Fleet.seen [(Fleet.now, order), (Fleet.now, order)] Fleet.index) := by
  obtain ⟨order⟩ : Nonempty (HashMap.Iteration Mac BootHost) := inferInstance
  refine ⟨order, converged_passes Fleet.seen Fleet.index (fun mac object hobject => ?_) _ ?_⟩
  · obtain ⟨i, -, rfl⟩ := Fleet.exists_of_lookup_index hobject
    rfl
  · have htwice : maxPatchesPerPass + 1 ≤ maxPatchesPerPass * 2 := by decide
    rw [Fleet.len_index]
    exact (ceilDiv_le_iff_le_mul (by decide)).mpr htwice

/-! ## The passes of the writer -/

namespace Writing

/-- The objects that are to be walked are live. -/
def AllLive (s : Writing) (todo : List (Mac × BootHost)) : Prop :=
  ∀ e ∈ todo, ∀ key, e.2.key = some key → ∃ content, s.live.lookup key = some content

/-- A patch keeps every object live. -/
theorem AllLive.patched {s : Writing} {todo : List (Mac × BootHost)} (h : s.AllLive todo) (mac : Mac)
    (key : ObjectKey) (content : Content) (desired : BootHostStatus) :
    (s.patched mac key content desired).AllLive todo := by
  intro e he key' hkey'
  by_cases hsame : key' = key
  · subst hsame
    exact ⟨_, Finmap.lookup_insert _⟩
  · obtain ⟨content', hlive⟩ := h e he key' hkey'
    exact ⟨content', (Finmap.lookup_insert_of_ne _ hsame).trans hlive⟩

/-- The rounds of a pass whose objects are live do to the index what the loop does. -/
theorem rounds_reconcileFrom (now : Text) (todo : List (Mac × BootHost)) (written : ℕ) (s : Writing)
    (hlive : s.AllLive todo) :
    (rounds (todo.length + 1) (s.withPass (some ⟨now, todo, written, .walking⟩))).process.pass =
        none ∧
      (rounds (todo.length + 1) (s.withPass (some ⟨now, todo, written, .walking⟩))).index =
        (reconcileFrom s.process.seen now todo written s.index).1 := by
  induction todo generalizing written s with
  | nil =>
    have hround := round_walking (s := s.withPass (some ⟨now, [], written, .walking⟩)) rfl rfl
      (StatusPass.turn_nil rfl) nofun
    rw [rounds, hround]
    exact ⟨rfl, rfl⟩
  | cons entry rest ih =>
    obtain ⟨mac, object⟩ := entry
    have hrest : s.AllLive rest := fun e he => hlive e (List.mem_cons_of_mem _ he)
    rw [List.length_cons, rounds]
    by_cases hroom : written < maxPatchesPerPass
    · by_cases hsettled : ∀ key, object.key = some key →
          object.status = some (s.process.seen.desired mac now object)
      · have hround := round_walking
          (s := s.withPass (some ⟨now, (mac, object) :: rest, written, .walking⟩)) rfl rfl
          (StatusPass.turn_settled rfl hroom hsettled) (fun next hnext => Option.some.inj hnext ▸ rfl)
        rw [hround, reconcileFrom_settled _ hroom hsettled]
        exact ih written s hrest
      · push Not at hsettled
        obtain ⟨key, hkey, hstale⟩ := hsettled
        obtain ⟨content, hcontent⟩ := hlive (mac, object) List.mem_cons_self key hkey
        have hround := round_patched
          (s := s.withPass (some ⟨now, (mac, object) :: rest, written, .walking⟩)) rfl rfl
          (StatusPass.turn_stale rfl hroom hkey hstale) rfl hcontent
        rw [hround, reconcileFrom_stale _ hroom hkey hstale]
        exact ih (written + 1) _ (hrest.patched mac key content _)
    · have hfull := Nat.not_lt.mp hroom
      have hround := round_walking
        (s := s.withPass (some ⟨now, (mac, object) :: rest, written, .walking⟩)) rfl rfl
        (StatusPass.turn_full hfull) nofun
      rw [hround, rounds_idle _ rfl, reconcileFrom_full _ _ hfull]
      exact ⟨rfl, rfl⟩

/-- A quiet pass over objects that are live is a pass whose patches all succeed. -/
theorem index_quietPass {s : Writing} (hidle : s.process.pass = none) (now : Text)
    (order : HashMap.Iteration Mac BootHost)
    (hlive : s.AllLive (BootHostIndex.snapshot order s.index)) :
    (s.quietPass now order).index = (reconcileStatus s.process.seen now order s.index).1 := by
  rw [quietPass, after_begin hidle]
  exact (rounds_reconcileFrom now _ 0 s hlive).2

end Writing

end Stormnetboot.Server

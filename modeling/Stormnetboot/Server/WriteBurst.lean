import Stormnetboot.Common.Quota
import Stormnetboot.Server.StatusWriter

/-!
# The write burst of a pass

A pass counts the patches that were accepted, and stops when it has counted so many. What it sends
besides is not counted: with enough objects out of date, a pass whose first patches are not all
accepted sends more than it may write.
-/

namespace Stormnetboot.Server

open Stormnetboot.Common

section

variable (seen : ℕ → Observed) (accepts : ℕ → Bool) (now : Text)

/-- The patches a pass sends from a point on, with the objects it has looked at, the patches it
has sent and those it has written so far. What has been seen of the hosts may be another thing at
each object. -/
def patchesSent (looked sent written : ℕ) : List (Mac × BootHost) → List StatusPatch
  | [] => []
  | entry :: rest =>
    match StatusPass.turn (seen looked) ⟨now, entry :: rest, written, .walking⟩ with
    | none => []
    | some pass =>
      match pass.stage with
      | .sending patch =>
        patch :: patchesSent (looked + 1) (sent + 1)
          (if accepts sent then pass.written + 1 else pass.written) rest
      | _ => patchesSent (looked + 1) sent pass.written rest

/-- The patch an object needs: it has a place to be patched, and not the desired status. -/
def stalePatch (seen : Observed) (entry : Mac × BootHost) : Option StatusPatch :=
  entry.2.key.bind fun key =>
    let desired := seen.desired entry.1 now entry.2
    if entry.2.status = some desired then none else some ⟨entry.1, key, desired⟩

/-- The patches the objects need when they are looked at. -/
def stalePatches (looked : ℕ) : List (Mac × BootHost) → List StatusPatch
  | [] => []
  | entry :: rest => (stalePatch now (seen looked) entry).toList ++ stalePatches (looked + 1) rest

/-- Each of them with its answer. -/
def answered (sent : ℕ) : List StatusPatch → List (StatusPatch × Bool)
  | [] => []
  | patch :: rest => (patch, accepts sent) :: answered (sent + 1) rest

/-- Every patch is answered. -/
theorem length_answered (sent : ℕ) (patches : List StatusPatch) :
    (answered accepts sent patches).length = patches.length := by
  induction patches generalizing sent with
  | nil => rfl
  | cons patch rest ih => rw [answered, List.length_cons, List.length_cons, ih]

/-- The patches, whatever the answers. -/
theorem map_fst_answered (sent : ℕ) (patches : List StatusPatch) :
    (answered accepts sent patches).map Prod.fst = patches := by
  induction patches generalizing sent with
  | nil => rfl
  | cons patch rest ih => rw [answered, List.map_cons, ih]

/-- Where none is accepted, each is refused. -/
theorem answered_refused (h : ∀ n, accepts n = false) (sent : ℕ) (patches : List StatusPatch) :
    ∀ attempt ∈ answered accepts sent patches, attempt.2 = false := by
  induction patches generalizing sent with
  | nil => exact fun _ hmem => nomatch hmem
  | cons patch rest ih =>
    rw [answered, List.forall_mem_cons]
    exact ⟨h sent, ih (sent + 1)⟩

/-- The first ones are all accepted. -/
theorem forall_take_answered_iff (sent count : ℕ) (patches : List StatusPatch)
    (h : count ≤ patches.length) :
    (∀ attempt ∈ (answered accepts sent patches).take count, attempt.2 = true) ↔
      ∀ n < count, accepts (sent + n) = true := by
  induction patches generalizing sent count with
  | nil => simp [Nat.le_zero.mp h]
  | cons patch rest ih =>
    cases count with
    | zero => simp
    | succ count =>
      rw [answered, List.take_succ_cons, List.forall_mem_cons,
        ih (sent + 1) count (Nat.le_of_succ_le_succ h), Nat.forall_lt_succ_left']
      simp only [Nat.add_assoc, Nat.add_comm 1, Nat.add_zero]

/-- Where every object needs a patch there is one for each. -/
theorem length_stalePatches {todo : List (Mac × BootHost)}
    (h : ∀ entry ∈ todo, ∀ seen, (stalePatch now seen entry).isSome) (looked : ℕ) :
    (stalePatches seen now looked todo).length = todo.length := by
  induction todo generalizing looked with
  | nil => rfl
  | cons entry rest ih =>
    obtain ⟨patch, hpatch⟩ := Option.isSome_iff_exists.mp (h entry List.mem_cons_self (seen looked))
    rw [stalePatches, hpatch, List.length_append, List.length_cons,
      ih fun e he => h e (List.mem_cons_of_mem _ he), Nat.add_comm]
    rfl

/-- A pass that has written all it may sends nothing more. -/
theorem patchesSent_full {written : ℕ} (h : written ≥ maxPatchesPerPass) (looked sent : ℕ)
    (todo : List (Mac × BootHost)) :
    patchesSent seen accepts now looked sent written todo = [] := by
  cases todo with
  | nil => rfl
  | cons entry rest =>
    have hturn : StatusPass.turn (seen looked) ⟨now, entry :: rest, written, .walking⟩ = none :=
      StatusPass.turn_full h
    rw [patchesSent, hturn]

/-- An object that needs no patch is passed over. -/
theorem patchesSent_settled {looked written : ℕ} {entry : Mac × BootHost}
    (hroom : written < maxPatchesPerPass) (hsettled : stalePatch now (seen looked) entry = none)
    (sent : ℕ) (rest : List (Mac × BootHost)) :
    patchesSent seen accepts now looked sent written (entry :: rest) =
      patchesSent seen accepts now (looked + 1) sent written rest := by
  have hsame : ∀ key, entry.2.key = some key →
      entry.2.status = some ((seen looked).desired entry.1 now entry.2) := by
    intro key hkey
    rw [stalePatch, hkey, Option.bind_some] at hsettled
    by_contra hne
    rw [if_neg hne] at hsettled
    cases hsettled
  have hturn : StatusPass.turn (seen looked) ⟨now, entry :: rest, written, .walking⟩ =
      some ⟨now, rest, written, .walking⟩ := StatusPass.turn_settled rfl hroom hsame
  rw [patchesSent, hturn]

/-- An object that needs one is patched, and the patch counts if it is accepted. -/
theorem patchesSent_stale {looked written : ℕ} {entry : Mac × BootHost} {patch : StatusPatch}
    (hroom : written < maxPatchesPerPass)
    (hstale : stalePatch now (seen looked) entry = some patch) (sent : ℕ)
    (rest : List (Mac × BootHost)) :
    patchesSent seen accepts now looked sent written (entry :: rest) =
      patch :: patchesSent seen accepts now (looked + 1) (sent + 1)
        (if accepts sent then written + 1 else written) rest := by
  obtain ⟨key, hkey, hpatch⟩ := Option.bind_eq_some_iff.mp hstale
  simp only at hpatch
  split_ifs at hpatch with hsame
  cases hpatch
  have hturn : StatusPass.turn (seen looked) ⟨now, entry :: rest, written, .walking⟩ =
      some ⟨now, rest, written, .sending ⟨entry.1, key, (seen looked).desired entry.1 now entry.2⟩⟩ :=
    StatusPass.turn_stale rfl hroom hkey hsame
  rw [patchesSent, hturn]

/-- A pass sends the patches that are needed, until it has written all it may. -/
theorem patchesSent_eq (looked sent written : ℕ) (todo : List (Mac × BootHost)) :
    patchesSent seen accepts now looked sent written todo =
      (untilQuota (maxPatchesPerPass - written)
        (answered accepts sent (stalePatches seen now looked todo))).map Prod.fst := by
  induction todo generalizing looked sent written with
  | nil =>
    cases maxPatchesPerPass - written <;> rfl
  | cons entry rest ih =>
    rcases Nat.lt_or_ge written maxPatchesPerPass with hroom | hfull
    · cases hpatch : stalePatch now (seen looked) entry with
      | none =>
        rw [patchesSent_settled seen accepts now hroom hpatch, ih, stalePatches, hpatch]
        rfl
      | some patch =>
        have hquota : maxPatchesPerPass - written = (maxPatchesPerPass - (written + 1)) + 1 := by
          omega
        have hneeded : stalePatches seen now looked (entry :: rest) =
            patch :: stalePatches seen now (looked + 1) rest := by
          rw [stalePatches, hpatch]
          rfl
        rw [patchesSent_stale seen accepts now hroom hpatch, ih, hneeded, answered, hquota,
          untilQuota, List.map_cons]
        cases accepts sent with
        | true => rfl
        | false => rw [if_neg Bool.false_ne_true, if_neg Bool.false_ne_true, hquota]
    · rw [patchesSent_full seen accepts now hfull, Nat.sub_eq_zero_of_le hfull, untilQuota,
        List.map_nil]

end

/-- One pass of `reconcile_status` over the index, whatever the hosts do meanwhile and however
the apiserver answers. -/
def passSends (order : HashMap.Iteration Mac BootHost) (index : BootHostIndex)
    (seen : ℕ → Observed) (accepts : ℕ → Bool) (now : Text) : List StatusPatch :=
  patchesSent seen accepts now 0 0 0 (BootHostIndex.snapshot order index)

/-- A pass sends no more patches than it may write exactly where no more are needed, or the first
ones are all accepted. -/
theorem writeBurst_capped_iff (order : HashMap.Iteration Mac BootHost) (index : BootHostIndex)
    (seen : ℕ → Observed) (accepts : ℕ → Bool) (now : Text) :
    (passSends order index seen accepts now).length ≤ maxPatchesPerPass ↔
      (stalePatches seen now 0 (BootHostIndex.snapshot order index)).length ≤ maxPatchesPerPass ∨
        ∀ n < maxPatchesPerPass, accepts n = true := by
  rw [passSends, patchesSent_eq, List.length_map, Nat.sub_zero, length_untilQuota_le_iff,
    length_answered]
  rcases Nat.le_total (stalePatches seen now 0 (BootHostIndex.snapshot order index)).length
    maxPatchesPerPass with hfew | hmany
  · exact iff_of_true (.inl hfew) (.inl hfew)
  · rw [forall_take_answered_iff accepts 0 _ _ hmany]
    simp only [Nat.zero_add]

/-- An apiserver that refuses them all is sent every patch that is needed. -/
theorem passSends_refused (order : HashMap.Iteration Mac BootHost) (index : BootHostIndex)
    (seen : ℕ → Observed) {accepts : ℕ → Bool} (h : ∀ n, accepts n = false) (now : Text) :
    passSends order index seen accepts now =
      stalePatches seen now 0 (BootHostIndex.snapshot order index) := by
  rw [passSends, patchesSent_eq,
    untilQuota_eq_self_of_fails (by decide) (answered_refused accepts h 0 _), map_fst_answered]

/-! ## A fleet the apiserver refuses -/

namespace Fleet

/-- The MAC of a machine. -/
def mac (i : ℕ) : Mac :=
  .ofOctets 2 0 0 0 0 (UInt8.ofNat i)

/-- A machine that has no status yet. -/
def host (i : ℕ) : BootHost where
  metadata := { name := some (natText i), namespace_ := some "storm-system".toList, generation := none }
  spec := {
    bootMacAddress := (mac i).display
    hostname := none
    role := none
    stack := none
    portal := none
    extraCmdline := none
    online := true }
  status := none

/-- One more of them than a pass may write. -/
def index : BootHostIndex :=
  HashMap.collect ((List.range (maxPatchesPerPass + 1)).map fun i => (mac i, host i))

/-- Nothing was seen of any machine. -/
def seen : Observed where
  boot := ∅
  claims := ∅

/-- When the pass begins. -/
def now : Text :=
  "2026-09-01T08:00:00Z".toList

/-- Different machines have different MACs. -/
theorem mac_injective {i j : ℕ} (hi : i < 256) (hj : j < 256) (h : mac i = mac j) : i = j := by
  have hoctet := congrArg (fun m : Mac => (m.octets.get 5).toNat) h
  change (UInt8.ofNat i).toNat = (UInt8.ofNat j).toNat at hoctet
  rwa [UInt8.toNat_ofNat_of_lt' hi, UInt8.toNat_ofNat_of_lt' hj] at hoctet

/-- No two of them share a MAC. -/
theorem len_index : HashMap.len index = maxPatchesPerPass + 1 := by
  have hnodup : (((List.range (maxPatchesPerPass + 1)).map fun i => (mac i, host i)).map
      Prod.fst).Nodup := by
    rw [List.map_map]
    refine List.Nodup.map_on (fun i hi j hj h => ?_) List.nodup_range
    have hsmall : maxPatchesPerPass + 1 < 256 := by decide
    rw [List.mem_range] at hi hj
    exact mac_injective (by omega) (by omega) h
  rw [index, (HashMap.len_collect_eq_iff _).mpr hnodup, List.length_map, List.length_range]

/-- What stands in the index is one of them. -/
theorem exists_of_lookup_index {m : Mac} {object : BootHost} (h : index.lookup m = some object) :
    ∃ i, m = mac i ∧ object = host i := by
  obtain ⟨i, -, heq⟩ := List.mem_map.mp (HashMap.mem_of_lookup_collect _ h)
  cases heq
  exact ⟨i, rfl, rfl⟩

/-- Each has a place of its own. -/
theorem length_snapshot (order : HashMap.Iteration Mac BootHost) :
    (BootHostIndex.snapshot order index).length = maxPatchesPerPass + 1 := by
  rw [BootHostIndex.snapshot, List.length_map, HashMap.Iteration.length_list, len_index]

/-- All of them are out of date. -/
theorem stale_of_mem_snapshot (order : HashMap.Iteration Mac BootHost) {entry : Mac × BootHost}
    (h : entry ∈ BootHostIndex.snapshot order index) (now : Text) (seen : Observed) :
    (stalePatch now seen entry).isSome := by
  obtain ⟨⟨m, object⟩, hmem, rfl⟩ := List.mem_map.mp h
  obtain ⟨i, rfl, rfl⟩ := exists_of_lookup_index ((HashMap.Iteration.mem_list_iff ..).mp hmem)
  rfl

end Fleet

/-- An apiserver that refuses every patch is sent one for every object that is out of date. -/
theorem not_writeBurst_capped_fleet : ∃ order,
    maxPatchesPerPass <
      (passSends order Fleet.index (fun _ => Fleet.seen) (fun _ => false) Fleet.now).length := by
  obtain ⟨order⟩ : Nonempty (HashMap.Iteration Mac BootHost) := inferInstance
  refine ⟨order, ?_⟩
  rw [passSends_refused order Fleet.index _ (fun _ => rfl),
    length_stalePatches _ _ fun entry h seen => Fleet.stale_of_mem_snapshot order h _ seen,
    Fleet.length_snapshot]
  exact Nat.lt_succ_self _

end Stormnetboot.Server

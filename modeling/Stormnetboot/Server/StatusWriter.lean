import Stormnetboot.Server.BootScript
import Stormnetboot.Server.StatusPatch
import Stormnetboot.Server.WatchRefinement

/-!
# The status writer

A pass takes a snapshot of the index and goes through it. An object whose status is not the
desired one is patched, and when the apiserver has accepted the patch the status is noted in the
index, under the MAC the object was found under. The pass is cut where it waits: while a patch is
on its way, and between the answer and the note.
-/

namespace Stormnetboot.Server

open Stormnetboot.Common

/-- How many status patches one pass may write. -/
def maxPatchesPerPass : ℕ := 200

/-- Where an object's status is patched: an object without a namespace or a name is left out. -/
def BootHost.key (object : BootHost) : Option ObjectKey := do
  let namespace_ ← object.metadata.namespace_
  let name ← object.metadata.name
  some ⟨namespace_, name⟩

/-- The object of a key has the key. -/
@[simp] theorem BootHost.key_object (key : ObjectKey) (content : Content) :
    (content.object key).key = some key := rfl

/-- What a process has seen of the hosts: their boots, and the claims made for them. -/
structure Observed where
  boot : BootState
  claims : ClaimCache

/-- The status an object should have at this time. -/
def Observed.desired (seen : Observed) (mac : Mac) (now : Text) (object : BootHost) :
    BootHostStatus :=
  desiredStatus (seen.boot.lookup mac) object.spec.online
    ((seen.claims.lookup mac).map ClaimResponse.id) (object.metadata.generation.getD 0)
    object.status now

/-- A desired status has conditions. -/
theorem Observed.conditions_desired (seen : Observed) (mac : Mac) (now : Text)
    (object : BootHost) : (seen.desired mac now object).conditions ≠ [] := by
  unfold desired
  exact desiredStatus_conditions_ne_nil _ _ _ _ _ _

/-- A patch, and the MAC its object was found under. -/
structure StatusPatch where
  mac : Mac
  key : ObjectKey
  desired : BootHostStatus

/-- Where a pass is. -/
inductive Stage where
  | walking
  | sending (patch : StatusPatch)
  | noting (patch : StatusPatch)

/-- A pass of `reconcile_status`. -/
structure StatusPass where
  now : Text
  todo : List (Mac × BootHost)
  written : ℕ
  stage : Stage

/-- One turn of its loop; none when the loop is over. -/
def StatusPass.turn (seen : Observed) (pass : StatusPass) : Option StatusPass :=
  match pass.todo with
  | [] => none
  | (mac, object) :: rest =>
    if pass.written ≥ maxPatchesPerPass then none
    else
      match object.key with
      | none => some { pass with todo := rest }
      | some key =>
        let desired := seen.desired mac pass.now object
        if object.status = some desired then some { pass with todo := rest }
        else some { pass with todo := rest, stage := .sending ⟨mac, key, desired⟩ }

/-- A server process, as far as its status writer is concerned. -/
structure Process where
  seen : Observed
  watch : Watch
  pass : Option StatusPass

/-- What moves the writer on. -/
inductive WriterEvent where
  | begin (now : Text) (order : HashMap.Iteration Mac BootHost)
  | turn
  | answer (accepted : Bool)
  | note

/-- `BootHostIndex::snapshot`. -/
def BootHostIndex.snapshot (order : HashMap.Iteration Mac BootHost) (index : BootHostIndex) :
    List (Mac × BootHost) :=
  (order.list index).map fun e => (e.1, e.2)

/-- The snapshot of one entry is the entry. -/
theorem BootHostIndex.snapshot_singleton (order : HashMap.Iteration Mac BootHost) (mac : Mac)
    (object : BootHost) : snapshot order (Finmap.singleton mac object) = [(mac, object)] := by
  rw [snapshot, HashMap.Iteration.list_singleton]
  rfl

/-- What a patch makes of the stored status: it is merged onto it. -/
abbrev StoreStatus := Option BootHostStatus → BootHostStatus → BootHostStatus

namespace Process

/-- The apiserver answers the patch: an object that is not there cannot be patched. -/
def answered (store : StoreStatus) (live : LiveObjects) (process : Process) (pass : StatusPass)
    (patch : StatusPatch) (accepted : Bool) : Process × Option Change :=
  match accepted, live.lookup patch.key with
  | true, some content =>
    ({ process with pass := some { pass with stage := .noting patch } },
      some (.edit patch.key { content with status := some (store content.status patch.desired) }))
  | _, _ => ({ process with pass := some { pass with stage := .walking } }, none)

/-- The written status is noted, and the pass goes on. -/
def noted (process : Process) (pass : StatusPass) (patch : StatusPatch) : Process :=
  { process with
    watch := { process.watch with
      view := process.watch.view.noteStatus patch.mac patch.desired }
    pass := some { pass with written := pass.written + 1, stage := .walking } }

/-- One step of the writer, and the change it makes to the cluster. An event that does not fit
where the writer is changes nothing. -/
def write (store : StoreStatus) (live : LiveObjects) (process : Process) (event : WriterEvent) :
    Process × Option Change :=
  match process.pass with
  | none =>
    match event with
    | .begin now order =>
      ({ process with pass := some {
          now := now
          todo := BootHostIndex.snapshot order process.watch.view.index
          written := 0
          stage := .walking } }, none)
    | _ => (process, none)
  | some pass =>
    match pass.stage, event with
    | .walking, .turn => ({ process with pass := pass.turn process.seen }, none)
    | .sending patch, .answer accepted => process.answered store live pass patch accepted
    | .noting patch, .note => (process.noted pass patch, none)
    | _, _ => (process, none)

end Process

/-! ## What a step can do -/

namespace StatusPass

variable {seen : Observed} {pass : StatusPass} {mac : Mac} {object : BootHost}
  {rest : List (Mac × BootHost)}

/-- The loop is over at the end of the snapshot, or when the pass has written all it may. -/
theorem turn_nil (h : pass.todo = []) : pass.turn seen = none := by
  rw [turn, h]

/-- A pass at its cap is over. -/
theorem turn_full (h : pass.written ≥ maxPatchesPerPass) : pass.turn seen = none := by
  unfold turn
  cases pass.todo with
  | nil => rfl
  | cons entry rest => exact if_pos h

/-- An object with the desired status, or without a place to patch it, is passed over. -/
theorem turn_settled (htodo : pass.todo = (mac, object) :: rest)
    (hroom : pass.written < maxPatchesPerPass)
    (hsettled : ∀ key, object.key = some key →
      object.status = some (seen.desired mac pass.now object)) :
    pass.turn seen = some { pass with todo := rest } := by
  unfold turn
  rw [htodo]
  simp only [if_neg (Nat.not_le.mpr hroom)]
  cases hkey : object.key with
  | none => rfl
  | some key => exact if_pos (hsettled key hkey)

/-- Any other object is patched. -/
theorem turn_stale {key : ObjectKey} (htodo : pass.todo = (mac, object) :: rest)
    (hroom : pass.written < maxPatchesPerPass) (hkey : object.key = some key)
    (hstale : object.status ≠ some (seen.desired mac pass.now object)) :
    pass.turn seen = some { pass with
      todo := rest
      stage := .sending ⟨mac, key, seen.desired mac pass.now object⟩ } := by
  unfold turn
  rw [htodo]
  simp only [if_neg (Nat.not_le.mpr hroom), hkey, if_neg hstale]

/-- What a turn of the loop can do. -/
theorem turn_cases (seen : Observed) (pass : StatusPass) :
    pass.turn seen = none ∨
    ∃ mac object rest, pass.todo = (mac, object) :: rest ∧
      (pass.turn seen = some { pass with todo := rest } ∨
        ∃ key, object.key = some key ∧
          pass.turn seen = some { pass with
            todo := rest
            stage := .sending ⟨mac, key, seen.desired mac pass.now object⟩ }) := by
  cases htodo : pass.todo with
  | nil => exact .inl (turn_nil htodo)
  | cons entry rest =>
    obtain ⟨mac, object⟩ := entry
    by_cases hfull : pass.written ≥ maxPatchesPerPass
    · exact .inl (turn_full hfull)
    · refine .inr ⟨mac, object, rest, rfl, ?_⟩
      by_cases hsettled : ∀ key, object.key = some key →
          object.status = some (seen.desired mac pass.now object)
      · exact .inl (turn_settled htodo (Nat.not_le.mp hfull) hsettled)
      · push Not at hsettled
        obtain ⟨key, hkey, hstale⟩ := hsettled
        exact .inr ⟨key, hkey, turn_stale htodo (Nat.not_le.mp hfull) hkey hstale⟩

end StatusPass

namespace Process

variable {store : StoreStatus} {live : LiveObjects} {process : Process} {pass : StatusPass}
  {patch : StatusPatch}

/-! Where the writer is, the event that fits moves it on. -/

/-- A pass begins with the snapshot. -/
theorem write_begin (hidle : process.pass = none) (now : Text)
    (order : HashMap.Iteration Mac BootHost) :
    process.write store live (.begin now order) =
      ({ process with pass := some {
          now := now
          todo := BootHostIndex.snapshot order process.watch.view.index
          written := 0
          stage := .walking } }, none) := by
  unfold write
  rw [hidle]

/-- A turn goes on with the pass. -/
theorem write_turn (hpass : process.pass = some pass) (hstage : pass.stage = .walking) :
    process.write store live .turn = ({ process with pass := pass.turn process.seen }, none) := by
  unfold write
  rw [hpass]
  dsimp only
  rw [hstage]

/-- While a patch is on its way its answer is what the apiserver makes of it. -/
theorem write_sending (hpass : process.pass = some pass) (hstage : pass.stage = .sending patch)
    (accepted : Bool) : process.write store live (.answer accepted) =
      process.answered store live pass patch accepted := by
  unfold write
  rw [hpass]
  dsimp only
  rw [hstage]

/-- An accepted patch is stored, and its note is next. -/
theorem write_answer {content : Content} (hpass : process.pass = some pass)
    (hstage : pass.stage = .sending patch) (hlive : live.lookup patch.key = some content) :
    process.write store live (.answer true) =
      ({ process with pass := some { pass with stage := .noting patch } },
        some (.edit patch.key
          { content with status := some (store content.status patch.desired) })) := by
  rw [write_sending hpass hstage]
  unfold answered
  rw [hlive]

/-- A refused one is stored nowhere, and the pass walks on. -/
theorem write_refused {accepted : Bool} (hpass : process.pass = some pass)
    (hstage : pass.stage = .sending patch) (h : accepted = true → live.lookup patch.key = none) :
    process.write store live (.answer accepted) =
      ({ process with pass := some { pass with stage := .walking } }, none) := by
  rw [write_sending hpass hstage]
  unfold answered
  cases accepted with
  | false => rfl
  | true => rw [h rfl]

/-! With no patch on its way, an answer or a note changes nothing, and without a pass neither does
a turn. -/

/-- No answer is waited for between two patches. -/
theorem write_answer_walking (h : ∀ pass, process.pass = some pass → pass.stage = .walking)
    (accepted : Bool) : process.write store live (.answer accepted) = (process, none) := by
  unfold write
  cases hpass : process.pass with
  | none => rfl
  | some pass =>
    dsimp only
    rw [h pass hpass]

/-- No note is due there either. -/
theorem write_note_walking (h : ∀ pass, process.pass = some pass → pass.stage = .walking) :
    process.write store live .note = (process, none) := by
  unfold write
  cases hpass : process.pass with
  | none => rfl
  | some pass =>
    dsimp only
    rw [h pass hpass]

/-- Without a pass a turn does nothing. -/
theorem write_turn_idle (hidle : process.pass = none) :
    process.write store live .turn = (process, none) := by
  unfold write
  rw [hidle]

end Process

/-- What a step of the writer can do. -/
inductive Writes (store : StoreStatus) (live : LiveObjects) (process : Process) :
    WriterEvent → Process × Option Change → Prop where
  | idle (event : WriterEvent) : Writes store live process event (process, none)
  | begins (now : Text) (order : HashMap.Iteration Mac BootHost) (hidle : process.pass = none) :
    Writes store live process (.begin now order)
      ({ process with pass := some {
          now := now
          todo := BootHostIndex.snapshot order process.watch.view.index
          written := 0
          stage := .walking } }, none)
  | turns (pass : StatusPass) (hpass : process.pass = some pass) (hstage : pass.stage = .walking) :
    Writes store live process .turn ({ process with pass := pass.turn process.seen }, none)
  | rejects (accepted : Bool) (pass : StatusPass) (patch : StatusPatch) (hpass : process.pass = some pass)
    (hstage : pass.stage = .sending patch) :
    Writes store live process (.answer accepted)
      ({ process with pass := some { pass with stage := .walking } }, none)
  | accepts (pass : StatusPass) (patch : StatusPatch) (content : Content)
    (hpass : process.pass = some pass) (hstage : pass.stage = .sending patch)
    (hlive : live.lookup patch.key = some content) :
    Writes store live process (.answer true)
      ({ process with pass := some { pass with stage := .noting patch } },
        some (.edit patch.key
          { content with status := some (store content.status patch.desired) }))
  | notes (pass : StatusPass) (patch : StatusPatch) (hpass : process.pass = some pass)
    (hstage : pass.stage = .noting patch) :
    Writes store live process .note (process.noted pass patch, none)

/-- What a process writes is one of the listed things. -/
theorem Process.writes_write (store : StoreStatus) (live : LiveObjects) (process : Process)
    (event : WriterEvent) :
    Writes store live process event (process.write store live event) := by
  unfold Process.write
  cases hpass : process.pass with
  | none =>
    cases event with
    | begin now order => exact .begins now order hpass
    | _ => exact .idle _
  | some pass =>
    cases hstage : pass.stage with
    | walking =>
      cases event with
      | turn => simpa only [hstage] using Writes.turns pass hpass hstage
      | _ => simpa only [hstage] using Writes.idle _
    | sending patch =>
      cases event with
      | answer accepted =>
        simp only [hstage, Process.answered]
        cases accepted with
        | false => exact .rejects false pass patch hpass hstage
        | true =>
          cases hlive : live.lookup patch.key with
          | none => exact .rejects true pass patch hpass hstage
          | some content => exact .accepts pass patch content hpass hstage hlive
      | _ => simpa only [hstage] using Writes.idle _
    | noting patch =>
      cases event with
      | note => simpa only [hstage] using Writes.notes pass patch hpass hstage
      | _ => simpa only [hstage] using Writes.idle _

end Stormnetboot.Server

import Stormnetboot.Common.Json
import Stormnetboot.Server.KubeStore

/-!
# The status patch

The writer sends the desired status as a merge patch. Its serialiser leaves out what is not
set, and a merge patch keeps what it does not name, so a field that was set and no longer is
survives the patch. The patched status is read back here field by field; it is the desired
one exactly when nothing that was set has been dropped.
-/

namespace Stormnetboot.Server

open Stormnetboot.Common

/-! ## Serialising -/

/-- A list is left out when it is empty. -/
def listField {α : Type} (encode : α → Json) (xs : List α) : Option Json :=
  if xs.isEmpty then none else some (.arr (xs.map encode))

/-- The members of a serialised `HardwareStatus`. -/
def HardwareStatus.fields (hw : HardwareStatus) : List (String × Option Json) :=
  [("cpus", some (.num hw.cpus.toNat)), ("memoryKB", some (.num hw.memoryKb.toNat)),
    ("product", hw.product.map .str), ("serial", hw.serial.map .str),
    ("disks", listField .str hw.disks)]

/-- A `HardwareStatus` as a JSON value. -/
def HardwareStatus.toJson (hw : HardwareStatus) : Json :=
  .ofFields hw.fields

/-- The members of a serialised `Condition`. -/
def Condition.fields (c : Condition) : List (String × Option Json) :=
  [("type", some (.str c.type_)), ("status", some (.str c.status)),
    ("reason", some (.str c.reason)), ("message", some (.str c.message)),
    ("lastTransitionTime", some (.str c.lastTransitionTime)),
    ("observedGeneration", some (.num c.observedGeneration.toInt))]

/-- A `Condition` as a JSON value. -/
def Condition.toJson (c : Condition) : Json :=
  .ofFields c.fields

/-- The members of a serialised `BootHostStatus`. -/
def BootHostStatus.fields (status : BootHostStatus) : List (String × Option Json) :=
  [("phase", status.phase.map .str), ("palletVersion", status.palletVersion.map .str),
    ("claimId", status.claimId.map .str), ("hardware", status.hardware.map HardwareStatus.toJson),
    ("conditions", listField Condition.toJson status.conditions)]

/-- A `BootHostStatus` as a JSON value. -/
def BootHostStatus.toJson (status : BootHostStatus) : Json :=
  .ofFields status.fields

/-! ## Reading back -/

/-- A string. -/
def readText : Json → Option Text
  | .str s => some s
  | _ => none

/-- A `u32`. -/
def readU32 : Json → Option UInt32
  | .num n => if 0 ≤ n ∧ n < UInt32.size then some (UInt32.ofNat n.toNat) else none
  | _ => none

/-- A `u64`. -/
def readU64 : Json → Option UInt64
  | .num n => if 0 ≤ n ∧ n < UInt64.size then some (UInt64.ofNat n.toNat) else none
  | _ => none

/-- An `i64`. -/
def readI64 : Json → Option Int64
  | .num n => if Int64.minValue.toInt ≤ n ∧ n ≤ Int64.maxValue.toInt then some (Int64.ofInt n) else none
  | _ => none

/-- A member that may be absent or null. -/
def readOptional {α : Type} (read : Json → Option α) : Option Json → Option (Option α)
  | none => some none
  | some .null => some none
  | some value => (read value).map some

/-- A list that may be absent. -/
def readList {α : Type} (read : Json → Option α) : Option Json → Option (List α)
  | none => some []
  | some (.arr items) => items.mapM read
  | some _ => none

/-- Read a `HardwareStatus` from its members. -/
def HardwareStatus.ofMembers (get : String → Option Json) : Option HardwareStatus := do
  let cpus ← (get "cpus").bind readU32
  let memoryKb ← (get "memoryKB").bind readU64
  let product ← readOptional readText (get "product")
  let serial ← readOptional readText (get "serial")
  let disks ← readList readText (get "disks")
  some ⟨cpus, memoryKb, product, serial, disks⟩

/-- Read a `HardwareStatus`. -/
def HardwareStatus.ofJson : Json → Option HardwareStatus
  | .obj members => HardwareStatus.ofMembers (Json.obj members).get
  | _ => none

/-- Read a `Condition` from its members. -/
def Condition.ofMembers (get : String → Option Json) : Option Condition := do
  let type_ ← (get "type").bind readText
  let status ← (get "status").bind readText
  let reason ← (get "reason").bind readText
  let message ← (get "message").bind readText
  let lastTransitionTime ← (get "lastTransitionTime").bind readText
  let observedGeneration ← (get "observedGeneration").bind readI64
  some ⟨type_, status, reason, message, lastTransitionTime, observedGeneration⟩

/-- Read a `Condition`. -/
def Condition.ofJson : Json → Option Condition
  | .obj members => Condition.ofMembers (Json.obj members).get
  | _ => none

/-- Read a `BootHostStatus` from its members. -/
def BootHostStatus.ofMembers (get : String → Option Json) : Option BootHostStatus := do
  let phase ← readOptional readText (get "phase")
  let palletVersion ← readOptional readText (get "palletVersion")
  let claimId ← readOptional readText (get "claimId")
  let hardware ← readOptional HardwareStatus.ofJson (get "hardware")
  let conditions ← readList Condition.ofJson (get "conditions")
  some ⟨phase, palletVersion, claimId, hardware, conditions⟩

/-- Read a `BootHostStatus`. -/
def BootHostStatus.ofJson : Json → Option BootHostStatus
  | .obj members => BootHostStatus.ofMembers (Json.obj members).get
  | _ => none

/-- Numbers are read back. -/
@[simp] theorem readU32_num (n : UInt32) : readU32 (.num n.toNat) = some n := by
  have hrange : (0 : ℤ) ≤ n.toNat ∧ (n.toNat : ℤ) < UInt32.size :=
    ⟨by omega, by exact_mod_cast n.toNat_lt⟩
  rw [readU32, if_pos hrange, Int.toNat_natCast, UInt32.ofNat_toNat]

/-- A number of 64 bits is read back. -/
@[simp] theorem readU64_num (n : UInt64) : readU64 (.num n.toNat) = some n := by
  have hrange : (0 : ℤ) ≤ n.toNat ∧ (n.toNat : ℤ) < UInt64.size :=
    ⟨by omega, by exact_mod_cast n.toNat_lt⟩
  rw [readU64, if_pos hrange, Int.toNat_natCast, UInt64.ofNat_toNat]

/-- So is a signed one. -/
@[simp] theorem readI64_num (n : Int64) : readI64 (.num n.toInt) = some n := by
  rw [readI64, if_pos ⟨n.minValue_le_toInt, n.toInt_le⟩, Int64.ofInt_toInt]

/-- A string is read back. -/
theorem readOptional_map_str (s : Option Text) : readOptional readText (s.map .str) = some s := by
  cases s <;> rfl

/-- A list is read back if its elements are. -/
theorem readList_listField {α : Type} (encode : α → Json) (read : Json → Option α) (xs : List α)
    (h : ∀ x, read (encode x) = some x) : readList read (listField encode xs) = some xs := by
  have hall : ∀ xs : List α, (xs.map encode).mapM read = some xs := by
    intro xs
    induction xs with
    | nil => rfl
    | cons x rest ih => simp [List.mapM_cons, h, ih]
  unfold listField
  cases xs with
  | nil => rfl
  | cons x rest => exact hall (x :: rest)

/-- A condition is read back from its members. -/
theorem Condition.ofMembers_eq (get : String → Option Json) (c : Condition)
    (h : ∀ name, get name = (c.fields.lookup name).join) : ofMembers get = some c := by
  simp [ofMembers, h, fields, List.lookup_cons, readText]

/-- A condition is read back. -/
theorem Condition.ofJson_toJson (c : Condition) : Condition.ofJson c.toJson = some c := by
  rw [toJson, Json.ofFields, ofJson]
  exact ofMembers_eq _ c (Json.get_ofFields c.fields (by simp [fields]))

/-- Hardware is read back from its members. -/
theorem HardwareStatus.ofMembers_eq (get : String → Option Json) (hw : HardwareStatus)
    (hcpus : get "cpus" = some (.num hw.cpus.toNat))
    (hmemory : get "memoryKB" = some (.num hw.memoryKb.toNat))
    (hproduct : get "product" = hw.product.map .str) (hserial : get "serial" = hw.serial.map .str)
    (hdisks : get "disks" = listField .str hw.disks) : ofMembers get = some hw := by
  rw [ofMembers, hcpus, hmemory, hproduct, hserial, hdisks, Option.bind_some, readU32_num,
    Option.bind_some, readU64_num, readOptional_map_str, readOptional_map_str,
    readList_listField Json.str readText hw.disks fun _ => rfl]
  rfl

/-- Hardware is read back. -/
theorem HardwareStatus.ofJson_toJson (hw : HardwareStatus) :
    HardwareStatus.ofJson hw.toJson = some hw := by
  have hget := Json.get_ofFields hw.fields (by simp [fields])
  rw [toJson, Json.ofFields, ofJson]
  exact ofMembers_eq _ hw (hget "cpus") (hget "memoryKB") (hget "product") (hget "serial")
    (hget "disks")

/-! ## What the patch leaves -/

/-- Hardware as a patch with it leaves what was stored. -/
def HardwareStatus.mergedOnto (stored : Option HardwareStatus) (desired : HardwareStatus) :
    HardwareStatus where
  cpus := desired.cpus
  memoryKb := desired.memoryKb
  product := desired.product.or (stored.bind HardwareStatus.product)
  serial := desired.serial.or (stored.bind HardwareStatus.serial)
  disks := if desired.disks.isEmpty then (stored.map HardwareStatus.disks).getD [] else desired.disks

/-- A status as a patch with it leaves what was stored. -/
def BootHostStatus.mergedOnto (stored : Option BootHostStatus) (desired : BootHostStatus) :
    BootHostStatus where
  phase := desired.phase.or (stored.bind BootHostStatus.phase)
  palletVersion := desired.palletVersion.or (stored.bind BootHostStatus.palletVersion)
  claimId := desired.claimId.or (stored.bind BootHostStatus.claimId)
  hardware :=
    let before := stored.bind BootHostStatus.hardware
    match desired.hardware with
    | some hw => some (hw.mergedOnto before)
    | none => before
  conditions :=
    if desired.conditions.isEmpty then (stored.map BootHostStatus.conditions).getD []
    else desired.conditions

/-- A string member of a patch replaces, and an absent one keeps. -/
theorem mergeValue_map_str (before after : Option Text) :
    Json.mergeValue (before.map .str) (after.map .str) = (after.or before).map .str := by
  cases after <;> rfl

/-- A list member of a patch replaces, and an empty one keeps. -/
theorem mergeValue_listField {α : Type} (encode : α → Json) (before after : List α) :
    Json.mergeValue (listField encode before) (listField encode after) =
      listField encode (if after.isEmpty then before else after) := by
  cases after with
  | nil => rfl
  | cons x rest => rfl

/-- The stored members, whether or not anything is stored. -/
theorem HardwareStatus.get_stored (stored : Option HardwareStatus) (name : String) :
    ((stored.map toJson).getD .null).get name =
      stored.bind fun hw => (hw.fields.lookup name).join := by
  cases stored with
  | none => rfl
  | some hw => exact Json.get_ofFields hw.fields (by simp [fields]) name

/-- A patch with hardware leaves it merged onto the stored one. -/
theorem HardwareStatus.ofJson_mergePatch (stored : Option HardwareStatus)
    (desired : HardwareStatus) :
    HardwareStatus.ofJson (Json.mergePatch ((stored.map toJson).getD .null) desired.toJson) =
      some (desired.mergedOnto stored) := by
  have hget : ∀ name, (Json.mergePatch ((stored.map toJson).getD .null) desired.toJson).get name =
      Json.mergeValue (stored.bind fun hw => (hw.fields.lookup name).join)
        (desired.fields.lookup name).join := fun name => by
    rw [toJson, Json.get_mergePatch_ofFields _ _ (by simp [fields]), ← get_stored]
  rw [toJson, Json.ofFields, Json.mergePatch, ofJson]
  refine ofMembers_eq _ _ (hget "cpus") (hget "memoryKB") ((hget "product").trans ?_)
    ((hget "serial").trans ?_) ((hget "disks").trans ?_)
  · cases stored with
    | none => exact mergeValue_map_str none desired.product
    | some hw => exact mergeValue_map_str hw.product desired.product
  · cases stored with
    | none => exact mergeValue_map_str none desired.serial
    | some hw => exact mergeValue_map_str hw.serial desired.serial
  · cases stored with
    | none => exact mergeValue_listField .str [] desired.disks
    | some hw => exact mergeValue_listField .str hw.disks desired.disks

/-- A status is read back from its members. -/
theorem BootHostStatus.ofMembers_eq (get : String → Option Json) (status : BootHostStatus)
    (hphase : get "phase" = status.phase.map .str)
    (hpallet : get "palletVersion" = status.palletVersion.map .str)
    (hclaim : get "claimId" = status.claimId.map .str)
    (hhardware : readOptional HardwareStatus.ofJson (get "hardware") = some status.hardware)
    (hconditions : get "conditions" = listField Condition.toJson status.conditions) :
    ofMembers get = some status := by
  rw [ofMembers, hphase, hpallet, hclaim, hhardware, hconditions, readOptional_map_str,
    readOptional_map_str, readOptional_map_str,
    readList_listField Condition.toJson Condition.ofJson _ Condition.ofJson_toJson]
  rfl

/-- The stored members, whether or not anything is stored. -/
theorem BootHostStatus.get_stored (stored : Option BootHostStatus) (name : String) :
    ((stored.map toJson).getD .null).get name =
      stored.bind fun status => (status.fields.lookup name).join := by
  cases stored with
  | none => rfl
  | some status => exact Json.get_ofFields status.fields (by simp [fields]) name

/-- A hardware member of a patch is merged, and an absent one keeps. -/
theorem readOptional_mergeValue_hardware (before after : Option HardwareStatus) :
    readOptional HardwareStatus.ofJson
        (Json.mergeValue (before.map HardwareStatus.toJson) (after.map HardwareStatus.toJson)) =
      some (match after with
        | some hw => some (hw.mergedOnto before)
        | none => before) := by
  cases after with
  | none =>
    cases before with
    | none => rfl
    | some hw =>
      have hread : readOptional HardwareStatus.ofJson (some hw.toJson) =
          (HardwareStatus.ofJson hw.toJson).map some := rfl
      exact hread.trans (by rw [HardwareStatus.ofJson_toJson]; rfl)
  | some hw =>
    have hread : readOptional HardwareStatus.ofJson
        (Json.mergeValue (before.map HardwareStatus.toJson) (some hw.toJson)) =
          (HardwareStatus.ofJson (Json.mergePatch ((before.map HardwareStatus.toJson).getD .null)
            hw.toJson)).map some := rfl
    exact hread.trans (by rw [HardwareStatus.ofJson_mergePatch]; rfl)

/-- A patch with a status leaves it merged onto the stored one. -/
theorem BootHostStatus.ofJson_mergePatch (stored : Option BootHostStatus)
    (desired : BootHostStatus) :
    BootHostStatus.ofJson (Json.mergePatch ((stored.map toJson).getD .null) desired.toJson) =
      some (desired.mergedOnto stored) := by
  have hget : ∀ name, (Json.mergePatch ((stored.map toJson).getD .null) desired.toJson).get name =
      Json.mergeValue (stored.bind fun status => (status.fields.lookup name).join)
        (desired.fields.lookup name).join := fun name => by
    rw [toJson, Json.get_mergePatch_ofFields _ _ (by simp [fields]), ← get_stored]
  have hhardware := readOptional_mergeValue_hardware (stored.bind BootHostStatus.hardware)
    desired.hardware
  rw [toJson, Json.ofFields, Json.mergePatch, ofJson]
  refine ofMembers_eq _ _ ((hget "phase").trans ?_) ((hget "palletVersion").trans ?_)
    ((hget "claimId").trans ?_) ((congrArg _ (hget "hardware")).trans ?_)
    ((hget "conditions").trans ?_)
  · cases stored with
    | none => exact mergeValue_map_str none desired.phase
    | some status => exact mergeValue_map_str status.phase desired.phase
  · cases stored with
    | none => exact mergeValue_map_str none desired.palletVersion
    | some status => exact mergeValue_map_str status.palletVersion desired.palletVersion
  · cases stored with
    | none => exact mergeValue_map_str none desired.claimId
    | some status => exact mergeValue_map_str status.claimId desired.claimId
  · cases stored with
    | none => exact hhardware
    | some status => exact hhardware
  · cases stored with
    | none => exact mergeValue_listField Condition.toJson [] desired.conditions
    | some status => exact mergeValue_listField Condition.toJson status.conditions desired.conditions

/-! ## Taking effect -/

/-- The object as the apiserver holds it. -/
def storedObject (metadata spec : Json) (stored : Option BootHostStatus) : Json :=
  .ofFields [("metadata", some metadata), ("spec", some spec),
    ("status", stored.map BootHostStatus.toJson)]

/-- The body of the patch. -/
def statusPatch (desired : BootHostStatus) : Json :=
  .ofFields [("status", some desired.toJson)]

/-- The status a client reads in an object, if it can read the object. -/
def heldStatus (object : Json) : Option (Option BootHostStatus) :=
  readOptional BootHostStatus.ofJson (object.get "status")

/-- After the patch, the apiserver holds the desired status and nothing else of a status. -/
def TakesEffect (metadata spec : Json) (stored : Option BootHostStatus)
    (desired : BootHostStatus) : Prop :=
  heldStatus (Json.mergePatch (storedObject metadata spec stored) (statusPatch desired)) =
    some (some desired)

/-- What is held after a patch. -/
theorem heldStatus_mergePatch (metadata spec : Json) (stored : Option BootHostStatus)
    (desired : BootHostStatus) :
    heldStatus (Json.mergePatch (storedObject metadata spec stored) (statusPatch desired)) =
      some (some (desired.mergedOnto stored)) := by
  have hget : (Json.mergePatch (storedObject metadata spec stored) (statusPatch desired)).get
      "status" = some (Json.mergePatch ((stored.map BootHostStatus.toJson).getD .null)
        desired.toJson) := by
    rw [statusPatch, Json.get_mergePatch_ofFields _ _ (by simp), storedObject,
      Json.get_ofFields _ (by simp)]
    cases stored <;> rfl
  have hread : ∀ patch : BootHostStatus, ∀ target, readOptional BootHostStatus.ofJson
      (some (Json.mergePatch target patch.toJson)) =
        (BootHostStatus.ofJson (Json.mergePatch target patch.toJson)).map some := fun _ _ => rfl
  rw [heldStatus, hget, hread, BootHostStatus.ofJson_mergePatch]
  rfl

/-- Noting the desired status records what the apiserver holds exactly when the patch took
effect. -/
theorem noteStatus_held_iff (view : ClusterView) (mac : Mac) (object : BootHost)
    (metadata spec : Json) (stored : Option BootHostStatus) (desired : BootHostStatus)
    (hobject : view.index.lookup mac = some object) :
    ((view.noteStatus mac desired).index.lookup mac).map BootHost.status =
        heldStatus (Json.mergePatch (storedObject metadata spec stored) (statusPatch desired)) ↔
      TakesEffect metadata spec stored desired := by
  have hnoted : ((view.noteStatus mac desired).index.lookup mac).map BootHost.status =
      some (some desired) := by
    rw [ClusterView.noteStatus, BootHostIndex.lookup_noteStatus, if_pos rfl, hobject]
    rfl
  rw [hnoted]
  exact eq_comm

/-- Everything set in the stored hardware is set in the desired one. -/
structure HardwareStatus.KeepsFields (stored desired : HardwareStatus) : Prop where
  product : stored.product.isSome → desired.product.isSome
  serial : stored.serial.isSome → desired.serial.isSome
  disks : stored.disks ≠ [] → desired.disks ≠ []

/-- Everything set in the stored status is set in the desired one. -/
structure BootHostStatus.KeepsFields (stored desired : BootHostStatus) : Prop where
  phase : stored.phase.isSome → desired.phase.isSome
  palletVersion : stored.palletVersion.isSome → desired.palletVersion.isSome
  claimId : stored.claimId.isSome → desired.claimId.isSome
  hardware : ∀ before, stored.hardware = some before →
    ∃ after, desired.hardware = some after ∧ before.KeepsFields after

/-- Falling back changes nothing unless only the fallback is set. -/
theorem or_eq_self_iff {α : Type} (a b : Option α) :
    a.or b = a ↔ (b.isSome → a.isSome) := by
  cases a <;> cases b <;> simp

/-- Falling back on a list changes nothing unless only the fallback has elements. -/
theorem ite_isEmpty_eq_self_iff {α : Type} (a b : List α) :
    (if a.isEmpty then b else a) = a ↔ (b ≠ [] → a ≠ []) := by
  cases a with
  | nil => cases b <;> simp
  | cons x rest => simp

/-- Merged hardware is the desired one exactly when nothing that was set is dropped. -/
theorem HardwareStatus.mergedOnto_eq_iff (stored desired : HardwareStatus) :
    desired.mergedOnto (some stored) = desired ↔ stored.KeepsFields desired := by
  have heq : desired.mergedOnto (some stored) = desired ↔
      desired.product.or stored.product = desired.product ∧
        desired.serial.or stored.serial = desired.serial ∧
          (if desired.disks.isEmpty then stored.disks else desired.disks) = desired.disks := by
    cases desired
    simp [mergedOnto]
  rw [heq, or_eq_self_iff, or_eq_self_iff, ite_isEmpty_eq_self_iff]
  exact ⟨fun h => ⟨h.1, h.2.1, h.2.2⟩, fun h => ⟨h.product, h.serial, h.disks⟩⟩

/-- Hardware merged onto nothing is the desired one. -/
theorem HardwareStatus.mergedOnto_none (desired : HardwareStatus) :
    desired.mergedOnto none = desired := by
  cases desired
  simp [mergedOnto]

/-- The merged status is the desired one exactly when nothing that was set is dropped, for a
status with conditions. -/
theorem BootHostStatus.mergedOnto_eq_iff (stored desired : BootHostStatus)
    (hconditions : desired.conditions ≠ []) :
    desired.mergedOnto (some stored) = desired ↔ stored.KeepsFields desired := by
  have heq : desired.mergedOnto (some stored) = desired ↔
      desired.phase.or stored.phase = desired.phase ∧
        desired.palletVersion.or stored.palletVersion = desired.palletVersion ∧
          desired.claimId.or stored.claimId = desired.claimId ∧
            (match desired.hardware with
              | some hw => some (hw.mergedOnto stored.hardware)
              | none => stored.hardware) = desired.hardware := by
    cases desired
    simp_all [mergedOnto]
  have hhardware : (match desired.hardware with
        | some hw => some (hw.mergedOnto stored.hardware)
        | none => stored.hardware) = desired.hardware ↔
      ∀ before, stored.hardware = some before →
        ∃ after, desired.hardware = some after ∧ before.KeepsFields after := by
    cases hdesired : desired.hardware with
    | none => cases stored.hardware <;> simp
    | some hw =>
      cases hstored : stored.hardware with
      | none => simp [HardwareStatus.mergedOnto_none]
      | some before => simp [HardwareStatus.mergedOnto_eq_iff]
  rw [heq, or_eq_self_iff, or_eq_self_iff, or_eq_self_iff, hhardware]
  exact ⟨fun h => ⟨h.1, h.2.1, h.2.2.1, h.2.2.2⟩,
    fun h => ⟨h.phase, h.palletVersion, h.claimId, h.hardware⟩⟩

/-- A status merged onto nothing is the desired one. -/
theorem BootHostStatus.mergedOnto_none (desired : BootHostStatus) :
    desired.mergedOnto none = desired := by
  cases desired with
  | mk phase palletVersion claimId hardware conditions =>
    cases hardware <;> simp [mergedOnto, HardwareStatus.mergedOnto_none]

/-- The writer always reports its three conditions. -/
theorem desiredStatus_conditions_ne_nil (observed : Option HostState) (online : Bool)
    (claimId : Option Text) (generation : Int64) (previous : Option BootHostStatus) (now : Text) :
    (desiredStatus observed online claimId generation previous now).conditions ≠ [] := by
  unfold desiredStatus proposedConditions
  cases observed with
  | none => cases online <;> simp
  | some state => cases hphase : state.phase <;> simp [hphase]

/-- A patch with a status the writer computes takes effect whole exactly when everything that
is set in the stored status is set in it. -/
theorem statusPatch_takesEffect_iff (metadata spec : Json) (stored : Option BootHostStatus)
    (observed : Option HostState) (online : Bool) (claimId : Option Text) (generation : Int64)
    (previous : Option BootHostStatus) (now : Text) :
    TakesEffect metadata spec stored
        (desiredStatus observed online claimId generation previous now) ↔
      ∀ status, stored = some status →
        status.KeepsFields (desiredStatus observed online claimId generation previous now) := by
  have hconditions := desiredStatus_conditions_ne_nil observed online claimId generation previous now
  rw [TakesEffect, heldStatus_mergePatch, Option.some.injEq, Option.some.injEq]
  cases stored with
  | none => simp [BootHostStatus.mergedOnto_none]
  | some status => simp [BootHostStatus.mergedOnto_eq_iff _ _ hconditions]

/-- A host that a boot server has seen run. -/
def runningHost : HostState where
  mac := .ofOctets 0xaa 0xbb 0xcc 0xdd 0xee 0x01
  phase := .running
  detail := none
  palletVersion := some "10.20".toList
  hardware := none
  firstSeenUnix := 1756000000
  updatedUnix := 1756000060

/-- The status it stored of it. When it is restarted, it has not seen the host. -/
def runningStatus : BootHostStatus :=
  desiredStatus (some runningHost) true none 1 none "2026-08-31T00:00:00Z".toList

/-- The patch of the restarted server leaves the phase it no longer reports. -/
theorem not_takesEffect_after_restart :
    ¬TakesEffect .null .null (some runningStatus)
      (desiredStatus none true none 1 (some runningStatus) "2026-09-01T00:00:00Z".toList) := by
  rw [TakesEffect, heldStatus_mergePatch, Option.some.injEq, Option.some.injEq]
  decide

end Stormnetboot.Server

import Stormnetboot.Server.Hosts
import Stormnetboot.Server.State

/-!
# The `BootHost` resource

The object as the cluster holds it, the host record it describes, and the status it should
have given what was observed of its machine.
-/

namespace Stormnetboot.Server

open Stormnetboot.Common

/-- What a machine should boot, and as whom. -/
structure BootHostSpec where
  bootMacAddress : Text
  hostname : Option Text
  role : Option Text
  stack : Option Text
  portal : Option Text
  extraCmdline : Option Text
  online : Bool
  deriving DecidableEq, Repr

/-- Hardware as the status spells it. -/
structure HardwareStatus where
  cpus : UInt32
  memoryKb : UInt64
  product : Option Text
  serial : Option Text
  disks : List Text
  deriving DecidableEq, Repr

/-- `HardwareStatus::from`. -/
def HardwareStatus.ofInventory (inv : Inventory) : HardwareStatus where
  cpus := inv.cpus
  memoryKb := inv.memoryKb
  product := inv.product
  serial := inv.serial
  disks := inv.disks

/-- A standard Kubernetes condition. -/
structure Condition where
  type_ : Text
  status : Text
  reason : Text
  message : Text
  lastTransitionTime : Text
  observedGeneration : Int64
  deriving DecidableEq, Repr

/-- The status of a `BootHost`. -/
structure BootHostStatus where
  phase : Option Text
  palletVersion : Option Text
  claimId : Option Text
  hardware : Option HardwareStatus
  conditions : List Condition
  deriving DecidableEq, Repr

/-- The metadata the boot server reads. -/
structure ObjectMeta where
  namespace_ : Option Text
  name : Option Text
  generation : Option Int64
  deriving DecidableEq, Repr

/-- A `BootHost` as the apiserver has it. -/
structure BootHost where
  metadata : ObjectMeta
  spec : BootHostSpec
  status : Option BootHostStatus
  deriving DecidableEq, Repr

namespace BootHost

/-- `object_ref`. -/
def objectRef (object : BootHost) : Option ObjectRef := do
  let namespace_ ← object.metadata.namespace_
  let name ← object.metadata.name
  some ⟨namespace_, name, object.metadata.generation.getD 0⟩

/-- The host record this object describes; none when its MAC will not parse, or when neither
the spec nor the metadata names it. -/
def toRecord (object : BootHost) : Option HostRecord :=
  match Mac.parse object.spec.bootMacAddress with
  | .error _ => none
  | .ok mac =>
    match object.spec.hostname.or object.metadata.name with
    | none => none
    | some name => some {
        mac := mac
        name := name
        role := object.spec.role
        stack := object.spec.stack
        portal := object.spec.portal
        extraCmdline := object.spec.extraCmdline
        online := object.spec.online
        object := object.objectRef }

end BootHost

/-- One condition before its transition time is resolved. -/
structure Proposed where
  type_ : Text
  status : Bool
  reason : Text
  message : Text

/-- The three conditions for an observation. -/
def proposedConditions (observed : Option HostState) (online : Bool) : List Proposed :=
  match observed with
  | some state =>
    match state.phase with
    | .failed =>
      let detail := state.detail.getD "boot failed".toList
      let reason := "BootFailed".toList
      [⟨"Available".toList, false, reason, detail⟩, ⟨"Progressing".toList, false, reason, detail⟩,
        ⟨"Degraded".toList, true, reason, detail⟩]
    | .local =>
      let reason := "BootedLocally".toList
      [⟨"Available".toList, true, reason, "assimilated; booting from local disk".toList⟩,
        ⟨"Progressing".toList, false, reason, "nothing left to do".toList⟩,
        ⟨"Degraded".toList, false, reason, []⟩]
    | phase =>
      let running := decide (phase = .running ∨ phase = .assimilating)
      let detail := state.detail.getD phase.slug
      [⟨"Available".toList, running, if running then "Running".toList else "Booting".toList, detail⟩,
        ⟨"Progressing".toList, true, "Booting".toList, detail⟩,
        ⟨"Degraded".toList, false, "Booting".toList, []⟩]
  | none =>
    let (reason, message) :=
      if online then
        ("NotSeen".toList, "the boot server has not been asked to boot this machine".toList)
      else
        ("Offline".toList,
          "spec.online is false; the boot server will refuse this machine".toList)
    [⟨"Available".toList, false, reason, message⟩, ⟨"Progressing".toList, false, reason, message⟩,
      ⟨"Degraded".toList, false, reason, []⟩]

/-- The wire spelling of a condition's status. -/
def conditionStatus (status : Bool) : Text :=
  if status then "True".toList else "False".toList

/-- Resolve the transition time: carried forward while the status has not moved. -/
def Proposed.resolve (previous : Option BootHostStatus) (generation : Int64) (now : Text)
    (p : Proposed) : Condition :=
  let status := conditionStatus p.status
  let carried := do
    let prev ← previous
    let c ← prev.conditions.find? fun c : Condition => c.type_ = p.type_
    if c.status = status then some c.lastTransitionTime else none
  { type_ := p.type_
    status := status
    reason := p.reason
    message := p.message
    lastTransitionTime := carried.getD now
    observedGeneration := generation }

/-- The status this host should have, given what we have observed. -/
def desiredStatus (observed : Option HostState) (online : Bool) (claimId : Option Text)
    (generation : Int64) (previous : Option BootHostStatus) (now : Text) : BootHostStatus where
  phase := observed.map fun state => state.phase.slug
  palletVersion := observed.bind HostState.palletVersion
  claimId := claimId
  hardware := (observed.bind HostState.hardware).map HardwareStatus.ofInventory
  conditions := (proposedConditions observed online).map (Proposed.resolve previous generation now)

/-- A condition of the desired status holds exactly when it is proposed to hold. -/
theorem desiredStatus_condition_iff (type_ : Text) (observed : Option HostState) (online : Bool)
    (claimId : Option Text) (generation : Int64) (previous : Option BootHostStatus) (now : Text) :
    (∃ c ∈ (desiredStatus observed online claimId generation previous now).conditions,
        c.type_ = type_ ∧ c.status = "True".toList) ↔
      ∃ p ∈ proposedConditions observed online, p.type_ = type_ ∧ p.status = true := by
  have hresolved : ∀ p : Proposed, (p.resolve previous generation now).type_ = p.type_ ∧
      (p.resolve previous generation now).status = conditionStatus p.status := fun p => ⟨rfl, rfl⟩
  unfold desiredStatus
  simp only [List.mem_map, exists_exists_and_eq_and, hresolved]
  refine exists_congr fun p => and_congr_right fun _ => and_congr_right fun _ => ?_
  cases p.status <;> decide

/-- Every observation proposes the same three conditions. -/
theorem types_proposedConditions (observed : Option HostState) (online : Bool) :
    (proposedConditions observed online).map Proposed.type_ =
      ["Available".toList, "Progressing".toList, "Degraded".toList] := by
  unfold proposedConditions
  cases observed with
  | none => cases online <;> rfl
  | some state => cases hphase : state.phase <;> simp [hphase]

/-- A resolved condition is found by its type. -/
theorem find?_resolved (previous : Option BootHostStatus) (generation : Int64) (now : Text)
    {proposed : List Proposed} (hnodup : (proposed.map Proposed.type_).Nodup) {p : Proposed}
    (hp : p ∈ proposed) :
    (proposed.map (Proposed.resolve previous generation now)).find? (fun c => c.type_ = p.type_) =
      some (p.resolve previous generation now) := by
  induction proposed with
  | nil => cases hp
  | cons first rest ih =>
    rw [List.map_cons, List.nodup_cons] at hnodup
    rw [List.map_cons, List.find?_cons]
    rcases List.mem_cons.mp hp with rfl | hrest
    · have hself : decide ((p.resolve previous generation now).type_ = p.type_) = true :=
        decide_eq_true rfl
      rw [hself]
    · have hother : decide ((first.resolve previous generation now).type_ = p.type_) = false :=
        decide_eq_false fun heq => hnodup.1 (List.mem_map.mpr ⟨p, hrest, heq.symm⟩)
      rw [hother]
      exact ih hnodup.2 hrest

/-- A condition resolved once is resolved to itself, at any later time. -/
theorem Proposed.resolve_again {previous status : Option BootHostStatus} (generation : Int64)
    (now later : Text) (p : Proposed)
    (h : (status.bind fun status => status.conditions.find? fun c => c.type_ = p.type_) =
      some (p.resolve previous generation now)) :
    p.resolve status generation later = p.resolve previous generation now := by
  obtain ⟨status, rfl, hfind⟩ := Option.bind_eq_some_iff.mp h
  have hcarried : (do
      let prev ← some status
      let c ← prev.conditions.find? fun c : Condition => c.type_ = p.type_
      if c.status = conditionStatus p.status then some c.lastTransitionTime else none) =
      some (p.resolve previous generation now).lastTransitionTime := by
    simp only [Option.bind_eq_bind, Option.bind_some, hfind]
    exact if_pos rfl
  have hresolve : p.resolve (some status) generation later =
      { p.resolve previous generation now with
        lastTransitionTime := ((do
          let prev ← some status
          let c ← prev.conditions.find? fun c : Condition => c.type_ = p.type_
          if c.status = conditionStatus p.status then some c.lastTransitionTime
          else none) : Option Text).getD later } := rfl
  rw [hresolve, hcarried]
  rfl

/-- A desired status is desired again, at any later time. -/
theorem desiredStatus_again (observed : Option HostState) (online : Bool) (claimId : Option Text)
    (generation : Int64) (previous : Option BootHostStatus) (now later : Text) :
    desiredStatus observed online claimId generation
        (some (desiredStatus observed online claimId generation previous now)) later =
      desiredStatus observed online claimId generation previous now := by
  have hnodup : ((proposedConditions observed online).map Proposed.type_).Nodup := by
    rw [types_proposedConditions]
    decide
  have hresolve : ∀ p ∈ proposedConditions observed online,
      p.resolve (some (desiredStatus observed online claimId generation previous now)) generation
          later = p.resolve previous generation now := by
    intro p hp
    have hfind := find?_resolved previous generation now hnodup hp
    refine Proposed.resolve_again generation now later p ?_
    exact hfind
  unfold desiredStatus
  exact congrArg (BootHostStatus.mk _ _ _ _) (List.map_congr_left hresolve)

/-- The status reports the host degraded. -/
def BootHostStatus.Degraded (status : BootHostStatus) : Prop :=
  ∃ c ∈ status.conditions, c.type_ = "Degraded".toList ∧ c.status = "True".toList

/-- The desired status reports a host degraded exactly when it is tracked as failed. -/
theorem desiredStatus_degraded_iff (observed : Option HostState) (online : Bool)
    (claimId : Option Text) (generation : Int64) (previous : Option BootHostStatus) (now : Text) :
    (desiredStatus observed online claimId generation previous now).Degraded ↔
      ∃ state, observed = some state ∧ state.phase = .failed := by
  unfold BootHostStatus.Degraded
  rw [desiredStatus_condition_iff]
  unfold proposedConditions
  cases observed with
  | none => cases online <;> simp
  | some state =>
    cases hphase : state.phase <;> simp [hphase]

/-- The status reports the host available. -/
def BootHostStatus.Available (status : BootHostStatus) : Prop :=
  ∃ c ∈ status.conditions, c.type_ = "Available".toList ∧ c.status = "True".toList

/-- The desired status reports a host available exactly when it is tracked in a phase that has
it up. -/
theorem desiredStatus_available_iff (observed : Option HostState) (online : Bool)
    (claimId : Option Text) (generation : Int64) (previous : Option BootHostStatus) (now : Text) :
    (desiredStatus observed online claimId generation previous now).Available ↔
      ∃ state, observed = some state ∧
        state.phase ∈ [Phase.running, Phase.assimilating, Phase.local] := by
  unfold BootHostStatus.Available
  rw [desiredStatus_condition_iff]
  unfold proposedConditions
  cases observed with
  | none => cases online <;> simp
  | some state =>
    cases hphase : state.phase <;> simp [hphase]

end Stormnetboot.Server

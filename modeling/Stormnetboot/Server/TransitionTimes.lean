import Stormnetboot.Common.Since
import Stormnetboot.Server.BootHost

/-!
# How long a condition has held

Each status pass resolves the three conditions anew from the status the previous pass left. Over
every run of passes there is one condition of each type, and its transition time is that of the
last pass at which its status changed; or the time it had at the start, or that of the first pass
if it was not there then.
-/

namespace Stormnetboot.Server

open Stormnetboot.Common

/-- What a status pass reads of a host, and when. -/
structure PassInput where
  observed : Option HostState
  online : Bool
  claimId : Option Text
  generation : Int64
  now : Text

/-- The status the pass leaves. -/
def PassInput.status (previous : Option BootHostStatus) (input : PassInput) : BootHostStatus :=
  desiredStatus input.observed input.online input.claimId input.generation previous input.now

/-- One pass: it is fed the status the previous one left. -/
def statusPass (previous : Option BootHostStatus) (input : PassInput) : Option BootHostStatus :=
  some (input.status previous)

/-- The condition of the type, if the status has one. -/
def conditionOf (type_ : Text) (status : Option BootHostStatus) : Option Condition :=
  status.bind fun status => status.conditions.find? fun c => c.type_ = type_

/-- Its status, with the transition time it carries. -/
def transitionOf (type_ : Text) (status : Option BootHostStatus) : Option (Text × Text) :=
  (conditionOf type_ status).map fun c => (c.status, c.lastTransitionTime)

/-- The types of the conditions. -/
def conditionTypes : List Text :=
  ["Available".toList, "Progressing".toList, "Degraded".toList]

/-- A pass leaves one condition of each type. -/
theorem types_status (previous : Option BootHostStatus) (input : PassInput) :
    (input.status previous).conditions.map Condition.type_ = conditionTypes := by
  have htypes := types_proposedConditions input.observed input.online
  rw [PassInput.status, desiredStatus, List.map_map]
  exact htypes

/-- The condition a pass leaves is the one it proposes, resolved. -/
theorem exists_conditionOf_status {type_ : Text} (htype : type_ ∈ conditionTypes)
    (previous : Option BootHostStatus) (input : PassInput) :
    ∃ p ∈ proposedConditions input.observed input.online, p.type_ = type_ ∧
      conditionOf type_ (statusPass previous input) =
        some (p.resolve previous input.generation input.now) := by
  have htypes := types_proposedConditions input.observed input.online
  have hnodup : ((proposedConditions input.observed input.online).map Proposed.type_).Nodup := by
    rw [htypes]
    decide
  rw [conditionTypes, ← htypes, List.mem_map] at htype
  obtain ⟨p, hp, rfl⟩ := htype
  exact ⟨p, hp, rfl, find?_resolved previous input.generation input.now hnodup hp⟩

/-- The transition time is carried from the condition of the type, if its status stays. -/
theorem Proposed.time_resolve (previous : Option BootHostStatus) (generation : Int64) (now : Text)
    (p : Proposed) :
    (p.resolve previous generation now).lastTransitionTime =
      ((conditionOf p.type_ previous).bind fun c =>
        if c.status = conditionStatus p.status then some c.lastTransitionTime else none).getD now := by
  cases previous <;> rfl

/-- Passes carry transition times forward while a condition's status stays, and set them
otherwise. -/
theorem stamps_transitionOf {type_ : Text} (htype : type_ ∈ conditionTypes) :
    Stamps statusPass (transitionOf type_) PassInput.now where
  shown := by
    intro previous input
    obtain ⟨p, -, -, hresolved⟩ := exists_conditionOf_status htype previous input
    rw [transitionOf, hresolved]
    rfl
  carried := by
    intro previous input old new hold hnew hsame
    obtain ⟨p, -, rfl, hresolved⟩ := exists_conditionOf_status htype previous input
    obtain ⟨c, hc, rfl⟩ := Option.map_eq_some_iff.mp hold
    rw [transitionOf, hresolved, Option.map_some, Option.some.injEq] at hnew
    subst hnew
    have hstatus : c.status = conditionStatus p.status := hsame
    rw [Proposed.time_resolve, hc, Option.bind_some, if_pos hstatus]
    rfl
  moved := by
    intro previous input new hnew hmoved
    obtain ⟨p, -, rfl, hresolved⟩ := exists_conditionOf_status htype previous input
    rw [transitionOf, hresolved, Option.map_some, Option.some.injEq] at hnew
    subst hnew
    rw [Proposed.time_resolve]
    cases hc : conditionOf p.type_ previous with
    | none => rfl
    | some c =>
      have hstatus : c.status ≠ conditionStatus p.status :=
        hmoved (c.status, c.lastTransitionTime) (by rw [transitionOf, hc]; rfl)
      rw [Option.bind_some, if_neg hstatus]
      rfl

/-- A status with one condition of each type has exactly one of a given type. -/
theorem exists_filter_eq_singleton {type_ : Text} (htype : type_ ∈ conditionTypes)
    {status : BootHostStatus} (htypes : status.conditions.map Condition.type_ = conditionTypes) :
    ∃ c, status.conditions.filter (fun c => c.type_ = type_) = [c] ∧
      conditionOf type_ (some status) = some c := by
  have honce : (status.conditions.filter fun c => c.type_ = type_).length = 1 := by
    have hcount : conditionTypes.count type_ = 1 :=
      List.count_eq_one_of_mem (by decide) htype
    rw [← hcount, ← htypes, List.count, List.countP_map, List.countP_eq_length_filter]
    refine congrArg List.length (List.filter_congr fun c _ => ?_)
    rw [Function.comp_apply, Bool.eq_iff_iff, decide_eq_true_eq, beq_iff_eq]
  obtain ⟨c, hc⟩ := List.length_eq_one_iff.mp honce
  refine ⟨c, hc, ?_⟩
  rw [conditionOf, Option.bind_some, ← List.head?_filter, hc]
  rfl

/-- After every run of at least one pass there is one condition of each type, and its transition
time is that since which its status holds. -/
theorem transitionTimes (initial : Option BootHostStatus) (passes : List PassInput)
    (last : PassInput) :
    ∃ status, (passes ++ [last]).foldl statusPass initial = some status ∧
      status.conditions.map Condition.type_ = conditionTypes ∧
      ∀ type_ ∈ conditionTypes, ∃ c, status.conditions.filter (fun c => c.type_ = type_) = [c] ∧
        HeldSince statusPass (transitionOf type_) PassInput.now initial (passes ++ [last])
          c.lastTransitionTime := by
  have hlast : (passes ++ [last]).foldl statusPass initial =
      some (last.status (passes.foldl statusPass initial)) := by
    rw [List.foldl_append]
    rfl
  have htypes := types_status (passes.foldl statusPass initial) last
  refine ⟨_, hlast, htypes, fun type_ htype => ?_⟩
  obtain ⟨c, hfilter, hcondition⟩ := exists_filter_eq_singleton htype htypes
  refine ⟨c, hfilter, ?_⟩
  have hread : transitionOf type_ ((passes ++ [last]).foldl statusPass initial) =
      some (c.status, c.lastTransitionTime) := by
    rw [hlast, transitionOf, hcondition]
    rfl
  exact (stamps_transitionOf htype).heldSince initial passes last hread

end Stormnetboot.Server

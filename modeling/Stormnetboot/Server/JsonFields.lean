import Stormnetboot.Common.JsonReader
import Stormnetboot.Server.StatusPatch

/-!
# Fields as a JSON library reads them

What is read into a structure names no field twice, may leave out a field that has a default, and
holds lists of values that are read in turn. What was written from fields is read like that.
-/

namespace Stormnetboot.Server

open Stormnetboot.Common

/-- A boolean. -/
def readBool : Json → Option Bool
  | .bool b => some b
  | _ => none

/-- A list that has to be there. -/
def readItems {α : Type} (read : Json → Option α) : Json → Option (List α)
  | .arr items => items.mapM read
  | _ => none

/-- A member that has a default. -/
def readDefault {α : Type} (read : Json → Option α) (default : α) : Option Json → Option α
  | none => some default
  | some value => read value

/-- No field is there twice. What is not a field may be. -/
def namesOnce (fields : List String) (members : List (Text × Json)) : Bool :=
  fields.all fun field => (members.map Prod.fst).count field.toList ≤ 1

/-- Fields that are told apart are members that are. -/
theorem namesOnce_ofFields {fields : List (String × Option Json)}
    (hnodup : (fields.map Prod.fst).Nodup) (names : List String) :
    namesOnce names (Json.ofFields fields).members = true :=
  List.all_eq_true.mpr fun _ _ =>
    decide_eq_true (List.nodup_iff_count_le_one.mp (Json.nodup_ofFields fields hnodup) _)

/-- Items are read back if each of them is. -/
theorem readItems_map {α : Type} {encode : α → Json} {read : Json → Option α}
    (h : ∀ x, read (encode x) = some x) (xs : List α) :
    readItems read (.arr (xs.map encode)) = some xs := by
  rw [readItems]
  induction xs with
  | nil => rfl
  | cons x rest ih => simp [List.mapM_cons, h, ih]

/-- So is a list that may be absent. -/
theorem readList_map {α : Type} {encode : α → Json} {read : Json → Option α}
    (h : ∀ x, read (encode x) = some x) (xs : List α) :
    readList read (some (.arr (xs.map encode))) = some xs :=
  readItems_map h xs

/-- A list is one level deeper than what is in it. -/
theorem within_map {α : Type} {encode : α → Json} {n : ℕ} (h : ∀ x, Json.Within n (encode x))
    (xs : List α) : Json.Within (n + 1) (.arr (xs.map encode)) := by
  refine .arr fun item hitem => ?_
  obtain ⟨x, -, rfl⟩ := List.mem_map.mp hitem
  exact h x

/-- An optional text is not deep. -/
theorem within_map_str {n : ℕ} {text : Option Text} {value : Json}
    (h : text.map Json.str = some value) : Json.Within n value := by
  obtain ⟨s, -, rfl⟩ := Option.map_eq_some_iff.mp h
  exact .str n s

end Stormnetboot.Server

import Stormnetboot.Common.Text
import Mathlib.Data.List.Nodup
import Mathlib.Tactic.SplitIfs

/-!
# JSON values and merge patches

An object is a list of members, of which the first with a name counts. A merge patch is an
object too: a member with a value is merged into the target's, a null member removes it, and
what the patch does not name stays. That last rule is what a reader of a patched object has
to know, so it is stated for one name at a time.
-/

namespace Stormnetboot.Common

/-- A JSON value whose numbers are integers. -/
inductive Json where
  | null
  | bool (b : Bool)
  | num (n : ℤ)
  | str (s : Text)
  | arr (items : List Json)
  | obj (members : List (Text × Json))

namespace Json

/-- The members of an object; any other value has none. -/
def members : Json → List (Text × Json)
  | .obj members => members
  | _ => []

/-- The value of a member. -/
def get (name : String) (value : Json) : Option Json :=
  value.members.lookup name.toList

/-- Replace the value of a member, or append it. -/
def setMember (name : Text) (value : Json) : List (Text × Json) → List (Text × Json)
  | [] => [(name, value)]
  | m :: rest => if m.1 = name then (name, value) :: rest else m :: setMember name value rest

mutual

/-- The merge patch of RFC 7386. -/
def mergePatch (target : Json) : Json → Json
  | .obj members => .obj (mergeMembers target.members members)
  | .null => .null
  | .bool b => .bool b
  | .num n => .num n
  | .str s => .str s
  | .arr items => .arr items
termination_by structural x => x

/-- Each member of the patch in turn. -/
def mergeMembers (target : List (Text × Json)) : List (Text × Json) → List (Text × Json)
  | [] => target
  | m :: rest => mergeMembers (mergeMember target m) rest
termination_by structural x => x

/-- A null member removes, any other is merged into what the target has. -/
def mergeMember (target : List (Text × Json)) : Text × Json → List (Text × Json)
  | (name, value) =>
    match value with
    | .null => target.filter fun m => m.1 ≠ name
    | value => setMember name (mergePatch ((target.lookup name).getD .null) value) target
termination_by structural x => x

end

/-- The first member has another name. -/
theorem lookup_cons_of_ne {K V : Type} [BEq K] [LawfulBEq K] {name key : K} (value : V)
    (rest : List (K × V)) (h : name ≠ key) :
    ((key, value) :: rest).lookup name = rest.lookup name := by
  rw [List.lookup_cons, beq_false_of_ne h]

/-- No member has the name. -/
theorem lookup_eq_none_of_notMem {K V : Type} [BEq K] [LawfulBEq K] {name : K} {members : List (K × V)}
    (h : name ∉ members.map Prod.fst) :
    members.lookup name = none := by
  rw [List.lookup_eq_none_iff]
  intro m hm
  have hne : name ≠ m.1 := fun heq => h (heq ▸ List.mem_map_of_mem hm)
  simpa using hne

/-- Setting a member changes that member only. -/
theorem lookup_setMember (name name' : Text) (value : Json) (members : List (Text × Json)) :
    (setMember name value members).lookup name' =
      if name' = name then some value else members.lookup name' := by
  induction members with
  | nil =>
    unfold setMember
    by_cases h : name' = name
    · rw [if_pos h, h, List.lookup_cons_self]
    · rw [if_neg h, lookup_cons_of_ne _ _ h]
  | cons m rest ih =>
    obtain ⟨key, v⟩ := m
    unfold setMember
    simp only
    by_cases hkey : key = name
    · subst hkey
      rw [if_pos rfl]
      by_cases h : name' = key
      · rw [if_pos h, h, List.lookup_cons_self]
      · rw [if_neg h, lookup_cons_of_ne _ _ h, lookup_cons_of_ne _ _ h]
    · rw [if_neg hkey]
      by_cases h : name' = key
      · subst h
        rw [if_neg hkey, List.lookup_cons_self, List.lookup_cons_self]
      · rw [lookup_cons_of_ne _ _ h, lookup_cons_of_ne _ _ h, ih]

/-- Removing a member changes that member only. -/
theorem lookup_filter_ne (name name' : Text) (members : List (Text × Json)) :
    (members.filter fun m => m.1 ≠ name).lookup name' =
      if name' = name then none else members.lookup name' := by
  induction members with
  | nil => simp
  | cons m rest ih =>
    obtain ⟨key, v⟩ := m
    by_cases hkey : key = name
    · subst hkey
      rw [List.filter_cons_of_neg (by simp), ih]
      split_ifs with h
      · rfl
      · rw [lookup_cons_of_ne _ _ h]
    · rw [List.filter_cons_of_pos (by simpa using hkey)]
      by_cases h : name' = key
      · subst h
        rw [if_neg hkey, List.lookup_cons_self, List.lookup_cons_self]
      · rw [lookup_cons_of_ne _ _ h, lookup_cons_of_ne _ _ h, ih]

/-- What a patch makes of one member, by what it and the target say of it. -/
def mergeValue (target : Option Json) : Option Json → Option Json
  | none => target
  | some .null => none
  | some value => some (mergePatch (target.getD .null) value)

/-- Merging one member changes that member only. -/
theorem lookup_mergeMember (target : List (Text × Json)) (name name' : Text) (value : Json) :
    (mergeMember target (name, value)).lookup name' =
      if name' = name then mergeValue (target.lookup name) (some value)
      else target.lookup name' := by
  cases value with
  | null => exact lookup_filter_ne name name' target
  | bool b => exact lookup_setMember name name' _ target
  | num n => exact lookup_setMember name name' _ target
  | str s => exact lookup_setMember name name' _ target
  | arr items => exact lookup_setMember name name' _ target
  | obj members => exact lookup_setMember name name' _ target

/-- A patch that names no member twice makes of each what it says of it. -/
theorem lookup_mergeMembers (target patch : List (Text × Json)) (name : Text)
    (hnodup : (patch.map Prod.fst).Nodup) :
    (mergeMembers target patch).lookup name =
      mergeValue (target.lookup name) (patch.lookup name) := by
  induction patch generalizing target with
  | nil => rfl
  | cons m rest ih =>
    obtain ⟨key, value⟩ := m
    rw [List.map_cons, List.nodup_cons] at hnodup
    have hmerge : mergeMembers target ((key, value) :: rest) =
        mergeMembers (mergeMember target (key, value)) rest := rfl
    rw [hmerge, ih _ hnodup.2, lookup_mergeMember]
    by_cases h : name = key
    · subst h
      rw [lookup_eq_none_of_notMem hnodup.1, if_pos rfl, List.lookup_cons_self]
      rfl
    · rw [if_neg h, lookup_cons_of_ne _ _ h]

/-! ## Objects of optional members -/

/-- An object of the members that have a value. -/
def ofFields (fields : List (String × Option Json)) : Json :=
  .obj (fields.filterMap fun f => f.2.map fun value => (f.1.toList, value))

/-- Every name among the members is the name of a field. -/
theorem mem_of_mem_ofFields (fields : List (String × Option Json)) (name : String)
    (h : name.toList ∈ (ofFields fields).members.map Prod.fst) : name ∈ fields.map Prod.fst := by
  simp only [ofFields, members, List.map_filterMap, List.mem_filterMap, Option.map_map,
    Option.map_eq_some_iff] at h
  obtain ⟨f, hf, _, _, hname⟩ := h
  rw [← String.toList_inj.mp hname]
  exact List.mem_map_of_mem hf

/-- An object of optional members names none twice if its fields do not. -/
theorem nodup_ofFields (fields : List (String × Option Json))
    (hnodup : (fields.map Prod.fst).Nodup) :
    ((ofFields fields).members.map Prod.fst).Nodup := by
  induction fields with
  | nil => exact List.nodup_nil
  | cons f rest ih =>
    obtain ⟨key, value⟩ := f
    rw [List.map_cons, List.nodup_cons] at hnodup
    cases value with
    | none => exact ih hnodup.2
    | some value =>
      have hmembers : (ofFields ((key, some value) :: rest)).members =
          (key.toList, value) :: (ofFields rest).members := rfl
      rw [hmembers, List.map_cons, List.nodup_cons]
      exact ⟨fun hmem => hnodup.1 (mem_of_mem_ofFields rest key hmem), ih hnodup.2⟩

/-- The value of a member of an object of optional members. -/
theorem get_ofFields (fields : List (String × Option Json))
    (hnodup : (fields.map Prod.fst).Nodup) (name : String) :
    (ofFields fields).get name = (fields.lookup name).join := by
  unfold get
  induction fields with
  | nil => rfl
  | cons f rest ih =>
    obtain ⟨key, value⟩ := f
    rw [List.map_cons, List.nodup_cons] at hnodup
    have hrest := ih hnodup.2
    cases value with
    | none =>
      have hmembers : (ofFields ((key, none) :: rest)).members = (ofFields rest).members := rfl
      rw [hmembers, hrest]
      by_cases h : name = key
      · rw [h, List.lookup_cons_self, lookup_eq_none_of_notMem hnodup.1]
        rfl
      · rw [lookup_cons_of_ne _ _ h]
    | some value =>
      have hmembers : (ofFields ((key, some value) :: rest)).members =
          (key.toList, value) :: (ofFields rest).members := rfl
      rw [hmembers]
      by_cases h : name = key
      · rw [h, List.lookup_cons_self, List.lookup_cons_self]
        rfl
      · rw [lookup_cons_of_ne _ _ h,
          lookup_cons_of_ne _ _ fun heq => h (String.toList_inj.mp heq), hrest]

/-- A patch of optional members makes of each what its field says of it. -/
theorem get_mergePatch_ofFields (target : Json) (fields : List (String × Option Json))
    (hnodup : (fields.map Prod.fst).Nodup) (name : String) :
    (mergePatch target (ofFields fields)).get name =
      mergeValue (target.get name) (fields.lookup name).join := by
  have hmerge : mergePatch target (ofFields fields) =
      .obj (mergeMembers target.members (ofFields fields).members) := rfl
  rw [← get_ofFields fields hnodup, get, hmerge]
  exact lookup_mergeMembers _ _ _ (nodup_ofFields fields hnodup)

end Json

end Stormnetboot.Common

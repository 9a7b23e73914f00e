import Stormnetboot.Init.ExportLayout

/-!
# The names of the exported volumes

An entry of a volume list that has only one side of its colon keeps its name and loses its mount
point. For an entry that starts with the colon there is no name to keep: among the mounts it is
dropped, among the writables it is exported without a name.
-/

namespace Stormnetboot.Init

open Stormnetboot.Common

/-- The volumes handed to the engine have names, and the planned mounts have mount points. -/
def NamesEveryExport (p : BootParams) : Prop :=
  (∀ slabs, ∀ name ∈ flagValues "--writable".toList ((engineArgs p slabs p.exportPlan).drop 2),
    name ≠ []) ∧
  (∀ e ∈ p.exportPlan.fstabWritable, e.2 ≠ []) ∧ ∀ e ∈ p.exportPlan.mountMap, e.2 ≠ []

/-! ## One entry -/

/-- An entry's name is what stands before its first colon. -/
theorem parseNamedMount_name (entry : Text) :
    (parseNamedMount entry).1 = entry.takeWhile (· ≠ ':') := by
  have hwhole : entry.takeWhile (· ≠ ':') ++ entry.dropWhile (· ≠ ':') = entry :=
    List.takeWhile_append_dropWhile
  unfold parseNamedMount splitOnce
  cases hdrop : entry.dropWhile (· ≠ ':') with
  | nil =>
    rw [hdrop, List.append_nil] at hwhole
    exact hwhole.symm
  | cons c rest =>
    simp only
    split_ifs <;> rfl

/-- An entry that is not empty has no name exactly when it starts with the colon. -/
theorem parseNamedMount_name_eq_nil_iff {entry : Text} (hne : entry ≠ []) :
    (parseNamedMount entry).1 = [] ↔ entry.head? = some ':' := by
  obtain ⟨c, rest, rfl⟩ := List.exists_cons_of_ne_nil hne
  rw [parseNamedMount_name]
  by_cases hc : c = ':'
  · subst hc
    exact ⟨fun _ => rfl, fun _ => rfl⟩
  · rw [List.takeWhile_cons_of_pos (by simpa using hc)]
    exact ⟨fun h => absurd h (List.cons_ne_nil _ _), fun h => absurd (Option.some.inj h) hc⟩

/-- An entry that has a mount point has a name too, and neither is empty. -/
theorem parseNamedMount_mount {entry mnt : Text} (h : (parseNamedMount entry).2 = some mnt) :
    (parseNamedMount entry).1 ≠ [] ∧ mnt ≠ [] := by
  unfold parseNamedMount at h ⊢
  cases hsplit : splitOnce ':' entry with
  | none =>
    rw [hsplit] at h
    cases h
  | some pair =>
    obtain ⟨name, found⟩ := pair
    rw [hsplit] at h
    simp only at h ⊢
    split_ifs at h ⊢ with hsides
    cases h
    simpa using hsides

/-! ## The lists -/

/-- The mounts are entries that have a mount point. -/
theorem exists_of_mem_mounts (cmdline name mnt : Text)
    (h : (name, mnt) ∈ (BootParams.parse cmdline).mounts) :
    ∃ entry, parseNamedMount entry = (name, some mnt) := by
  rw [parse_mounts] at h
  obtain ⟨⟨name', mnt'⟩, hmem, hmount⟩ := List.mem_filterMap.mp h
  obtain ⟨mnt'', rfl, hpair⟩ := Option.map_eq_some_iff.mp hmount
  obtain ⟨entry, -, hentry⟩ := List.mem_map.mp hmem
  cases hpair
  exact ⟨entry, hentry⟩

/-- The mount points of the plan are never empty. -/
theorem exportPlan_mount_ne_nil (cmdline : Text) :
    (∀ e ∈ (BootParams.parse cmdline).exportPlan.fstabWritable, e.2 ≠ []) ∧
      ∀ e ∈ (BootParams.parse cmdline).exportPlan.mountMap, e.2 ≠ [] := by
  constructor
  · rintro ⟨device, mnt⟩ he
    obtain ⟨k, name, hk, -⟩ := exists_of_mem_fstabWritable _ device mnt he
    have hmem := List.mem_of_getElem? hk
    rw [parse_writable] at hmem
    obtain ⟨entry, -, hentry⟩ := List.mem_map.mp hmem
    exact (parseNamedMount_mount (congrArg Prod.snd hentry)).2
  · rintro ⟨device, mnt⟩ he
    obtain ⟨j, name, hj, -⟩ := exists_of_mem_mountMap _ device mnt he
    obtain ⟨entry, hentry⟩ := exists_of_mem_mounts cmdline name mnt (List.mem_of_getElem? hj)
    exact (parseNamedMount_mount (congrArg Prod.snd hentry)).2

/-- Every export of a command line has a name exactly when no entry of the list of writables that
counts starts with the colon. -/
theorem namesEveryExport_iff (cmdline : Text) :
    NamesEveryExport (BootParams.parse cmdline) ↔
      ∀ entry ∈ writableEntries cmdline, entry.head? ≠ some ':' := by
  constructor
  · rintro ⟨hnames, -⟩ entry hentry hcolon
    have hne : entry ≠ [] := by
      rintro rfl
      cases hcolon
    refine hnames [] (parseNamedMount entry).1 ?_ ((parseNamedMount_name_eq_nil_iff hne).mpr hcolon)
    rw [writables_engineArgs, (laidOut_exportPlan _).writableArgs, parse_writable]
    refine List.mem_append_left _ (List.mem_map.mpr ⟨parseNamedMount entry, ?_, rfl⟩)
    exact List.mem_map.mpr ⟨entry, List.mem_filter.mpr ⟨hentry, by simpa using hne⟩, rfl⟩
  · intro hentries
    refine ⟨fun slabs name hname => ?_, exportPlan_mount_ne_nil cmdline⟩
    rw [writables_engineArgs, (laidOut_exportPlan _).writableArgs, parse_writable] at hname
    rcases List.mem_append.mp hname with hwritable | hmount
    · obtain ⟨parsed, hparsed, rfl⟩ := List.mem_map.mp hwritable
      obtain ⟨entry, hentry, rfl⟩ := List.mem_map.mp hparsed
      obtain ⟨hmem, hne⟩ := List.mem_filter.mp hentry
      exact fun hnil => hentries entry hmem
        ((parseNamedMount_name_eq_nil_iff (by simpa using hne)).mp hnil)
    · obtain ⟨⟨found, mnt⟩, hmem, rfl⟩ := List.mem_map.mp hmount
      obtain ⟨entry, hentry⟩ := exists_of_mem_mounts cmdline found mnt hmem
      have hname := (parseNamedMount_mount (congrArg Prod.snd hentry)).1
      rwa [hentry] at hname

/-- A writable entry without a name is exported without one. -/
theorem not_namesEveryExport_colon :
    ¬ NamesEveryExport (BootParams.parse "rd.stormblock.writable=:/var".toList) := by
  rintro ⟨hnames, -⟩
  exact hnames [] [] (by decide) rfl

end Stormnetboot.Init

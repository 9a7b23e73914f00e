import Mathlib.Data.List.Nodup
import Stormnetboot.Init.NetworkFallback
import Stormnetboot.Init.Settings

/-!
# Where the exported volumes land

The plan numbers the volumes before the engine has exported any of them: first the writables,
then the mounts, from one counter that a bare writable moves on too. The engine numbers what its
flags name, in their order. Both counts start behind the root and the image store and go through
the same names, so that each volume is on the device that is mounted for it.
-/

namespace Stormnetboot.Init

open Stormnetboot.Common

/-- The index of the first volume, behind the root and the image store if there is one. -/
def BootParams.firstExport (p : BootParams) : ℕ :=
  if p.imageStore.isSome then 2 else 1

/-- The devices of a plan. -/
def ExportPlan.devices (plan : ExportPlan) : List Text :=
  plan.imageStore.toList.map Prod.fst ++ plan.fstabWritable.map Prod.fst ++
    plan.mountMap.map Prod.fst

/-- What an engine exports behind the root and the image store, by device and name: the volumes
that its flags name, in their order. -/
def engineExports (argv : List Text) : List (Text × Text) :=
  let args := argv.drop 2
  ((flagValues "--writable".toList args).zipIdx
    (1 + (flagValues "--image-store".toList args).length)).map fun e => (ublkDevice e.2, e.1)

/-- The plan has every volume, in order and at the index of its position, and nothing else. -/
structure LaidOut (p : BootParams) (plan : ExportPlan) : Prop where
  writableArgs : plan.writableArgs = p.writable.map Prod.fst ++ p.mounts.map Prod.fst
  imageStore : plan.imageStore = p.imageStore.map fun _ => (ublkDevice 1, imageStoreMount)
  fstabWritable : plan.fstabWritable = (p.writable.zipIdx p.firstExport).filterMap fun e =>
    e.1.2.map fun mnt => (ublkDevice e.2, mnt)
  mountMap : plan.mountMap = (p.mounts.zipIdx (p.firstExport + p.writable.length)).map fun e =>
    (ublkDevice e.2, e.1.2)
  devices : (rootDev :: plan.devices).Nodup

/-- An operation that mounts a volume or writes it to the fstab does so with the device on which
the volume is exported. The image store has the device that the engine gives it. -/
def Places (p : BootParams) (exports : List (Text × Text)) : SysOp → Prop
  | .command argv _ => ∃ (j : ℕ) (device name mnt : Text), p.mounts[j]? = some (name, mnt) ∧
      exports[p.writable.length + j]? = some (device, name) ∧
        argv = ["/bin/mount".toList, device, sysroot ++ mnt]
  | .appendLine _ line =>
    (∃ (k : ℕ) (device name mnt : Text), p.writable[k]? = some (name, some mnt) ∧
      exports[k]? = some (device, name) ∧
        line = device ++ " ".toList ++ mnt ++
          " xfs defaults,x-systemd.makefs,x-systemd.growfs,nofail 0 0".toList) ∨
    p.imageStore.isSome ∧
      line = ublkDevice 1 ++ " ".toList ++ imageStoreMount ++ " erofs ro,nofail 0 0".toList
  | _ => True

/-! ## The plan -/

/-- Different indices are different devices. -/
theorem ublkDevice_inj {i j : ℕ} (h : ublkDevice i = ublkDevice j) : i = j :=
  natText_inj (List.append_cancel_left h)

/-- Going through the writables adds each at the count it has come to. -/
theorem foldl_addWritable (entries : List (Text × Option Text)) (plan : ExportPlan) (idx : ℕ) :
    entries.foldl ExportPlan.addWritable (plan, idx) =
      ({ plan with
          writableArgs := plan.writableArgs ++ entries.map Prod.fst
          fstabWritable := plan.fstabWritable ++ (entries.zipIdx idx).filterMap fun e =>
            e.1.2.map fun mnt => (ublkDevice e.2, mnt) },
        idx + entries.length) := by
  induction entries generalizing plan idx with
  | nil => simp
  | cons entry rest ih =>
    rw [List.foldl_cons, ExportPlan.addWritable, ih]
    obtain ⟨name, mnt⟩ := entry
    have hcount : idx + 1 + rest.length = idx + (rest.length + 1) := by omega
    cases mnt <;> simp [List.append_assoc, hcount]

/-- Going through the mounts does too. -/
theorem foldl_addMount (entries : List (Text × Text)) (plan : ExportPlan) (idx : ℕ) :
    entries.foldl ExportPlan.addMount (plan, idx) =
      ({ plan with
          writableArgs := plan.writableArgs ++ entries.map Prod.fst
          mountMap := plan.mountMap ++ (entries.zipIdx idx).map fun e =>
            (ublkDevice e.2, e.1.2) },
        idx + entries.length) := by
  induction entries generalizing plan idx with
  | nil => simp
  | cons entry rest ih =>
    rw [List.foldl_cons, ExportPlan.addMount, ih]
    have hcount : idx + 1 + rest.length = idx + (rest.length + 1) := by omega
    simp [List.append_assoc, hcount]

/-- The plan, list by list. -/
theorem exportPlan_eq (p : BootParams) :
    p.exportPlan = {
      writableArgs := p.writable.map Prod.fst ++ p.mounts.map Prod.fst
      imageStore := p.imageStore.map fun _ => (ublkDevice 1, imageStoreMount)
      fstabWritable := (p.writable.zipIdx p.firstExport).filterMap fun e =>
        e.1.2.map fun mnt => (ublkDevice e.2, mnt)
      mountMap := (p.mounts.zipIdx (p.firstExport + p.writable.length)).map fun e =>
        (ublkDevice e.2, e.1.2) } := by
  unfold BootParams.exportPlan BootParams.firstExport
  cases p.imageStore with
  | none =>
    simp only [foldl_addWritable, foldl_addMount]
    rfl
  | some store =>
    simp only [foldl_addWritable, foldl_addMount]
    rfl

/-- The devices of the writables that have a mount point are among those of all of them. -/
theorem fstabWritable_devices_sublist (entries : List (Text × Option Text)) (idx : ℕ) :
    (((entries.zipIdx idx).filterMap fun e =>
      e.1.2.map fun mnt => (ublkDevice e.2, mnt)).map Prod.fst).Sublist
        ((List.range' idx entries.length).map ublkDevice) := by
  induction entries generalizing idx with
  | nil => exact List.Sublist.slnil
  | cons entry rest ih =>
    obtain ⟨name, mnt⟩ := entry
    rw [List.zipIdx_cons, List.length_cons, List.range'_succ, List.map_cons]
    cases mnt with
    | none => exact (ih (idx + 1)).cons _
    | some mnt => exact (ih (idx + 1)).cons_cons _

/-- The mounts have the devices of a run of indices. -/
theorem mountMap_devices (entries : List (Text × Text)) (idx : ℕ) :
    ((entries.zipIdx idx).map fun e => (ublkDevice e.2, e.1.2)).map Prod.fst =
      (List.range' idx entries.length).map ublkDevice := by
  rw [List.map_map, ← List.zipIdx_map_snd idx entries, List.map_map]
  rfl

/-- The root, the image store and the volumes take their devices from one count. -/
theorem devices_sublist (p : BootParams) :
    (rootDev :: p.exportPlan.devices).Sublist ((List.range' 0
      (p.firstExport + p.writable.length + p.mounts.length)).map ublkDevice) := by
  have hfirst : (rootDev :: (p.imageStore.map fun _ =>
      (ublkDevice 1, imageStoreMount)).toList.map Prod.fst) =
        (List.range' 0 p.firstExport).map ublkDevice := by
    unfold BootParams.firstExport
    cases p.imageStore <;> rfl
  rw [← List.range'_append_1, ← List.range'_append_1, List.map_append, List.map_append, ← hfirst,
    Nat.zero_add, Nat.zero_add, exportPlan_eq]
  unfold ExportPlan.devices
  rw [mountMap_devices, ← List.cons_append, ← List.cons_append]
  exact ((List.Sublist.refl _).append (fstabWritable_devices_sublist _ _)).append
    (List.Sublist.refl _)

/-- The plan lays out the volumes. -/
theorem laidOut_exportPlan (p : BootParams) : LaidOut p p.exportPlan where
  writableArgs := by rw [exportPlan_eq]
  imageStore := by rw [exportPlan_eq]
  fstabWritable := by rw [exportPlan_eq]
  mountMap := by rw [exportPlan_eq]
  devices := by
    refine (devices_sublist p).nodup (List.Nodup.map ?_ List.nodup_range')
    exact fun _ _ h => ublkDevice_inj h

/-- The count of the exports stays below twice the length of the command line, far from the end of
the 32 bits it is kept in. -/
theorem exports_length_le (cmdline : Text) :
    (BootParams.parse cmdline).firstExport + (BootParams.parse cmdline).writable.length +
      (BootParams.parse cmdline).mounts.length ≤ 2 * cmdline.length + 4 := by
  have hfirst : (BootParams.parse cmdline).firstExport ≤ 2 := by
    unfold BootParams.firstExport
    split_ifs <;> omega
  have hwritable : (BootParams.parse cmdline).writable.length ≤ cmdline.length + 1 := by
    rw [parse_writable, List.length_map]
    exact (List.length_filter_le _ _).trans (length_listEntries_le _ _)
  have hmounts : (BootParams.parse cmdline).mounts.length ≤ cmdline.length + 1 := by
    rw [parse_mounts]
    refine (List.length_filterMap_le _ _).trans ?_
    rw [List.length_map]
    exact (List.length_filter_le _ _).trans (length_listEntries_le _ _)
  omega

/-! ## The engine -/

/-- The engine's command line names exactly the volumes of the plan. -/
theorem writables_engineArgs (params : BootParams) (slabs : List Text) (plan : ExportPlan) :
    flagValues "--writable".toList ((engineArgs params slabs plan).drop 2) = plan.writableArgs := by
  rw [flagValues_engineArgs, if_neg (by decide), if_neg (by decide), if_neg (by decide),
    if_neg (by decide), if_neg (by decide), if_pos rfl]
  rfl

/-- And the image store, if there is one. -/
theorem imageStore_engineArgs (params : BootParams) (slabs : List Text) (plan : ExportPlan) :
    flagValues "--image-store".toList ((engineArgs params slabs plan).drop 2) =
      params.imageStore.toList := by
  rw [flagValues_engineArgs, if_neg (by decide), if_neg (by decide), if_pos rfl,
    if_neg (by decide), if_neg (by decide), if_neg (by decide)]
  exact List.append_nil _

/-- The engine counts the plan's volumes from the same start. -/
theorem engineExports_engineArgs (p : BootParams) (slabs : List Text) :
    engineExports (engineArgs p slabs p.exportPlan) =
      (p.exportPlan.writableArgs.zipIdx p.firstExport).map fun e => (ublkDevice e.2, e.1) := by
  have hfirst : 1 + p.imageStore.toList.length = p.firstExport := by
    unfold BootParams.firstExport
    cases p.imageStore <;> rfl
  unfold engineExports
  simp only [writables_engineArgs, imageStore_engineArgs, hfirst]

/-- The engine exports the writable at a position on the device of that position. -/
theorem engineExports_writable (p : BootParams) (slabs : List Text) (k : ℕ) (name : Text)
    (mnt : Option Text) (h : p.writable[k]? = some (name, mnt)) :
    (engineExports (engineArgs p slabs p.exportPlan))[k]? =
      some (ublkDevice (p.firstExport + k), name) := by
  obtain ⟨hk, -⟩ := List.getElem?_eq_some_iff.mp h
  rw [engineExports_engineArgs, exportPlan_eq, List.getElem?_map, List.getElem?_zipIdx,
    List.getElem?_append_left (by rwa [List.length_map]), List.getElem?_map, h]
  rfl

/-- And a mount behind all the writables, bare ones included. -/
theorem engineExports_mount (p : BootParams) (slabs : List Text) (j : ℕ) (name mnt : Text)
    (h : p.mounts[j]? = some (name, mnt)) :
    (engineExports (engineArgs p slabs p.exportPlan))[p.writable.length + j]? =
      some (ublkDevice (p.firstExport + p.writable.length + j), name) := by
  rw [engineExports_engineArgs, exportPlan_eq, List.getElem?_map, List.getElem?_zipIdx,
    List.getElem?_append_right (by rw [List.length_map]; omega), List.length_map,
    Nat.add_sub_cancel_left, List.getElem?_map, h, Nat.add_assoc]
  rfl

/-! ## What the boot does with the plan -/

/-- A planned entry of the fstab is a writable with a mount point, on the device of its position.
-/
theorem exists_of_mem_fstabWritable (p : BootParams) (device mnt : Text)
    (h : (device, mnt) ∈ p.exportPlan.fstabWritable) :
    ∃ k name, p.writable[k]? = some (name, some mnt) ∧ device = ublkDevice (p.firstExport + k) := by
  rw [exportPlan_eq] at h
  obtain ⟨⟨⟨name, mnt'⟩, idx⟩, hmem, hentry⟩ := List.mem_filterMap.mp h
  obtain ⟨k, hk⟩ := List.mem_iff_getElem?.mp hmem
  rw [List.getElem?_zipIdx] at hk
  obtain ⟨entry, hat, hentry'⟩ := Option.map_eq_some_iff.mp hk
  obtain ⟨mnt'', hmnt, hpair⟩ := Option.map_eq_some_iff.mp hentry
  cases hpair
  cases hentry'
  obtain rfl : mnt' = some mnt := hmnt
  exact ⟨k, name, hat, rfl⟩

/-- A planned mount is one of the mounts, on the device behind all the writables. -/
theorem exists_of_mem_mountMap (p : BootParams) (device mnt : Text)
    (h : (device, mnt) ∈ p.exportPlan.mountMap) :
    ∃ j name, p.mounts[j]? = some (name, mnt) ∧
      device = ublkDevice (p.firstExport + p.writable.length + j) := by
  rw [exportPlan_eq] at h
  obtain ⟨⟨⟨name, mnt'⟩, idx⟩, hmem, hentry⟩ := List.mem_map.mp h
  obtain ⟨j, hj⟩ := List.mem_iff_getElem?.mp hmem
  rw [List.getElem?_zipIdx] at hj
  obtain ⟨entry, hat, hentry'⟩ := Option.map_eq_some_iff.mp hj
  cases hentry
  cases hentry'
  exact ⟨j, name, hat, rfl⟩

section Places

variable {p : BootParams} {exports : List (Text × Text)} {dev mnt : Text}

/-- A mount is placed where its volume is exported. -/
theorem applyMount_places (h : ∃ (j : ℕ) (name : Text), p.mounts[j]? = some (name, mnt) ∧
    exports[p.writable.length + j]? = some (dev, name)) :
    (applyMount dev mnt).Only (Places p exports) := by
  obtain ⟨j, name, hmount, hexport⟩ := h
  refine Program.only_bind (Program.only_perform _ trivial) fun appeared => ?_
  split_ifs
  · exact Program.only_perform _ trivial
  refine Program.only_bind ⟨trivial, fun _ => trivial⟩ fun _ => ?_
  refine Program.only_bind (Program.only_perform _ ⟨j, dev, name, mnt, hmount, hexport, rfl⟩)
    fun result => ?_
  split_ifs <;> exact Program.only_perform _ trivial

/-- Appending to the fstab is placed if the line is. -/
theorem appendFstab_places {line : Text}
    (h : Places p exports (.appendLine (sysroot ++ "/etc/fstab".toList) line)) :
    (appendFstab line).Only (Places p exports) := by
  refine Program.only_bind (Program.only_perform _ h) fun result => ?_
  match result with
  | .appended => trivial
  | .notWritten _ => exact Program.only_perform _ trivial
  | .notOpened _ => exact Program.only_perform _ trivial

/-- A writable is placed where its volume is exported. -/
theorem applyWritable_places (h : ∃ (k : ℕ) (name : Text), p.writable[k]? = some (name, some mnt) ∧
    exports[k]? = some (dev, name)) : (applyWritable dev mnt).Only (Places p exports) := by
  obtain ⟨k, name, hwritable, hexport⟩ := h
  refine Program.only_bind (Program.only_perform _ trivial) fun appeared => ?_
  split_ifs
  · refine Program.only_bind (appendFstab_places ?_) fun _ => Program.only_perform _ trivial
    exact .inl ⟨k, dev, name, mnt, hwritable, hexport, rfl⟩
  · exact Program.only_perform _ trivial

/-- The image store is on the first device behind the root. -/
theorem applyImageStore_places (h : p.imageStore.isSome) :
    (applyImageStore (ublkDevice 1) imageStoreMount).Only (Places p exports) := by
  refine Program.only_bind (Program.only_perform _ trivial) fun appeared => ?_
  split_ifs
  · refine Program.only_bind ⟨trivial, fun _ => trivial⟩ fun _ => ?_
    refine Program.only_bind (appendFstab_places ?_) fun _ => Program.only_perform _ trivial
    exact .inr ⟨h, rfl⟩
  · exact Program.only_perform _ trivial

end Places

/-- The boot mounts and registers every volume with the device that the engine exports it on. -/
theorem applyExports_places (p : BootParams) (slabs : List Text) :
    (applyExports p.exportPlan).Only
      (Places p (engineExports (engineArgs p slabs p.exportPlan))) := by
  refine Program.only_bind (Program.only_forEach_mem fun e he => ?_) fun _ => ?_
  · obtain ⟨j, name, hmount, hdevice⟩ := exists_of_mem_mountMap p e.1 e.2 he
    exact applyMount_places ⟨j, name, hmount,
      hdevice ▸ engineExports_mount p slabs j name e.2 hmount⟩
  refine Program.only_bind (Program.only_forEach_mem fun e he => ?_) fun _ => ?_
  · obtain ⟨k, name, hwritable, hdevice⟩ := exists_of_mem_fstabWritable p e.1 e.2 he
    exact applyWritable_places ⟨k, name, hwritable,
      hdevice ▸ engineExports_writable p slabs k name (some e.2) hwritable⟩
  · rw [(laidOut_exportPlan p).imageStore]
    cases hstore : p.imageStore with
    | none => trivial
    | some store => exact applyImageStore_places (by rw [hstore]; rfl)

/-- The plan lays the volumes out in the order of their flags; an engine that numbers them in that
order exports each at its place in the plan, and the boot mounts it from there. The plan of a
command line never counts further than twice the line's length. -/
theorem exportPlan_layout (p : BootParams) :
    LaidOut p p.exportPlan ∧
      (∀ cmdline : Text, p = BootParams.parse cmdline →
        p.firstExport + p.writable.length + p.mounts.length ≤ 2 * cmdline.length + 4) ∧
      ∀ slabs, (∀ (k : ℕ) (name mnt : Text), p.writable[k]? = some (name, some mnt) →
          (ublkDevice (p.firstExport + k), mnt) ∈ p.exportPlan.fstabWritable ∧
            (engineExports (engineArgs p slabs p.exportPlan))[k]? =
              some (ublkDevice (p.firstExport + k), name)) ∧
        (∀ (j : ℕ) (name mnt : Text), p.mounts[j]? = some (name, mnt) →
          p.exportPlan.mountMap[j]? =
              some (ublkDevice (p.firstExport + p.writable.length + j), mnt) ∧
            (engineExports (engineArgs p slabs p.exportPlan))[p.writable.length + j]? =
              some (ublkDevice (p.firstExport + p.writable.length + j), name)) ∧
        (applyExports p.exportPlan).Only
          (Places p (engineExports (engineArgs p slabs p.exportPlan))) := by
  refine ⟨laidOut_exportPlan p, fun cmdline hparse => hparse ▸ exports_length_le cmdline,
    fun slabs => ⟨fun k name mnt hk => ?_, fun j name mnt hj => ?_,
    applyExports_places p slabs⟩⟩
  · refine ⟨?_, engineExports_writable p slabs k name (some mnt) hk⟩
    rw [(laidOut_exportPlan p).fstabWritable]
    refine List.mem_filterMap.mpr ⟨((name, some mnt), p.firstExport + k), ?_, rfl⟩
    refine List.mem_iff_getElem?.mpr ⟨k, ?_⟩
    rw [List.getElem?_zipIdx, hk]
    rfl
  · refine ⟨?_, engineExports_mount p slabs j name mnt hj⟩
    rw [(laidOut_exportPlan p).mountMap, List.getElem?_map, List.getElem?_zipIdx, hj]
    rfl

end Stormnetboot.Init

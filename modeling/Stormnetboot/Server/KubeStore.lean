import Stormnetboot.Server.BootHost

/-!
# `BootHost` resources as the host record source

The watch keeps two maps current, the index of the objects it has seen and the cluster layer
of the host store, both by the MAC inside the object. A completed relist replaces both; any
other event touches the one MAC its object names.
-/

namespace Stormnetboot.Server

open Stormnetboot.Common

/-- The objects the watch has seen, by normalised MAC. -/
abbrev BootHostIndex := HashMap Mac BootHost

namespace BootHostIndex

/-- Remember a status that was just written, if there is an object to remember it of. -/
def noteStatus (mac : Mac) (status : BootHostStatus) (index : BootHostIndex) : BootHostIndex :=
  HashMap.modify mac (fun object => { object with status := some status }) index

/-- What stands under a MAC after a note. -/
theorem lookup_noteStatus (mac : Mac) (status : BootHostStatus) (index : BootHostIndex)
    (mac' : Mac) :
    (noteStatus mac status index).lookup mac' =
      if mac' = mac then
        (index.lookup mac).map fun object => { object with status := some status }
      else index.lookup mac' :=
  HashMap.lookup_modify ..

end BootHostIndex

/-- What the watch maintains. -/
structure ClusterView where
  index : BootHostIndex
  hosts : HostStore

namespace ClusterView

/-- One turn of the loop over a relist: objects without a record are left out. -/
def indexObject (acc : BootHostIndex × List HostRecord) (object : BootHost) :
    BootHostIndex × List HostRecord :=
  match object.toRecord with
  | none => acc
  | some record => (acc.1.insert record.mac object, acc.2 ++ [record])

/-- Replace everything, from a completed relist. -/
def reset (objects : List BootHost) (view : ClusterView) : ClusterView :=
  let (indexed, records) := objects.foldl indexObject (∅, [])
  { index := indexed, hosts := view.hosts.setKubeRecords records }

/-- `BootHostIndex::apply`. -/
def apply (object : BootHost) (view : ClusterView) : ClusterView :=
  match object.toRecord with
  | none => view
  | some record =>
    { index := view.index.insert record.mac object, hosts := view.hosts.applyKubeRecord record }

/-- `BootHostIndex::delete`. -/
def delete (object : BootHost) (view : ClusterView) : ClusterView :=
  match object.toRecord with
  | none => view
  | some record =>
    { index := view.index.erase record.mac, hosts := view.hosts.removeKubeRecord record.mac }

/-- `BootHostIndex::note_status`. -/
def noteStatus (mac : Mac) (status : BootHostStatus) (view : ClusterView) : ClusterView :=
  { view with index := BootHostIndex.noteStatus mac status view.index }

end ClusterView

/-- What the watcher delivers. -/
inductive WatchEvent where
  | init
  | initApply (object : BootHost)
  | initDone
  | apply (object : BootHost)
  | delete (object : BootHost)
  | error

/-- The watch task: what it maintains, and the relist it is collecting. -/
structure Watch where
  view : ClusterView
  relisting : List BootHost

namespace Watch

/-- One turn of the watch loop. -/
def step (watch : Watch) : WatchEvent → Watch
  | .init => { watch with relisting := [] }
  | .initApply object => { watch with relisting := watch.relisting ++ [object] }
  | .initDone => { view := watch.view.reset watch.relisting, relisting := [] }
  | .apply object => { watch with view := watch.view.apply object }
  | .delete object => { watch with view := watch.view.delete object }
  | .error => watch

/-- A completed relist. -/
def relist (objects : List BootHost) : List WatchEvent :=
  .init :: objects.map .initApply ++ [.initDone]

/-- A relist replaces the view, whatever was being collected before it. -/
theorem step_relist (watch : Watch) (objects : List BootHost) :
    (relist objects).foldl step watch = { view := watch.view.reset objects, relisting := [] } := by
  have hcollect : ∀ (objects : List BootHost) (w : Watch),
      (objects.map WatchEvent.initApply).foldl step w =
        { w with relisting := w.relisting ++ objects } := by
    intro objects
    induction objects with
    | nil => intro w; simp
    | cons object rest ih =>
      intro w
      rw [List.map_cons, List.foldl_cons, ih]
      simp [step]
  rw [relist, List.cons_append, List.foldl_cons, List.foldl_append, hcollect]
  rfl

end Watch

/-- The MAC an object is kept under, if it has a record. -/
def BootHost.usableMac (object : BootHost) : Option Mac :=
  object.toRecord.map HostRecord.mac

/-- An object with a record is kept under the record's MAC. -/
theorem BootHost.usableMac_of_toRecord {object : BootHost} {record : HostRecord}
    (h : object.toRecord = some record) : object.usableMac = some record.mac := by
  rw [usableMac, h]
  rfl

namespace ClusterView

/-- What a relist leaves: the objects that have a record, by its MAC, and their records. -/
theorem reset_eq (objects : List BootHost) (view : ClusterView) :
    view.reset objects =
      { index := HashMap.collect (objects.filterMap fun o => o.usableMac.map fun mac => (mac, o))
        hosts := view.hosts.setKubeRecords (objects.filterMap BootHost.toRecord) } := by
  have hloop : ∀ (objects : List BootHost) (acc : BootHostIndex × List HostRecord),
      objects.foldl indexObject acc =
        ((objects.filterMap fun o => o.usableMac.map fun mac => (mac, o)).foldl
            (fun m e => m.insert e.1 e.2) acc.1,
          acc.2 ++ objects.filterMap BootHost.toRecord) := by
    intro objects
    induction objects with
    | nil => intro acc; simp
    | cons object rest ih =>
      intro acc
      rw [List.foldl_cons, ih]
      cases hrecord : object.toRecord with
      | none => simp [indexObject, hrecord, BootHost.usableMac]
      | some record => simp [indexObject, hrecord, BootHost.usableMac]
  unfold reset
  rw [hloop]
  rfl

/-- An apply touches the MAC of its object and no other. -/
theorem apply_frame (object : BootHost) (view : ClusterView) (mac : Mac)
    (h : object.usableMac ≠ some mac) :
    (view.apply object).index.lookup mac = view.index.lookup mac ∧
      (view.apply object).hosts.kube.lookup mac = view.hosts.kube.lookup mac := by
  unfold apply
  cases hrecord : object.toRecord with
  | none => exact ⟨rfl, rfl⟩
  | some record =>
    have hne : mac ≠ record.mac := fun heq =>
      h (heq ▸ BootHost.usableMac_of_toRecord hrecord)
    exact ⟨Finmap.lookup_insert_of_ne _ hne, Finmap.lookup_insert_of_ne _ hne⟩

/-- A delete touches the MAC of its object and no other. -/
theorem delete_frame (object : BootHost) (view : ClusterView) (mac : Mac)
    (h : object.usableMac ≠ some mac) :
    (view.delete object).index.lookup mac = view.index.lookup mac ∧
      (view.delete object).hosts.kube.lookup mac = view.hosts.kube.lookup mac := by
  unfold delete
  cases hrecord : object.toRecord with
  | none => exact ⟨rfl, rfl⟩
  | some record =>
    have hne : mac ≠ record.mac := fun heq =>
      h (heq ▸ BootHost.usableMac_of_toRecord hrecord)
    exact ⟨Finmap.lookup_erase_ne hne, Finmap.lookup_erase_ne hne⟩

/-- After an apply, its object stands under its MAC. -/
theorem apply_self (object : BootHost) (view : ClusterView) (record : HostRecord)
    (h : object.toRecord = some record) :
    (view.apply object).index.lookup record.mac = some object ∧
      (view.apply object).hosts.kube.lookup record.mac = some record := by
  unfold apply
  rw [h]
  exact ⟨Finmap.lookup_insert _, Finmap.lookup_insert _⟩

/-- After a delete, nothing stands under its object's MAC. -/
theorem delete_self (object : BootHost) (view : ClusterView) (record : HostRecord)
    (h : object.toRecord = some record) :
    (view.delete object).index.lookup record.mac = none ∧
      (view.delete object).hosts.kube.lookup record.mac = none := by
  unfold delete
  rw [h]
  exact ⟨Finmap.lookup_erase _ _, Finmap.lookup_erase _ _⟩

/-- Neither touches whether the cluster was listed. -/
theorem apply_synced (object : BootHost) (view : ClusterView) :
    (view.apply object).hosts.kubeSynced = view.hosts.kubeSynced := by
  unfold apply
  cases object.toRecord <;> rfl

/-- A deletion does not change whether the watch has listed the cluster. -/
theorem delete_synced (object : BootHost) (view : ClusterView) :
    (view.delete object).hosts.kubeSynced = view.hosts.kubeSynced := by
  unfold delete
  cases object.toRecord <;> rfl

end ClusterView

end Stormnetboot.Server

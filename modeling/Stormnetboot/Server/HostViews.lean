import Stormnetboot.Common.Listings
import Stormnetboot.Server.HostFile

/-!
# Three views of the host store

A lookup, the listing of all records and the counts each lay the cluster layer over the bootstrap
layer in a way of their own. They agree because every record stands under its own MAC in either
layer, whatever lists the layers were made from.
-/

namespace Stormnetboot.Server

open Stormnetboot.Common

/-- How many records each layer holds, and distinct hosts there are. -/
structure HostCounts where
  file : ℕ
  kube : ℕ
  total : ℕ
  kubeSynced : Bool
  deriving DecidableEq, Repr

/-- The order of MACs: octet by octet. -/
def Mac.compare (a b : Mac) : Ordering :=
  Ord.compare a.octets b.octets

namespace Mac

/-- The order of the MACs is transitive. -/
theorem isLE_compare_trans {a b c : Mac} (hab : (a.compare b).isLE) (hbc : (b.compare c).isLE) :
    (a.compare c).isLE := by
  unfold compare at hab hbc ⊢
  exact Std.TransOrd.isLE_trans hab hbc

/-- It is total. -/
theorem isLE_compare_total (a b : Mac) : ((a.compare b).isLE || (b.compare a).isLE) = true := by
  have hswap : a.compare b = (b.compare a).swap := Std.OrientedOrd.eq_swap
  rw [hswap]
  cases b.compare a <;> rfl

/-- MACs that compare equal are equal. -/
theorem eq_of_compare {a b : Mac} (h : a.compare b = .eq) : a = b := by
  cases a
  cases b
  exact congrArg Mac.mk (Std.LawfulEqOrd.eq_of_compare h)

/-- The order is antisymmetric. -/
theorem eq_of_isLE_compare {a b : Mac} (hab : (a.compare b).isLE = true)
    (hba : (b.compare a).isLE = true) : a = b := by
  have hswap : b.compare a = (a.compare b).swap := Std.OrientedOrd.eq_swap
  rw [hswap] at hba
  cases hcompare : a.compare b with
  | eq => exact eq_of_compare hcompare
  | lt =>
    rw [hcompare] at hba
    cases hba
  | gt =>
    rw [hcompare] at hab
    cases hab

/-- A MAC that is not after another is before it. -/
theorem compare_eq_lt {a b : Mac} (h : ¬(b.compare a).isLE = true) : a.compare b = .lt := by
  have hswap : a.compare b = (b.compare a).swap := Std.OrientedOrd.eq_swap
  rw [hswap]
  cases hcompare : b.compare a with
  | gt => rfl
  | eq => exact absurd (by rw [hcompare]; rfl) h
  | lt => exact absurd (by rw [hcompare]; rfl) h

end Mac

namespace HostStore

/-- Every record, sorted by MAC. -/
def records (order : HashMap.Iteration Mac HostRecord) (store : HostStore) : List HostRecord :=
  (order.values store.kube ++
    ((order.list store.file).filter fun e => e.1 ∉ store.kube).map (·.2)).mergeSort
      fun a b => (a.mac.compare b.mac).isLE

/-- `HostStore::counts`. -/
def counts (store : HostStore) : HostCounts where
  file := HashMap.len store.file
  kube := HashMap.len store.kube
  total := HashMap.len store.kube + (store.file.keys.filter fun mac => mac ∉ store.kube).card
  kubeSynced := store.kubeSynced

end HostStore

/-! ## Whatever happens to a store -/

/-- What changes a store. -/
inductive StoreEvent where
  | reload (file : BackingFile)
  | resync (records : List HostRecord)
  | apply (record : HostRecord)
  | remove (mac : Mac)

namespace BackedStore

/-- Change the cluster layer. -/
def withKube (change : HostStore → HostStore) (store : BackedStore)
    (hfile : (change store.layers).file = store.layers.file) : BackedStore where
  path := store.path
  mtime := store.mtime
  layers := change store.layers
  unbacked h := hfile.trans (store.unbacked h)

/-- What a writer does to the store. -/
def step (decode : DecodeRecords) (store : BackedStore) : StoreEvent → BackedStore
  | .reload file => (store.reload decode file).2
  | .resync records => store.withKube (HostStore.setKubeRecords records) rfl
  | .apply record => store.withKube (HostStore.applyKubeRecord record) rfl
  | .remove mac => store.withKube (HostStore.removeKubeRecord mac) rfl

/-- A new store: without a file, or with one that is loaded. -/
inductive Starts (decode : DecodeRecords) : BackedStore → Prop where
  | empty : Starts decode .empty
  | fromFile (path : Text) (file : BackingFile) : Starts decode (.fromFile decode path file)

end BackedStore

/-- Every record of a layer stands under its own MAC. -/
def Keyed (layer : HashMap Mac HostRecord) : Prop :=
  ∀ mac record, layer.lookup mac = some record → record.mac = mac

/-- An empty layer is keyed. -/
theorem keyed_empty : Keyed ∅ :=
  fun _ _ h => nomatch h

/-- A layer collected by MAC is keyed. -/
theorem keyed_collect (records : List HostRecord) :
    Keyed (HashMap.collect (records.map fun r => (r.mac, r))) := by
  intro mac record h
  obtain ⟨r, -, heq⟩ := List.mem_map.mp (HashMap.mem_of_lookup_collect _ h)
  cases heq
  rfl

section Keyed

variable {layer : HashMap Mac HostRecord}

/-- An insertion under its own MAC keeps a layer keyed. -/
theorem Keyed.insert (h : Keyed layer) (record : HostRecord) :
    Keyed (layer.insert record.mac record) := by
  intro mac found hfound
  by_cases hmac : mac = record.mac
  · rw [hmac, Finmap.lookup_insert] at hfound
    cases hfound
    exact hmac.symm
  · rw [Finmap.lookup_insert_of_ne _ hmac] at hfound
    exact h mac found hfound

/-- A removal keeps it keyed. -/
theorem Keyed.erase (h : Keyed layer) (mac : Mac) : Keyed (layer.erase mac) := by
  intro mac' found hfound
  by_cases hmac : mac' = mac
  · rw [hmac, Finmap.lookup_erase] at hfound
    cases hfound
  · rw [Finmap.lookup_erase_ne hmac] at hfound
    exact h mac' found hfound

end Keyed

/-- Both layers are. -/
structure KeyedLayers (store : HostStore) : Prop where
  file : Keyed store.file
  kube : Keyed store.kube

/-- A reload keeps the layers keyed. -/
theorem KeyedLayers.reload {store : BackedStore} (h : KeyedLayers store.layers)
    (decode : DecodeRecords) (file : BackingFile) :
    KeyedLayers (store.reload decode file).2.layers := by
  have hexit := store.reloads_reload decode file
  rcases hreload : store.reload decode file with ⟨result, after⟩
  rw [hreload] at hexit
  cases hexit with
  | unbacked hpath => exact h
  | unchanged hsame => exact h
  | absent path hpath hchanged hcontent => exact h
  | fails err => exact h
  | loads path raw list hpath hchanged hcontent hdecode => exact ⟨keyed_collect list, h.kube⟩

/-- Every writer keeps them so. -/
theorem KeyedLayers.step {store : BackedStore} (h : KeyedLayers store.layers)
    (decode : DecodeRecords) (event : StoreEvent) : KeyedLayers (store.step decode event).layers := by
  cases event with
  | reload file => exact h.reload decode file
  | resync records => exact ⟨h.file, keyed_collect records⟩
  | apply record => exact ⟨h.file, h.kube.insert record⟩
  | remove mac => exact ⟨h.file, h.kube.erase mac⟩

/-- They are keyed after every run of the writers. -/
theorem keyedLayers_run {decode : DecodeRecords} {start : BackedStore}
    (hstart : BackedStore.Starts decode start) (events : List StoreEvent) :
    KeyedLayers (events.foldl (BackedStore.step decode) start).layers := by
  induction events using List.reverseRecOn with
  | nil =>
    have hempty : KeyedLayers HostStore.empty := ⟨keyed_empty, keyed_empty⟩
    cases hstart with
    | empty => exact hempty
    | fromFile path file => exact KeyedLayers.reload hempty decode file
  | append_singleton rest event ih =>
    rw [List.foldl_concat]
    exact ih.step decode event

/-! ## What each view says -/

section Views

variable (order : HashMap.Iteration Mac HostRecord) (store : HostStore)

/-- The listing holds the values of one layer over the other. -/
theorem perm_records :
    (store.records order).Perm ((order.overlay store.kube store.file).map (·.2)) := by
  rw [HashMap.Iteration.overlay, List.map_append]
  exact List.mergeSort_perm _ _

/-- The records are as many as the count says. -/
theorem length_records : (store.records order).length = store.counts.total := by
  rw [(perm_records order store).length_eq, List.length_map, order.length_overlay]
  rfl

variable {store}

/-- The record that is looked up stands under its own MAC. -/
theorem KeyedLayers.mac_of_lookup (h : KeyedLayers store) {mac : Mac} {record : HostRecord}
    (hlookup : store.lookup mac = some record) : record.mac = mac := by
  rcases Option.or_eq_some_iff.mp hlookup with hkube | ⟨-, hfile⟩
  · exact h.kube mac record hkube
  · exact h.file mac record hfile

/-- The listing holds what is looked up. -/
theorem KeyedLayers.mem_records_iff (h : KeyedLayers store) (record : HostRecord) :
    record ∈ store.records order ↔ store.lookup record.mac = some record := by
  rw [(perm_records order store).mem_iff, List.mem_map]
  constructor
  · rintro ⟨⟨mac, found⟩, hmem, rfl⟩
    have hlookup : store.lookup mac = some found := (order.mem_overlay_iff ..).mp hmem
    simp only
    rw [h.mac_of_lookup hlookup, hlookup]
  · intro hlookup
    exact ⟨⟨record.mac, record⟩, (order.mem_overlay_iff ..).mpr hlookup, rfl⟩

/-- No MAC is listed twice. -/
theorem KeyedLayers.nodup_records (h : KeyedLayers store) :
    ((store.records order).map HostRecord.mac).Nodup := by
  rw [((perm_records order store).map HostRecord.mac).nodup_iff, List.map_map]
  have hmacs : (order.overlay store.kube store.file).map (HostRecord.mac ∘ (·.2)) =
      (order.overlay store.kube store.file).map Sigma.fst := by
    refine List.map_congr_left fun ⟨mac, record⟩ hmem => ?_
    exact h.mac_of_lookup ((order.mem_overlay_iff ..).mp hmem)
  rw [hmacs]
  exact order.nodup_overlay _ _

/-- So it is sorted strictly. -/
theorem KeyedLayers.pairwise_records (h : KeyedLayers store) :
    (store.records order).Pairwise fun a b => a.mac.compare b.mac = .lt := by
  have hdistinct : (store.records order).Pairwise fun a b => a.mac ≠ b.mac :=
    List.pairwise_map.mp (h.nodup_records order)
  have hstrict : (store.records order).Pairwise fun a b => (b.mac.compare a.mac).isLE = false := by
    refine strict_mergeSort (fun a b c hab hbc => ?_) (fun a b => ?_) ?_
    · exact Mac.isLE_compare_trans hab hbc
    · exact Mac.isLE_compare_total a.mac b.mac
    · have hunsorted := ((List.mergeSort_perm ..).pairwise_iff fun hne => Ne.symm hne).mp hdistinct
      exact hunsorted.imp fun hne ⟨hab, hba⟩ => hne (Mac.eq_of_isLE_compare hab hba)
  exact hstrict.imp fun hlt => Mac.compare_eq_lt (Bool.eq_false_iff.mp hlt)

end Views

/-- The three views agree: the listing is sorted strictly and holds exactly what is looked up, a
lookup answers from the cluster layer where that holds the MAC and from the file otherwise, and
the total counts the listing. -/
structure ViewsAgree (order : HashMap.Iteration Mac HostRecord) (store : HostStore) : Prop where
  sorted : (store.records order).Pairwise fun a b => a.mac.compare b.mac = .lt
  listed : ∀ mac record, (record ∈ store.records order ∧ record.mac = mac) ↔
    store.lookup mac = some record
  layered : ∀ mac, store.lookup mac =
    if mac ∈ store.kube then store.kube.lookup mac else store.file.lookup mac
  total : store.counts.total = (store.records order).length

/-- Where the layers are keyed the three views agree. -/
theorem KeyedLayers.viewsAgree {store : HostStore} (h : KeyedLayers store)
    (order : HashMap.Iteration Mac HostRecord) : ViewsAgree order store := by
  refine ⟨h.pairwise_records order, fun mac record => ?_, fun mac => ?_, (length_records ..).symm⟩
  · rw [h.mem_records_iff]
    constructor
    · rintro ⟨hlookup, rfl⟩
      exact hlookup
    · intro hlookup
      obtain rfl := h.mac_of_lookup hlookup
      exact ⟨hlookup, rfl⟩
  · rw [HostStore.lookup]
    split_ifs with hmac
    · obtain ⟨record, hrecord⟩ := Finmap.mem_iff.mp hmac
      rw [hrecord]
      rfl
    · rw [Finmap.lookup_eq_none.mpr hmac, Option.none_or]

/-- Whatever has happened to a store, its views agree. -/
theorem views_agree (decode : DecodeRecords) (start : BackedStore)
    (hstart : BackedStore.Starts decode start) (events : List StoreEvent)
    (order : HashMap.Iteration Mac HostRecord) :
    ViewsAgree order (events.foldl (BackedStore.step decode) start).layers :=
  (keyedLayers_run hstart events).viewsAgree order

/-- A store whose file was removed, with a host that the cluster had for a while. -/
theorem views_agree_removed : ∃ order, ViewsAgree order
    ([.reload Removed.gone, .apply Removed.record, .remove Removed.record.mac].foldl
      (BackedStore.step Removed.decode) Removed.store).layers := by
  obtain ⟨order⟩ : Nonempty (HashMap.Iteration Mac HostRecord) := inferInstance
  exact ⟨order, views_agree Removed.decode Removed.store (.fromFile _ _) _ order⟩

end Stormnetboot.Server

import Stormnetboot.Server.WatchRefinement

/-!
# The index and the cluster layer

The watch keeps the objects it has seen in one map and their records in another. Under every MAC
the second has the record of the object in the first: a relist collects both from one list, an
apply and a delete touch both under one MAC, and a noted status changes no record. Each has one
place for a MAC, however many objects name it, so a delivered deletion empties the place of the
objects that are still there; only a relist fills it again.
-/

namespace Stormnetboot.Server

open Stormnetboot.Common

/-- What happens to the maps: the watch delivers an event, its stream is restarted, a status is
noted, or the bootstrap file is loaded again. -/
inductive ViewEvent where
  | watch (event : WatchEvent)
  | restarted
  | noted (mac : Mac) (status : BootHostStatus)
  | reloaded (records : List HostRecord)

namespace Watch

/-- A server that has listed nothing yet. -/
def start (file : HashMap Mac HostRecord) : Watch where
  view := ⟨∅, ⟨file, ∅, false⟩⟩
  relisting := []

/-- One of them. A new stream starts with nothing collected. -/
def next (watch : Watch) : ViewEvent → Watch
  | .watch event => watch.step event
  | .restarted => { watch with relisting := [] }
  | .noted mac status => { watch with view := watch.view.noteStatus mac status }
  | .reloaded records =>
    { watch with view := { watch.view with hosts := watch.view.hosts.setFileRecords records } }

/-- The watch after them. -/
def after (file : HashMap Mac HostRecord) (events : List ViewEvent) : Watch :=
  events.foldl next (start file)

end Watch

/-- Both maps have the same MACs, and the record under each is that of the object. -/
structure Agrees (view : ClusterView) : Prop where
  keys : view.hosts.kube.keys = view.index.keys
  records : ∀ mac object, view.index.lookup mac = some object →
    ∃ record, object.toRecord = some record ∧ view.hosts.kube.lookup mac = some record

/-- The same, under one MAC. -/
def AgreesAt (view : ClusterView) (mac : Mac) : Prop :=
  (view.index.lookup mac).map BootHost.toRecord = (view.hosts.kube.lookup mac).map some

/-- The layers agree exactly when they agree at every MAC. -/
theorem agrees_iff (view : ClusterView) : Agrees view ↔ ∀ mac, AgreesAt view mac := by
  constructor
  · intro h mac
    unfold AgreesAt
    cases hobject : view.index.lookup mac with
    | some object =>
      obtain ⟨record, hrecord, hkube⟩ := h.records mac object hobject
      rw [hkube, Option.map_some, Option.map_some, hrecord]
    | none =>
      have hmac : mac ∉ view.hosts.kube := by
        rw [← Finmap.mem_keys, h.keys, Finmap.mem_keys]
        exact Finmap.lookup_eq_none.mp hobject
      rw [Finmap.lookup_eq_none.mpr hmac]
      rfl
  · intro h
    constructor
    · ext mac
      have hmac := congrArg Option.isSome (h mac)
      rw [Option.isSome_map, Option.isSome_map] at hmac
      rw [Finmap.mem_keys, Finmap.mem_keys, ← Finmap.lookup_isSome, ← Finmap.lookup_isSome, hmac]
    · intro mac object hobject
      have hmac := h mac
      rw [AgreesAt, hobject, Option.map_some] at hmac
      obtain ⟨record, hkube, hrecord⟩ := Option.map_eq_some_iff.mp hmac.symm
      exact ⟨record, hrecord.symm, hkube⟩

/-! ## One event -/

section Step

variable {view : ClusterView} {mac : Mac}

/-- A relist collects both maps from the objects that have a record. -/
theorem agreesAt_reset (objects : List BootHost) (view : ClusterView) (mac : Mac) :
    AgreesAt (view.reset objects) mac := by
  let kept : List (Mac × (BootHost × HostRecord)) :=
    objects.filterMap fun object => object.toRecord.map fun record => (record.mac, object, record)
  have hindex : (objects.filterMap fun o => o.usableMac.map fun mac => (mac, o)) =
      kept.map fun e => (e.1, e.2.1) := by
    rw [List.map_filterMap]
    refine List.filterMap_congr fun object _ => ?_
    rw [BootHost.usableMac, Option.map_map, Option.map_map]
    rfl
  have hkube : ((objects.filterMap BootHost.toRecord).map fun r => (r.mac, r)) =
      kept.map fun e => (e.1, e.2.2) := by
    rw [List.map_filterMap, List.map_filterMap]
    refine List.filterMap_congr fun object _ => ?_
    rw [Option.map_map]
    rfl
  rw [ClusterView.reset_eq]
  unfold AgreesAt HostStore.setKubeRecords
  simp only
  rw [hindex, hkube, HashMap.lookup_collect_map (fun e : BootHost × HostRecord => e.1),
    HashMap.lookup_collect_map (fun e : BootHost × HostRecord => e.2)]
  cases hpair : (HashMap.collect kept).lookup mac with
  | none => rfl
  | some pair =>
    obtain ⟨object, -, hpair'⟩ := List.mem_filterMap.mp (HashMap.mem_of_lookup_collect _ hpair)
    obtain ⟨record, hrecord, heq⟩ := Option.map_eq_some_iff.mp hpair'
    cases heq
    exact congrArg some hrecord

/-- An apply puts an object and its record in the same place. -/
theorem AgreesAt.apply (h : AgreesAt view mac) (object : BootHost) :
    AgreesAt (view.apply object) mac := by
  by_cases hmac : object.usableMac = some mac
  · obtain ⟨record, hrecord, rfl⟩ := Option.map_eq_some_iff.mp hmac
    obtain ⟨hindex, hkube⟩ := view.apply_self object record hrecord
    rw [AgreesAt, hindex, hkube, Option.map_some, Option.map_some, hrecord]
  · obtain ⟨hindex, hkube⟩ := view.apply_frame object mac hmac
    rw [AgreesAt, hindex, hkube]
    exact h

/-- A delete empties the same place. -/
theorem AgreesAt.delete (h : AgreesAt view mac) (object : BootHost) :
    AgreesAt (view.delete object) mac := by
  by_cases hmac : object.usableMac = some mac
  · obtain ⟨record, hrecord, rfl⟩ := Option.map_eq_some_iff.mp hmac
    obtain ⟨hindex, hkube⟩ := view.delete_self object record hrecord
    rw [AgreesAt, hindex, hkube]
    rfl
  · obtain ⟨hindex, hkube⟩ := view.delete_frame object mac hmac
    rw [AgreesAt, hindex, hkube]
    exact h

/-- A status is no part of the record. -/
theorem AgreesAt.noteStatus (h : AgreesAt view mac) (mac' : Mac) (status : BootHostStatus) :
    AgreesAt (view.noteStatus mac' status) mac := by
  have hrecord : ∀ object : BootHost,
      BootHost.toRecord { object with status := some status } = object.toRecord := fun _ => rfl
  unfold AgreesAt ClusterView.noteStatus
  simp only
  rw [BootHostIndex.lookup_noteStatus]
  split_ifs with hmac
  · rw [← h, hmac, Option.map_map]
    exact Option.map_congr fun object _ => hrecord object
  · exact h

end Step

/-- Whatever happens, the maps keep agreeing. -/
theorem Agrees.next {watch : Watch} (h : Agrees watch.view) (event : ViewEvent) :
    Agrees (watch.next event).view := by
  rw [agrees_iff] at h ⊢
  intro mac
  cases event with
  | watch event =>
    cases event with
    | init => exact h mac
    | initApply object => exact h mac
    | initDone => exact agreesAt_reset _ _ mac
    | apply object => exact (h mac).apply object
    | delete object => exact (h mac).delete object
    | error => exact h mac
  | restarted => exact h mac
  | noted mac' status => exact (h mac).noteStatus mac' status
  | reloaded records => exact h mac

/-- They agree after every run of events and notes. -/
theorem agrees_after (file : HashMap Mac HostRecord) (events : List ViewEvent) :
    Agrees (Watch.after file events).view := by
  induction events using List.reverseRecOn with
  | nil => exact (agrees_iff _).mpr fun mac => rfl
  | append_singleton rest event ih =>
    have hafter : Watch.after file (rest ++ [event]) = (Watch.after file rest).next event :=
      List.foldl_concat ..
    rw [hafter]
    exact ih.next event

/-- An event that changes what the watch maintains. -/
def WatchEvent.Changes : WatchEvent → Prop
  | .initDone => True
  | .apply _ => True
  | .delete _ => True
  | _ => False

/-- Any other event leaves both maps as they are. -/
theorem Watch.view_step_of_not_changes (watch : Watch) {event : WatchEvent} (h : ¬event.Changes) :
    (watch.step event).view = watch.view := by
  cases event with
  | init => rfl
  | initApply object => rfl
  | error => rfl
  | initDone => exact absurd trivial h
  | apply object => exact absurd trivial h
  | delete object => exact absurd trivial h

/-- A noted status changes no MAC of the index and nothing of the hosts. -/
theorem ClusterView.noteStatus_keeps (view : ClusterView) (mac : Mac) (status : BootHostStatus) :
    (view.noteStatus mac status).index.keys = view.index.keys ∧
      (view.noteStatus mac status).hosts = view.hosts := by
  refine ⟨?_, rfl⟩
  ext mac'
  rw [Finmap.mem_keys, Finmap.mem_keys, ← Finmap.lookup_isSome, ← Finmap.lookup_isSome]
  unfold noteStatus
  simp only
  rw [BootHostIndex.lookup_noteStatus]
  split_ifs with hmac
  · rw [Option.isSome_map, hmac]
  · rfl

/-- In every run the two maps agree after every event; only the end of a relist, an apply and a
delete change them, and a noted status changes no MAC and no record. -/
theorem index_hosts_agree (file : HashMap Mac HostRecord) (events : List ViewEvent) :
    Agrees (Watch.after file events).view ∧
      (∀ event : WatchEvent, ¬event.Changes →
        ((Watch.after file events).step event).view = (Watch.after file events).view) ∧
      ((Watch.after file events).next .restarted).view = (Watch.after file events).view ∧
      ∀ mac status, ((Watch.after file events).view.noteStatus mac status).index.keys =
          (Watch.after file events).view.index.keys ∧
        ((Watch.after file events).view.noteStatus mac status).hosts =
          (Watch.after file events).view.hosts :=
  ⟨agrees_after file events, fun _ h => Watch.view_step_of_not_changes _ h, rfl,
    fun mac status => ClusterView.noteStatus_keeps _ mac status⟩

/-! ## Several objects with one MAC -/

/-- The lookup of a MAC answers from the cluster layer, with the record of a live object. -/
def AnswersLive (view : ClusterView) (live : LiveObjects) (mac : Mac) : Prop :=
  ∃ record, view.hosts.kube.lookup mac = some record ∧ view.hosts.lookup mac = some record ∧
    ∃ object, live.Has object ∧ object.toRecord = some record

/-- How the watch learns of a deletion: it is told, or it missed that and lists the objects that
are left. -/
inductive Deletion (live : LiveObjects) (key : ObjectKey) where
  | told (content : Content) (deleted : live.lookup key = some content)
  | relisted (objects : List BootHost) (listed : LiveObjects.ListedBy (live.erase key) objects)

namespace Deletion

variable {live : LiveObjects} {key : ObjectKey}

/-- The events it is delivered as. -/
def events : Deletion live key → List WatchEvent
  | .told content _ => [.delete (content.object key)]
  | .relisted objects _ => Watch.relist objects

/-- It is learnt from a relist. -/
def FromRelist : Deletion live key → Prop
  | .told _ _ => False
  | .relisted _ _ => True

end Deletion

/-- After a relist, a MAC that a live object names is answered with the record of one. -/
theorem answersLive_reset (view : ClusterView) {live : LiveObjects} {objects : List BootHost}
    (hlisted : live.ListedBy objects) {survivor : BootHost} {mac : Mac} (hlive : live.Has survivor)
    (hmac : survivor.usableMac = some mac) : AnswersLive (view.reset objects) live mac := by
  have hmem := LiveObjects.mem_of_listedBy hlisted
  obtain ⟨named, hnamed, rfl⟩ := Option.map_eq_some_iff.mp hmac
  have hkube : (view.reset objects).hosts.kube =
      HashMap.collect ((objects.filterMap BootHost.toRecord).map fun r => (r.mac, r)) := by
    rw [ClusterView.reset_eq]
    rfl
  have hpair : (named.mac, named) ∈
      (objects.filterMap BootHost.toRecord).map fun r => (r.mac, r) :=
    List.mem_map.mpr ⟨named, List.mem_filterMap.mpr ⟨survivor, (hmem survivor).mpr hlive, hnamed⟩,
      rfl⟩
  obtain ⟨record, hrecord⟩ := Finmap.mem_iff.mp (HashMap.mem_collect hpair)
  rw [← hkube] at hrecord
  refine ⟨record, hrecord, by rw [HostStore.lookup, hrecord]; rfl, ?_⟩
  rw [hkube] at hrecord
  obtain ⟨record', hmem', heq⟩ := List.mem_map.mp (HashMap.mem_of_lookup_collect _ hrecord)
  obtain rfl : record' = record := congrArg Prod.snd heq
  obtain ⟨object, hobject, hrecord'⟩ := List.mem_filterMap.mp hmem'
  exact ⟨object, (hmem object).mp hobject, hrecord'⟩

/-- A deletion that is told empties the place of its MAC. -/
theorem not_answersLive_delete (view : ClusterView) (live : LiveObjects) {object : BootHost}
    {mac : Mac} (hmac : object.usableMac = some mac) :
    ¬AnswersLive (view.delete object) live mac := by
  obtain ⟨record, hrecord, rfl⟩ := Option.map_eq_some_iff.mp hmac
  rintro ⟨other, hkube, -⟩
  rw [(view.delete_self object record hrecord).2] at hkube
  cases hkube

/-- After the deletion of an object that names a MAC another live object names too, the MAC is
answered from the cluster layer exactly when the watch learns of the deletion from a relist. -/
theorem answersLive_iff_fromRelist (file : HashMap Mac HostRecord) (history : List ViewEvent)
    (live : LiveObjects) (key : ObjectKey) (content : Content) (mac : Mac) (survivor : BootHost)
    (hdeleted : live.lookup key = some content) (hnames : (content.object key).usableMac = some mac)
    (hlive : LiveObjects.Has (live.erase key) survivor) (hsurvivor : survivor.usableMac = some mac)
    (deletion : Deletion live key) :
    AnswersLive (deletion.events.foldl Watch.step (Watch.after file history)).view (live.erase key)
      mac ↔ deletion.FromRelist := by
  cases deletion with
  | told content' hdeleted' =>
    obtain rfl : content = content' := Option.some.inj (hdeleted.symm.trans hdeleted')
    exact iff_of_false (not_answersLive_delete _ _ hnames) id
  | relisted objects hlisted =>
    refine iff_of_true ?_ trivial
    have hrelist := Watch.step_relist (Watch.after file history) objects
    simp only [Deletion.events, hrelist]
    exact answersLive_reset _ hlisted hlive hsurvivor

namespace Doubled

/-- The MAC of both objects. -/
def mac : Mac := .ofOctets 0xaa 0xbb 0xcc 0xdd 0xee 0x01

/-- The object that is created first. -/
def first : ObjectKey := ⟨"storm-system".toList, "node1".toList⟩

/-- The object that is created second. -/
def second : ObjectKey := ⟨"storm-system".toList, "node2".toList⟩

/-- Both objects name the same machine. -/
def content : Content where
  generation := 1
  spec := ⟨"aa:bb:cc:dd:ee:01".toList, none, none, none, none, none, true⟩
  status := none

/-- The objects that are live. -/
def live : LiveObjects :=
  (Finmap.singleton first content).insert second content

/-- They are created one after the other. -/
def history : List ViewEvent :=
  [.watch (.apply (content.object first)), .watch (.apply (content.object second))]

/-- The second object is live, with the first and without it. -/
theorem lookup_live : live.lookup first = some content ∧
    (Finmap.erase first live).lookup second = some content := by
  decide

/-- Both objects have the usable MAC. -/
theorem usableMac : (content.object first).usableMac = some mac ∧
    (content.object second).usableMac = some mac := by
  decide

end Doubled

/-- Where the deletion of the first is learnt from a relist, the second is found. -/
theorem answersLive_doubled : ∃ objects,
    ∃ hlisted : LiveObjects.ListedBy (Doubled.live.erase Doubled.first) objects,
      AnswersLive ((Deletion.relisted objects hlisted).events.foldl Watch.step
        (Watch.after ∅ Doubled.history)).view (Doubled.live.erase Doubled.first) Doubled.mac := by
  obtain ⟨objects, hlisted⟩ := LiveObjects.exists_listing (Doubled.live.erase Doubled.first)
  exact ⟨objects, hlisted, (answersLive_iff_fromRelist ∅ Doubled.history Doubled.live Doubled.first
    Doubled.content Doubled.mac (Doubled.content.object Doubled.second) Doubled.lookup_live.1
    Doubled.usableMac.1 ⟨_, _, Doubled.lookup_live.2, rfl⟩ Doubled.usableMac.2
    (.relisted objects hlisted)).mpr trivial⟩

/-- Where it is told, nothing is found for the second, which is live. -/
theorem not_answersLive_doubled :
    LiveObjects.Has (Doubled.live.erase Doubled.first) (Doubled.content.object Doubled.second) ∧
      (Doubled.content.object Doubled.second).usableMac = some Doubled.mac ∧
      HostStore.lookup Doubled.mac ((Watch.after ∅ Doubled.history).step
        (.delete (Doubled.content.object Doubled.first))).view.hosts = none :=
  ⟨⟨_, _, Doubled.lookup_live.2, rfl⟩, Doubled.usableMac.2, by decide⟩

end Stormnetboot.Server

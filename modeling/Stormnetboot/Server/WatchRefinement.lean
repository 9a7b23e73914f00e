import Stormnetboot.Server.KubeStore

/-!
# The incremental watch and the relist

The cluster's live objects are kept by namespace and name, the view by the MAC inside each
object. As long as no two live objects have the same MAC and no edit takes an object's MAC
away, applying the events one by one leaves the view where a relist would: the view mirrors
the live objects, and that invariant carries over every event. An edit that does take a MAC
away leaves the old object under it.
-/

namespace Stormnetboot.Server

open Stormnetboot.Common

/-- An object's identity in the cluster. -/
structure ObjectKey where
  namespace_ : Text
  name : Text
  deriving DecidableEq, Repr

/-- What an object holds besides its identity. -/
structure Content where
  generation : Int64
  spec : BootHostSpec
  status : Option BootHostStatus
  deriving DecidableEq, Repr

/-- The object as the watcher delivers it. -/
def Content.object (content : Content) (key : ObjectKey) : BootHost where
  metadata := ⟨some key.namespace_, some key.name, some content.generation⟩
  spec := content.spec
  status := content.status

/-- An object tells its identity and its content. -/
theorem Content.object_inj {key key' : ObjectKey} {content content' : Content}
    (h : content.object key = content'.object key') : key = key' ∧ content = content' := by
  obtain ⟨namespace_, name⟩ := key
  obtain ⟨namespace_', name'⟩ := key'
  obtain ⟨generation, spec, status⟩ := content
  obtain ⟨generation', spec', status'⟩ := content'
  simp only [object, BootHost.mk.injEq, ObjectMeta.mk.injEq, Option.some.injEq] at h
  obtain ⟨⟨rfl, rfl, rfl⟩, rfl, rfl⟩ := h
  exact ⟨rfl, rfl⟩

/-- The live objects of the cluster. -/
abbrev LiveObjects := HashMap ObjectKey Content

namespace LiveObjects

/-- The object is live. -/
def Has (live : LiveObjects) (object : BootHost) : Prop :=
  ∃ key content, live.lookup key = some content ∧ content.object key = object

/-- No two live objects have the same parseable MAC. -/
def Distinct (live : LiveObjects) : Prop :=
  ∀ object object' mac, live.Has object → live.Has object' →
    object.usableMac = some mac → object'.usableMac = some mac → object = object'

/-- The list holds each live object once, in some order. -/
def ListedBy (live : LiveObjects) (objects : List BootHost) : Prop :=
  (objects : Multiset BootHost) = live.entries.map fun e => e.2.object e.1

/-- A listing holds exactly the live objects. -/
theorem mem_of_listedBy {live : LiveObjects} {objects : List BootHost}
    (h : live.ListedBy objects) (object : BootHost) : object ∈ objects ↔ live.Has object := by
  rw [← Multiset.mem_coe, h, Multiset.mem_map]
  constructor
  · rintro ⟨⟨key, content⟩, hmem, rfl⟩
    exact ⟨key, content, Finmap.lookup_eq_some_iff.mpr hmem, rfl⟩
  · rintro ⟨key, content, hlookup, rfl⟩
    exact ⟨⟨key, content⟩, Finmap.lookup_eq_some_iff.mp hlookup, rfl⟩

/-- The live objects can be listed. -/
theorem exists_listing (live : LiveObjects) : ∃ objects, live.ListedBy objects :=
  ⟨(live.entries.map fun e => e.2.object e.1).toList, by rw [ListedBy, Multiset.coe_toList]⟩

/-- An object is live after a put when it is the one put, or was live under another key. -/
theorem has_insert_iff (live : LiveObjects) (key : ObjectKey) (content : Content)
    (object : BootHost) :
    LiveObjects.Has (live.insert key content) object ↔
      object = content.object key ∨
        ∃ key' content', key' ≠ key ∧ live.lookup key' = some content' ∧
          content'.object key' = object := by
  constructor
  · rintro ⟨key', content', hlookup, rfl⟩
    by_cases hkey : key' = key
    · subst hkey
      rw [Finmap.lookup_insert, Option.some.injEq] at hlookup
      exact .inl (by rw [hlookup])
    · rw [Finmap.lookup_insert_of_ne _ hkey] at hlookup
      exact .inr ⟨key', content', hkey, hlookup, rfl⟩
  · rintro (rfl | ⟨key', content', hkey, hlookup, rfl⟩)
    · exact ⟨key, content, Finmap.lookup_insert live, rfl⟩
    · exact ⟨key', content', by rwa [Finmap.lookup_insert_of_ne _ hkey], rfl⟩

/-- An object is live after a removal when it was live under another key. -/
theorem has_erase_iff (live : LiveObjects) (key : ObjectKey) (object : BootHost) :
    LiveObjects.Has (live.erase key) object ↔
      ∃ key' content', key' ≠ key ∧ live.lookup key' = some content' ∧
        content'.object key' = object := by
  constructor
  · rintro ⟨key', content', hlookup, rfl⟩
    by_cases hkey : key' = key
    · subst hkey
      rw [Finmap.lookup_erase] at hlookup
      cases hlookup
    · rw [Finmap.lookup_erase_ne hkey] at hlookup
      exact ⟨key', content', hkey, hlookup, rfl⟩
  · rintro ⟨key', content', hkey, hlookup, rfl⟩
    exact ⟨key', content', by rwa [Finmap.lookup_erase_ne hkey], rfl⟩

end LiveObjects

/-! ## Histories -/

/-- What happens to a live object. -/
inductive Change where
  | create (key : ObjectKey) (content : Content)
  | edit (key : ObjectKey) (content : Content)
  | delete (key : ObjectKey) (content : Content)

namespace Change

/-- Only new objects are created and only live ones edited or deleted. -/
def Applies (live : LiveObjects) : Change → Prop
  | .create key _ => live.lookup key = none
  | .edit key _ => ∃ old, live.lookup key = some old
  | .delete key content => live.lookup key = some content

/-- The live objects after it. -/
def after (live : LiveObjects) : Change → LiveObjects
  | .create key content => live.insert key content
  | .edit key content => live.insert key content
  | .delete key _ => live.erase key

/-- The event the watcher delivers for it. -/
def event : Change → WatchEvent
  | .create key content => .apply (content.object key)
  | .edit key content => .apply (content.object key)
  | .delete key content => .delete (content.object key)

/-- An edit leaves an object that had a usable MAC with the same one. -/
def KeepsMac (live : LiveObjects) : Change → Prop
  | .create _ _ => True
  | .edit key content => ∀ old mac, live.lookup key = some old →
      (old.object key).usableMac = some mac → (content.object key).usableMac = some mac
  | .delete _ _ => True

end Change

/-- Every change applies where it happens, and leaves the MACs distinct. -/
def ValidChanges (live : LiveObjects) : List Change → Prop
  | [] => True
  | change :: rest =>
    change.Applies live ∧ (change.after live).Distinct ∧ ValidChanges (change.after live) rest

/-- No change takes a MAC away where it happens. -/
def KeepsMacs (live : LiveObjects) : List Change → Prop
  | [] => True
  | change :: rest => change.KeepsMac live ∧ KeepsMacs (change.after live) rest

/-- A history of the cluster: the objects live at the relist, in the order it lists them, and
what happens to them afterwards. -/
structure History where
  start : LiveObjects
  distinct : start.Distinct
  listing : List BootHost
  listed : start.ListedBy listing
  changes : List Change
  valid : ValidChanges start changes

/-- The view is exactly what a relist of the live objects would make of it. -/
def InStep (view : ClusterView) (live : LiveObjects) : Prop :=
  ∀ objects, live.ListedBy objects → view.reset objects = view

/-- The view is in step before the changes, and after each of them. -/
def StaysInStep (watch : Watch) (live : LiveObjects) : List Change → Prop
  | [] => InStep watch.view live
  | change :: rest =>
    InStep watch.view live ∧ StaysInStep (watch.step change.event) (change.after live) rest

/-! ## The invariant -/

/-- Under a MAC, the index holds the live object with that MAC and the cluster layer its
record, or neither holds anything because there is none. -/
structure MirrorsAt (view : ClusterView) (live : LiveObjects) (mac : Mac) : Prop where
  index : ∀ object, view.index.lookup mac = some object ↔
    object.usableMac = some mac ∧ live.Has object
  kube : ∀ record, view.hosts.kube.lookup mac = some record ↔
    record.mac = mac ∧ ∃ object, object.toRecord = some record ∧ live.Has object

/-- The view mirrors the live objects under every MAC. -/
structure Mirrors (view : ClusterView) (live : LiveObjects) : Prop where
  under : ∀ mac, MirrorsAt view live mac
  synced : view.hosts.kubeSynced = true

/-- A relist mirrors the objects it lists. -/
theorem reset_mirrors (view : ClusterView) (live : LiveObjects) (objects : List BootHost)
    (hlisted : live.ListedBy objects) (hdistinct : live.Distinct) :
    Mirrors (view.reset objects) live := by
  have hmem := LiveObjects.mem_of_listedBy hlisted
  rw [ClusterView.reset_eq]
  refine ⟨fun mac => ⟨fun object => ?_, fun record => ?_⟩, rfl⟩
  · have hpairs : ∀ mac o, (mac, o) ∈
        (objects.filterMap fun o => o.usableMac.map fun mac => (mac, o)) ↔
          o.usableMac = some mac ∧ live.Has o := by
      intro mac o
      simp only [List.mem_filterMap, Option.map_eq_some_iff, Prod.mk.injEq]
      constructor
      · rintro ⟨o', ho', mac', hmac, rfl, rfl⟩
        exact ⟨hmac, (hmem o').mp ho'⟩
      · rintro ⟨hmac, ho⟩
        exact ⟨o, (hmem o).mpr ho, mac, hmac, rfl, rfl⟩
    rw [HashMap.lookup_collect_eq_some_iff, hpairs]
    intro mac o o' ho ho'
    obtain ⟨hmac, hhas⟩ := (hpairs mac o).mp ho
    obtain ⟨hmac', hhas'⟩ := (hpairs mac o').mp ho'
    exact hdistinct o o' mac hhas hhas' hmac hmac'
  · have hpairs : ∀ mac r, (mac, r) ∈
        ((objects.filterMap BootHost.toRecord).map fun r => (r.mac, r)) ↔
          r.mac = mac ∧ ∃ o, o.toRecord = some r ∧ live.Has o := by
      intro mac r
      simp only [List.mem_map, List.mem_filterMap, Prod.mk.injEq]
      constructor
      · rintro ⟨r', ⟨o, ho, hrecord⟩, hmac, rfl⟩
        exact ⟨hmac, o, hrecord, (hmem o).mp ho⟩
      · rintro ⟨hmac, o, hrecord, ho⟩
        exact ⟨r, ⟨o, (hmem o).mpr ho, hrecord⟩, hmac, rfl⟩
    unfold HostStore.setKubeRecords
    simp only
    rw [HashMap.lookup_collect_eq_some_iff, hpairs]
    intro mac r r' hr hr'
    obtain ⟨hmac, o, hrecord, hhas⟩ := (hpairs mac r).mp hr
    obtain ⟨hmac', o', hrecord', hhas'⟩ := (hpairs mac r').mp hr'
    have husable : o.usableMac = some mac := hmac ▸ BootHost.usableMac_of_toRecord hrecord
    have husable' : o'.usableMac = some mac := hmac' ▸ BootHost.usableMac_of_toRecord hrecord'
    rw [hdistinct o o' mac hhas hhas' husable husable', hrecord'] at hrecord
    cases hrecord
    rfl

/-- Two views that mirror the same objects over the same file layer are the same. -/
theorem Mirrors.unique {view view' : ClusterView} {live : LiveObjects} (h : Mirrors view live)
    (h' : Mirrors view' live) (hfile : view.hosts.file = view'.hosts.file) : view = view' := by
  obtain ⟨index, file, kube, synced⟩ := view
  obtain ⟨index', file', kube', synced'⟩ := view'
  obtain rfl : index = index' := Finmap.ext_lookup fun mac => by
    refine Option.ext fun object => ?_
    rw [(h.under mac).index object, (h'.under mac).index object]
  obtain rfl : kube = kube' := Finmap.ext_lookup fun mac => by
    refine Option.ext fun record => ?_
    rw [(h.under mac).kube record, (h'.under mac).kube record]
  obtain rfl : file = file' := hfile
  obtain rfl : synced = true := h.synced
  obtain rfl : synced' = true := h'.synced
  rfl

/-- A view is in step exactly when it mirrors the live objects. -/
theorem inStep_iff_mirrors (view : ClusterView) (live : LiveObjects) (hdistinct : live.Distinct) :
    InStep view live ↔ Mirrors view live := by
  constructor
  · intro hstep
    obtain ⟨objects, hlisted⟩ := live.exists_listing
    rw [← hstep objects hlisted]
    exact reset_mirrors view live objects hlisted hdistinct
  · intro h objects hlisted
    exact (reset_mirrors view live objects hlisted hdistinct).unique h (by
      rw [ClusterView.reset_eq]; rfl)

/-! ## One change -/

/-- Where neither the view nor the live objects change, the view keeps mirroring them. -/
theorem MirrorsAt.frame {view view' : ClusterView} {live live' : LiveObjects} {mac : Mac}
    (h : MirrorsAt view live mac)
    (hview : view'.index.lookup mac = view.index.lookup mac ∧
      view'.hosts.kube.lookup mac = view.hosts.kube.lookup mac)
    (hlive : ∀ object, object.usableMac = some mac → (live'.Has object ↔ live.Has object)) :
    MirrorsAt view' live' mac := by
  refine ⟨fun object => ?_, fun record => ?_⟩
  · rw [hview.1, h.index object]
    exact and_congr_right fun husable => (hlive object husable).symm
  · rw [hview.2, h.kube record]
    refine and_congr_right fun hmac => exists_congr fun object => and_congr_right fun hrecord => ?_
    exact (hlive object (hmac ▸ BootHost.usableMac_of_toRecord hrecord)).symm

/-- An object applied under its MAC is mirrored there. -/
theorem mirrorsAt_apply (view : ClusterView) (live : LiveObjects) (object : BootHost)
    (record : HostRecord) (hrecord : object.toRecord = some record) (hhas : live.Has object)
    (hdistinct : live.Distinct) : MirrorsAt (view.apply object) live record.mac := by
  obtain ⟨hindex, hkube⟩ := view.apply_self object record hrecord
  have husable := BootHost.usableMac_of_toRecord hrecord
  refine ⟨fun object' => ?_, fun record' => ?_⟩
  · rw [hindex, Option.some.injEq]
    constructor
    · rintro rfl
      exact ⟨husable, hhas⟩
    · rintro ⟨husable', hhas'⟩
      exact hdistinct object object' record.mac hhas hhas' husable husable'
  · rw [hkube, Option.some.injEq]
    constructor
    · rintro rfl
      exact ⟨rfl, object, hrecord, hhas⟩
    · rintro ⟨hmac, object', hrecord', hhas'⟩
      have husable' := hmac ▸ BootHost.usableMac_of_toRecord hrecord'
      rw [← hdistinct object object' record.mac hhas hhas' husable husable', hrecord] at hrecord'
      exact Option.some.inj hrecord'

/-- A put that takes no MAC away is mirrored by applying the object it puts. -/
theorem mirrors_put (view : ClusterView) (live : LiveObjects) (key : ObjectKey)
    (content : Content) (h : Mirrors view live)
    (hdistinct : LiveObjects.Distinct (live.insert key content))
    (hkeeps : ∀ old mac, live.lookup key = some old → (old.object key).usableMac = some mac →
      (content.object key).usableMac = some mac) :
    Mirrors (view.apply (content.object key)) (live.insert key content) := by
  refine ⟨fun mac => ?_, by rw [ClusterView.apply_synced, h.synced]⟩
  by_cases husable : (content.object key).usableMac = some mac
  · obtain ⟨record, hrecord, rfl⟩ := Option.map_eq_some_iff.mp husable
    have hhas : LiveObjects.Has (live.insert key content) (content.object key) :=
      (LiveObjects.has_insert_iff ..).mpr (.inl rfl)
    exact mirrorsAt_apply view _ _ record hrecord hhas hdistinct
  · refine (h.under mac).frame (view.apply_frame _ mac husable) fun object hobject => ?_
    rw [LiveObjects.has_insert_iff]
    constructor
    · rintro (rfl | ⟨key', content', -, hlookup, heq⟩)
      · exact absurd hobject husable
      · exact ⟨key', content', hlookup, heq⟩
    · rintro ⟨key', content', hlookup, rfl⟩
      refine .inr ⟨key', content', ?_, hlookup, rfl⟩
      rintro rfl
      exact husable (hkeeps content' mac hlookup hobject)

/-- A removal is mirrored by deleting the object it removes. -/
theorem mirrors_delete (view : ClusterView) (live : LiveObjects) (key : ObjectKey)
    (content : Content) (h : Mirrors view live) (hdistinct : live.Distinct)
    (hlive : live.lookup key = some content) :
    Mirrors (view.delete (content.object key)) (live.erase key) := by
  refine ⟨fun mac => ?_, by rw [ClusterView.delete_synced, h.synced]⟩
  by_cases husable : (content.object key).usableMac = some mac
  · obtain ⟨record, hrecord, rfl⟩ := Option.map_eq_some_iff.mp husable
    obtain ⟨hindex, hkube⟩ := view.delete_self _ record hrecord
    -- The removed object was the only one with this MAC.
    have hnone : ∀ object, object.usableMac = some record.mac →
        ¬LiveObjects.Has (live.erase key) object := by
      intro object hobject hhas
      obtain ⟨key', content', hkey, hlookup, rfl⟩ := (LiveObjects.has_erase_iff ..).mp hhas
      have heq := hdistinct _ _ record.mac ⟨key', content', hlookup, rfl⟩
        ⟨key, content, hlive, rfl⟩ hobject husable
      exact hkey (Content.object_inj heq).1
    refine ⟨fun object => ?_, fun record' => ?_⟩
    · rw [hindex]
      constructor
      · intro hsome
        cases hsome
      · rintro ⟨hobject, hhas⟩
        exact absurd hhas (hnone object hobject)
    · rw [hkube]
      constructor
      · intro hsome
        cases hsome
      · rintro ⟨hmac, object, hrecord', hhas⟩
        exact absurd hhas (hnone object (hmac ▸ BootHost.usableMac_of_toRecord hrecord'))
  · refine (h.under mac).frame (view.delete_frame _ mac husable) fun object hobject => ?_
    rw [LiveObjects.has_erase_iff]
    constructor
    · rintro ⟨key', content', -, hlookup, heq⟩
      exact ⟨key', content', hlookup, heq⟩
    · rintro ⟨key', content', hlookup, rfl⟩
      refine ⟨key', content', ?_, hlookup, rfl⟩
      rintro rfl
      rw [hlive, Option.some.injEq] at hlookup
      exact husable (hlookup ▸ hobject)

/-- An edit that takes a MAC away leaves the old object under it. -/
theorem not_mirrors_edit (view : ClusterView) (live : LiveObjects) (key : ObjectKey)
    (content old : Content) (mac : Mac) (h : Mirrors view live)
    (hlive : live.lookup key = some old) (hold : (old.object key).usableMac = some mac)
    (hnew : (content.object key).usableMac ≠ some mac) :
    ¬Mirrors (view.apply (content.object key)) (live.insert key content) := by
  intro hmirrors
  have hstale : (view.apply (content.object key)).index.lookup mac = some (old.object key) := by
    rw [(view.apply_frame _ mac hnew).1, (h.under mac).index]
    exact ⟨hold, key, old, hlive, rfl⟩
  obtain ⟨-, hhas⟩ := ((hmirrors.under mac).index _).mp hstale
  rcases (LiveObjects.has_insert_iff ..).mp hhas with heq | ⟨key', content', hkey, -, heq⟩
  · exact hnew (heq ▸ hold)
  · exact hkey (Content.object_inj heq).1

/-- A change keeps the view a mirror exactly when it takes no MAC away. -/
theorem mirrors_step_iff (watch : Watch) (live : LiveObjects) (change : Change)
    (h : Mirrors watch.view live) (hdistinct : live.Distinct) (happlies : change.Applies live)
    (hafter : (change.after live).Distinct) :
    Mirrors (watch.step change.event).view (change.after live) ↔ change.KeepsMac live := by
  cases change with
  | create key content =>
    refine ⟨fun _ => trivial, fun _ => mirrors_put _ live key content h hafter ?_⟩
    intro old mac hold
    rw [show live.lookup key = none from happlies] at hold
    cases hold
  | edit key content =>
    constructor
    · intro hmirrors old mac hlive hold
      by_contra hnew
      exact not_mirrors_edit _ live key content old mac h hlive hold hnew hmirrors
    · exact fun hkeeps => mirrors_put _ live key content h hafter hkeeps
  | delete key content =>
    exact ⟨fun _ => trivial, fun _ => mirrors_delete _ live key content h hdistinct happlies⟩

/-! ## Whole histories -/

/-- A mirroring view stays in step exactly as long as no MAC is taken away. -/
theorem staysInStep_iff (watch : Watch) (live : LiveObjects) (changes : List Change)
    (h : Mirrors watch.view live) (hdistinct : live.Distinct) (hvalid : ValidChanges live changes) :
    StaysInStep watch live changes ↔ KeepsMacs live changes := by
  induction changes generalizing watch live with
  | nil => exact ⟨fun _ => trivial, fun _ => (inStep_iff_mirrors _ live hdistinct).mpr h⟩
  | cons change rest ih =>
    obtain ⟨happlies, hafter, hrest⟩ := hvalid
    have hstep := mirrors_step_iff watch live change h hdistinct happlies hafter
    constructor
    · rintro ⟨-, hstays⟩
      have hin : InStep (watch.step change.event).view (change.after live) := by
        cases rest with
        | nil => exact hstays
        | cons _ _ => exact hstays.1
      have hmirrors := (inStep_iff_mirrors _ _ hafter).mp hin
      exact ⟨hstep.mp hmirrors, (ih _ _ hmirrors hafter hrest).mp hstays⟩
    · rintro ⟨hkeeps, hkeepsRest⟩
      have hmirrors := hstep.mpr hkeeps
      exact ⟨(inStep_iff_mirrors _ live hdistinct).mpr h,
        (ih _ _ hmirrors hafter hrest).mpr hkeepsRest⟩

/-- Delivered as a relist and then change by change, a history leaves the view in step with
the live objects throughout exactly when no edit takes a usable MAC away. -/
theorem incremental_refines_relist_iff (watch : Watch) (history : History) :
    StaysInStep ((Watch.relist history.listing).foldl Watch.step watch) history.start
        history.changes ↔
      KeepsMacs history.start history.changes := by
  rw [Watch.step_relist]
  exact staysInStep_iff _ _ _
    (reset_mirrors watch.view history.start history.listing history.listed history.distinct)
    history.distinct history.valid

/-! ## An edited MAC -/

namespace EditedMac

/-- The key of the object. -/
def key : ObjectKey := ⟨"storm-system".toList, "node1".toList⟩

/-- The object with a MAC, at a generation. -/
def content (mac : Text) (generation : Int64) : Content where
  generation := generation
  spec := ⟨mac, none, none, none, none, none, true⟩
  status := none

/-- A single object has its MAC to itself. -/
theorem distinct_singleton (content : Content) :
    LiveObjects.Distinct (Finmap.singleton key content) := by
  have honly : ∀ object, LiveObjects.Has (Finmap.singleton key content) object →
      object = content.object key := by
    rintro object ⟨key', content', hlookup, rfl⟩
    have hmem : key' ∈ Finmap.singleton (β := fun _ => Content) key content :=
      Finmap.mem_of_lookup_eq_some hlookup
    obtain rfl := (Finmap.mem_singleton key' key content).mp hmem
    rw [Finmap.lookup_singleton_eq, Option.some.injEq] at hlookup
    rw [hlookup]
  intro object object' _ hhas hhas' _ _
  rw [honly object hhas, honly object' hhas']

/-- One object, whose mistyped MAC an operator corrects. -/
def history : History where
  start := Finmap.singleton key (content "aa:bb:cc:dd:ee:01".toList 1)
  distinct := distinct_singleton _
  listing := [(content "aa:bb:cc:dd:ee:01".toList 1).object key]
  listed := rfl
  changes := [.edit key (content "aa:bb:cc:dd:ee:02".toList 2)]
  valid := by
    refine ⟨⟨_, Finmap.lookup_singleton_eq⟩, ?_, trivial⟩
    rw [Change.after, Finmap.insert_singleton_eq]
    exact distinct_singleton _

end EditedMac

/-- After the correction, the view still has the object under the mistyped MAC. -/
theorem edited_mac_not_inStep :
    ¬∀ (watch : Watch) (history : History),
      StaysInStep ((Watch.relist history.listing).foldl Watch.step watch) history.start
        history.changes := by
  intro hall
  let watch : Watch := ⟨⟨∅, .empty⟩, []⟩
  have hstays := hall watch EditedMac.history
  rw [Watch.step_relist] at hstays
  have hkeeps := (staysInStep_iff _ _ _
    (reset_mirrors watch.view _ _ EditedMac.history.listed EditedMac.history.distinct)
    EditedMac.history.distinct EditedMac.history.valid).mp hstays
  have hsame := hkeeps.1 _ ⟨#v[0xaa, 0xbb, 0xcc, 0xdd, 0xee, 0x01]⟩ Finmap.lookup_singleton_eq
    (by decide)
  revert hsame
  decide

end Stormnetboot.Server

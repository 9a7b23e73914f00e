import Stormnetboot.Common.Runs
import Stormnetboot.Server.StatusWriter

/-!
# Noting a status while the watch moves on

A status is noted under a MAC after the patch was answered, and by then the watch may have put
another object there. What the index will hold once everything pending is delivered is what the
live objects say, and every step keeps that but one: a note that no later event corrects, on an
object that does not have the noted status. Such an object is taken for written and never is.
-/

namespace Stormnetboot.Server

open Stormnetboot.Common

/-- The apiserver stores a patched status whole. -/
def storeWhole : StoreStatus :=
  fun _ desired => desired

/-- The live objects, a process, and what its watch has yet to be told. -/
structure Writing where
  live : LiveObjects
  pending : List WatchEvent
  process : Process

/-- What can happen. A relist drops what is pending and lists the objects as they are. -/
inductive WritingEvent where
  | changed (change : Change)
  | relisted (objects : List BootHost)
  | delivered
  | observed (seen : Observed)
  | writer (event : WriterEvent)

namespace Writing

/-- An object changes, and the watch will be told. -/
def change (s : Writing) (change : Change) : Writing :=
  { s with live := change.after s.live, pending := s.pending ++ [change.event] }

/-- A step of the writer, with the patch the apiserver accepts in it. -/
def wrote (s : Writing) (result : Process × Option Change) : Writing :=
  let s := { s with process := result.1 }
  result.2.elim s s.change

/-- One step, and the patches the apiserver accepts in it. -/
def step (s : Writing) : WritingEvent → Writing × List Change
  | .changed change => (s.change change, [])
  | .relisted objects => ({ s with pending := Watch.relist objects }, [])
  | .delivered =>
    match s.pending with
    | [] => (s, [])
    | event :: rest =>
      ({ s with
        pending := rest
        process := { s.process with watch := s.process.watch.step event } }, [])
  | .observed seen => ({ s with process := { s.process with seen := seen } }, [])
  | .writer event =>
    let result := s.process.write storeWhole s.live event
    (s.wrote result, result.2.toList)

/-- The watch once everything pending is delivered. -/
def final (s : Writing) : Watch :=
  s.pending.foldl Watch.step s.process.watch

end Writing

/-- The index holds each live object, under its MAC, as it is. -/
def Truthful (index : BootHostIndex) (live : LiveObjects) : Prop :=
  ∀ mac object key content, index.lookup mac = some object → object.key = some key →
    live.lookup key = some content → (content.object key).usableMac = some mac →
      object = content.object key

/-! ## Changes -/

section Truthful

variable {view : ClusterView} {live : LiveObjects}

/-- A put that is applied. -/
theorem Truthful.put (h : Truthful view.index live) (key : ObjectKey) (content : Content) :
    Truthful (view.apply (content.object key)).index (live.insert key content) := by
  intro mac object key' content' hlookup hkey hlive husable
  by_cases hmac : (content.object key).usableMac = some mac
  · obtain ⟨record, hrecord, rfl⟩ := Option.map_eq_some_iff.mp hmac
    rw [(view.apply_self _ record hrecord).1, Option.some.injEq] at hlookup
    subst hlookup
    rw [BootHost.key_object, Option.some.injEq] at hkey
    subst hkey
    rw [Finmap.lookup_insert, Option.some.injEq] at hlive
    rw [hlive]
  · rw [(view.apply_frame _ mac hmac).1] at hlookup
    by_cases hsame : key' = key
    · subst hsame
      rw [Finmap.lookup_insert, Option.some.injEq] at hlive
      exact absurd (hlive ▸ husable) hmac
    · rw [Finmap.lookup_insert_of_ne _ hsame] at hlive
      exact h mac object key' content' hlookup hkey hlive husable

/-- A removal that is delivered. -/
theorem Truthful.delete (h : Truthful view.index live) (key : ObjectKey) (removed : BootHost) :
    Truthful (view.delete removed).index (live.erase key) := by
  intro mac object key' content' hlookup hkey hlive husable
  have hother : key' ≠ key := by
    rintro rfl
    rw [Finmap.lookup_erase] at hlive
    cases hlive
  rw [Finmap.lookup_erase_ne hother] at hlive
  by_cases hmac : removed.usableMac = some mac
  · obtain ⟨record, hrecord, rfl⟩ := Option.map_eq_some_iff.mp hmac
    rw [(view.delete_self _ record hrecord).1] at hlookup
    cases hlookup
  · rw [(view.delete_frame _ mac hmac).1] at hlookup
    exact h mac object key' content' hlookup hkey hlive husable

/-- A relist of the live objects. -/
theorem truthful_reset (view : ClusterView) {objects : List BootHost}
    (hlisted : live.ListedBy objects) : Truthful (view.reset objects).index live := by
  intro mac object key content hlookup hkey hlive husable
  rw [ClusterView.reset_eq] at hlookup
  obtain ⟨object', hmem, mac', -, heq⟩ : ∃ object' ∈ objects, ∃ mac',
      object'.usableMac = some mac' ∧ (mac', object') = (mac, object) := by
    simpa only [List.mem_filterMap, Option.map_eq_some_iff] using
      HashMap.mem_of_lookup_collect _ hlookup
  cases heq
  obtain ⟨key', content', hlive', rfl⟩ := (LiveObjects.mem_of_listedBy hlisted object).mp hmem
  rw [BootHost.key_object, Option.some.injEq] at hkey
  subst hkey
  rw [hlive, Option.some.injEq] at hlive'
  rw [hlive']

end Truthful

/-! ## Notes -/

/-- The event replaces or removes whatever stands under the MAC. -/
def WatchEvent.Touches (mac : Mac) : WatchEvent → Prop
  | .apply object => object.usableMac = some mac
  | .delete object => object.usableMac = some mac
  | .initDone => True
  | _ => False

/-- A status is noted. -/
def Watch.note (mac : Mac) (desired : BootHostStatus) (watch : Watch) : Watch :=
  { watch with view := watch.view.noteStatus mac desired }

section Note

variable {mac : Mac} {desired : BootHostStatus}

/-- A note changes the status of its own MAC only. -/
theorem Watch.lookup_note (watch : Watch) (mac' : Mac) :
    (watch.note mac desired).view.index.lookup mac' =
      if mac' = mac then
        (watch.view.index.lookup mac).map fun object => { object with status := some desired }
      else watch.view.index.lookup mac' :=
  BootHostIndex.lookup_noteStatus ..

/-- An event that touches the MAC makes up for a note under it. -/
theorem Watch.step_note_of_touches (watch : Watch) {event : WatchEvent}
    (h : event.Touches mac) : (watch.note mac desired).step event = watch.step event := by
  cases event with
  | init => cases h
  | initApply object => cases h
  | error => cases h
  | initDone => rfl
  | apply object =>
    obtain ⟨record, hrecord, rfl⟩ := Option.map_eq_some_iff.mp h
    simp only [Watch.step, ClusterView.apply, hrecord, Watch.note, ClusterView.noteStatus,
      BootHostIndex.noteStatus, HashMap.insert_modify_self]
  | delete object =>
    obtain ⟨record, hrecord, rfl⟩ := Option.map_eq_some_iff.mp h
    simp only [Watch.step, ClusterView.delete, hrecord, Watch.note, ClusterView.noteStatus,
      BootHostIndex.noteStatus, HashMap.erase_modify_self]

/-- Any other event leaves the note standing. -/
theorem Watch.step_note_of_not_touches (watch : Watch) {event : WatchEvent}
    (h : ¬event.Touches mac) :
    (watch.note mac desired).step event = (watch.step event).note mac desired := by
  cases event with
  | init => rfl
  | initApply object => rfl
  | error => rfl
  | initDone => exact absurd trivial h
  | apply object =>
    cases hrecord : object.toRecord with
    | none => simp only [Watch.step, ClusterView.apply, hrecord, Watch.note]
    | some record =>
      have hne : record.mac ≠ mac := fun heq => h (heq ▸ BootHost.usableMac_of_toRecord hrecord)
      simp only [Watch.step, ClusterView.apply, hrecord, Watch.note, ClusterView.noteStatus,
      BootHostIndex.noteStatus, HashMap.insert_modify_of_ne hne]
  | delete object =>
    cases hrecord : object.toRecord with
    | none => simp only [Watch.step, ClusterView.delete, hrecord, Watch.note]
    | some record =>
      have hne : record.mac ≠ mac := fun heq => h (heq ▸ BootHost.usableMac_of_toRecord hrecord)
      simp only [Watch.step, ClusterView.delete, hrecord, Watch.note, ClusterView.noteStatus,
      BootHostIndex.noteStatus, HashMap.erase_modify_of_ne hne]

/-- An event leaves alone what stands under a MAC it does not touch. -/
theorem Watch.lookup_step_of_not_touches (watch : Watch) {event : WatchEvent}
    (h : ¬event.Touches mac) :
    (watch.step event).view.index.lookup mac = watch.view.index.lookup mac := by
  cases event with
  | init => rfl
  | initApply object => rfl
  | error => rfl
  | initDone => exact absurd trivial h
  | apply object => exact (watch.view.apply_frame object mac h).1
  | delete object => exact (watch.view.delete_frame object mac h).1

/-- A note is made up for by what is pending, or stands in the end on what was there. -/
theorem Watch.foldl_note (events : List WatchEvent) (watch : Watch) :
    (events.foldl step (watch.note mac desired) = events.foldl step watch) ∨
      (¬∃ event ∈ events, event.Touches mac) ∧
        events.foldl step (watch.note mac desired) =
          (events.foldl step watch).note mac desired ∧
        (events.foldl step watch).view.index.lookup mac = watch.view.index.lookup mac := by
  induction events generalizing watch with
  | nil => exact .inr ⟨by simp, rfl, rfl⟩
  | cons event rest ih =>
    rw [List.foldl_cons, List.foldl_cons]
    by_cases htouches : event.Touches mac
    · exact .inl (by rw [watch.step_note_of_touches htouches])
    · rw [watch.step_note_of_not_touches htouches]
      rcases ih (watch.step event) with hsame | ⟨hnone, hnote, hlookup⟩
      · exact .inl hsame
      · refine .inr ⟨?_, hnote, hlookup.trans (watch.lookup_step_of_not_touches htouches)⟩
        rintro ⟨other, hmem, hother⟩
        rcases List.mem_cons.mp hmem with rfl | hrest
        · exact htouches hother
        · exact hnone ⟨other, hrest, hother⟩

end Note

/-! ## Runs -/

namespace Writing

/-- The index is going to be truthful. -/
def Sound (s : Writing) : Prop :=
  Truthful s.final.view.index s.live

/-- What is noted under the MAC is going to be corrected, or is what the live object that is
noted has. -/
def NoteHolds (s : Writing) (patch : StatusPatch) : Prop :=
  (∃ event ∈ s.pending, event.Touches patch.mac) ∨
    ∀ object key content, s.process.watch.view.index.lookup patch.mac = some object →
      object.key = some key → s.live.lookup key = some content →
        (content.object key).usableMac = some patch.mac → content.status = some patch.desired

/-- Relists list the live objects, and notes hold. -/
def Careful (s : Writing) : WritingEvent → Prop
  | .relisted objects => s.live.ListedBy objects
  | .writer .note => ∀ pass patch, s.process.pass = some pass → pass.stage = .noting patch →
      s.NoteHolds patch
  | _ => True

/-- A change is told to the watch after everything else. -/
theorem Sound.change {s : Writing} (h : s.Sound) (change : Change) : (s.change change).Sound := by
  have hfinal : (s.change change).final = s.final.step change.event := List.foldl_concat ..
  unfold Sound
  rw [hfinal]
  cases change with
  | create key content => exact h.put key content
  | edit key content => exact h.put key content
  | delete key content => exact h.delete key (content.object key)

/-- A note that holds changes nothing in the end. -/
theorem Sound.note {s : Writing} (h : s.Sound) {patch : StatusPatch} (hholds : s.NoteHolds patch) :
    Truthful (s.pending.foldl Watch.step
      (s.process.watch.note patch.mac patch.desired)).view.index s.live := by
  rcases Watch.foldl_note s.pending s.process.watch with hsame | ⟨hnone, hnote, hlookup⟩
  · rw [hsame]
    exact h
  · rw [hnote]
    intro mac object key content hobject hkey hlive husable
    rw [Watch.lookup_note] at hobject
    split_ifs at hobject with hmac
    · obtain ⟨before, hbefore, rfl⟩ := Option.map_eq_some_iff.mp hobject
      subst hmac
      have htruth := h patch.mac before key content hbefore hkey hlive husable
      have hstatus := (hholds.resolve_left hnone) before key content (hlookup ▸ hbefore) hkey hlive
        husable
      rw [htruth, ← hstatus]
      rfl
    · exact h mac object key content hobject hkey hlive husable

/-- A step of the writer keeps the index going to be truthful. -/
theorem Sound.wrote {s : Writing} {event : WriterEvent} {result : Process × Option Change}
    (h : s.Sound) (hwrites : Writes storeWhole s.live s.process event result)
    (hcareful : s.Careful (.writer event)) : (s.wrote result).Sound := by
  cases hwrites with
  | idle => exact h
  | begins now order hidle => exact h
  | turns pass hpass hstage => exact h
  | rejects accepted pass patch hpass hstage => exact h
  | accepts pass patch content hpass hstage hlive =>
    have hnoting : Sound { s with process := { s.process with
      pass := some { pass with stage := .noting patch } } } := h
    exact hnoting.change _
  | notes pass patch hpass hstage => exact h.note (hcareful pass patch hpass hstage)

/-- So does every step. -/
theorem Sound.step {s : Writing} {event : WritingEvent} (h : s.Sound) (hcareful : s.Careful event) :
    (s.step event).1.Sound := by
  cases event with
  | changed change => exact h.change change
  | relisted objects =>
    have hfinal : ((s.step (.relisted objects)).1).final =
        { view := s.process.watch.view.reset objects, relisting := [] } :=
      Watch.step_relist _ objects
    unfold Sound
    rw [hfinal]
    exact truthful_reset _ hcareful
  | delivered =>
    unfold Writing.step
    cases hpending : s.pending with
    | nil => exact h
    | cons event rest =>
      unfold Sound final at h
      rw [hpending] at h
      exact h
  | observed seen => exact h
  | writer event => exact h.wrote (Process.writes_write ..) hcareful

end Writing

end Stormnetboot.Server

import Stormnetboot.Server.QuietPasses

/-!
# No status is lost while notes hold

A fresh process starts with nothing in its index. If in its run every note that nothing pending
corrects is for what the live object has, then, once the index is caught up and holds no object
under a MAC it no longer has, quiet passes store every live object's status. An object that is
deleted and created again between the answer and the note breaks this: the new object is taken
for written.
-/

namespace Stormnetboot.Server

open Stormnetboot.Common

namespace Writing

/-- A process that has listed nothing yet. -/
def start (live : LiveObjects) (hosts : HostStore) (seen : Observed) : Writing where
  live := live
  pending := []
  process := { seen := seen, watch := ⟨⟨∅, hosts⟩, []⟩, pass := none }

/-- What is still pending changes nothing in the index. -/
def CaughtUp (s : Writing) : Prop :=
  s.final.view.index = s.index

/-- No live object stands under a MAC that is not its own any more. -/
def NoneLeftOver (s : Writing) : Prop :=
  ∀ mac object key content, s.index.lookup mac = some object → object.key = some key →
    s.live.lookup key = some content → (content.object key).usableMac = some mac

/-- Every live object that holds its MAC's entry has its status stored. -/
def Stored (s : Writing) : Prop :=
  ∀ mac object key content, s.live.lookup key = some content →
    (content.object key).usableMac = some mac → s.index.lookup mac = some object →
      object.key = some key →
        ∀ now, content.status = some (s.process.seen.desired mac now (content.object key))

section Fresh

variable {s : Writing}

/-- An index that is going to be truthful, when nothing changes it any more. -/
theorem Sound.faithful (h : s.Sound) (hcaught : s.CaughtUp) (hleft : s.NoneLeftOver) :
    Faithful s.index s.live := by
  intro mac object key content hobject hkey hlive
  have husable := hleft mac object key content hobject hkey hlive
  have hfinal : s.final.view.index.lookup mac = some object := by
    rw [hcaught]
    exact hobject
  exact ⟨h mac object key content hfinal hkey hlive husable, husable⟩

/-- After a careful run the index is going to be truthful. -/
theorem sound_after (live : LiveObjects) (hosts : HostStore) (seen : Observed)
    (events : List WritingEvent)
    (hcareful : Always Writing.step Careful (start live hosts seen) events) :
    ((start live hosts seen).after events).Sound := by
  have hstart : (start live hosts seen).Sound := by
    intro mac object key content hobject
    cases hobject
  have hrun : (runFrom Writing.step (start live hosts seen) [] events).1.Sound :=
    runFrom_invariant (fun s _ => s.Sound) (fun s _ event h hc => h.step hc) hstart events hcareful
  rw [fst_runFrom] at hrun
  exact hrun

/-- Where nothing waits, everything is stored. -/
theorem stored_of_waiting (hfaithful : Faithful s.index s.live) (h : s.waiting = ∅) :
    s.Stored := by
  intro mac object key content hlive husable hobject hkey now
  obtain ⟨rfl, -⟩ := hfaithful mac object key content hobject hkey hlive
  have hmac : mac ∉ s.waiting := h ▸ Finset.notMem_empty mac
  rw [mem_waiting_iff_of_lookup hobject] at hmac
  push Not at hmac
  exact hmac key content hkey hlive now

/-- After a careful run that leaves the writer idle, the index caught up and no entry left over,
enough passes store the status of every live object. -/
theorem stored_of_careful (live : LiveObjects) (hosts : HostStore) (seen : Observed)
    (events : List WritingEvent)
    (hcareful : Always Writing.step Careful (start live hosts seen) events)
    (hidle : ((start live hosts seen).after events).process.pass = none)
    (hcaught : ((start live hosts seen).after events).CaughtUp)
    (hleft : ((start live hosts seen).after events).NoneLeftOver)
    (passes : List (Text × HashMap.Iteration Mac BootHost))
    (henough : HashMap.len ((start live hosts seen).after events).index ≤
      maxPatchesPerPass * passes.length) :
    (((start live hosts seen).after events).quietPasses passes).Stored := by
  have hfaithful := (sound_after live hosts seen events hcareful).faithful hcaught hleft
  obtain ⟨-, hfaithful', hwaiting⟩ := waiting_quietPasses hidle hfaithful passes
    (Nat.le_trans (card_waiting_le _) henough)
  exact stored_of_waiting hfaithful' hwaiting

end Fresh

end Writing

namespace Recreated

/-- The object's key. -/
def key : ObjectKey := ⟨"storm-system".toList, "node1".toList⟩

/-- Its MAC. -/
def mac : Mac :=
  .ofOctets 0xaa 0xbb 0xcc 0xdd 0xee 0x01

/-- The object without a status. -/
def content : Content where
  generation := 1
  spec := ⟨"aa:bb:cc:dd:ee:01".toList, none, none, none, none, none, true⟩
  status := none

/-- When the pass begins. -/
def now : Text := "2026-09-01T00:00:00Z".toList

/-- Nothing was seen of any host. -/
def unseen : Observed := ⟨∅, ∅⟩

/-- Nothing was watched and nothing written. -/
def fresh : Writing :=
  Writing.start ∅ .empty unseen

/-- The status it should get. -/
def desired : BootHostStatus :=
  unseen.desired mac now (content.object key)

/-- The object is created and the watch told. -/
def created : List WritingEvent :=
  [.changed (.create key content), .delivered]

/-- A pass is at the object. -/
def begun : Writing :=
  (fresh.after created).withPass (some ⟨now, [(mac, content.object key)], 0, .walking⟩)

/-- The object as its status was stored, and as its spec was edited after that. -/
def edited : Content :=
  { content with generation := 2, status := some desired }

/-- It is patched, and the watch told before that is noted; when the pass is over, it is edited. -/
def written : List WritingEvent :=
  [.writer .turn, .writer (.answer true), .delivered, .writer .note, .writer .turn,
    .changed (.edit key edited), .delivered]

/-- It is patched, and before that is noted, it is deleted and created again. -/
def replaced : List WritingEvent :=
  [.writer .turn, .writer (.answer true),
    .changed (.delete key { content with status := some desired }),
    .changed (.create key content), .delivered, .delivered, .delivered, .writer .note,
    .writer .turn]

/-- The object created in its place, under the status that was noted. -/
def noted : BootHost :=
  { content.object key with status := some desired }

/-- The watch knows the object. -/
theorem index_created :
    (fresh.after created).index = Finmap.singleton mac (content.object key) := by
  decide

/-- The object has a usable MAC. -/
theorem usableMac_content : (content.object key).usableMac = some mac := by
  decide

/-- A pass goes through the one object. -/
theorem snapshot_created (order : HashMap.Iteration Mac BootHost) :
    BootHostIndex.snapshot order (fresh.after created).index = [(mac, content.object key)] := by
  rw [index_created]
  exact BootHostIndex.snapshot_singleton order mac (content.object key)

/-- It begins with it. -/
theorem after_begin (order : HashMap.Iteration Mac BootHost) :
    (fresh.after created).after [.writer (.begin now order)] = begun := by
  have hidle : (fresh.after created).process.pass = none := rfl
  have hbegin := (fresh.after created).step_writer (Process.write_begin hidle now order)
  have hsnapshot := snapshot_created order
  refine hbegin.trans ?_
  rw [hsnapshot]
  rfl

/-- The object that replaces it is known as noted. -/
theorem index_replaced : (begun.after replaced).index = Finmap.singleton mac noted := by
  decide

/-- The edited object is known as it was edited. -/
theorem index_written :
    (begun.after written).index = Finmap.singleton mac (edited.object key) := by
  decide

/-- It is stored as it was edited. -/
theorem live_written : (begun.after written).live.lookup key = some edited := by
  decide

/-- The pass, from where it is at the object. -/
theorem after_pass (order : HashMap.Iteration Mac BootHost) (rest : List WritingEvent) :
    fresh.after (created ++ .writer (.begin now order) :: rest) = begun.after rest := by
  rw [← after_begin order]
  rfl

/-- What is noted is what the object has. -/
theorem careful_written : Always Writing.step Writing.Careful begun written := by
  refine ⟨trivial, trivial, trivial, ?_, trivial, trivial, trivial, trivial⟩
  intro pass patch hpass hstage
  cases hpass
  cases hstage
  refine .inr fun object key' content' hobject hkey hlive _ => ?_
  have hindex : (begun.after (written.take 3)).index =
      Finmap.singleton mac noted := by
    decide
  change (begun.after (written.take 3)).index.lookup mac = some object at hobject
  rw [hindex, Finmap.lookup_singleton_eq, Option.some.injEq] at hobject
  subst hobject
  cases hkey
  have hstored : (begun.after (written.take 3)).live.lookup key =
      some { content with status := some desired } := by
    decide
  change (begun.after (written.take 3)).live.lookup key = some content' at hlive
  cases hstored.symm.trans hlive
  rfl

/-- The one entry there is stands under the MAC of its object. -/
theorem noneLeftOver_written : (begun.after written).NoneLeftOver := by
  intro mac' object key' content' hobject hkey hlive
  rw [index_written] at hobject
  obtain rfl : mac' = mac := Finmap.mem_singleton .. |>.mp (Finmap.mem_of_lookup_eq_some hobject)
  rw [Finmap.lookup_singleton_eq, Option.some.injEq] at hobject
  subst hobject
  rw [BootHost.key_object, Option.some.injEq] at hkey
  subst hkey
  rw [live_written, Option.some.injEq] at hlive
  subst hlive
  exact usableMac_content

/-- The next pass is at the object. -/
theorem quietPass_written (order : HashMap.Iteration Mac BootHost) :
    (begun.after written).quietPass now order =
      Writing.rounds 2 ((begun.after written).withPass
        (some ⟨now, [(mac, edited.object key)], 0, .walking⟩)) := by
  have hsnapshot : BootHostIndex.snapshot order (begun.after written).index =
      [(mac, edited.object key)] := by
    rw [index_written]
    exact BootHostIndex.snapshot_singleton order mac (edited.object key)
  have hbegin := (begun.after written).step_writer
    (Process.write_begin (rfl : (begun.after written).process.pass = none) now order)
  rw [Writing.quietPass, hsnapshot]
  refine congrArg (Writing.rounds 2) (hbegin.trans ?_)
  rw [show (begun.after written).process.watch.view.index = (begun.after written).index from rfl,
    hsnapshot]
  rfl

/-- Every object in the index looks settled. -/
theorem settled_replaced (mac' : Mac) (object : BootHost)
    (h : (begun.after replaced).index.lookup mac' = some object) :
    (begun.after replaced).process.seen.Settled mac' object := by
  rw [index_replaced] at h
  obtain rfl : mac' = mac := Finmap.mem_singleton .. |>.mp (Finmap.mem_of_lookup_eq_some h)
  rw [Finmap.lookup_singleton_eq, Option.some.injEq] at h
  subst h
  exact unseen.settled_patched mac now (content.object key)

end Recreated

/-- An object that is edited after its status was noted is patched again by the next pass. -/
theorem stored_of_written : ∃ order,
    let s := (Recreated.fresh.after
      (Recreated.created ++ .writer (.begin Recreated.now order) :: Recreated.written)).quietPasses
        [(Recreated.now, order)]
    s.Stored ∧ s.live.lookup Recreated.key = some { Recreated.edited with
      status := some (Recreated.unseen.desired Recreated.mac Recreated.now
        (Recreated.edited.object Recreated.key)) } := by
  obtain ⟨order⟩ : Nonempty (HashMap.Iteration Mac BootHost) := inferInstance
  have hrun := Recreated.after_pass order Recreated.written
  have hcareful : Always Writing.step Writing.Careful Recreated.fresh
      (Recreated.created ++ .writer (.begin Recreated.now order) :: Recreated.written) := by
    refine ⟨trivial, trivial, trivial, ?_⟩
    change Always Writing.step Writing.Careful ((Recreated.fresh.after Recreated.created).after
      [.writer (.begin Recreated.now order)]) Recreated.written
    rw [Recreated.after_begin order]
    exact Recreated.careful_written
  refine ⟨order, Writing.stored_of_careful ∅ .empty Recreated.unseen _ hcareful ?_ ?_ ?_
    [(Recreated.now, order)] ?_, ?_⟩
  · change (Recreated.fresh.after _).process.pass = none
    rw [hrun]
    rfl
  · change (Recreated.fresh.after _).CaughtUp
    rw [hrun]
    rfl
  · change (Recreated.fresh.after _).NoneLeftOver
    rw [hrun]
    exact Recreated.noneLeftOver_written
  · change HashMap.len (Recreated.fresh.after _).index ≤ maxPatchesPerPass * 1
    rw [hrun, Recreated.index_written]
    exact (by decide : 1 ≤ maxPatchesPerPass * 1)
  · rw [hrun, Writing.quietPasses, List.foldl_cons, List.foldl_nil, Recreated.quietPass_written]
    decide

/-- The status of the object that was deleted is noted for the one created in its place, which is
never patched. -/
theorem not_stored_of_recreated : ∃ order,
    let s := Recreated.fresh.after
      (Recreated.created ++ .writer (.begin Recreated.now order) :: Recreated.replaced)
    s.process.pass = none ∧ s.pending = [] ∧ ∀ passes, ¬(s.quietPasses passes).Stored := by
  obtain ⟨order⟩ : Nonempty (HashMap.Iteration Mac BootHost) := inferInstance
  refine ⟨order, ?_⟩
  rw [Recreated.after_pass order Recreated.replaced]
  refine ⟨rfl, rfl, fun passes hstored => ?_⟩
  rw [Writing.quietPasses_settled rfl Recreated.settled_replaced] at hstored
  have hlive : (Recreated.begun.after Recreated.replaced).live.lookup Recreated.key =
      some Recreated.content := by
    decide
  have hobject : (Recreated.begun.after Recreated.replaced).index.lookup Recreated.mac =
      some Recreated.noted := by
    rw [Recreated.index_replaced]
    exact Finmap.lookup_singleton_eq
  cases hstored Recreated.mac Recreated.noted Recreated.key Recreated.content hlive
    Recreated.usableMac_content hobject rfl Recreated.now

end Stormnetboot.Server

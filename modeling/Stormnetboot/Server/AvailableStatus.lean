import Stormnetboot.Common.Runs
import Stormnetboot.Server.BoundedTracking
import Stormnetboot.Server.StatusWriter

/-!
# A host that stays available

Several server processes reconcile the same objects. What they have seen of a host is in their
own bounded memory, which a restart empties and a full map thins out, and the status outlives
it. A pass of a process that no longer tracks a host takes its availability away; the status
keeps it as long as the processes that come to the object still track its host.
-/

namespace Stormnetboot.Server

open Stormnetboot.Common

/-- A process that has just started. -/
def Process.started : Process where
  seen := ⟨∅, ∅⟩
  watch := ⟨⟨∅, .empty⟩, []⟩
  pass := none

/-- The live objects, and the processes that reconcile them. -/
structure Cluster where
  live : LiveObjects
  processes : ℕ → Process

/-- What can happen. A process may be told anything by its watch. -/
inductive ClusterEvent where
  | changed (change : Change)
  | restart (p : ℕ)
  | saw (p : ℕ) (event : BootEvent)
  | claimed (p : ℕ) (claims : ClaimCache)
  | watched (p : ℕ) (event : WatchEvent)
  | writer (p : ℕ) (event : WriterEvent)

namespace Cluster

/-- One process becomes another. -/
def set (cluster : Cluster) (p : ℕ) (process : Process) : Cluster :=
  { cluster with processes := Function.update cluster.processes p process }

/-- A step of a writer, with the patch the apiserver accepts in it. -/
def wrote (cluster : Cluster) (p : ℕ) (result : Process × Option Change) : Cluster :=
  { cluster.set p result.1 with
    live := result.2.elim cluster.live (Change.after cluster.live) }

/-- One step, and the patches the apiserver accepts in it. -/
def step (cluster : Cluster) : ClusterEvent → Cluster × List Change
  | .changed change => ({ cluster with live := change.after cluster.live }, [])
  | .restart p => (cluster.set p .started, [])
  | .saw p event =>
    let process := cluster.processes p
    (cluster.set p { process with
      seen := { process.seen with boot := process.seen.boot.apply event } }, [])
  | .claimed p claims =>
    let process := cluster.processes p
    (cluster.set p { process with seen := { process.seen with claims := claims } }, [])
  | .watched p event =>
    let process := cluster.processes p
    (cluster.set p { process with watch := process.watch.step event }, [])
  | .writer p event =>
    let result := (cluster.processes p).write BootHostStatus.mergedOnto cluster.live event
    (cluster.wrote p result, result.2.toList)

end Cluster

/-! ## Tracking a host -/

/-- The map tracks the host in a phase that has it up. -/
def BootState.Up (mac : Mac) (hosts : BootState) : Prop :=
  ∃ phase ∈ [Phase.running, Phase.assimilating, Phase.local], hosts.phaseOf mac = some phase

/-- The status a process wants for an object says available exactly when it tracks the host up. -/
theorem Observed.desired_available_iff (seen : Observed) (mac : Mac) (now : Text)
    (object : BootHost) : (seen.desired mac now object).Available ↔ seen.boot.Up mac := by
  unfold Observed.desired BootState.Up BootState.phaseOf
  rw [desiredStatus_available_iff]
  constructor
  · rintro ⟨state, hstate, hphase⟩
    exact ⟨state.phase, hphase, by rw [hstate]; rfl⟩
  · rintro ⟨phase, hphase, hlookup⟩
    obtain ⟨state, hstate, rfl⟩ := Option.map_eq_some_iff.mp hlookup
    exact ⟨state, hstate, hphase⟩

/-- A process that has seen nothing tracks no host. -/
theorem BootState.not_up_empty (mac : Mac) : ¬(∅ : BootState).Up mac := by
  intro ⟨phase, _, hphase⟩
  cases hphase

/-- A request of another host that the map has room for leaves a host's phase alone. -/
theorem BootState.phaseOf_apply_of_ne (hosts : BootState) (event : BootEvent) (mac : Mac)
    (hother : event.op.host ≠ mac) (hkeep : ¬Evicts hosts event.op) :
    (hosts.apply event).phaseOf mac = hosts.phaseOf mac := by
  unfold phaseOf
  rw [hosts.lookup_apply_of_ne (Ne.symm hother), room_of_not_evicts hkeep]

/-- A process keeps tracking a host that makes no further request until its map makes room. -/
theorem BootState.up_run (hosts : BootState) (events : List BootEvent) (mac : Mac)
    (hother : ∀ event ∈ events, event.op.host ≠ mac) (hkeep : ¬EvictsDuring hosts events)
    (h : hosts.Up mac) : (hosts.run events).Up mac := by
  induction events generalizing hosts with
  | nil => exact h
  | cons event rest ih =>
    rw [EvictsDuring, not_or] at hkeep
    have hphase := hosts.phaseOf_apply_of_ne event mac (hother event (by simp)) hkeep.1
    refine ih (hosts.apply event) (fun e he => hother e (by simp [he])) hkeep.2 ?_
    unfold Up
    rw [hphase]
    exact h

/-! ## Keeping it available -/

/-- A patch with conditions replaces the stored ones. -/
theorem BootHostStatus.conditions_mergedOnto {desired : BootHostStatus}
    (h : desired.conditions ≠ []) (stored : Option BootHostStatus) :
    (desired.mergedOnto stored).conditions = desired.conditions := by
  have hne : desired.conditions.isEmpty = false := List.isEmpty_eq_false_iff.mpr h
  rw [mergedOnto, hne]
  rfl

/-- A merged status is available if the patch is. -/
theorem BootHostStatus.available_mergedOnto {desired : BootHostStatus} (h : desired.Available)
    (stored : Option BootHostStatus) : (desired.mergedOnto stored).Available := by
  obtain ⟨c, hc, htrue⟩ := h
  refine ⟨c, ?_, htrue⟩
  rw [conditions_mergedOnto (List.ne_nil_of_mem hc)]
  exact hc

/-- The object a change is about. -/
def Change.key : Change → ObjectKey
  | .create key _ => key
  | .edit key _ => key
  | .delete key _ => key

/-- Nobody but the status writers touches the object. -/
def Untouched (key : ObjectKey) : ClusterEvent → Prop
  | .changed change => change.key ≠ key
  | _ => True

/-- A pass comes to the object only in a process that tracks its host up. -/
def Tracked (key : ObjectKey) (cluster : Cluster) : ClusterEvent → Prop
  | .writer p .turn => ∀ pass mac object rest, (cluster.processes p).pass = some pass →
      pass.todo = (mac, object) :: rest → object.key = some key →
        (cluster.processes p).seen.boot.Up mac
  | _ => True

/-- The content has a status that says available. -/
def Content.SaysAvailable (content : Content) : Prop :=
  ∃ status, content.status = some status ∧ status.Available

/-- The stored status says available. -/
def StoresAvailable (key : ObjectKey) (live : LiveObjects) : Prop :=
  ∃ content, live.lookup key = some content ∧ content.SaysAvailable

/-- No patch that says otherwise is on its way to the object. -/
def SendsAvailable (key : ObjectKey) (process : Process) : Prop :=
  ∀ pass patch, process.pass = some pass → pass.stage = .sending patch → patch.key = key →
    patch.desired.Available

/-- The stored status says available, and so does every patch on its way or accepted. -/
structure KeepsAvailable (key : ObjectKey) (cluster : Cluster) (patched : List Change) :
    Prop where
  stored : StoresAvailable key cluster.live
  sending : ∀ p, SendsAvailable key (cluster.processes p)
  patched : ∀ content, .edit key content ∈ patched → content.SaysAvailable

section Step

variable {key : ObjectKey} {cluster : Cluster} {patched : List Change}

/-- A change of another object leaves this one alone. -/
theorem StoresAvailable.after {live : LiveObjects} {change : Change}
    (h : StoresAvailable key live) (hother : change.key ≠ key) :
    StoresAvailable key (change.after live) := by
  obtain ⟨content, hlookup, hsays⟩ := h
  refine ⟨content, ?_, hsays⟩
  cases change with
  | create other _ => exact (Finmap.lookup_insert_of_ne live (Ne.symm hother)).trans hlookup
  | edit other _ => exact (Finmap.lookup_insert_of_ne live (Ne.symm hother)).trans hlookup
  | delete other _ => exact (Finmap.lookup_erase_ne (Ne.symm hother)).trans hlookup

/-- Another process takes a place. -/
theorem KeepsAvailable.set (h : KeepsAvailable key cluster patched) (p : ℕ) {process : Process}
    (hprocess : SendsAvailable key process) : KeepsAvailable key (cluster.set p process) patched := by
  refine ⟨h.stored, fun q => ?_, h.patched⟩
  unfold Cluster.set
  simp only
  by_cases hq : q = p
  · rw [hq, Function.update_self]
    exact hprocess
  · rw [Function.update_of_ne hq]
    exact h.sending q

/-- A turn at the object sends what the process tracks. -/
theorem SendsAvailable.turn {process : Process} {pass : StatusPass} (hstage : pass.stage = .walking)
    (htracked : ∀ mac object rest, pass.todo = (mac, object) :: rest → object.key = some key →
      process.seen.boot.Up mac) :
    SendsAvailable key { process with pass := pass.turn process.seen } := by
  intro pass' patch hpass' hstage' hkey
  rcases pass.turn_cases process.seen with
    hturn | ⟨mac, object, rest, htodo, hturn | ⟨key', hkey', hturn⟩⟩
  · cases hturn.symm.trans hpass'
  · cases hturn.symm.trans hpass'
    cases hstage.symm.trans hstage'
  · cases hturn.symm.trans hpass'
    cases hstage'
    exact (process.seen.desired_available_iff mac pass.now object).mpr
      (htracked mac object rest htodo (hkey' ▸ congrArg some hkey))

/-- A process that is not sending sends nothing that says otherwise. -/
theorem sendsAvailable_of_stage {process : Process}
    (h : ∀ pass patch, process.pass = some pass → pass.stage ≠ .sending patch) :
    SendsAvailable key process :=
  fun pass patch hpass hstage => absurd hstage (h pass patch hpass)

/-- An accepted patch is stored, on this object or on another. -/
theorem KeepsAvailable.accept (h : KeepsAvailable key cluster patched) {p : ℕ} {pass : StatusPass}
    {patch : StatusPatch} {content : Content} (hpass : (cluster.processes p).pass = some pass)
    (hstage : pass.stage = .sending patch) :
    let change := Change.edit patch.key
      { content with status := some (patch.desired.mergedOnto content.status) }
    KeepsAvailable key { cluster with live := change.after cluster.live } (patched ++ [change]) := by
  by_cases hkey : patch.key = key
  · have hsays : Content.SaysAvailable { content with
        status := some (patch.desired.mergedOnto content.status) } :=
      ⟨_, rfl, BootHostStatus.available_mergedOnto (h.sending p pass patch hpass hstage hkey) _⟩
    refine ⟨⟨_, hkey ▸ Finmap.lookup_insert cluster.live, hsays⟩, h.sending, fun other hmem => ?_⟩
    rcases List.mem_append.mp hmem with hold | hnew
    · exact h.patched other hold
    · cases List.mem_singleton.mp hnew
      exact hsays
  · refine ⟨h.stored.after hkey, h.sending, fun other hmem => ?_⟩
    rcases List.mem_append.mp hmem with hold | hnew
    · exact h.patched other hold
    · cases List.mem_singleton.mp hnew
      exact absurd rfl hkey

/-- A step of a writer keeps the object available. -/
theorem KeepsAvailable.wrote (h : KeepsAvailable key cluster patched) {p : ℕ}
    {event : WriterEvent} {result : Process × Option Change}
    (hwrites : Writes BootHostStatus.mergedOnto cluster.live (cluster.processes p) event result)
    (htracked : Tracked key cluster (.writer p event)) :
    KeepsAvailable key (cluster.wrote p result) (patched ++ result.2.toList) := by
  have hquiet : ∀ process, SendsAvailable key process →
      KeepsAvailable key (cluster.wrote p (process, none)) (patched ++ []) := by
    intro process hprocess
    rw [List.append_nil]
    exact h.set p hprocess
  cases hwrites with
  | idle => exact hquiet _ (h.sending p)
  | begins now order hidle =>
    exact hquiet _ (sendsAvailable_of_stage fun pass patch hpass => by cases hpass; nofun)
  | turns pass hpass hstage =>
    exact hquiet _ (SendsAvailable.turn hstage fun mac object rest => htracked pass mac object rest hpass)
  | rejects accepted pass patch hpass hstage =>
    exact hquiet _ (sendsAvailable_of_stage fun pass patch hpass => by cases hpass; nofun)
  | accepts pass patch content hpass hstage hlive =>
    exact (h.accept hpass hstage).set p
      (sendsAvailable_of_stage fun pass patch hpass => by cases hpass; nofun)
  | notes pass patch hpass hstage =>
    exact hquiet _ (sendsAvailable_of_stage fun pass patch hpass => by cases hpass; nofun)

/-- So does every step. -/
theorem KeepsAvailable.step {event : ClusterEvent} (h : KeepsAvailable key cluster patched)
    (huntouched : Untouched key event) (htracked : Tracked key cluster event) :
    KeepsAvailable key (cluster.step event).1 (patched ++ (cluster.step event).2) := by
  cases event with
  | changed change =>
    rw [Cluster.step, List.append_nil]
    exact ⟨h.stored.after huntouched, h.sending, h.patched⟩
  | restart p =>
    rw [Cluster.step, List.append_nil]
    exact h.set p fun pass patch hpass => nomatch hpass
  | saw p event =>
    rw [Cluster.step, List.append_nil]
    exact h.set p (h.sending p)
  | claimed p claims =>
    rw [Cluster.step, List.append_nil]
    exact h.set p (h.sending p)
  | watched p event =>
    rw [Cluster.step, List.append_nil]
    exact h.set p (h.sending p)
  | writer p event =>
    exact h.wrote (Process.writes_write ..) htracked

end Step

/-- A host whose stored status says available stays available, whatever else happens to the
processes, as long as the passes that come to its object are of processes that track it up. -/
theorem available_of_tracked (key : ObjectKey) (cluster : Cluster) (events : List ClusterEvent)
    (hstored : StoresAvailable key cluster.live)
    (hsending : ∀ p, SendsAvailable key (cluster.processes p))
    (hrun : Always Cluster.step (fun cluster event => Untouched key event ∧ Tracked key cluster event)
      cluster events) :
    KeepsAvailable key (runFrom Cluster.step cluster [] events).1
      (runFrom Cluster.step cluster [] events).2 :=
  runFrom_invariant (KeepsAvailable key) (fun _ _ _ h hkept => h.step hkept.1 hkept.2)
    ⟨hstored, hsending, fun _ hmem => absurd hmem List.not_mem_nil⟩ events hrun

/-! ## A pass of a process that does not track the host -/

/-- What a pass writes says available exactly when its process tracks the host up. -/
theorem stored_after_write {cluster : Cluster} {p : ℕ} {pass : StatusPass} {mac : Mac}
    {object : BootHost} {rest : List (Mac × BootHost)} {key : ObjectKey} {content : Content}
    (hpass : (cluster.processes p).pass = some pass) (hstage : pass.stage = .walking)
    (hroom : pass.written < maxPatchesPerPass) (htodo : pass.todo = (mac, object) :: rest)
    (hkey : object.key = some key)
    (hstale : object.status ≠ some ((cluster.processes p).seen.desired mac pass.now object))
    (hlive : cluster.live.lookup key = some content) :
    StoresAvailable key (runFrom Cluster.step cluster []
        [.writer p .turn, .writer p (.answer true)]).1.live ↔
      (cluster.processes p).seen.boot.Up mac := by
  let process := cluster.processes p
  let desired := process.seen.desired mac pass.now object
  let sending : StatusPass := { pass with todo := rest, stage := .sending ⟨mac, key, desired⟩ }
  have hturn : cluster.step (.writer p .turn) =
      (cluster.set p { process with pass := some sending }, []) := by
    rw [Cluster.step, Process.write_turn hpass hstage,
      StatusPass.turn_stale htodo hroom hkey hstale]
    rfl
  have hprocess : (cluster.set p { process with pass := some sending }).processes p =
      { process with pass := some sending } := Function.update_self ..
  have hwrite : Process.write BootHostStatus.mergedOnto cluster.live
      { process with pass := some sending } (.answer true) =
        ({ process with pass := some { sending with stage := .noting ⟨mac, key, desired⟩ } },
          some (.edit key { content with
            status := some (desired.mergedOnto content.status) })) :=
    Process.write_answer rfl rfl hlive
  have hanswer : ((cluster.set p { process with pass := some sending }).step
      (.writer p (.answer true))).1.live = cluster.live.insert key
        { content with status := some (desired.mergedOnto content.status) } := by
    rw [Cluster.step, hprocess]
    exact congrArg (fun result => (Cluster.wrote _ p result).live) hwrite
  have hne : desired.conditions ≠ [] := process.seen.conditions_desired mac pass.now object
  have hsays : (desired.mergedOnto content.status).Available ↔ desired.Available := by
    unfold BootHostStatus.Available
    rw [BootHostStatus.conditions_mergedOnto hne]
  rw [← process.seen.desired_available_iff mac pass.now object, ← hsays, runFrom, runFrom, runFrom,
    hturn, hanswer]
  unfold StoresAvailable Content.SaysAvailable
  simp only [Finmap.lookup_insert, Option.some.injEq, exists_eq_left']

namespace Restarted

/-- The object of the host. -/
def key : ObjectKey := ⟨"storm-system".toList, "node1".toList⟩

/-- Its MAC. -/
def mac : Mac :=
  .ofOctets 0xaa 0xbb 0xcc 0xdd 0xee 0x01

/-- The host as the boot server saw it. -/
def running : HostState where
  mac := mac
  phase := .running
  detail := none
  palletVersion := none
  hardware := none
  firstSeenUnix := 0
  updatedUnix := 60

/-- Its object, with the status that was written then. -/
def content : Content where
  generation := 1
  spec := ⟨"aa:bb:cc:dd:ee:01".toList, none, none, none, none, none, true⟩
  status := some (desiredStatus (some running) true none 1 none "2026-09-01T00:00:00Z".toList)

/-- A process that tracks the host. -/
def tracking : Process where
  seen := ⟨Finmap.singleton mac running, ∅⟩
  watch := ⟨⟨Finmap.singleton mac (content.object key), .empty⟩, []⟩
  pass := none

/-- One object, and processes that all track its host. -/
def cluster : Cluster where
  live := Finmap.singleton key content
  processes _ := tracking

/-- When the pass begins. -/
def now : Text := "2026-09-02T00:00:00Z".toList

/-- One of the processes is restarted and lists the objects. -/
def restart : List ClusterEvent :=
  .restart 0 :: (Watch.relist [content.object key]).map (.watched 0)

/-- The cluster with the process restarted. -/
def listed : Cluster :=
  (runFrom Cluster.step cluster [] restart).1

/-- Its pass, up to the answer to its first patch. -/
def pass (order : HashMap.Iteration Mac BootHost) : List ClusterEvent :=
  [.writer 0 (.begin now order), .writer 0 .turn, .writer 0 (.answer true)]

/-- The object is stored as available. -/
theorem storesAvailable : StoresAvailable key cluster.live :=
  ⟨content, Finmap.lookup_singleton_eq, _, rfl,
    (desiredStatus_available_iff ..).mpr ⟨running, rfl, by decide⟩⟩

/-- The host is up. -/
theorem tracking_up : tracking.seen.boot.Up mac :=
  ⟨.running, by decide, by decide⟩

/-- The restarted process knows the object from its list. -/
theorem index_listed : (listed.processes 0).watch.view.index =
    Finmap.singleton mac (content.object key) := by
  decide

end Restarted

/-- A process that has listed the one object begins its pass with it. -/
theorem Restarted.begun {cluster : Cluster} (order : HashMap.Iteration Mac BootHost)
    (hidle : (cluster.processes 0).pass = none)
    (hindex : (cluster.processes 0).watch.view.index =
      Finmap.singleton mac (content.object key)) :
    cluster.step (.writer 0 (.begin now order)) =
      (cluster.set 0 { cluster.processes 0 with
        pass := some ⟨now, [(mac, content.object key)], 0, .walking⟩ }, []) := by
  rw [Cluster.step, Process.write_begin hidle, hindex, BootHostIndex.snapshot_singleton]
  rfl

/-- While one process is down, another one passes over the object. -/
theorem available_while_restarting : ∃ order,
    KeepsAvailable Restarted.key
      (runFrom Cluster.step Restarted.cluster []
        [.restart 1, .writer 0 (.begin Restarted.now order), .writer 0 .turn]).1
      (runFrom Cluster.step Restarted.cluster []
        [.restart 1, .writer 0 (.begin Restarted.now order), .writer 0 .turn]).2 := by
  obtain ⟨order⟩ : Nonempty (HashMap.Iteration Mac BootHost) := inferInstance
  refine ⟨order, available_of_tracked Restarted.key Restarted.cluster _ Restarted.storesAvailable
    (fun p pass patch hpass => nomatch hpass)
    ⟨⟨trivial, trivial⟩, ⟨trivial, trivial⟩, ⟨trivial, ?_⟩, trivial⟩⟩
  intro pass mac object rest hpass htodo _
  rw [Restarted.begun order rfl rfl] at hpass
  cases hpass
  cases htodo
  exact Restarted.tracking_up

/-- The restarted process has not seen the host, and its first pass takes the availability away. -/
theorem not_available_after_restart : ∃ order,
    StoresAvailable Restarted.key Restarted.cluster.live ∧
      (∀ event ∈ Restarted.restart ++ Restarted.pass order,
        Untouched Restarted.key event ∧ ∀ p e, event ≠ .saw p e) ∧
      ¬StoresAvailable Restarted.key
        (runFrom Cluster.step Restarted.cluster [] (Restarted.restart ++ Restarted.pass order)).1.live := by
  obtain ⟨order⟩ : Nonempty (HashMap.Iteration Mac BootHost) := inferInstance
  refine ⟨order, Restarted.storesAvailable, by simp [Restarted.restart, Restarted.pass, Watch.relist,
    Untouched], fun h => ?_⟩
  have hrun : runFrom Cluster.step Restarted.cluster [] (Restarted.restart ++ Restarted.pass order) =
      runFrom Cluster.step (Restarted.listed.step (.writer 0 (.begin Restarted.now order))).1 []
        [.writer 0 .turn, .writer 0 (.answer true)] := rfl
  let begun := Restarted.listed.set 0 { Restarted.listed.processes 0 with
    pass := some ⟨Restarted.now, [(Restarted.mac, Restarted.content.object Restarted.key)], 0, .walking⟩ }
  have hpass : (begun.processes 0).pass = some ⟨Restarted.now,
      [(Restarted.mac, Restarted.content.object Restarted.key)], 0, .walking⟩ := rfl
  have hlive : begun.live.lookup Restarted.key = some Restarted.content := rfl
  have hstale : (Restarted.content.object Restarted.key).status ≠
      some ((begun.processes 0).seen.desired Restarted.mac Restarted.now
        (Restarted.content.object Restarted.key)) := by decide
  rw [hrun, Restarted.begun order rfl Restarted.index_listed] at h
  have hkey : (Restarted.content.object Restarted.key).key = some Restarted.key := rfl
  have hup := (stored_after_write hpass rfl (by decide) rfl hkey hstale hlive).mp h
  have hboot : (begun.processes 0).seen.boot = ∅ := rfl
  rw [hboot] at hup
  exact BootState.not_up_empty _ hup

end Stormnetboot.Server

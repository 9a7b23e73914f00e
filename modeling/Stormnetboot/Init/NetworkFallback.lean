import Stormnetboot.Init.DataSlabGuard
import Stormnetboot.Init.SlabResolution

/-!
# An installed node and its network

A command line with an appliance claim boots a machine twice: from the appliance before the
install, and from the installed disk afterwards. The sequence brings the network up before it
looks at the disk, and ends when that fails; the disk is never looked at. What a run hands to the
engine is read off the operations it performs, and two runs are compared that differ in nothing
but the result of the network step.
-/

namespace Stormnetboot.Init

open Stormnetboot.Common

/-! ## What the engine is handed -/

/-- The values of a flag, in a list of flags that each have one value. -/
def flagValues (flag : Text) : List Text → List Text
  | name :: value :: rest =>
    if name = flag then value :: flagValues flag rest else flagValues flag rest
  | _ => []

/-- The slabs on the engine's command line, after the program and its subcommand. -/
def slabsOfArgv (argv : List Text) : List Text :=
  flagValues "--slab".toList (argv.drop 2)

/-- The slabs an operation hands to the engine, if it starts it. -/
def handedSlabs : SysOp → Option (List Text)
  | .spawnEngine argv _ => some (slabsOfArgv argv)
  | _ => none

/-- The slabs of each start of the engine; none if a run does not get that far. -/
def engineStarts {σ : Type} (h : Handler SysOp SysOp.Ans σ) (p : Boot Unit) (s : σ) :
    List (List Text) :=
  (Program.trace h p s).filterMap handedSlabs

/-- A repeated flag has its values, and they are of no other flag. -/
theorem flagValues_flatMap (flag other : Text) (values rest : List Text) :
    flagValues flag (values.flatMap (fun value => [other, value]) ++ rest) =
      (if other = flag then values else []) ++ flagValues flag rest := by
  induction values with
  | nil => split_ifs <;> rfl
  | cons value values ih =>
    show flagValues flag
      (other :: value :: (values.flatMap (fun value => [other, value]) ++ rest)) = _
    rw [flagValues, ih]
    split_ifs <;> rfl

/-- A flag that may be left out has its value if it has one, and it is of no other flag. -/
theorem flagValues_optionalFlag (flag : Text) (other : String) (value : Option Text)
    (rest : List Text) :
    flagValues flag (optionalFlag other value ++ rest) =
      (if other.toList = flag then value.toList else []) ++ flagValues flag rest := by
  have hflag : optionalFlag other value =
      value.toList.flatMap fun value => [other.toList, value] := by
    cases value <;> rfl
  rw [hflag, flagValues_flatMap]

/-- What the engine's command line gives to a flag. -/
theorem flagValues_engineArgs (flag : Text) (params : BootParams) (slabs : List Text)
    (plan : ExportPlan) :
    flagValues flag ((engineArgs params slabs plan).drop 2) =
      (if "--slab".toList = flag then slabs else []) ++
      ((if "--meta".toList = flag then params.metaDir.toList else []) ++
      ((if "--image-store".toList = flag then params.imageStore.toList else []) ++
      ((if "--volume".toList = flag then params.volume.toList else []) ++
      ((if "--local-disk".toList = flag then params.localDisk.toList else []) ++
        if "--writable".toList = flag then plan.writableArgs else [])))) := by
  have hwritables := flagValues_flatMap flag "--writable".toList plan.writableArgs []
  have hnone : flagValues flag [] = [] := rfl
  rw [hnone, List.append_nil, List.append_nil] at hwritables
  rw [← hwritables]
  simp only [← flagValues_optionalFlag]
  rw [← flagValues_flatMap]
  unfold engineArgs
  simp only [List.append_assoc]
  rfl

/-- The engine's command line names exactly the slabs it was built from. -/
theorem slabsOfArgv_engineArgs (params : BootParams) (slabs : List Text) (plan : ExportPlan) :
    slabsOfArgv (engineArgs params slabs plan) = slabs := by
  rw [slabsOfArgv, flagValues_engineArgs, if_pos rfl, if_neg (by decide), if_neg (by decide),
    if_neg (by decide), if_neg (by decide), if_neg (by decide)]
  exact List.append_nil slabs

section

variable {σ : Type} {α : Type} (h : Handler SysOp SysOp.Ans σ)

/-- A step that cannot start the engine leaves the starts to what follows it. -/
theorem engineStarts_bind {p : Boot α} (hp : p.Only NotEngine) (f : α → Boot Unit) (s : σ) :
    engineStarts h (p >>= f) s =
      match Program.exec h p s with
      | (.ok a, t) => engineStarts h (f a) t
      | (.error _, _) => [] := by
  have hnone : (Program.trace h p s).filterMap handedSlabs = [] := by
    refine List.filterMap_eq_nil_iff.mpr fun op hop => ?_
    have hop' := hp.of_mem_trace hop
    cases op with
    | spawnEngine argv env => exact absurd hop' id
    | _ => rfl
  unfold engineStarts
  rw [Program.trace_bind, List.filterMap_append, hnone, List.nil_append]
  rcases Program.exec h p s with ⟨_ | a, t⟩ <;> rfl

/-- An operation that starts the engine is one of the starts. -/
theorem engineStarts_ne_nil {p : Boot Unit} {s : σ} {argv : List Text} {env : List (Text × Text)}
    (hmem : SysOp.spawnEngine argv env ∈ Program.trace h p s) : engineStarts h p s ≠ [] :=
  List.ne_nil_of_mem (List.mem_filterMap.mpr ⟨_, hmem, rfl⟩)

end

/-! ## Two runs -/

/-- The network step with another result: it does all that it does, and returns that. -/
def networkReturning (params : BootParams) (result : Except Text Unit) : Boot Unit := do
  let _ ← (bringUpNetwork params).attempt
  orFail result

section

variable {σ : Type} (h : Handler SysOp SysOp.Ans σ) (params : BootParams) (s : σ)

/-- Where a run stands when it comes to the named slabs, with the network step behind it. -/
def atResolution : σ :=
  (Program.exec h (do
    earlySteps params
    rootSource params (networkReturning params (.ok ()))
    reportPhase "assets-fetched" none : Boot Unit) s).2

/-- A named local slab proves to be a slab when the run comes to it. -/
def ProvesSlab (boothost : Text) : Prop :=
  ∃ slab, containsText "://".toList slab = false ∧
    (slab, true) ∈ (probe h boothost params.slabs (atResolution h params s)).1

/-- What the engine is handed, and whether it is started, does not depend on what the network
step returns. -/
def NetworkIndependent : Prop :=
  ∀ result result' : Except Text Unit,
    engineStarts h (runWith (networkReturning params result) params) s =
      engineStarts h (runWith (networkReturning params result') params) s

end

/-- The early steps do not start the engine. -/
theorem earlySteps_notEngine (params : BootParams) : (earlySteps params).Only NotEngine := by
  refine Program.only_bind (Program.only_perform _ trivial) fun _ => ?_
  refine Program.only_bind (Program.only_forEach fun _ => ?_) fun _ => ?_
  · exact mountPseudoFilesystem_notEngine _ _ _
  refine Program.only_bind loadModules_notEngine fun _ => ?_
  cases params.checkLocalDisk with
  | error err => trivial
  | ok _ => trivial

/-- The network step does not. -/
theorem bringUpNetwork_notEngine (params : BootParams) :
    (bringUpNetwork params).Only NotEngine := by
  refine Program.only_bind (Program.only_perform _ trivial) fun _ => ?_
  refine Program.only_bind (Program.only_perform _ trivial) fun _ => ?_
  refine Program.only_bind (p := firstEthernet) ⟨trivial, fun entries => ?_⟩ fun iface => ?_
  · cases entries with
    | none => trivial
    | some entries => trivial
  cases iface with
  | none => trivial
  | some iface =>
    refine Program.only_bind (Program.only_perform _ trivial) fun _ => ?_
    refine Program.only_bind (Program.only_perform _ trivial) fun result => ?_
    extract_lets announce
    have hannounce : ∀ r, (announce r).Only NotEngine := by
      intro r
      unfold announce
      cases params.portal with
      | none => trivial
      | some portal => exact Program.only_perform _ trivial
    split_ifs
    · exact Program.only_bind (Program.only_perform _ trivial) hannounce
    · exact Program.only_bind (Program.only_perform _ trivial) hannounce

/-- Neither does it with another result. -/
theorem networkReturning_notEngine (params : BootParams) (result : Except Text Unit) :
    (networkReturning params result).Only NotEngine := by
  refine Program.only_bind (Program.only_attempt (bringUpNetwork_notEngine params)) fun _ => ?_
  cases result with
  | error err => trivial
  | ok _ => trivial

section

variable {σ : Type} {h : Handler SysOp SysOp.Ans σ} {params : BootParams} {s : σ}

/-- The early steps end as the guard decides. -/
theorem exec_earlySteps : (Program.exec h (earlySteps params) s).1 =
    params.checkLocalDisk.mapError Stop.error := by
  have hfirst : (stamp "stormnetboot-init starting".toList >>= fun _ =>
      mountPseudoFilesystems >>= fun _ => loadModules).Succeeds :=
    (stamp_succeeds _).ends_bind fun _ =>
      mountPseudoFilesystems_succeeds.ends_bind fun _ => loadModules_succeeds
  obtain ⟨_, hexec⟩ := hfirst.exec h s
  have hearly : earlySteps params = (stamp "stormnetboot-init starting".toList >>= fun _ =>
      mountPseudoFilesystems >>= fun _ => loadModules) >>= fun _ =>
        orFail params.checkLocalDisk := by
    rw [earlySteps_eq]
    simp only [Program.bind_assoc]
  rw [hearly, Program.exec_bind, hexec]
  cases params.checkLocalDisk <;> rfl

/-- The network step ends with the given result, in the state it leaves either way. -/
theorem exec_networkReturning (result : Except Text Unit) :
    Program.exec h (networkReturning params result) s =
      (result.mapError Stop.error, (Program.exec h (bringUpNetwork params) s).2) := by
  rw [networkReturning, Program.exec_bind, Program.exec_attempt]
  cases result <;> rfl

/-- When the guard refuses the flow-over the engine is not started, whatever the network does. -/
theorem engineStarts_refused (network : Boot Unit) {err : Text}
    (hguard : params.checkLocalDisk = .error err) :
    engineStarts h (runWith network params) s = [] := by
  have hearly : (Program.exec h (earlySteps params) s).1 = .error (.error err) := by
    rw [exec_earlySteps, hguard]
    rfl
  rw [runWith, engineStarts_bind h (earlySteps_notEngine params)]
  rcases hexec : Program.exec h (earlySteps params) s with ⟨_ | _, t⟩
  · rfl
  · rw [hexec] at hearly
    cases hearly

/-- A command line with a claim waits for its network. -/
theorem rootSource_of_claim {claim : Text × Text × Text} (hclaim : params.boothostClaim = some claim)
    (network : Boot Unit) : rootSource params network = network := by
  rw [rootSource, BootParams.isNetworkBoot, hclaim]
  simp

/-- When the network step fails the engine is not started, whatever is on the disks. -/
theorem engineStarts_network_fails {claim : Text × Text × Text}
    (hclaim : params.boothostClaim = some claim) {network : Boot Unit}
    (hnetwork : network.Only NotEngine) {e : Stop}
    (hfails : (Program.exec h network (Program.exec h (earlySteps params) s).2).1 = .error e) :
    engineStarts h (runWith network params) s = [] := by
  rw [runWith, engineStarts_bind h (earlySteps_notEngine params), rootSource_of_claim hclaim]
  rcases hearly : Program.exec h (earlySteps params) s with ⟨_ | _, t⟩
  · rfl
  · rw [hearly] at hfails
    simp only
    rw [engineStarts_bind h hnetwork]
    rcases hexec : Program.exec h network t with ⟨_ | _, u⟩
    · rfl
    · rw [hexec] at hfails
      cases hfails

/-- The engine's start is among the operations of starting it. -/
theorem spawn_mem_trace_startEngine {slabs : List Text} (hslabs : slabs ≠ []) (plan : ExportPlan) :
    SysOp.spawnEngine (engineArgs params slabs plan) (hostNqnEnv params.hostnqn) ∈
      Program.trace h (withContext "starting stormblock".toList (startEngine params slabs plan)) s := by
  rw [withContext, Program.trace_mapError, startEngine, if_neg (by simpa using hslabs)]
  cases params.dataSlab with
  | none => exact List.mem_cons_of_mem _ List.mem_cons_self
  | some data => exact List.mem_cons_of_mem _ (List.mem_cons_of_mem _ List.mem_cons_self)

/-- So it is among those of the attachment, once the slabs are resolved. -/
theorem spawn_mem_trace_attachRoot {slabs : List Text} (hslabs : slabs ≠ [])
    (hresolve : (Program.exec h (resolveSlabs params)
      (h (.report "assets-fetched".toList none) s).2).1 = .ok slabs) :
    SysOp.spawnEngine (engineArgs params slabs params.exportPlan) (hostNqnEnv params.hostnqn) ∈
      Program.trace h (attachRoot params) s := by
  refine (Program.mem_trace_bind_iff ..).mpr (.inr ⟨(), _, rfl, ?_⟩)
  refine (Program.mem_trace_bind_iff ..).mpr (.inr ⟨slabs, _, Prod.ext ?_ rfl, ?_⟩)
  · rw [withContext, Program.exec_mapError]
    exact congrArg (Except.mapError _) hresolve
  · exact (Program.mem_trace_bind_iff ..).mpr (.inl (spawn_mem_trace_startEngine hslabs _))

/-- When it comes up and a named slab proves itself, the engine is started. -/
theorem engineStarts_network_up {boothost tag claimNamespace : Text}
    (hclaim : params.boothostClaim = some (boothost, tag, claimNamespace))
    (hguard : params.checkLocalDisk = .ok ()) (hproves : ProvesSlab h params s boothost) :
    engineStarts h (runWith (networkReturning params (.ok ())) params) s ≠ [] := by
  obtain ⟨slab, -, hslab⟩ := hproves
  have hearly : Program.exec h (earlySteps params) s =
      (.ok (), (Program.exec h (earlySteps params) s).2) := by
    refine Prod.ext ?_ rfl
    rw [exec_earlySteps, hguard]
    rfl
  have hnetwork : ∀ t, Program.exec h (networkReturning params (.ok ())) t =
      (.ok (), (Program.exec h (bringUpNetwork params) t).2) :=
    fun t => exec_networkReturning (.ok ())
  have hsome : namedSurvivors h params boothost (atResolution h params s) ≠ [] := by
    refine List.ne_nil_of_mem (a := slab) ?_
    exact List.mem_map.mpr ⟨(slab, true), List.mem_filter.mpr ⟨hslab, rfl⟩, rfl⟩
  have hresolve := (resolvesClaim_of_claim (h := h) (s := atResolution h params s) hclaim).kept hsome
  have hat : atResolution h params s = (h (.report "assets-fetched".toList none)
      (Program.exec h (bringUpNetwork params) (Program.exec h (earlySteps params) s).2).2).2 := by
    rw [atResolution, Program.exec_bind, hearly, rootSource_of_claim hclaim]
    simp only
    rw [Program.exec_bind, hnetwork]
    rfl
  rw [hat] at hresolve hsome
  have hspawn := spawn_mem_trace_attachRoot (withDataSlab_ne_nil params hsome) hresolve
  -- What the attachment performs the run performs, as both steps before it succeed.
  have hattach : ∀ op ∈ Program.trace h (attachRoot params)
      (Program.exec h (bringUpNetwork params) (Program.exec h (earlySteps params) s).2).2,
      op ∈ Program.trace h (runWith (networkReturning params (.ok ())) params) s := by
    intro op hop
    refine (Program.mem_trace_bind_iff ..).mpr (.inr ⟨(), _, hearly, ?_⟩)
    rw [rootSource_of_claim hclaim]
    refine (Program.mem_trace_bind_iff ..).mpr (.inr ⟨(), _, hnetwork _, ?_⟩)
    exact (Program.mem_trace_bind_iff ..).mpr (.inl hop)
  exact engineStarts_ne_nil h (hattach _ hspawn)

/-- The two results of the network step then differ in what the engine is handed. -/
theorem not_networkIndependent {boothost tag claimNamespace : Text}
    (hclaim : params.boothostClaim = some (boothost, tag, claimNamespace))
    (hguard : params.checkLocalDisk = .ok ()) (hproves : ProvesSlab h params s boothost) :
    ¬NetworkIndependent h params s := by
  intro hindependent
  have hsame := hindependent (.ok ()) (.error [])
  have hfails := engineStarts_network_fails (s := s) hclaim
    (networkReturning_notEngine params (.error [])) (congrArg Prod.fst (exec_networkReturning (h := h) _))
  rw [hfails] at hsame
  exact engineStarts_network_up hclaim hguard hproves hsame

end

/-- A command line with a claim, on a machine where a named slab proves itself, is independent of
its network exactly when the guard ends the boot before the network is tried. The slabs compared
are those the engine's command line is built from. -/
theorem networkIndependent_iff {σ : Type} (h : Handler SysOp SysOp.Ans σ) (params : BootParams)
    (s : σ) (boothost tag claimNamespace : Text)
    (hclaim : params.boothostClaim = some (boothost, tag, claimNamespace))
    (hproves : ProvesSlab h params s boothost) :
    (∀ slabs plan, slabsOfArgv (engineArgs params slabs plan) = slabs) ∧
      (NetworkIndependent h params s ↔ ∃ err, params.checkLocalDisk = .error err) := by
  refine ⟨slabsOfArgv_engineArgs params, ?_, ?_⟩
  · intro hindependent
    cases hguard : params.checkLocalDisk with
    | error err => exact ⟨err, rfl⟩
    | ok _ =>
      exact absurd hindependent (not_networkIndependent hclaim hguard hproves)
  · rintro ⟨err, hguard⟩ result result'
    rw [engineStarts_refused _ hguard, engineStarts_refused _ hguard]

/-! ## A node without its cable -/

/-- The command line of a node that installs from an appliance and boots from its disk. -/
def installedNode : BootParams where
  boothost := some "http://10.0.0.1:8080".toList
  tag := some "7XK2".toList
  slabs := ["/dev/sda".toList]

/-- A machine whose disk holds a slab and that has no network interface. -/
def nodeWithoutNic : Handler SysOp SysOp.Ans Unit
  | .pathExists _, _ => (true, ())
  | .readDir _, _ => (none, ())
  | .command argv _, _ =>
    (.exited true "exit status: 0".toList
      (if argv.take 3 = [stormblock] ++ words ["slab", "list"] then
        "/dev/sda: slab 0f8fad5b-d9cb-469f-a165-70867728950e\n".toList else []), ())
  | .readFile _, _ => (.error "No such file or directory".toList, ())
  | .createDirAll _, _ => (.ok (), ())
  | .writeFile _ _, _ => (.ok (), ())
  | .appendLine _ _, _ => (.appended, ())
  | .copyFile _ _, _ => (.ok (), ())
  | .rename _ _, _ => (.ok (), ())
  | .syncFile _, _ => (.ok (), ())
  | .spawnEngine _ _, _ => (.ok (), ())
  | .waitFor _ _, _ => (true, ())
  | .execReplace _, _ => ([], ())
  | .stamp _, _ => ((), ())
  | .warn _, _ => ((), ())
  | .report _ _, _ => ((), ())
  | .killEngine, _ => ((), ())

/-- On the machine without a NIC the disk proves itself. -/
theorem provesSlab_nodeWithoutNic (params : BootParams) (hslabs : params.slabs = ["/dev/sda".toList])
    (boothost : Text) : ProvesSlab nodeWithoutNic params () boothost := by
  have hline : (lines "/dev/sda: slab 0f8fad5b-d9cb-469f-a165-70867728950e\n".toList).any isSlabLine =
      true := by
    decide
  have htrusted : ∀ u, Program.exec nodeWithoutNic (trusts "/dev/sda".toList) u = (.ok true, ()) := by
    intro u
    rw [trusts, if_neg (by decide)]
    exact congrArg (fun verdict => (Except.ok verdict, ())) hline
  refine ⟨"/dev/sda".toList, by decide, ?_⟩
  rw [hslabs, probe, htrusted]
  exact List.mem_cons_self

/-- Its disk proves itself, and the run ends without starting the engine because the network step
failed: the two results of that step do not do the same. -/
theorem not_networkIndependent_nodeWithoutNic :
    installedNode.boothostClaim =
        some ("http://10.0.0.1:8080".toList, "7XK2".toList, "boothost".toList) ∧
      ProvesSlab nodeWithoutNic installedNode () "http://10.0.0.1:8080".toList ∧
      engineStarts nodeWithoutNic (run installedNode) () = [] ∧
      ¬NetworkIndependent nodeWithoutNic installedNode () := by
  have hclaim : installedNode.boothostClaim =
      some ("http://10.0.0.1:8080".toList, "7XK2".toList, "boothost".toList) := rfl
  have hproves := provesSlab_nodeWithoutNic installedNode rfl "http://10.0.0.1:8080".toList
  refine ⟨hclaim, hproves, ?_, not_networkIndependent hclaim rfl hproves⟩
  rw [run_eq_runWith]
  exact engineStarts_network_fails hclaim (bringUpNetwork_notEngine _) rfl

/-- The same node with a flow-over that the guard refuses. -/
def refusedNode : BootParams :=
  { installedNode with localDisk := some "/dev/sda".toList, dataSlab := some "/dev/sda".toList }

/-- There the boot ends before the network is tried. -/
theorem networkIndependent_refusedNode : NetworkIndependent nodeWithoutNic refusedNode () :=
  (networkIndependent_iff nodeWithoutNic refusedNode () "http://10.0.0.1:8080".toList
    "7XK2".toList "boothost".toList rfl (provesSlab_nodeWithoutNic refusedNode rfl _)).2.mpr
      ((checkLocalDisk_of_some refusedNode _ _ rfl rfl).2 rfl)

end Stormnetboot.Init

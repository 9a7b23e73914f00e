import Stormnetboot.Init.StepEnds

/-!
# Which slabs the engine is started on

Without an appliance the named slabs are taken as they are; with one, a named slab has to be a
URI or to prove itself, and the appliance is asked when none does. The probing is stated as a
list of verdicts, one for each named slab, in the states the resolution reaches; the outcome is
then a function of the verdicts and of the appliance's answer. A command line that passes the
check for a root source never leaves the engine without a slab.
-/

namespace Stormnetboot.Init

open Stormnetboot.Common

/-! ## Probing -/

/-- Whether a named slab is trusted: a URI is, and a device that proves to be a slab. -/
def trusts (slab : Text) : Boot Bool :=
  if containsText "://".toList slab then .done true else isSlab slab

/-- What the console says of a slab that is dropped. -/
def droppedStamp (boothost slab : Text) : SysOp :=
  .stamp (slab ++ " is not a slab - asking ".toList ++ boothost ++ " instead".toList)

section

variable {σ : Type} (h : Handler SysOp SysOp.Ans σ)

/-- The verdict on each named slab, and the state that probing them in order leaves. -/
def probe (boothost : Text) : List Text → σ → List (Text × Bool) × σ
  | [], s => ([], s)
  | slab :: rest, s =>
    match Program.exec h (trusts slab) s with
    | (.ok true, t) =>
      let (verdicts, u) := probe boothost rest t
      ((slab, true) :: verdicts, u)
    | (_, t) =>
      let (verdicts, u) := probe boothost rest (h (droppedStamp boothost slab) t).2
      ((slab, false) :: verdicts, u)

end

/-- The slabs with a good verdict, in the order of their naming. -/
def survivors (verdicts : List (Text × Bool)) : List Text :=
  (verdicts.filter (·.2)).map (·.1)

/-- The data slab is attached last, if it is not among the slabs already. -/
def BootParams.withDataSlab (params : BootParams) (slabs : List Text) : List Text :=
  match params.dataSlab with
  | some data => if slabs.contains data then slabs else slabs ++ [data]
  | none => slabs

/-- Asking the appliance, with what the console says about it. -/
def askAppliance (params : BootParams) (boothost tag claimNamespace : Text) : Boot Text := do
  stamp ("asking ".toList ++ boothost ++ " which image ".toList ++ tag ++ " boots".toList)
  bootClaim boothost tag claimNamespace params.hostnqn

/-- The operation asks the appliance for a root. -/
def AsksAppliance : SysOp → Prop
  | .command argv _ => argv.take 2 = [stormblock, "boot-claim".toList]
  | _ => False

/-- Probing a device ends with a verdict. -/
theorem isSlab_succeeds (dev : Text) : (isSlab dev).Succeeds := by
  unfold isSlab pathExists runCommand
  intro present
  cases present with
  | false => exact ⟨false, rfl⟩
  | true =>
    intro result
    match result with
    | .exited true _ stdout => exact ⟨_, rfl⟩
    | .exited false _ _ => exact ⟨_, rfl⟩
    | .notStarted _ => exact ⟨_, rfl⟩

/-- Probing a slab ends with a verdict. -/
theorem trusts_succeeds (slab : Text) : (trusts slab).Succeeds := by
  unfold trusts
  split_ifs
  · exact ⟨true, rfl⟩
  · exact isSlab_succeeds slab

/-- Probing does not ask the appliance. -/
theorem trusts_only (slab : Text) : (trusts slab).Only fun op => ¬AsksAppliance op := by
  unfold trusts isSlab pathExists runCommand
  split_ifs
  · trivial
  refine ⟨id, fun present => ?_⟩
  cases present with
  | false => trivial
  | true =>
    refine ⟨by simp [AsksAppliance, words], fun result => ?_⟩
    match result with
    | .exited true _ _ => trivial
    | .exited false _ _ => trivial
    | .notStarted _ => trivial

/-- The loop over the named slabs, one slab at a time. -/
theorem survivingSlabs_cons (boothost slab : Text) (rest : List Text) :
    survivingSlabs boothost (slab :: rest) = trusts slab >>= fun trusted =>
      if trusted then survivingSlabs boothost rest >>= fun kept => .done (slab :: kept)
      else Program.perform (droppedStamp boothost slab) >>= fun _ =>
        survivingSlabs boothost rest := by
  rw [survivingSlabs, trusts]
  split_ifs <;> rfl

/-- Probing the slabs does not ask the appliance. -/
theorem survivingSlabs_only (boothost : Text) (slabs : List Text) :
    (survivingSlabs boothost slabs).Only fun op => ¬AsksAppliance op := by
  induction slabs with
  | nil => trivial
  | cons slab rest ih =>
    rw [survivingSlabs_cons]
    refine Program.only_bind (trusts_only slab) fun trusted => ?_
    cases trusted with
    | true => exact Program.only_bind ih fun _ => trivial
    | false => exact ⟨id, fun _ => ih⟩

section

variable {σ : Type} (h : Handler SysOp SysOp.Ans σ)

/-- The loop returns the survivors of the probing. -/
theorem exec_survivingSlabs (boothost : Text) (slabs : List Text) (s : σ) :
    Program.exec h (survivingSlabs boothost slabs) s =
      (.ok (survivors (probe h boothost slabs s).1), (probe h boothost slabs s).2) := by
  induction slabs generalizing s with
  | nil => rfl
  | cons slab rest ih =>
    obtain ⟨verdict, hverdict⟩ := (trusts_succeeds slab).exec h s
    rw [survivingSlabs_cons, Program.exec_bind, probe, hverdict]
    cases verdict with
    | true =>
      simp only [if_true]
      rw [Program.exec_bind_done, ih]
      rfl
    | false =>
      simp only [Bool.false_eq_true, if_false]
      exact ih _

/-- There is one verdict for each named slab, in order. -/
theorem probe_map_fst (boothost : Text) (slabs : List Text) (s : σ) :
    (probe h boothost slabs s).1.map (·.1) = slabs := by
  induction slabs generalizing s with
  | nil => rfl
  | cons slab rest ih =>
    rw [probe]
    split
    · exact congrArg (slab :: ·) (ih _)
    · exact congrArg (slab :: ·) (ih _)

/-- Each verdict is what probing the slab found in a state of the execution. -/
theorem probe_verdict (boothost : Text) (slabs : List Text) (s : σ) :
    ∀ verdict ∈ (probe h boothost slabs s).1,
      ∃ t, Program.Visits h (survivingSlabs boothost slabs) s t ∧
        (Program.exec h (trusts verdict.1) t).1 = .ok verdict.2 := by
  induction slabs generalizing s with
  | nil => exact fun verdict hmem => by cases hmem
  | cons slab rest ih =>
    intro verdict hmem
    obtain ⟨trusted, htrusted⟩ := (trusts_succeeds slab).exec h s
    rw [survivingSlabs_cons]
    rw [probe, htrusted] at hmem
    cases trusted with
    | true =>
      rcases List.mem_cons.mp hmem with rfl | hrest
      · exact ⟨s, .here _ _, by rw [htrusted]⟩
      obtain ⟨t, hvisits, hverdict⟩ := ih _ verdict hrest
      refine ⟨t, (Program.visits_bind_iff ..).mpr (.inr ⟨_, _, htrusted, ?_⟩), hverdict⟩
      exact (Program.visits_bind_iff ..).mpr (.inl hvisits)
    | false =>
      rcases List.mem_cons.mp hmem with rfl | hrest
      · exact ⟨s, .here _ _, by rw [htrusted]⟩
      obtain ⟨t, hvisits, hverdict⟩ := ih _ verdict hrest
      exact ⟨t, (Program.visits_bind_iff ..).mpr (.inr ⟨_, _, htrusted, .later hvisits⟩), hverdict⟩

/-- The survivors stand in the order of their naming. -/
theorem survivors_sublist (boothost : Text) (slabs : List Text) (s : σ) :
    (survivors (probe h boothost slabs s).1).Sublist slabs := by
  have hsub := (List.filter_sublist (p := (·.2)) (l := (probe h boothost slabs s).1)).map (·.1)
  rwa [probe_map_fst] at hsub

end

/-! ## The outcome -/

/-- The resolution with a claim: the survivors, or else the appliance's answer, and the data
slab. -/
theorem resolveSlabs_claimed {params : BootParams} {boothost tag claimNamespace : Text}
    (hclaim : params.boothostClaim = some (boothost, tag, claimNamespace)) :
    resolveSlabs params = survivingSlabs boothost params.slabs >>= fun kept =>
      if kept = [] then
        askAppliance params boothost tag claimNamespace >>= fun uri =>
          stamp ("claimed root: ".toList ++ uri) >>= fun _ =>
            .done (params.withDataSlab (uri :: kept))
      else .done (params.withDataSlab kept) := by
  have hdata : ∀ slabs : List Text,
      (match params.dataSlab with
        | some data => .done (if slabs.contains data then slabs else slabs ++ [data])
        | none => .done slabs : Boot (List Text)) = .done (params.withDataSlab slabs) := by
    intro slabs
    rw [BootParams.withDataSlab]
    cases params.dataSlab <;> rfl
  rw [resolveSlabs, hclaim]
  simp only [List.isEmpty_iff]
  refine congrArg _ (funext fun kept => ?_)
  split_ifs
  · refine congrArg (askAppliance params boothost tag claimNamespace >>= ·) (funext fun uri => ?_)
    exact congrArg (stamp ("claimed root: ".toList ++ uri) >>= ·) (funext fun _ => hdata _)
  · exact hdata kept

section

variable {σ : Type} (h : Handler SysOp SysOp.Ans σ) (params : BootParams) (s : σ)

/-- Without a claim the slabs are the ones of the command line, untouched. -/
theorem exec_resolveSlabs_unclaimed (hclaim : params.boothostClaim = none) :
    Program.exec h (resolveSlabs params) s = (.ok params.allSlabs, s) := by
  rw [resolveSlabs, hclaim]
  rfl

end

/-! ## The engine has a slab -/

/-- Adding the data slab leaves slabs. -/
theorem withDataSlab_ne_nil (params : BootParams) {slabs : List Text} (hslabs : slabs ≠ []) :
    params.withDataSlab slabs ≠ [] := by
  unfold BootParams.withDataSlab
  cases params.dataSlab with
  | none => exact hslabs
  | some data =>
    simp only
    split_ifs
    · exact hslabs
    · exact List.append_ne_nil_of_left_ne_nil hslabs _

/-- A command line with a root source and no claim names a slab. -/
theorem allSlabs_ne_nil {params : BootParams} (hsource : params.HasRootSource)
    (hclaim : params.boothostClaim = none) : params.allSlabs ≠ [] := by
  suffices hslabs : params.nvmeUri.toList ++ params.slabs ≠ [] from
    withDataSlab_ne_nil params hslabs
  rcases hsource with hnetwork | hslabs
  · have huri : params.nvmeUri.isSome = true := by
      simpa [BootParams.isNetworkBoot, hclaim] using hnetwork
    obtain ⟨uri, huri⟩ := Option.isSome_iff_exists.mp huri
    simp [huri]
  · exact List.append_ne_nil_of_right_ne_nil _ hslabs

/-- The resolution ends with a slab for the engine, or in an error. -/
theorem resolveSlabs_ne_nil {params : BootParams} (hsource : params.HasRootSource) :
    (resolveSlabs params).Ends fun r => ∀ slabs, r = .ok slabs → slabs ≠ [] := by
  cases hclaim : params.boothostClaim with
  | none =>
    rw [resolveSlabs, hclaim]
    intro slabs heq
    cases heq
    exact allSlabs_ne_nil hsource hclaim
  | some claim =>
    obtain ⟨boothost, tag, claimNamespace⟩ := claim
    rw [resolveSlabs_claimed hclaim]
    refine Program.ends_bind (Program.ends_true _) (fun kept _ => ?_) fun e _ slabs heq => by
      cases heq
    split_ifs with hkept
    · refine Program.ends_bind (Program.ends_true _) (fun uri _ => ?_) fun e _ slabs heq => by
        cases heq
      intro _ slabs heq
      cases heq
      exact withDataSlab_ne_nil params (List.cons_ne_nil _ _)
    · intro slabs heq
      cases heq
      exact withDataSlab_ne_nil params hkept

/-- A command line with a root source gets the engine a slab. -/
theorem attachRoot_raisesOnly {params : BootParams} (hsource : params.HasRootSource) :
    RaisesOnly bootErrors (attachRoot params) := by
  refine (raisesOnly_of_succeeds (reportPhase_succeeds _ _)).bind fun _ => ?_
  have hresolve : (withContext "resolving the root slab".toList (resolveSlabs params)).Ends
      fun r => ∀ slabs, r = .ok slabs → slabs ≠ [] := by
    refine Program.ends_mapError (resolveSlabs_ne_nil hsource) (fun slabs h => ?_) fun e _ => ?_
    · exact h
    · intro slabs heq
      cases heq
  have hraises : RaisesOnly bootErrors
      (withContext "resolving the root slab".toList (resolveSlabs params)) :=
    (raisesOnly_empty _).withContext fun message _ =>
      beginsLike_append (by decide)
        (show "resolving the root slab: ".toList <+: "resolving the root slab: ".toList from
          List.prefix_rfl) message
  refine Program.ends_bind (hresolve.and hraises) (fun slabs hslabs => ?_) fun e he message heq => by
    cases heq
    exact he.2 message rfl
  refine (startEngine_raisesOnly params (hslabs.1 slabs rfl) _).bind fun _ => ?_
  refine Program.ends_bind (Program.ends_attempt (waitForDevice_raisesOnly 60))
    (fun result hresult => ?_) fun e he => by
      obtain ⟨result, heq, -⟩ := he
      cases heq
  obtain ⟨result', heq, hresult⟩ := hresult
  cases heq
  match result with
  | .ok () => exact raisesOnly_done ()
  | .error e =>
    intro _ message heq
    cases heq
    exact hresult message rfl

/-- Every error of the sequence is one of the ten. -/
theorem run_raisesOnly (params : BootParams) : RaisesOnly bootErrors (run params) := by
  rw [run_eq_runWith]
  refine (earlySteps_raisesOnly params).bind fun _ => ?_
  by_cases hsource : params.HasRootSource
  · refine (rootSource_raisesOnly params).bind fun _ => ?_
    refine (attachRoot_raisesOnly hsource).bind fun _ => ?_
    exact (prepareRoot_raisesOnly params).bind fun _ => switchRoot_raisesOnly
  · simp only [BootParams.HasRootSource, not_or, not_not] at hsource
    rw [rootSource, if_neg hsource.1, if_pos (by rw [hsource.2]; rfl)]
    refine raisesOnly_bail ?_
    simp only [List.append_assoc]
    exact beginsLike_append (by decide) List.prefix_rfl _

/-! ## The contract -/

/-- What is named and survives the probing. -/
def namedSurvivors {σ : Type} (h : Handler SysOp SysOp.Ans σ) (params : BootParams)
    (boothost : Text) (s : σ) : List Text :=
  survivors (probe h boothost params.slabs s).1

/-- What the appliance answers when it is asked after the probing. -/
def applianceAnswer {σ : Type} (h : Handler SysOp SysOp.Ans σ) (params : BootParams)
    (boothost tag claimNamespace : Text) (s : σ) : Except Stop Text :=
  (Program.exec h (askAppliance params boothost tag claimNamespace)
    (probe h boothost params.slabs s).2).1

/-- What the resolution owes a command line that names an appliance and a tag. -/
structure ResolvesClaim {σ : Type} (h : Handler SysOp SysOp.Ans σ) (params : BootParams) (s : σ)
    (boothost tag claimNamespace : Text) : Prop where
  probed : (probe h boothost params.slabs s).1.map (·.1) = params.slabs
  verdicts : ∀ verdict ∈ (probe h boothost params.slabs s).1,
    ∃ t, Program.Visits h (resolveSlabs params) s t ∧
      (Program.exec h (trusts verdict.1) t).1 = .ok verdict.2
  fails_iff : (∃ e, (Program.exec h (resolveSlabs params) s).1 = .error e) ↔
    namedSurvivors h params boothost s = [] ∧
      ∃ e, applianceAnswer h params boothost tag claimNamespace s = .error e
  asks_iff : (∃ op ∈ Program.trace h (resolveSlabs params) s, AsksAppliance op) ↔
    namedSurvivors h params boothost s = []
  claimed : namedSurvivors h params boothost s = [] →
    ∀ slabs, (Program.exec h (resolveSlabs params) s).1 = .ok slabs →
      ∃ uri, applianceAnswer h params boothost tag claimNamespace s = .ok uri ∧
        slabs = params.withDataSlab [uri]
  kept : namedSurvivors h params boothost s ≠ [] →
    (Program.exec h (resolveSlabs params) s).1 =
      .ok (params.withDataSlab (namedSurvivors h params boothost s))
  ordered : (namedSurvivors h params boothost s).Sublist params.slabs
  proven : ∀ slabs, (Program.exec h (resolveSlabs params) s).1 = .ok slabs → ∀ slab ∈ slabs,
    slab ∈ namedSurvivors h params boothost s ∨ params.dataSlab = some slab ∨
      namedSurvivors h params boothost s = [] ∧
        applianceAnswer h params boothost tag claimNamespace s = .ok slab
  data : ∀ slabs data, (Program.exec h (resolveSlabs params) s).1 = .ok slabs →
    params.dataSlab = some data → data ∈ slabs

/-- The data slab is added to the slabs. -/
theorem mem_withDataSlab {params : BootParams} {slabs : List Text} {slab : Text} :
    slab ∈ params.withDataSlab slabs ↔ slab ∈ slabs ∨ params.dataSlab = some slab := by
  unfold BootParams.withDataSlab
  cases params.dataSlab with
  | none => simp
  | some data =>
    simp only [List.contains_iff_mem, Option.some.injEq]
    split_ifs with hmem
    · exact ⟨.inl, fun h => h.elim id fun h => h ▸ hmem⟩
    · rw [List.mem_append, List.mem_singleton, eq_comm (a := slab)]

section

variable {σ : Type} {h : Handler SysOp SysOp.Ans σ} {params : BootParams} {s : σ}
  {boothost tag claimNamespace : Text}

/-- Those that survive are those that prove themselves. -/
theorem exec_namedSurvivors :
    Program.exec h (survivingSlabs boothost params.slabs) s =
      (.ok (namedSurvivors h params boothost s), (probe h boothost params.slabs s).2) :=
  exec_survivingSlabs h boothost params.slabs s

/-- The result is decided by the survivors and the appliance's answer. -/
theorem resolveSlabs_result
    (hclaim : params.boothostClaim = some (boothost, tag, claimNamespace)) :
    (Program.exec h (resolveSlabs params) s).1 =
      if namedSurvivors h params boothost s = [] then
        (applianceAnswer h params boothost tag claimNamespace s).map
          fun uri => params.withDataSlab [uri]
      else .ok (params.withDataSlab (namedSurvivors h params boothost s)) := by
  rw [resolveSlabs_claimed hclaim, Program.exec_bind, exec_namedSurvivors]
  simp only
  split_ifs with hnone
  · rw [hnone, Program.exec_bind, applianceAnswer]
    rcases Program.exec h (askAppliance params boothost tag claimNamespace) _ with ⟨_ | uri, u⟩
    · rfl
    · rfl
  · rfl

/-- The appliance is asked exactly when nothing that is named survives. -/
theorem asks_resolveSlabs_iff
    (hclaim : params.boothostClaim = some (boothost, tag, claimNamespace)) :
    (∃ op ∈ Program.trace h (resolveSlabs params) s, AsksAppliance op) ↔
      namedSurvivors h params boothost s = [] := by
  have hprobing := survivingSlabs_only boothost params.slabs
  rw [resolveSlabs_claimed hclaim]
  constructor
  · rintro ⟨op, hop, hasks⟩
    by_contra hsome
    rcases hprobing.mem_trace_bind exec_namedSurvivors hop with hno | hop
    · exact hno hasks
    · rw [if_neg hsome] at hop
      cases hop
  · intro hnone
    refine ⟨.command ([stormblock] ++ words ["boot-claim", "--boothost"] ++
      [boothost, "--tag".toList, tag] ++ if claimNamespace ≠ "boothost".toList then
        ["--namespace".toList, claimNamespace] else []) (hostNqnEnv params.hostnqn), ?_, rfl⟩
    refine (Program.mem_trace_bind_iff ..).mpr (.inr ⟨_, _, exec_namedSurvivors, ?_⟩)
    rw [if_pos hnone]
    exact (Program.mem_trace_bind_iff ..).mpr
      (.inl (List.mem_cons_of_mem _ List.mem_cons_self))

/-- A result is the claimed root or the survivors, with the data slab. -/
theorem resolveSlabs_ok
    (hclaim : params.boothostClaim = some (boothost, tag, claimNamespace)) {slabs : List Text}
    (hslabs : (Program.exec h (resolveSlabs params) s).1 = .ok slabs) :
    (namedSurvivors h params boothost s = [] ∧
      ∃ uri, applianceAnswer h params boothost tag claimNamespace s = .ok uri ∧
        slabs = params.withDataSlab [uri]) ∨
    (namedSurvivors h params boothost s ≠ [] ∧
      slabs = params.withDataSlab (namedSurvivors h params boothost s)) := by
  rw [resolveSlabs_result hclaim] at hslabs
  split_ifs at hslabs with hnone
  · cases hanswer : applianceAnswer h params boothost tag claimNamespace s with
    | error e =>
      rw [hanswer] at hslabs
      cases hslabs
    | ok uri =>
      rw [hanswer] at hslabs
      cases hslabs
      exact .inl ⟨hnone, uri, rfl, rfl⟩
  · cases hslabs
    exact .inr ⟨hnone, rfl⟩

/-- A command line with a claim is resolved as the claim says. -/
theorem resolvesClaim_of_claim
    (hclaim : params.boothostClaim = some (boothost, tag, claimNamespace)) :
    ResolvesClaim h params s boothost tag claimNamespace where
  probed := probe_map_fst h boothost params.slabs s
  verdicts verdict hmem := by
    obtain ⟨t, hvisits, hverdict⟩ := probe_verdict h boothost params.slabs s verdict hmem
    rw [resolveSlabs_claimed hclaim]
    exact ⟨t, (Program.visits_bind_iff ..).mpr (.inl hvisits), hverdict⟩
  fails_iff := by
    rw [resolveSlabs_result hclaim]
    split_ifs with hnone
    · cases applianceAnswer h params boothost tag claimNamespace s with
      | error e => simp [hnone, Except.map]
      | ok uri => simp [hnone, Except.map]
    · simp [hnone]
  asks_iff := asks_resolveSlabs_iff hclaim
  claimed hnone slabs hslabs :=
    (resolveSlabs_ok hclaim hslabs).elim (·.2) fun hsome => absurd hnone hsome.1
  kept hsome := by rw [resolveSlabs_result hclaim, if_neg hsome]
  ordered := survivors_sublist h boothost params.slabs s
  proven slabs hslabs slab hmem := by
    rcases resolveSlabs_ok hclaim hslabs with ⟨hnone, uri, hanswer, rfl⟩ | ⟨-, rfl⟩
    · rcases mem_withDataSlab.mp hmem with huri | hdata
      · obtain rfl := List.mem_singleton.mp huri
        exact .inr (.inr ⟨hnone, hanswer⟩)
      · exact .inr (.inl hdata)
    · exact (mem_withDataSlab.mp hmem).imp_right .inl
  data slabs data hslabs hdata := by
    rcases resolveSlabs_ok hclaim hslabs with ⟨-, uri, -, rfl⟩ | ⟨-, rfl⟩
    · exact mem_withDataSlab.mpr (.inr hdata)
    · exact mem_withDataSlab.mpr (.inr hdata)

end

/-- The resolution of the root slab, on any system and for any command line. -/
theorem resolveSlabs_contract {σ : Type} (h : Handler SysOp SysOp.Ans σ) (params : BootParams)
    (s : σ) :
    (params.boothostClaim = none →
      Program.exec h (resolveSlabs params) s = (.ok params.allSlabs, s)) ∧
    (∀ boothost tag claimNamespace,
      params.boothostClaim = some (boothost, tag, claimNamespace) →
        ResolvesClaim h params s boothost tag claimNamespace) ∧
    (params.HasRootSource → ∀ slabs,
      (Program.exec h (resolveSlabs params) s).1 = .ok slabs → slabs ≠ []) ∧
    (Program.exec h (run params) s).1 ≠
      .error (.error "starting stormblock: no slab to boot from".toList) := by
  refine ⟨exec_resolveSlabs_unclaimed h params s, fun _ _ _ => resolvesClaim_of_claim,
    fun hsource => (resolveSlabs_ne_nil hsource).exec h s, fun herror => ?_⟩
  have hbegins := (run_raisesOnly params).exec h s _ herror
  unfold BeginsLike at hbegins
  exact absurd hbegins (by decide)

end Stormnetboot.Init

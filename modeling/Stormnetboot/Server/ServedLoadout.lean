import Stormnetboot.Server.OneClone

/-!
# The loadout a served script boots

A claim is made for the golden that the machine's record names at the time, and kept by the
machine alone. While the golden that a record names stays what it is for every machine the
surface holds a claim of or is serving, each script boots a claim of the current golden; a
record that is moved to another loadout after that goes on being served the first one.
-/

namespace Stormnetboot.Server

open Stormnetboot.Common

/-- The golden of a record: the one it names, or else the configured one. -/
def goldenOf (cfg : Config) (record : Option HostRecord) : Option Text :=
  (record.bind HostRecord.stack).or cfg.golden

/-- The golden of a machine's current record. -/
def currentGolden (cfg : Config) (hosts : HostStore) (mac : Mac) : Option Text :=
  goldenOf cfg (hosts.lookup mac)

/-- The plan boots this claim. -/
structure BootPlan.Carries (plan : BootPlan) (claim : ClaimResponse) (attach : Attach) : Prop where
  attached : claim.attach = some attach
  portal : plan.portal = some attach.address
  portalPort : plan.portalPort = attach.port
  nqn : plan.nqn = some attach.target
  nsid : plan.nsid = attach.nsid
  volume : plan.volume = some claim.volumeName

/-- The surface holds a claim of the machine, or is serving it. -/
def BootSurface.Busy (surface : BootSurface) (mac : Mac) : Prop :=
  surface.claims.lookup mac ≠ none ∨ (∃ request ∈ surface.waiting, request.mac = some mac) ∨
    (∃ held ∈ surface.holder, held.1.mac = some mac) ∨
    ∃ answered ∈ surface.ready, answered.1.mac = some mac

/-- No machine that the surface is busy with is moved to another golden. -/
def SurfaceEvent.KeepsLoadout (cfg : Config) (surface : BootSurface) : SurfaceEvent → Prop
  | .change edit => ∀ mac, surface.Busy mac →
      currentGolden cfg (surface.hosts.change edit) mac = currentGolden cfg surface.hosts mac
  | _ => True

section Rules

variable (lib : Library) (cfg : Config)

/-- The log has a request of this claim for the machine and the golden. -/
def RequestedFor (golden : Option Text) (mac : Mac) (claim : ClaimResponse)
    (log : List SurfaceEntry) : Prop :=
  ∃ request ask answer, .answered request ask answer ∈ log ∧ request.mac = some mac ∧
    answer.minted lib = some claim ∧ golden = some ask.golden

/-- A script served to a machine boots a claim that was requested for the machine's current
golden. -/
def ServesLoadout (before : List SurfaceEntry) : SurfaceEntry → Prop
  | .served request script current => ∀ mac, request.mac = some mac →
      ∃ plan claim attach, script = render cfg plan ∧ plan.Carries claim attach ∧
        RequestedFor lib (goldenOf cfg current) mac claim before
  | _ => True

/-! ## The invariant -/

/-- The claim can be attached, and was requested for what `golden` says of the machine. -/
def HasLoadout (golden : Mac → Option Text) (log : List SurfaceEntry) (mac : Mac)
    (claim : ClaimResponse) : Prop :=
  claim.isAttachable = true ∧ RequestedFor lib (golden mac) mac claim log

/-- Everything the surface is busy with is about the golden of its machine. -/
structure OnLoadout (golden : Mac → Option Text) (surface : BootSurface)
    (log : List SurfaceEntry) : Prop where
  waiting : ∀ request ∈ surface.waiting, ∀ mac, request.mac = some mac →
    goldenOf cfg request.record = golden mac
  holder : ∀ held ∈ surface.holder, ∀ mac, held.1.mac = some mac →
    golden mac = some held.2.golden
  kept : ∀ mac claim, surface.claims.lookup mac = some claim → HasLoadout lib golden log mac claim
  ready : ∀ answered ∈ surface.ready, ∀ mac, answered.1.mac = some mac →
    ∃ claim, answered.2 = some claim ∧ HasLoadout lib golden log mac claim
  served : EachAfter (ServesLoadout lib cfg) log

variable {lib cfg} {golden : Mac → Option Text} {surface surface' : BootSurface}
  {log entries : List SurfaceEntry}

/-- What was requested stays requested. -/
theorem HasLoadout.append {mac : Mac} {claim : ClaimResponse}
    (h : HasLoadout lib golden log mac claim) (entries : List SurfaceEntry) :
    HasLoadout lib golden (log ++ entries) mac claim := by
  obtain ⟨hattach, request, ask, answer, hmem, hrest⟩ := h
  exact ⟨hattach, request, ask, answer, List.mem_append_left _ hmem, hrest⟩

/-- A step puts things where they belong, and the rest was there before. -/
theorem OnLoadout.frame (h : OnLoadout lib cfg golden surface log)
    (hwaiting : ∀ request ∈ surface'.waiting, request ∈ surface.waiting ∨
      ∀ mac, request.mac = some mac → goldenOf cfg request.record = golden mac)
    (hholder : ∀ held ∈ surface'.holder, held ∈ surface.holder ∨
      ∀ mac, held.1.mac = some mac → golden mac = some held.2.golden)
    (hkept : ∀ mac claim, surface'.claims.lookup mac = some claim →
      surface.claims.lookup mac = some claim ∨ HasLoadout lib golden (log ++ entries) mac claim)
    (hready : ∀ answered ∈ surface'.ready, answered ∈ surface.ready ∨
      ∀ mac, answered.1.mac = some mac →
        ∃ claim, answered.2 = some claim ∧ HasLoadout lib golden (log ++ entries) mac claim)
    (hserved : ∀ entry ∈ entries, ∀ before, ServesLoadout lib cfg (log ++ before) entry) :
    OnLoadout lib cfg golden surface' (log ++ entries) where
  waiting request hmem := (hwaiting request hmem).elim (h.waiting request) id
  holder held hmem := (hholder held hmem).elim (h.holder held) id
  kept mac claim hlookup :=
    (hkept mac claim hlookup).elim (fun hold => (h.kept mac claim hold).append entries) id
  ready answered hmem := by
    rcases hready answered hmem with hold | hnew
    · intro mac hmac
      obtain ⟨claim, hclaim, hloadout⟩ := h.ready answered hold mac hmac
      exact ⟨claim, hclaim, hloadout.append entries⟩
    · exact hnew
  served := h.served.append (eachAfter_of_forall hserved)

/-- Only the machines the surface is busy with matter. -/
theorem OnLoadout.change {golden' : Mac → Option Text} (h : OnLoadout lib cfg golden surface log)
    (hosts : HostStore) (hsame : ∀ mac, surface.Busy mac → golden' mac = golden mac) :
    OnLoadout lib cfg golden' { surface with hosts := hosts } log := by
  have hloadout : ∀ mac claim, surface.Busy mac → HasLoadout lib golden log mac claim →
      HasLoadout lib golden' log mac claim := by
    intro mac claim hbusy hhas
    unfold HasLoadout
    rwa [hsame mac hbusy]
  refine ⟨fun request hmem mac hmac => ?_, fun held hmem mac hmac => ?_,
    fun mac claim hlookup => ?_, fun answered hmem mac hmac => ?_, h.served⟩
  · rw [hsame mac (.inr (.inl ⟨request, hmem, hmac⟩))]
    exact h.waiting request hmem mac hmac
  · rw [hsame mac (.inr (.inr (.inl ⟨held, hmem, hmac⟩)))]
    exact h.holder held hmem mac hmac
  · refine hloadout mac claim (.inl ?_) (h.kept mac claim hlookup)
    rw [hlookup]
    exact Option.some_ne_none claim
  · obtain ⟨claim, hclaim, hhas⟩ := h.ready answered hmem mac hmac
    exact ⟨claim, hclaim, hloadout mac claim (.inr (.inr (.inr ⟨answered, hmem, hmac⟩))) hhas⟩

end Rules

/-! ## One step -/

/-- The plan of an attachable claim carries it. -/
theorem exists_carries_bootPlan (cfg : Config) (request : Admitted) {claim : ClaimResponse}
    (h : claim.isAttachable = true) :
    ∃ attach, (bootPlan cfg request (some claim)).Carries claim attach := by
  unfold ClaimResponse.isAttachable at h
  cases hattach : claim.attach with
  | none =>
    rw [hattach] at h
    cases h
  | some attach =>
    have hplan : bootPlan cfg request (some claim) =
        { BootPlan.resolve cfg request.mac request.record with
          portal := some attach.address
          portalPort := attach.port
          nqn := some attach.target
          nsid := attach.nsid
          volume := some claim.volumeName } := by
      simp only [bootPlan, Option.bind_some, hattach]
    rw [hplan]
    exact ⟨attach, hattach, rfl, rfl, rfl, rfl, rfl⟩

section Events

variable {lib : Library} {cfg : Config} {golden : Mac → Option Text} {surface : BootSurface}
  {log : List SurfaceEntry}

/-- A claim that was made is of the golden it was requested for. -/
theorem OnLoadout.claim (h : OnLoadout lib cfg golden surface log) {request : Admitted}
    {ask : ClaimRequest} {answer : RegistryAnswer} {claim : ClaimResponse}
    (hheld : surface.holder = some (request, ask)) (hminted : answer.minted lib = some claim)
    (hattach : claim.isAttachable = true) :
    OnLoadout lib cfg golden
      { surface with
        holder := none
        claims := claimFinish surface.claims request (.ok claim)
        ready := surface.ready ++ [(request, some claim)] }
      (log ++ [.answered request ask answer]) := by
  have hloadout : ∀ mac, request.mac = some mac →
      HasLoadout lib golden (log ++ [.answered request ask answer]) mac claim := fun mac hmac =>
    ⟨hattach, request, ask, answer, by simp, hmac, hminted, h.holder _ hheld mac hmac⟩
  refine h.frame (fun _ => .inl) (fun _ hnone => nomatch hnone) (fun mac kept hlookup => ?_)
    (fun answered hmem => ?_) fun entry hmem before => ?_
  · rw [lookup_claimFinish] at hlookup
    split_ifs at hlookup with hmac
    · cases hlookup
      exact .inr (hloadout mac hmac)
    · exact .inl hlookup
  · rcases List.mem_append.mp hmem with hold | hnew
    · exact .inl hold
    · obtain rfl := List.mem_singleton.mp hnew
      exact .inr fun mac hmac => ⟨claim, rfl, hloadout mac hmac⟩
  · obtain rfl := List.mem_singleton.mp hmem
    exact trivial

/-- What a request asks for is the golden of its machine. -/
theorem OnLoadout.asked (h : OnLoadout lib cfg golden surface log) {request : Admitted}
    {client : ClaimClient} (hwaits : request ∈ surface.waiting)
    (hclient : ClaimClient.ofConfig cfg = some client) (mac : Mac) (hmac : request.mac = some mac) :
    golden mac = some (client.request request.mac request.golden).golden := by
  rw [← h.waiting request hwaits mac hmac, goldenOf, (ClaimClient.ofConfig_eq_some hclient).2]
  unfold ClaimClient.request Admitted.golden
  cases request.record.bind HostRecord.stack <;> rfl

/-- A script for a request that has its answer boots a claim of the current golden. -/
theorem OnLoadout.serves (h : OnLoadout lib cfg (currentGolden cfg surface.hosts) surface log)
    {request : Admitted} {claim : Option ClaimResponse} (hmem : (request, claim) ∈ surface.ready)
    (before : List SurfaceEntry) :
    ServesLoadout lib cfg (log ++ before)
      (.served request (render cfg (bootPlan cfg request claim))
        (request.mac.bind surface.hosts.lookup)) := by
  intro mac hmac
  obtain ⟨kept, rfl, hattach, hrequested⟩ := h.ready _ hmem mac hmac
  obtain ⟨attach, hcarries⟩ := exists_carries_bootPlan cfg request hattach
  refine ⟨_, kept, attach, rfl, hcarries, ?_⟩
  obtain ⟨asker, ask, answer, hlog, hrest⟩ := hrequested
  rw [hmac]
  exact ⟨asker, ask, answer, List.mem_append_left _ hlog, hrest⟩

end Events

/-- Every step keeps the surface on the current loadouts. -/
theorem OnLoadout.step {lib : Library} {cfg : Config} {surface : BootSurface}
    {log : List SurfaceEntry} (event : SurfaceEvent) (henabled : cfg.claimsEnabled = true)
    (h : OnLoadout lib cfg (currentGolden cfg surface.hosts) surface log)
    (hkeeps : event.KeepsLoadout cfg surface) :
    OnLoadout lib cfg (currentGolden cfg (BootSurface.step lib cfg surface event).1.hosts)
      (BootSurface.step lib cfg surface event).1
      (log ++ (BootSurface.step lib cfg surface event).2) := by
  have houtcome := BootSurface.step_outcome lib cfg surface event
  generalize (BootSurface.step lib cfg surface event).1 = surface' at houtcome ⊢
  generalize (BootSurface.step lib cfg surface event).2 = entries at houtcome ⊢
  have hsilent : ∀ entry ∈ ([] : List SurfaceEntry), ∀ before,
      ServesLoadout lib cfg (log ++ before) entry := fun _ hmem => nomatch hmem
  cases houtcome with
  | idle => exact h.frame (fun _ => .inl) (fun _ => .inl) (fun _ _ => .inl) (fun _ => .inl) hsilent
  | changed change =>
    rw [List.append_nil]
    exact h.change _ hkeeps
  | refused _ refusal =>
    refine h.frame (fun _ => .inl) (fun _ => .inl) (fun _ _ => .inl) (fun _ => .inl)
      fun entry hmem before => ?_
    obtain rfl := List.mem_singleton.mp hmem
    exact trivial
  | waits query request _ hadmitted =>
    refine h.frame (fun waiter hmem => ?_) (fun _ => .inl) (fun _ _ => .inl) (fun _ => .inl) hsilent
    rcases List.mem_append.mp hmem with hold | hnew
    · exact .inl hold
    · obtain rfl := List.mem_singleton.mp hnew
      refine .inr fun mac hmac => ?_
      rw [record_of_admitBoot hadmitted, hmac]
      rfl
  | passes query request hdisabled hadmitted =>
    rw [henabled] at hdisabled
    cases hdisabled
  | unconfigured i err =>
    refine h.frame (fun _ hmem => .inl (List.mem_of_mem_eraseIdx hmem)) (fun _ => .inl)
      (fun _ _ => .inl) (fun _ => .inl) fun entry hmem before => ?_
    obtain rfl := List.mem_singleton.mp hmem
    exact trivial
  | reuses i request mac claim hwaits hmac hclaim =>
    refine h.frame (fun _ hmem => .inl (List.mem_of_mem_eraseIdx hmem)) (fun _ => .inl)
      (fun _ _ => .inl) (fun answered hmem => ?_) hsilent
    rcases List.mem_append.mp hmem with hold | hnew
    · exact .inl hold
    · obtain rfl := List.mem_singleton.mp hnew
      refine .inr fun mac' hmac' => ⟨claim, rfl, ?_⟩
      cases hmac.symm.trans hmac'
      rw [List.append_nil]
      exact h.kept mac claim hclaim
  | asks i request client hwaits hclient hnone =>
    refine h.frame (fun _ hmem => .inl (List.mem_of_mem_eraseIdx hmem)) (fun held hmem => ?_)
      (fun _ _ => .inl) (fun _ => .inl) fun entry hmem before => ?_
    · obtain rfl := Option.mem_some.mp hmem
      exact .inr (h.asked hwaits hclient)
    · obtain rfl := List.mem_singleton.mp hmem
      exact trivial
  | claims answer request ask claim hheld hminted hattach => exact h.claim hheld hminted hattach
  | fails answer request ask err hheld hminted =>
    refine h.frame (fun _ => .inl) (fun _ hnone => nomatch hnone) (fun _ _ => .inl) (fun _ => .inl)
      fun entry hmem before => ?_
    rcases List.mem_cons.mp hmem with rfl | hmem
    · exact trivial
    · obtain rfl := List.mem_singleton.mp hmem
      exact trivial
  | serves i request claim hmem =>
    refine h.frame (fun _ => .inl) (fun _ => .inl) (fun _ _ => .inl)
      (fun _ hleft => .inl (List.mem_of_mem_eraseIdx hleft)) fun entry hentry before => ?_
    obtain rfl := List.mem_singleton.mp hentry
    exact h.serves hmem before
  | leaves i =>
    exact h.frame (fun _ hmem => .inl (List.mem_of_mem_eraseIdx hmem)) (fun _ => .inl)
      (fun _ _ => .inl) (fun _ => .inl) hsilent
  | abandons answer request ask hheld =>
    refine h.frame (fun _ => .inl) (fun _ hnone => nomatch hnone) (fun _ _ => .inl) (fun _ => .inl)
      fun entry hmem before => ?_
    obtain rfl := List.mem_singleton.mp hmem
    exact trivial

/-! ## Runs -/

/-- A surface that was just opened is busy with nothing. -/
theorem onLoadout_opened (lib : Library) (cfg : Config) (hosts : HostStore)
    (golden : Mac → Option Text) : OnLoadout lib cfg golden (BootSurface.opened hosts) [] where
  waiting _ hmem := nomatch hmem
  holder _ hnone := nomatch hnone
  kept _ _ hnone := nomatch hnone
  ready _ hmem := nomatch hmem
  served := eachAfter_nil _

/-- In every run that moves no machine to another golden while the surface is busy with it,
every script served to a machine boots a claim that was requested for the golden its record
names then. -/
theorem servesLoadout_of_keepsLoadout (lib : Library) (cfg : Config) (hosts : HostStore)
    (events : List SurfaceEvent) (henabled : cfg.claimsEnabled = true)
    (hkeeps : Always (BootSurface.step lib cfg)
      (fun surface event => event.KeepsLoadout cfg surface) (BootSurface.opened hosts) events) :
    EachAfter (ServesLoadout lib cfg)
      (runFrom (BootSurface.step lib cfg) (BootSurface.opened hosts) [] events).2 :=
  (runFrom_invariant
    (fun surface log => OnLoadout lib cfg (currentGolden cfg surface.hosts) surface log)
    (fun _ _ event h => h.step event henabled) (onLoadout_opened lib cfg hosts _) events
    hkeeps).served

/-! ## A machine that is moved to another stack -/

namespace Retrying

/-- The machine's record with a stack. -/
def onStack (stack : Text) : HostRecord where
  mac := mac
  name := "node7".toList
  role := none
  stack := some stack
  portal := none
  extraCmdline := none
  online := true
  object := none

end Retrying

/-- A machine that keeps its stack. -/
theorem servesLoadout_unmoved :
    EachAfter (ServesLoadout Retrying.lib Retrying.cfg)
      (runFrom (BootSurface.step Retrying.lib Retrying.cfg) (BootSurface.opened .empty) []
        (.change (.apply (Retrying.onStack "a".toList)) ::
          (Retrying.attempt 2 ++ Retrying.attempt 2))).2 := by
  refine servesLoadout_of_keepsLoadout Retrying.lib Retrying.cfg .empty _ (by decide) ?_
  simp only [Retrying.attempt, List.cons_append, List.nil_append, Always]
  refine ⟨fun mac hbusy => ?_, trivial, trivial, trivial, trivial, trivial, trivial, trivial,
    trivial, trivial⟩
  rcases hbusy with hclaims | ⟨_, hmem, _⟩ | ⟨_, hmem, _⟩ | ⟨_, hmem, _⟩
  · exact absurd rfl hclaims
  · cases hmem
  · cases hmem
  · cases hmem

/-- Nothing but this golden is asked for here. -/
def SurfaceEntry.asksFor (golden : Text) : SurfaceEntry → Bool
  | .answered _ ask _ => ask.golden = golden
  | _ => true

/-- The machine is served here, under this record. -/
def SurfaceEntry.servesUnder (mac : Mac) (record : HostRecord) : SurfaceEntry → Bool
  | .served request _ current => request.mac = some mac && current = some record
  | _ => false

/-- The machine's stack is changed between two boots: the second is served the clone of the
first. -/
theorem not_servesLoadout_moved :
    ¬ EachAfter (ServesLoadout Retrying.lib Retrying.cfg)
      (runFrom (BootSurface.step Retrying.lib Retrying.cfg) (BootSurface.opened .empty) []
        (.change (.apply (Retrying.onStack "a".toList)) :: (Retrying.attempt 2 ++
          .change (.apply (Retrying.onStack "b".toList)) :: Retrying.attempt 2))).2 := by
  generalize hlog : (runFrom (BootSurface.step Retrying.lib Retrying.cfg)
    (BootSurface.opened .empty) [] (.change (.apply (Retrying.onStack "a".toList)) ::
      (Retrying.attempt 2 ++ .change (.apply (Retrying.onStack "b".toList)) ::
        Retrying.attempt 2))).2 = log
  have hasked : log.all (SurfaceEntry.asksFor "a".toList) = true := by
    rw [← hlog]
    decide
  have hserved : (log[3]?.any (SurfaceEntry.servesUnder Retrying.mac
      (Retrying.onStack "b".toList))) = true := by
    rw [← hlog]
    decide
  intro h
  cases hentry : log[3]? with
  | none =>
    rw [hentry] at hserved
    cases hserved
  | some entry =>
    rw [hentry, Option.any_some] at hserved
    cases entry with
    | served request script current =>
      simp only [SurfaceEntry.servesUnder, Bool.and_eq_true, decide_eq_true_eq] at hserved
      obtain ⟨hmac, rfl⟩ := hserved
      obtain ⟨-, claim, attach, -, -, asker, ask, answer, hmem, -, -, hgolden⟩ :=
        h.getElem? hentry Retrying.mac hmac
      have hask : ask.golden = "a".toList :=
        of_decide_eq_true (List.all_eq_true.mp hasked _ (List.mem_of_mem_take hmem))
      rw [hask] at hgolden
      revert hgolden
      decide
    | _ => cases hserved

end Stormnetboot.Server

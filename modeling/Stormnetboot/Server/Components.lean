import Stormnetboot.Common.Listings
import Stormnetboot.Server.FailureRecovery
import Stormnetboot.Server.Pallet
import Stormnetboot.Server.PhaseReport

/-!
# The component feed

The feed is put together from two reads of the boot state: one counts the hosts in each phase, the
other lists them. A component for each phase that was counted, and a row for each host listed that
points to its phase. Calls that land between the two reads can bring a host to a phase that was
not counted, and its row then points to nothing.
-/

namespace Stormnetboot.Server

open Stormnetboot.Common

/-- Component health, broken first. -/
inductive Health where
  | error
  | warn
  | ok
  | idle
  | unknown
  deriving DecidableEq, Repr

/-- A value beside a row. -/
structure Metric where
  label : Text
  value : Text
  unit : Option Text
  tone : Option Text
  deriving DecidableEq, Repr

/-- A value without a unit and a tone. -/
def Metric.new (label value : Text) : Metric where
  label := label
  value := value
  unit := none
  tone := none

/-- The same value with a tone. -/
def Metric.toned (tone : Text) (metric : Metric) : Metric :=
  { metric with tone := some tone }

/-- How a row is related to others. -/
inductive RelationKind where
  | hasOne
  | hasMany
  | belongsTo
  deriving DecidableEq, Repr

/-- A relation of a row, by the ids it points to. -/
structure Relation where
  name : Text
  kind : RelationKind
  targets : List Text
  href : Option Text
  deriving DecidableEq, Repr

/-- A relation to the row this one belongs to. -/
def Relation.belongsTo (name target : Text) : Relation where
  name := name
  kind := .belongsTo
  targets := [target]
  href := none

/-- A relation to the rows that belong to this one. -/
def Relation.hasMany (name : Text) (targets : List Text) : Relation where
  name := name
  kind := .hasMany
  targets := targets
  href := none

/-- What an operator can do with a row. -/
structure Action where
  id : Text
  label : Text
  method : Text
  path : Text
  enabled : Bool
  danger : Bool
  deriving DecidableEq, Repr

/-- A row of the feed. -/
structure ComponentSummary where
  id : Text
  kind : Text
  label : Text
  health : Health
  detail : Text
  metrics : List Metric
  actions : List Action
  relations : List Relation
  link : Option Text
  deriving DecidableEq, Repr

/-- Cap on per-host rows in the feed. -/
def maxHostRows : ℕ := 200

/-- How the feed words a phase. -/
def phaseLabel : Phase → Text
  | .scriptFetched => "script fetched".toList
  | .assetsFetched => "fetching assets".toList
  | .rootAttached => "root attached".toList
  | .running => "running".toList
  | .assimilating => "assimilating".toList
  | .local => "local".toList
  | .failed => "failed".toList

/-- How the feed rates a phase. -/
def phaseHealth : Phase → Health
  | .failed => .error
  | .local => .ok
  | .running => .ok
  | .assimilating => .ok
  | _ => .idle

/-- The first twelve characters of a digest. -/
def shortDigest (digest : Text) : Text :=
  (trimStartMatches "sha256:".toList digest).take 12

/-! ## The two reads -/

namespace BootState

/-- How many of the hosts are in each phase that one of them is in. -/
def countPhases (hosts : List HostState) : HashMap Phase ℕ :=
  hosts.foldl (fun counts state =>
    counts.insert state.phase ((counts.lookup state.phase).getD 0 + 1)) ∅

/-- `phase_counts`: the counts in the order of the phases. -/
def phaseCounts (order : HashMap.Iteration Mac HostState) (phases : HashMap.Iteration Phase ℕ)
    (hosts : BootState) : List (Phase × ℕ) :=
  ((phases.list (countPhases (order.values hosts))).map fun e => (e.1, e.2)).mergeSort
    fun a b => a.1.rank ≤ b.1.rank

/-- `snapshot`: the hosts, the one heard of last first. -/
def snapshot (order : HashMap.Iteration Mac HostState) (hosts : BootState) : List HostState :=
  (order.values hosts).mergeSort fun a b =>
    ((compare b.updatedUnix a.updatedUnix).then (compare a.mac.octets b.mac.octets)).isLE

end BootState

/-! ## The components -/

/-- The id of a phase's row. -/
def phaseId (phase : Phase) : Text :=
  "phase:".toList ++ phase.slug

/-- The id of a host's row. -/
def hostId (mac : Mac) : Text :=
  "host:".toList ++ mac.display

/-- The daemon's verdict on itself. -/
def systemComponent (counts : List (Phase × ℕ)) (assets : AssetStatus) : ComponentSummary :=
  let total := (counts.map Prod.snd).sum
  let failed := ((counts.find? fun count => count.1 = .failed).map Prod.snd).getD 0
  let verdict : Health × Text :=
    if !assets.ready then (.error, "not serving: ".toList ++ assets.detail)
    else if failed > 0 then
      (.warn, "serving ".toList ++ assets.detail ++ "; ".toList ++ natText failed ++
        " host(s) failed".toList)
    else (.ok, "serving ".toList ++ assets.detail)
  { id := "system".toList
    kind := "netboot".toList
    label := "stormnetboot".toList
    health := verdict.1
    detail := verdict.2
    metrics := [.new "hosts".toList (natText total),
      (Metric.new "failed".toList (natText failed)).toned
        (if failed > 0 then "error".toList else "muted".toList)]
    actions := []
    relations := [.hasMany "phases".toList (counts.map fun count => phaseId count.1)]
    link := none }

/-- What is being served. -/
def assetsComponent (assets : AssetStatus) : ComponentSummary where
  id := "assets:boot".toList
  kind := "pallet".toList
  label := "boot pallet".toList
  health := if assets.ready then .ok else .error
  detail := assets.detail
  metrics :=
    Metric.new "version".toList (assets.version.getD "-".toList) ::
      (assets.digest.map fun digest => Metric.new "digest".toList (shortDigest digest)).toList ++
      [(Metric.new "signature".toList
          (if assets.signatureVerified then "verified".toList else "unverified".toList)).toned
        (if assets.signatureVerified then "ok".toList else "warn".toList)]
  actions := []
  relations := [.belongsTo "service".toList "system".toList]
  link := none

/-- A row for a phase. -/
def phaseComponent (count : Phase × ℕ) : ComponentSummary where
  id := phaseId count.1
  kind := "phase".toList
  label := phaseLabel count.1
  health := phaseHealth count.1
  detail := natText count.2 ++ " host(s)".toList
  metrics := [.new "hosts".toList (natText count.2)]
  actions := []
  relations := [.belongsTo "service".toList "system".toList]
  link := none

/-- What a row says of the hardware. -/
def hardwareMetrics (hardware : Inventory) : List Metric :=
  (if hardware.cpus > 0 then [Metric.new "cpus".toList (natText hardware.cpus.toNat)] else []) ++
    (if hardware.memoryKb > 0 then
      [Metric.new "memory".toList
        (natText (hardware.memoryKb / 1024 / 1024).toNat ++ " GiB".toList)] else []) ++
    (hardware.product.map fun product => Metric.new "product".toList product).toList

/-- A row for a host. -/
def hostComponent (host : HostState) : ComponentSummary where
  id := hostId host.mac
  kind := "host".toList
  label := host.mac.display
  health := phaseHealth host.phase
  detail := host.detail.getD (phaseLabel host.phase)
  metrics :=
    Metric.new "phase".toList (phaseLabel host.phase) ::
      (host.palletVersion.map fun version => Metric.new "pallet".toList version).toList ++
      (host.hardware.map hardwareMetrics).getD []
  actions := []
  relations := [.belongsTo "phase".toList (phaseId host.phase)]
  link := none

/-- The feed, from the counts of the first read and the hosts of the second. -/
def collectFrom (counts : List (Phase × ℕ)) (hosts : List HostState) (assets : AssetStatus) :
    List ComponentSummary :=
  systemComponent counts assets :: assetsComponent assets :: counts.map phaseComponent ++
    (hosts.take maxHostRows).map hostComponent

/-- The orders in which the two reads list what they find. -/
structure ReadOrders where
  counted : HashMap.Iteration Mac HostState
  phases : HashMap.Iteration Phase ℕ
  listed : HashMap.Iteration Mac HostState

/-- `collect`, with the states the boot state is in at its two reads. -/
def collect (orders : ReadOrders) (first second : BootState) (assets : AssetStatus) :
    List ComponentSummary :=
  collectFrom (first.phaseCounts orders.counted orders.phases) (second.snapshot orders.listed)
    assets

/-- Every target of every relation is the id of a component. -/
def NoDangling (feed : List ComponentSummary) : Prop :=
  ∀ component ∈ feed, ∀ relation ∈ component.relations, ∀ target ∈ relation.targets,
    target ∈ feed.map ComponentSummary.id

/-! ## Who is counted -/

namespace BootState

/-- Some tracked host is in the phase. -/
def InPhase (hosts : BootState) (phase : Phase) : Prop :=
  ∃ mac state, hosts.lookup mac = some state ∧ state.phase = phase

/-- How many of the tracked hosts are in the phase. -/
def inPhase (hosts : BootState) (phase : Phase) : ℕ :=
  HashMap.len (HashMap.retain (fun state => state.phase = phase) hosts)

/-- The hosts are tallied by their phases. -/
theorem countPhases_eq_tally (hosts : List HostState) :
    countPhases hosts = HashMap.tally (hosts.map HostState.phase) := by
  rw [countPhases, HashMap.tally, List.foldl_map]

section Counts

variable (order : HashMap.Iteration Mac HostState) (phases : HashMap.Iteration Phase ℕ)
  (hosts : BootState)

/-- The phases of the tracked hosts, in the order of the map. -/
def listedPhases : List Phase :=
  (order.values hosts).map HostState.phase

/-- A phase is listed exactly when a host is in it. -/
theorem mem_listedPhases_iff (phase : Phase) :
    phase ∈ listedPhases order hosts ↔ hosts.InPhase phase := by
  rw [listedPhases, List.mem_map]
  constructor
  · rintro ⟨state, hstate, rfl⟩
    obtain ⟨mac, hlookup⟩ := (order.mem_values_iff ..).mp hstate
    exact ⟨mac, state, hlookup, rfl⟩
  · rintro ⟨mac, state, hlookup, hphase⟩
    exact ⟨state, (order.mem_values_iff ..).mpr ⟨mac, hlookup⟩, hphase⟩

/-- It is listed once for each host in it. -/
theorem count_listedPhases (phase : Phase) :
    (listedPhases order hosts).count phase = hosts.inPhase phase := by
  rw [inPhase, ← order.countP_values, listedPhases, List.count, List.countP_map]
  rfl

/-- The counts are a tally of these phases, sorted. -/
theorem perm_phaseCounts : (hosts.phaseCounts order phases).Perm
    ((phases.list (HashMap.tally (listedPhases order hosts))).map fun e => (e.1, e.2)) := by
  rw [phaseCounts, countPhases_eq_tally]
  exact List.mergeSort_perm ..

/-- A phase is counted where a host is in it, with the number of such hosts. -/
theorem mem_phaseCounts (phase : Phase) (count : ℕ) :
    (phase, count) ∈ hosts.phaseCounts order phases ↔
      hosts.InPhase phase ∧ count = hosts.inPhase phase := by
  have hlisted : (phase, count) ∈ hosts.phaseCounts order phases ↔
      (HashMap.tally (listedPhases order hosts)).lookup phase = some count := by
    rw [(perm_phaseCounts order phases hosts).mem_iff, ← phases.mem_list_iff, List.mem_map]
    constructor
    · rintro ⟨⟨phase', count'⟩, hmem, heq⟩
      cases heq
      exact hmem
    · exact fun hmem => ⟨_, hmem, rfl⟩
  rw [hlisted, HashMap.lookup_tally, count_listedPhases, ← mem_listedPhases_iff order]
  split_ifs with hmem
  · rw [Option.some.injEq, eq_comm, and_iff_right hmem]
  · exact iff_of_false (by simp) fun h => hmem h.1

/-- A phase is counted exactly when a host is in it. -/
theorem mem_phaseCounts_iff (phase : Phase) :
    phase ∈ (hosts.phaseCounts order phases).map Prod.fst ↔ hosts.InPhase phase := by
  rw [List.mem_map]
  constructor
  · rintro ⟨⟨phase, count⟩, hmem, rfl⟩
    exact ((mem_phaseCounts ..).mp hmem).1
  · exact fun h => ⟨(phase, hosts.inPhase phase), (mem_phaseCounts ..).mpr ⟨h, rfl⟩, rfl⟩

/-- No phase is counted twice. -/
theorem nodup_phaseCounts : ((hosts.phaseCounts order phases).map Prod.fst).Nodup := by
  rw [((perm_phaseCounts order phases hosts).map Prod.fst).nodup_iff, List.map_map]
  exact phases.nodup_keys _

/-- The counts add up to the number of hosts. -/
theorem sum_phaseCounts :
    ((hosts.phaseCounts order phases).map Prod.snd).sum = HashMap.len hosts := by
  rw [((perm_phaseCounts order phases hosts).map Prod.snd).sum_nat, List.map_map]
  refine (phases.sum_tally _).trans ?_
  rw [listedPhases, List.length_map, HashMap.Iteration.values, List.length_map, order.length_list]

/-- The snapshot lists the tracked hosts. -/
theorem mem_snapshot_iff (state : HostState) :
    state ∈ hosts.snapshot order ↔ ∃ mac, hosts.lookup mac = some state := by
  rw [snapshot, List.mem_mergeSort]
  exact order.mem_values_iff hosts state

/-- The snapshot has as many hosts as the map. -/
theorem length_snapshot : (hosts.snapshot order).length = HashMap.len hosts := by
  rw [snapshot, List.length_mergeSort, HashMap.Iteration.values, List.length_map, order.length_list]

end Counts

end BootState

/-! ## Which edges dangle -/

/-- Two phases have two ids. -/
theorem phaseId_inj {phase phase' : Phase} (h : phaseId phase = phaseId phase') :
    phase = phase' := by
  have hslug : phase.slug = phase'.slug := List.append_cancel_left h
  have hparse : some phase = some phase' := by
    rw [← parsePhase_slug phase, hslug, parsePhase_slug]
  exact Option.some.inj hparse

section Feed

variable (counts : List (Phase × ℕ)) (hosts : List HostState) (assets : AssetStatus)

/-- The ids of a feed. -/
theorem ids_collectFrom :
    (collectFrom counts hosts assets).map ComponentSummary.id =
      "system".toList :: "assets:boot".toList :: counts.map (fun count => phaseId count.1) ++
        (hosts.take maxHostRows).map fun host => hostId host.mac := by
  rw [collectFrom, List.map_append, List.map_cons, List.map_cons, List.map_map, List.map_map]
  rfl

/-- The id of a phase is in the feed exactly when the phase was counted. -/
theorem phaseId_mem_iff (phase : Phase) :
    phaseId phase ∈ (collectFrom counts hosts assets).map ComponentSummary.id ↔
      phase ∈ counts.map Prod.fst := by
  have hsystem : phaseId phase ≠ "system".toList := fun h => by
    have hhead := congrArg List.head? h
    cases hhead
  have hassets : phaseId phase ≠ "assets:boot".toList := fun h => by
    have hhead := congrArg List.head? h
    cases hhead
  have hrows : phaseId phase ∉ (hosts.take maxHostRows).map fun host => hostId host.mac := by
    intro hmem
    obtain ⟨host, -, heq⟩ := List.mem_map.mp hmem
    have hhead := congrArg List.head? heq
    cases hhead
  rw [ids_collectFrom, List.mem_append, or_iff_left hrows, List.mem_cons, or_iff_right hsystem,
    List.mem_cons, or_iff_right hassets]
  constructor
  · intro hmem
    obtain ⟨count, hcount, heq⟩ := List.mem_map.mp hmem
    exact List.mem_map.mpr ⟨count, hcount, phaseId_inj heq⟩
  · intro hmem
    obtain ⟨count, hcount, rfl⟩ := List.mem_map.mp hmem
    exact List.mem_map.mpr ⟨count, hcount, rfl⟩

/-- No edge dangles exactly when the phase of every row was counted. -/
theorem noDangling_collectFrom_iff :
    NoDangling (collectFrom counts hosts assets) ↔
      ∀ host ∈ hosts.take maxHostRows, host.phase ∈ counts.map Prod.fst := by
  have hsystem : "system".toList ∈ (collectFrom counts hosts assets).map ComponentSummary.id := by
    rw [ids_collectFrom]
    exact List.mem_cons_self
  constructor
  · intro h host hhost
    rw [← phaseId_mem_iff counts hosts assets]
    refine h (hostComponent host) ?_ _ List.mem_cons_self _ List.mem_cons_self
    exact List.mem_append_right _ (List.mem_map.mpr ⟨host, hhost, rfl⟩)
  · intro h component hcomponent relation hrelation target htarget
    rcases List.mem_append.mp hcomponent with hhead | hrow
    · rcases List.mem_cons.mp hhead with rfl | htail
      · obtain rfl := List.mem_singleton.mp hrelation
        obtain ⟨count, hcount, rfl⟩ := List.mem_map.mp htarget
        exact (phaseId_mem_iff counts hosts assets count.1).mpr (List.mem_map.mpr ⟨count, hcount, rfl⟩)
      · rcases List.mem_cons.mp htail with rfl | hphase
        · obtain rfl := List.mem_singleton.mp hrelation
          obtain rfl := List.mem_singleton.mp htarget
          exact hsystem
        · obtain ⟨count, -, rfl⟩ := List.mem_map.mp hphase
          obtain rfl := List.mem_singleton.mp hrelation
          obtain rfl := List.mem_singleton.mp htarget
          exact hsystem
    · obtain ⟨host, hhost, rfl⟩ := List.mem_map.mp hrow
      obtain rfl := List.mem_singleton.mp hrelation
      obtain rfl := List.mem_singleton.mp htarget
      exact (phaseId_mem_iff counts hosts assets host.phase).mpr (h host hhost)

end Feed

/-! ## Calls between the reads -/

/-- The feed of a `collect` whose first read comes after some calls, and its second after some
more. -/
def feedDuring (orders : ReadOrders) (hosts : BootState) (before between : List BootEvent)
    (assets : AssetStatus) : List ComponentSummary :=
  collect orders (hosts.run before) ((hosts.run before).run between) assets

/-- The hosts that get a row when the snapshot is taken. -/
def rowHosts (order : HashMap.Iteration Mac HostState) (hosts : BootState) : List HostState :=
  (hosts.snapshot order).take maxHostRows

/-- A feed has no dangling relation exactly when the phases of its hosts were counted. -/
theorem noDangling_collect_iff (orders : ReadOrders) (first second : BootState)
    (assets : AssetStatus) :
    NoDangling (collect orders first second assets) ↔
      ∀ host ∈ rowHosts orders.listed second, first.InPhase host.phase := by
  rw [collect, noDangling_collectFrom_iff]
  exact forall₂_congr fun host _ => BootState.mem_phaseCounts_iff ..

/-- Where nothing lands between the reads no edge dangles. -/
theorem noDangling_collect_self (orders : ReadOrders) (hosts : BootState) (assets : AssetStatus) :
    NoDangling (collect orders hosts hosts assets) := by
  rw [noDangling_collect_iff]
  intro host hhost
  obtain ⟨mac, hlookup⟩ := (BootState.mem_snapshot_iff ..).mp (List.mem_of_mem_take hhost)
  exact ⟨mac, host, hlookup, rfl⟩

/-- No edge of the feed dangles exactly when every host that has a row is in a phase that some host
was in at the first read. -/
theorem noDangling_feedDuring_iff (orders : ReadOrders) (hosts : BootState)
    (before between : List BootEvent) (assets : AssetStatus) :
    NoDangling (feedDuring orders hosts before between assets) ↔
      ∀ host ∈ rowHosts orders.listed ((hosts.run before).run between),
        (hosts.run before).InPhase host.phase :=
  noDangling_collect_iff ..

/-- Where there are few enough hosts each has a row. -/
theorem mem_rowHosts_of_len_le (order : HashMap.Iteration Mac HostState) {hosts : BootState}
    (hlen : HashMap.len hosts ≤ maxHostRows) {mac : Mac} {state : HostState}
    (hstate : hosts.lookup mac = some state) : state ∈ rowHosts order hosts := by
  rw [rowHosts, List.take_of_length_le ((BootState.length_snapshot order hosts).trans_le hlen)]
  exact (BootState.mem_snapshot_iff order hosts state).mpr ⟨mac, hstate⟩

/-- A host asks for its boot script for the first time. -/
def newHost : HostState where
  mac := .ofOctets 0xaa 0xbb 0xcc 0xdd 0xee 0x01
  phase := .scriptFetched
  detail := none
  palletVersion := none
  hardware := none
  firstSeenUnix := 1000
  updatedUnix := 1000

/-- A host is heard of for the first time. -/
def newHostCall (order : HashMap.Iteration Mac HostState) : BootEvent :=
  ⟨⟨1000, order⟩, .observe newHost.mac .scriptFetched none⟩

/-- The row of a host that is heard of between the reads points to nothing. -/
theorem not_noDangling_newHost : ∃ orders : ReadOrders,
    ¬NoDangling (feedDuring orders ∅ [] [newHostCall orders.listed]
      ⟨true, "stormcos boot 10.20".toList, some "10.20".toList, none, true⟩) := by
  obtain ⟨counted⟩ : Nonempty (HashMap.Iteration Mac HostState) := inferInstance
  obtain ⟨phases⟩ : Nonempty (HashMap.Iteration Phase ℕ) := inferInstance
  refine ⟨⟨counted, phases, counted⟩, fun h => ?_⟩
  rw [feedDuring, noDangling_collect_iff] at h
  have htracked : (BootState.run ∅ [newHostCall counted]).lookup newHost.mac = some newHost := rfl
  have hrow := mem_rowHosts_of_len_le counted (Nat.le_of_ble_eq_true rfl) htracked
  obtain ⟨mac, state, hlookup, -⟩ := h newHost hrow
  cases hlookup

end Stormnetboot.Server

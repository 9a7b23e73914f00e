import Stormnetboot.Common.Exposition
import Stormnetboot.Server.Components
import Stormnetboot.Server.HostViews

/-!
# What a scrape of the server reads

The management surface writes its counters, the hosts by phase and the host records by layer as
text. A scraper reads from that text, whatever the server holds, one value for each of them and
nothing twice.
-/

namespace Stormnetboot.Server

open Stormnetboot.Common

/-- Counters of 64 bits, each from zero. -/
structure Metrics where
  requestsTotal : UInt64
  bootScriptRequests : UInt64
  assetRequests : UInt64
  notFound : UInt64
  refused : UInt64
  claimFailures : UInt64
  palletRefreshes : UInt64
  palletRefreshFailures : UInt64
  statusWrites : UInt64
  statusWriteFailures : UInt64
  watchErrors : UInt64
  deriving DecidableEq, Repr

/-- The version of the package. -/
def packageVersion : String :=
  "0.4.0"

namespace Metrics

/-- `Metrics::default`. -/
def zero : Metrics :=
  ⟨0, 0, 0, 0, 0, 0, 0, 0, 0, 0, 0⟩

/-- `Metrics::incr`: a counter starts over where it is full. -/
def incr (counter : UInt64) : UInt64 :=
  counter + 1

/-- The names, help texts and values of the counters. -/
def counters (metrics : Metrics) : List (String × String × UInt64) :=
  [("stormnetboot_requests_total", "Total HTTP requests served.", metrics.requestsTotal),
    ("stormnetboot_boot_script_requests_total", "Rendered iPXE boot scripts served.",
      metrics.bootScriptRequests),
    ("stormnetboot_asset_requests_total",
      "Boot asset requests (kernel, initramfs, ISO, iPXE binaries).", metrics.assetRequests),
    ("stormnetboot_not_found_total", "Requests that matched no route or asset.", metrics.notFound),
    ("stormnetboot_refused_total",
      "Boot requests refused (unknown host, host marked offline, or unparseable MAC).",
      metrics.refused),
    ("stormnetboot_claim_failures_total", "Failures claiming a per-host root volume.",
      metrics.claimFailures),
    ("stormnetboot_pallet_refreshes_total", "Boot pallet refreshes that changed what is served.",
      metrics.palletRefreshes),
    ("stormnetboot_pallet_refresh_failures_total", "Failed attempts to refresh the boot pallet.",
      metrics.palletRefreshFailures),
    ("stormnetboot_status_writes_total", "BootHost status subresource patches written.",
      metrics.statusWrites),
    ("stormnetboot_status_write_failures_total", "Failed BootHost status patches.",
      metrics.statusWriteFailures),
    ("stormnetboot_watch_errors_total", "Errors returned by the BootHost watch.",
      metrics.watchErrors)]

/-- The three lines of a counter. -/
def counterText (counter : String × String × UInt64) : Text :=
  "# HELP ".toList ++ counter.1.toList ++ " ".toList ++ counter.2.1.toList ++ "\n# TYPE ".toList ++
    counter.1.toList ++ " counter\n".toList ++ counter.1.toList ++ " ".toList ++
    natText counter.2.2.toNat ++ "\n".toList

/-- The line of a phase. -/
def phaseText (count : Phase × ℕ) : Text :=
  "stormnetboot_hosts\x7bphase=\"".toList ++ count.1.slug ++ "\"\x7d ".toList ++ natText count.2 ++
    "\n".toList

/-- `Metrics::render`. -/
def render (phases : List (Phase × ℕ)) (hosts : HostCounts) (metrics : Metrics) : Text :=
  "# HELP stormnetboot_build_info Build information.\n".toList ++
    "# TYPE stormnetboot_build_info gauge\n".toList ++
    ("stormnetboot_build_info\x7bversion=\"".toList ++ packageVersion.toList ++
      "\"\x7d 1\n".toList) ++
    metrics.counters.flatMap counterText ++
    "# HELP stormnetboot_hosts Hosts currently tracked, by boot phase.\n".toList ++
    "# TYPE stormnetboot_hosts gauge\n".toList ++
    phases.flatMap phaseText ++
    "# HELP stormnetboot_host_records Host records held, by source layer.\n".toList ++
    "# TYPE stormnetboot_host_records gauge\n".toList ++
    ("stormnetboot_host_records\x7bsource=\"file\"\x7d ".toList ++ natText hosts.file ++
      "\nstormnetboot_host_records\x7bsource=\"boothost\"\x7d ".toList ++ natText hosts.kube ++
      "\n".toList) ++
    "# HELP stormnetboot_boothost_synced Whether the BootHost watch has listed the cluster.\n".toList ++
    "# TYPE stormnetboot_boothost_synced gauge\n".toList ++
    ("stormnetboot_boothost_synced ".toList ++ natText hosts.kubeSynced.toNat ++ "\n".toList)

end Metrics

/-- The body of `GET /metrics`. -/
def metricsBody (order : HashMap.Iteration Mac HostState) (phases : HashMap.Iteration Phase ℕ)
    (boot : BootState) (hosts : HostStore) (metrics : Metrics) : Text :=
  metrics.render (boot.phaseCounts order phases) hosts.counts

/-! ## The families -/

open Exposition

namespace Metrics

/-- The family of the build. -/
def buildFamily : Family where
  name := "stormnetboot_build_info".toList
  help := "Build information.".toList
  kind := .gauge
  samples := [⟨[("version".toList, packageVersion.toList)], 1⟩]

/-- The family of a counter. -/
def counterFamily (counter : String × String × UInt64) : Family where
  name := counter.1.toList
  help := counter.2.1.toList
  kind := .counter
  samples := [⟨[], counter.2.2.toNat⟩]

/-- The label of a phase. -/
def phaseLabels (phase : Phase) : List (Text × Text) :=
  [("phase".toList, phase.slug)]

/-- The family of the tracked hosts, by phase. -/
def hostsFamily (phases : List (Phase × ℕ)) : Family where
  name := "stormnetboot_hosts".toList
  help := "Hosts currently tracked, by boot phase.".toList
  kind := .gauge
  samples := phases.map fun count => ⟨phaseLabels count.1, count.2⟩

/-- The family of the host records, by layer. -/
def recordsFamily (hosts : HostCounts) : Family where
  name := "stormnetboot_host_records".toList
  help := "Host records held, by source layer.".toList
  kind := .gauge
  samples := [⟨[("source".toList, "file".toList)], hosts.file⟩,
    ⟨[("source".toList, "boothost".toList)], hosts.kube⟩]

/-- The family of the watch. -/
def syncedFamily (hosts : HostCounts) : Family where
  name := "stormnetboot_boothost_synced".toList
  help := "Whether the BootHost watch has listed the cluster.".toList
  kind := .gauge
  samples := [⟨[], hosts.kubeSynced.toNat⟩]

/-- All of them, in the order they are rendered in. -/
def families (phases : List (Phase × ℕ)) (hosts : HostCounts) (metrics : Metrics) : List Family :=
  buildFamily :: metrics.counters.map counterFamily ++
    [hostsFamily phases, recordsFamily hosts, syncedFamily hosts]

/-- The text of families is theirs, one after the other. -/
theorem text_cons (family : Family) (families : List Family) :
    text (family :: families) = family.lines.flatMap (· ++ ['\n']) ++ text families := by
  rw [text, text, List.flatMap_cons, List.flatMap_append]

/-- Two lists of families are written one after the other. -/
theorem text_append (first rest : List Family) : text (first ++ rest) = text first ++ text rest := by
  rw [text, text, text, List.flatMap_append, List.flatMap_append]

/-- The lines of a family, written one after the other. -/
theorem flatMap_lines (family : Family) : family.lines.flatMap (· ++ ['\n']) =
    (helpLine family.name family.help ++ ['\n']) ++
      ((typeLine family.name family.kind ++ ['\n']) ++
        family.samples.flatMap fun sample => sampleLine family.name sample ++ ['\n']) := by
  rw [Family.lines, List.flatMap_cons, List.flatMap_cons, List.flatMap_map]

/-- A counter's lines are its family's. -/
theorem counterText_eq (counter : String × String × UInt64) :
    (counterFamily counter).lines.flatMap (· ++ ['\n']) = counterText counter := by
  have hhelp : "# HELP ".toList = helpMarker := by decide
  have htype : "\n# TYPE ".toList = '\n' :: typeMarker := by decide
  have hword : " counter\n".toList = ' ' :: Kind.counter.word ++ ['\n'] := by decide
  have hblank : " ".toList = [' '] := by decide
  have hend : "\n".toList = ['\n'] := by decide
  have htext : counterText counter = helpMarker ++ counter.1.toList ++ [' '] ++
      counter.2.1.toList ++ ('\n' :: typeMarker) ++ counter.1.toList ++
      (' ' :: Kind.counter.word ++ ['\n']) ++ counter.1.toList ++ [' '] ++
      natText counter.2.2.toNat ++ ['\n'] := by
    rw [← hhelp, ← htype, ← hword, ← hblank, ← hend]
    rfl
  rw [htext]
  simp only [flatMap_lines, counterFamily, helpLine, typeLine, sampleLine, labelsText, if_true,
    List.flatMap_cons, List.flatMap_nil, List.append_assoc, List.cons_append, List.nil_append,
    List.append_nil]

/-- A sample with one label. -/
theorem sampleLine_label (name key value : Text) (n : ℕ) :
    sampleLine name ⟨[(key, value)], n⟩ ++ ['\n'] =
      (name ++ '{' :: key ++ "=\"".toList) ++ value ++ "\"\x7d ".toList ++ natText n ++
        "\n".toList := by
  have hclose : "\"\x7d ".toList = "\"".toList ++ ['}', ' '] := by decide
  have hend : "\n".toList = ['\n'] := by decide
  have hlabels : labelsText [(key, value)] =
      '{' :: (key ++ "=\"".toList ++ value ++ "\"".toList) ++ ['}'] := by
    rw [labelsText, if_neg (List.cons_ne_nil _ _), List.map_singleton, joinWith_singleton]
    rfl
  rw [sampleLine, hlabels, hclose, hend]
  simp only [List.append_assoc, List.cons_append, List.nil_append]

/-- A phase's line is its sample's. -/
theorem phaseText_eq (count : Phase × ℕ) :
    sampleLine "stormnetboot_hosts".toList ⟨phaseLabels count.1, count.2⟩ ++ ['\n'] =
      phaseText count := by
  have hopen : "stormnetboot_hosts".toList ++ '{' :: "phase".toList ++ "=\"".toList =
      "stormnetboot_hosts\x7bphase=\"".toList := by decide
  rw [phaseLabels, sampleLine_label, hopen]
  rfl

/-- The lines of the hosts are their family's. -/
theorem hostsFamily_eq (phases : List (Phase × ℕ)) :
    (hostsFamily phases).lines.flatMap (· ++ ['\n']) =
      "# HELP stormnetboot_hosts Hosts currently tracked, by boot phase.\n".toList ++
        ("# TYPE stormnetboot_hosts gauge\n".toList ++ phases.flatMap phaseText) := by
  have hhelp : helpLine "stormnetboot_hosts".toList
        "Hosts currently tracked, by boot phase.".toList ++ ['\n'] =
      "# HELP stormnetboot_hosts Hosts currently tracked, by boot phase.\n".toList := by decide
  have htype : typeLine "stormnetboot_hosts".toList .gauge ++ ['\n'] =
      "# TYPE stormnetboot_hosts gauge\n".toList := by decide
  have hsamples : (hostsFamily phases).samples.flatMap
      (fun sample => sampleLine (hostsFamily phases).name sample ++ ['\n']) =
        phases.flatMap phaseText :=
    (List.flatMap_map _ _ _).trans (List.flatMap_congr fun count _ => phaseText_eq count)
  rw [flatMap_lines, hsamples]
  exact congrArg₂ _ hhelp (congrArg (· ++ _) htype)

/-- The lines of the build are. -/
theorem buildFamily_eq : buildFamily.lines.flatMap (· ++ ['\n']) =
    "# HELP stormnetboot_build_info Build information.\n".toList ++
      ("# TYPE stormnetboot_build_info gauge\n".toList ++
        ("stormnetboot_build_info\x7bversion=\"".toList ++ packageVersion.toList ++
          "\"\x7d 1\n".toList)) := by
  decide

/-- The lines of the records are. -/
theorem recordsFamily_eq (hosts : HostCounts) :
    (recordsFamily hosts).lines.flatMap (· ++ ['\n']) =
      "# HELP stormnetboot_host_records Host records held, by source layer.\n".toList ++
        ("# TYPE stormnetboot_host_records gauge\n".toList ++
          ("stormnetboot_host_records\x7bsource=\"file\"\x7d ".toList ++ natText hosts.file ++
            "\nstormnetboot_host_records\x7bsource=\"boothost\"\x7d ".toList ++
            natText hosts.kube ++ "\n".toList)) := by
  have hhelp : helpLine "stormnetboot_host_records".toList
        "Host records held, by source layer.".toList ++ ['\n'] =
      "# HELP stormnetboot_host_records Host records held, by source layer.\n".toList := by decide
  have htype : typeLine "stormnetboot_host_records".toList .gauge ++ ['\n'] =
      "# TYPE stormnetboot_host_records gauge\n".toList := by decide
  have hfile : ("stormnetboot_host_records".toList ++ '{' :: "source".toList ++ "=\"".toList) ++
      "file".toList ++ "\"\x7d ".toList =
        "stormnetboot_host_records\x7bsource=\"file\"\x7d ".toList := by decide
  have hkube : "\n".toList ++ (("stormnetboot_host_records".toList ++ '{' :: "source".toList ++
      "=\"".toList) ++ "boothost".toList ++ "\"\x7d ".toList) =
        "\nstormnetboot_host_records\x7bsource=\"boothost\"\x7d ".toList := by decide
  have hassoc (a b c d e f g h : Text) :
      (a ++ b ++ c ++ d ++ e) ++ ((f ++ g ++ c ++ h ++ e) ++ []) =
        (a ++ b ++ c) ++ d ++ (e ++ (f ++ g ++ c)) ++ h ++ e := by
    simp only [List.append_assoc, List.append_nil]
  have hsample (value : Text) := sampleLine_label "stormnetboot_host_records".toList "source".toList value
  have hsamples : (recordsFamily hosts).samples.flatMap
        (fun sample => sampleLine (recordsFamily hosts).name sample ++ ['\n']) = _ :=
    congrArg₂ (fun first second : Text => first ++ (second ++ []))
      (hsample "file".toList hosts.file) (hsample "boothost".toList hosts.kube)
  rw [flatMap_lines, hsamples, hassoc, hfile, hkube]
  exact congrArg₂ _ hhelp (congrArg (· ++ _) htype)

/-- The lines of the watch are. -/
theorem syncedFamily_eq (hosts : HostCounts) :
    (syncedFamily hosts).lines.flatMap (· ++ ['\n']) =
      "# HELP stormnetboot_boothost_synced Whether the BootHost watch has listed the cluster.\n".toList ++
        ("# TYPE stormnetboot_boothost_synced gauge\n".toList ++
          ("stormnetboot_boothost_synced ".toList ++ natText hosts.kubeSynced.toNat ++
            "\n".toList)) := by
  have hhelp : helpLine "stormnetboot_boothost_synced".toList
        "Whether the BootHost watch has listed the cluster.".toList ++ ['\n'] =
      "# HELP stormnetboot_boothost_synced Whether the BootHost watch has listed the cluster.\n".toList := by
    decide
  have htype : typeLine "stormnetboot_boothost_synced".toList .gauge ++ ['\n'] =
      "# TYPE stormnetboot_boothost_synced gauge\n".toList := by decide
  have hsample (n : ℕ) : sampleLine "stormnetboot_boothost_synced".toList ⟨[], n⟩ ++ ['\n'] ++ [] =
      "stormnetboot_boothost_synced ".toList ++ natText n ++ "\n".toList := by
    have hname : "stormnetboot_boothost_synced ".toList =
        "stormnetboot_boothost_synced".toList ++ [] ++ [' '] := by decide
    have hend : "\n".toList = ['\n'] := by decide
    have hassoc (a b : Text) : a ++ [] ++ ' ' :: b ++ ['\n'] ++ [] = a ++ [] ++ [' '] ++ b ++ ['\n'] := by
      simp only [List.append_assoc, List.cons_append, List.nil_append, List.append_nil]
    rw [hname, hend]
    exact hassoc _ _
  rw [flatMap_lines]
  exact congrArg₂ _ hhelp (congrArg₂ _ htype (hsample _))

/-- What is rendered is the exposition of the families. -/
theorem render_eq (phases : List (Phase × ℕ)) (hosts : HostCounts) (metrics : Metrics) :
    metrics.render phases hosts = text (metrics.families phases hosts) := by
  have hcounters (counters : List (String × String × UInt64)) :
      text (counters.map counterFamily) = counters.flatMap counterText := by
    induction counters with
    | nil => rfl
    | cons counter rest ih =>
      rw [List.map_cons, text_cons, counterText_eq, ih, List.flatMap_cons]
  have hnil : text [] = [] := rfl
  have hassoc (a b c d e f g h i j k l m : Text) :
      a ++ b ++ c ++ d ++ e ++ f ++ g ++ h ++ i ++ j ++ k ++ l ++ m =
        (a ++ (b ++ c)) ++ (d ++ ((e ++ (f ++ g)) ++ ((h ++ (i ++ j)) ++ (k ++ (l ++ m))))) := by
    simp only [List.append_assoc]
  rw [families, List.cons_append, text_cons, text_append, hcounters, text_cons, text_cons, text_cons,
    hnil, List.append_nil, buildFamily_eq, hostsFamily_eq, recordsFamily_eq, syncedFamily_eq]
  exact hassoc _ _ _ _ _ _ _ _ _ _ _ _ _

/-! ## Reading it -/

/-- Different phases have different slugs. -/
theorem slug_injective : Function.Injective Phase.slug := by
  intro first second h
  cases first <;> cases second <;> first | rfl | exact absurd h (by decide)

/-- So they have different labels. -/
theorem phaseLabels_injective : Function.Injective phaseLabels :=
  fun _ _ h => slug_injective (congrArg Prod.snd (List.cons.inj h).1)

/-- The names of the counters and their help texts. -/
def counterTexts : List (String × String) :=
  zero.counters.map fun counter => (counter.1, counter.2.1)

/-- The names and helps of the counters follow the rules. -/
theorem plain_counterTexts : ∀ texts ∈ counterTexts, PlainName texts.1.toList ∧
    '\n' ∉ texts.2.toList ∧ texts.2.toList.getLast? ≠ some '\r' := by
  decide

/-- The family of a counter is regular. -/
theorem regular_counterFamily {metrics : Metrics} {counter : String × String × UInt64}
    (h : counter ∈ metrics.counters) : (counterFamily counter).Regular := by
  have htexts : metrics.counters.map (fun counter => (counter.1, counter.2.1)) = counterTexts := rfl
  obtain ⟨hname, hhelp⟩ := plain_counterTexts (counter.1, counter.2.1)
    (htexts ▸ List.mem_map.mpr ⟨counter, h, rfl⟩)
  refine ⟨hname, hhelp, ?_, ?_, ?_⟩ <;> simp [counterFamily]

/-- The family of the hosts is, if every phase is counted once. -/
theorem regular_hostsFamily {phases : List (Phase × ℕ)} (h : (phases.map Prod.fst).Nodup) :
    (hostsFamily phases).Regular := by
  have hname : PlainName "stormnetboot_hosts".toList := by decide
  have hhelp : '\n' ∉ "Hosts currently tracked, by boot phase.".toList ∧
      "Hosts currently tracked, by boot phase.".toList.getLast? ≠ some '\r' := by decide
  have hlabel (phase : Phase) : PlainName "phase".toList ∧ PlainValue phase.slug := by
    cases phase <;> decide
  have hseries : (hostsFamily phases).samples.map Sample.labels =
      (phases.map Prod.fst).map phaseLabels := by
    rw [List.map_map]
    exact List.map_map
  refine ⟨hname, hhelp, fun sample hsample label hmem => ?_, fun sample hsample => ?_, ?_⟩
  · obtain ⟨count, -, rfl⟩ := List.mem_map.mp hsample
    obtain rfl := List.mem_singleton.mp hmem
    exact hlabel count.1
  · obtain ⟨count, -, rfl⟩ := List.mem_map.mp hsample
    exact List.nodup_singleton _
  · rw [hseries]
    exact h.map phaseLabels_injective

/-- The family of the build is. -/
theorem regular_buildFamily : buildFamily.Regular :=
  ⟨by decide, by decide, by decide, by decide, by decide⟩

/-- The family of the records is. -/
theorem regular_recordsFamily (hosts : HostCounts) : (recordsFamily hosts).Regular := by
  have hname : PlainName "stormnetboot_host_records".toList := by decide
  have hhelp : '\n' ∉ "Host records held, by source layer.".toList ∧
      "Host records held, by source layer.".toList.getLast? ≠ some '\r' := by decide
  have hlabels : ∀ labels ∈ [[("source".toList, "file".toList)], [("source".toList, "boothost".toList)]],
      (∀ label ∈ labels, PlainName label.1 ∧ PlainValue label.2) ∧
        (labels.map Prod.fst).Nodup := by decide
  have hseries : [[("source".toList, "file".toList)], [("source".toList, "boothost".toList)]].Nodup := by
    decide
  exact ⟨hname, hhelp, fun sample hsample => (hlabels _ (List.mem_map_of_mem hsample)).1,
    fun sample hsample => (hlabels _ (List.mem_map_of_mem hsample)).2, hseries⟩

/-- The family of the watch is. -/
theorem regular_syncedFamily (hosts : HostCounts) : (syncedFamily hosts).Regular := by
  have hname : PlainName "stormnetboot_boothost_synced".toList := by decide
  have hhelp : '\n' ∉ "Whether the BootHost watch has listed the cluster.".toList ∧
      "Whether the BootHost watch has listed the cluster.".toList.getLast? ≠ some '\r' := by decide
  have hlabels : ∀ sample ∈ (syncedFamily hosts).samples, sample.labels = [] := fun sample hsample =>
    congrArg Sample.labels (List.mem_singleton.mp hsample)
  refine ⟨hname, hhelp, fun sample hsample => ?_, fun sample hsample => ?_, List.nodup_singleton _⟩
  · rw [hlabels sample hsample]
    exact fun label hlabel => nomatch hlabel
  · rw [hlabels sample hsample]
    exact List.nodup_nil

/-- So all of them are. -/
theorem regular_families {phases : List (Phase × ℕ)} (h : (phases.map Prod.fst).Nodup)
    (hosts : HostCounts) (metrics : Metrics) :
    ∀ family ∈ metrics.families phases hosts, family.Regular := by
  intro family hfamily
  rcases List.mem_append.mp hfamily with hmem | hmem
  · rcases List.mem_cons.mp hmem with rfl | hmem
    · exact regular_buildFamily
    · obtain ⟨counter, hcounter, rfl⟩ := List.mem_map.mp hmem
      exact regular_counterFamily hcounter
  · simp only [List.mem_cons, List.not_mem_nil, or_false] at hmem
    rcases hmem with rfl | rfl | rfl
    · exact regular_hostsFamily h
    · exact regular_recordsFamily hosts
    · exact regular_syncedFamily hosts

/-- No family is written twice. -/
theorem nodup_families (phases : List (Phase × ℕ)) (hosts : HostCounts) (metrics : Metrics) :
    ((metrics.families phases hosts).map Family.name).Nodup := by
  have hnames : (metrics.families phases hosts).map Family.name =
      (zero.families [] ⟨0, 0, 0, false⟩).map Family.name := rfl
  rw [hnames]
  decide

/-- Where no phase stands twice, what is rendered is read as the families. -/
theorem read_render {phases : List (Phase × ℕ)} (h : (phases.map Prod.fst).Nodup)
    (hosts : HostCounts) (metrics : Metrics) :
    read (metrics.render phases hosts) = some (metrics.families phases hosts) := by
  rw [render_eq]
  exact read_text (regular_families h hosts metrics) (nodup_families phases hosts metrics)

end Metrics

/-- What a scraper has read: every counter, the tracked hosts by phase, where there are any, and
the host records by layer. -/
structure Scraped (boot : BootState) (hosts : HostStore) (metrics : Metrics)
    (families : List Family) : Prop where
  counters : ∀ counter ∈ metrics.counters,
    value families counter.1.toList [] = some counter.2.2.toNat
  phases : ∀ phase count, value families "stormnetboot_hosts".toList (Metrics.phaseLabels phase) =
    some count ↔ boot.InPhase phase ∧ count = boot.inPhase phase
  file : value families "stormnetboot_host_records".toList [("source".toList, "file".toList)] =
    some (HashMap.len hosts.file)
  kube : value families "stormnetboot_host_records".toList [("source".toList, "boothost".toList)] =
    some (HashMap.len hosts.kube)
  synced : value families "stormnetboot_boothost_synced".toList [] = some hosts.kubeSynced.toNat

/-- Whatever the server holds, its metrics are read as an exposition in which every family is
announced and no series stands twice, with every counter and the number of hosts in every phase. -/
theorem read_metricsBody (order : HashMap.Iteration Mac HostState)
    (phases : HashMap.Iteration Phase ℕ) (boot : BootState) (hosts : HostStore)
    (metrics : Metrics) : ∃ families,
      read (metricsBody order phases boot hosts metrics) = some families ∧
        Scraped boot hosts metrics families := by
  have hnodup := BootState.nodup_phaseCounts order phases boot
  have hvalue := value_eq_some_iff (Metrics.nodup_families (boot.phaseCounts order phases)
    hosts.counts metrics) (Metrics.regular_families hnodup hosts.counts metrics)
  refine ⟨_, Metrics.read_render hnodup hosts.counts metrics, ?_, ?_, ?_, ?_, ?_⟩
  · intro counter hcounter
    refine (hvalue ..).mpr ⟨Metrics.counterFamily counter, ?_, rfl, List.mem_singleton_self _⟩
    exact List.mem_append_left _ (List.mem_cons_of_mem _ (List.mem_map_of_mem hcounter))
  · intro phase count
    rw [hvalue, ← BootState.mem_phaseCounts order phases]
    have hmem : Metrics.hostsFamily (boot.phaseCounts order phases) ∈
        metrics.families (boot.phaseCounts order phases) hosts.counts :=
      List.mem_append_right _ List.mem_cons_self
    constructor
    · rintro ⟨family, hfamily, hname, hsample⟩
      obtain rfl := List.inj_on_of_nodup_map (Metrics.nodup_families ..) hfamily hmem hname
      obtain ⟨⟨phase', count'⟩, hcount, heq⟩ := List.mem_map.mp hsample
      obtain rfl := Metrics.phaseLabels_injective (congrArg Sample.labels heq)
      obtain rfl : count' = count := congrArg Sample.value heq
      exact hcount
    · intro hcount
      exact ⟨_, hmem, rfl, List.mem_map.mpr ⟨(phase, count), hcount, rfl⟩⟩
  · refine (hvalue ..).mpr ⟨Metrics.recordsFamily hosts.counts, ?_, rfl, List.mem_cons_self⟩
    exact List.mem_append_right _ (by simp)
  · refine (hvalue ..).mpr ⟨Metrics.recordsFamily hosts.counts, ?_, rfl,
      List.mem_cons_of_mem _ List.mem_cons_self⟩
    exact List.mem_append_right _ (by simp)
  · refine (hvalue ..).mpr ⟨Metrics.syncedFamily hosts.counts, ?_, rfl, List.mem_cons_self⟩
    exact List.mem_append_right _ (by simp)

end Stormnetboot.Server

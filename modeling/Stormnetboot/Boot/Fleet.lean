import Stormnetboot.Boot.Delivery
import Stormnetboot.Boot.ReportsAccepted
import Stormnetboot.Server.Isolation

/-!
# A fleet behind one boot server

Machines boot side by side. Each posts from its initramfs and later from its agent, the server notes
what it serves them, and any post can be lost, with its answer or without. Whatever the others do,
the server's entry of a machine is made of that machine's own posts; and what an agent was silent
about stays in it.
-/

namespace Stormnetboot.Boot

open Stormnetboot.Common Stormnetboot.Server Stormnetboot.Init

/-- A machine whose initramfs and agent are given one URL and one MAC. -/
structure Node where
  authority : Text
  path : Text
  mac : Text
  host : Mac
  plain : PlainUrl authority path
  slashes : ∀ c ∈ path, c = '/'
  parses : Mac.parse mac = .ok host

/-- What a machine posts in the course of a boot. -/
inductive Post where
  /-- From inside the initramfs. -/
  | early (phase : Text) (detail : Option Text)
  /-- From the agent. -/
  | late (phase : Text) (detail : Option Text)
  | hardware (inv : Agent.Inventory)

namespace Node

variable (node : Node)

/-- The reporter of its early boot. -/
def early : Init.Reporter :=
  ⟨some (urlOf node.authority node.path), some node.mac⟩

/-- The reporter of its running system. -/
def agent : Agent.Reporter :=
  .ofArgs (urlOf node.authority node.path) node.mac

/-- What it writes. -/
def wire : Post → Option Text
  | .early phase detail => ((node.early.message phase detail).toOption.bind id).map Prod.snd
  | .late phase detail =>
    (Agent.ureqPost (node.agent.url ++ reportPath) (node.agent.reportJson phase detail).text).toOption.map
      Prod.snd
  | .hardware inv =>
    (Agent.ureqPost (node.agent.url ++ inventoryPath) (node.agent.inventoryJson inv).text).toOption.map
      Prod.snd

/-- The operation it is. -/
def op (limit : ℕ) : Post → Option BootOp
  | .early phase detail =>
    if utf8Len (buildBody node.mac phase detail) ≤ limit then
      ReportRequest.op ⟨node.mac, sentText phase, detail.map sentText⟩
    else none
  | .late phase detail => reportOp limit node.agent phase detail
  | .hardware inv => inventoryOp limit node.agent inv

/-- The agent has no complaint about the post. The initramfs does not look at the answer. -/
def Silent (network : Agent.Exchange) : Post → Prop
  | .early _ _ => False
  | .late phase detail => node.agent.report network phase detail = none
  | .hardware inv => node.agent.reportInventory network inv = none

end Node

/-- What happens at the server: a machine posts, or the server records something itself, as it does
when it serves a script. -/
inductive Happening where
  | posts (node : Node) (post : Post) (passage : Passage)
  | records (op : BootOp)

/-- The machine it is about. -/
def Happening.host : Happening → Mac
  | .posts node _ _ => node.host
  | .records op => op.host

/-- Something happens at a moment. -/
structure FleetEvent where
  moment : Moment
  what : Happening

namespace BootServer

variable (server : BootServer)

/-- What the server makes of it. -/
def step (boot : BootState) (event : FleetEvent) : BootState :=
  match event.what with
  | .posts node post passage =>
    (node.wire post).elim boot fun wire => (server.exchange event.moment boot passage wire).2
  | .records op => boot.apply ⟨event.moment, op⟩

/-- The state after a run. -/
def after (events : List FleetEvent) : BootState :=
  events.foldl server.step ∅

/-- What is recorded of it. -/
def recorded (event : FleetEvent) : Option BootEvent :=
  match event.what with
  | .posts _ _ (.unreached _) => none
  | .posts node post _ => (node.op server.ex.limit post).map (⟨event.moment, ·⟩)
  | .records op => some ⟨event.moment, op⟩

end BootServer

/-! ## What a post is -/

/-- The report of an initramfs is read as the server's parser of phases takes it. -/
theorem ofJson_reportValues (mac phase : Text) (detail : Option Text) :
    ReportRequest.ofJson (.obj ((reportValues mac phase detail).map fun m => (m.1, .str m.2))) =
      some ⟨sentText mac, sentText phase, detail.map sentText⟩ := by
  cases detail with
  | none => rfl
  | some detail => rfl

/-- The body that the early boot writes stands for its values. -/
theorem standsFor_buildBody (mac phase : Text) (detail : Option Text) :
    Json.StandsFor (buildBody mac phase detail)
      (.obj ((reportValues mac phase detail).map fun m => (m.1, .str m.2))) := by
  have htree : (Json.obj ((reportValues mac phase detail).map fun m => (m.1, .str m.2))).tree =
      JsonGrammar.stringObject (reportValues mac phase detail) := by
    cases detail <;> rfl
  intro tree
  rw [htree]
  exact (document_buildBody_iff mac phase detail).1 tree

/-- What the initramfs writes is a request that is its operation. -/
theorem Node.read_early (node : Node) (ex : Extractor) (phase : Text) (detail : Option Text) :
    ∃ r, node.wire (.early phase detail) = some (HttpRequest.text r) ∧ r.WellFormed ∧
      postedOp ex r = node.op ex.limit (.early phase detail) := by
  have hmessage := @message_of_splitUrl _ node.mac _ _ (splitUrl_urlOf node.plain) phase detail
  refine ⟨_, by rw [wire, early, hmessage]; rfl, wellFormed_earlyPost node.plain _, ?_⟩
  have hwithin : Json.Within 127
      (.obj ((reportValues node.mac phase detail).map fun m => (m.1, .str m.2))) := by
    refine .obj fun m hm => ?_
    obtain ⟨value, -, rfl⟩ := List.mem_map.mp hm
    exact .str _ _
  have hroute : pathOf (HttpRequest.jsonPost node.authority reportPath
      (buildBody node.mac phase detail)).target = "/api/v1/report".toList := rfl
  rw [postedOp, if_pos hroute, ex.body_of_standsFor ReportRequest.ofJson node.authority reportPath
    (standsFor_buildBody node.mac phase detail) hwithin, ofJson_reportValues, op,
    sentText_eq_self (printable_of_parse node.parses)]
  split_ifs <;> rfl

/-- Whatever a machine writes is a request that is the operation its post is. -/
theorem Node.read_wire (node : Node) (ex : Extractor) (post : Post) :
    ∃ r, node.wire post = some (HttpRequest.text r) ∧ r.WellFormed ∧
      postedOp ex r = node.op ex.limit post := by
  cases post with
  | early phase detail => exact node.read_early ex phase detail
  | late phase detail =>
    obtain ⟨target, r, hpost, hformed, hop⟩ :=
      read_report node.mac ex node.plain node.slashes phase detail
    exact ⟨r, by rw [Node.wire, agent, hpost]; rfl, hformed, hop⟩
  | hardware inv =>
    obtain ⟨target, r, hpost, hformed, hop⟩ :=
      read_inventory node.mac ex node.plain node.slashes inv
    exact ⟨r, by rw [Node.wire, agent, hpost]; rfl, hformed, hop⟩

/-- The operation is on the machine itself. -/
theorem Node.host_op {node : Node} {limit : ℕ} {post : Post} {o : BootOp}
    (h : node.op limit post = some o) : o.host = node.host := by
  have hreport : ∀ {phase : Text} {detail : Option Text},
      ReportRequest.op ⟨node.mac, phase, detail⟩ = some o → o.host = node.host := by
    intro phase detail hop
    simp only [ReportRequest.op, node.parses, Option.map_eq_some_iff] at hop
    obtain ⟨known, -, rfl⟩ := hop
    rfl
  cases post with
  | early phase detail =>
    simp only [op] at h
    split_ifs at h
    exact hreport h
  | late phase detail =>
    simp only [op, reportOp] at h
    split_ifs at h
    exact hreport h
  | hardware inv =>
    simp only [op, inventoryOp] at h
    split_ifs at h
    simp only [InventoryRequest.op, agent, Agent.Reporter.ofArgs, node.parses,
      Option.some.injEq] at h
    exact h ▸ rfl

/-! ## A run is a run of operations -/

namespace BootServer

variable (server : BootServer)

/-- A step applies what the server records, if it records anything. -/
theorem step_eq (boot : BootState) (event : FleetEvent) :
    server.step boot event = (server.recorded event).elim boot boot.apply := by
  obtain ⟨moment, what⟩ := event
  cases what with
  | records op => rfl
  | posts node post passage =>
    obtain ⟨r, hwire, hformed, hop⟩ := node.read_wire server.ex post
    obtain ⟨status, -, -, hhandle⟩ := handle_cases server moment boot hformed
    rw [hop] at hhandle
    simp only [step, hwire, Option.elim_some, exchange, hhandle]
    cases passage with
    | unreached err => rfl
    | lost err => cases hpost : node.op server.ex.limit post <;> simp [recorded, hpost]
    | answered length => cases hpost : node.op server.ex.limit post <;> simp [recorded, hpost]

/-- So a run is the run of what was recorded. -/
theorem after_eq (events : List FleetEvent) :
    server.after events = BootState.run ∅ (events.filterMap server.recorded) := by
  have hfold : ∀ boot, events.foldl server.step boot =
      boot.run (events.filterMap server.recorded) := by
    induction events with
    | nil => exact fun _ => rfl
    | cons event rest ih =>
      intro boot
      rw [List.foldl_cons, ih, step_eq]
      cases hrecorded : server.recorded event with
      | none => rw [List.filterMap_cons_none hrecorded]; rfl
      | some e => rw [List.filterMap_cons_some hrecorded]; rfl
  exact hfold ∅

/-- What is recorded of an event is about the host of the event. -/
theorem host_recorded {event : FleetEvent} {e : BootEvent} (h : server.recorded event = some e) :
    e.op.host = event.what.host := by
  obtain ⟨moment, what⟩ := event
  cases what with
  | records op =>
    cases h
    rfl
  | posts node post passage =>
    cases passage with
    | unreached err => cases h
    | _ =>
      obtain ⟨o, ho, rfl⟩ := Option.map_eq_some_iff.mp h
      exact Node.host_op ho

/-- What is recorded of a machine is recorded of what it did. -/
theorem own_recorded (host : Mac) (events : List FleetEvent) :
    own host (events.filterMap server.recorded) =
      (events.filter fun event => event.what.host = host).filterMap server.recorded := by
  induction events with
  | nil => rfl
  | cons event rest ih =>
    cases hrecorded : server.recorded event with
    | none =>
      rw [List.filterMap_cons_none hrecorded, ih, List.filter_cons]
      split_ifs
      · rw [List.filterMap_cons_none hrecorded]
      · rfl
    | some e =>
      rw [List.filterMap_cons_some hrecorded, own, List.filter_cons, List.filter_cons,
        server.host_recorded hrecorded]
      split_ifs
      · rw [List.filterMap_cons_some hrecorded, ← ih, own]
      · exact ih

/-- There are no more machines in what is recorded than in what happens. -/
theorem card_hostsOf_recorded (events : List FleetEvent) :
    (hostsOf (events.filterMap server.recorded)).card ≤
      (events.map fun event => event.what.host).toFinset.card := by
  refine Finset.card_le_card fun mac hmac => ?_
  simp only [hostsOf, List.mem_toFinset, List.mem_map, List.mem_filterMap] at hmac ⊢
  obtain ⟨e, ⟨event, hevent, hrecorded⟩, rfl⟩ := hmac
  exact ⟨event, hevent, (server.host_recorded hrecorded).symm⟩

end BootServer

/-! ## Side by side -/

section Fleet

variable (server : BootServer)

/-- As long as the machines fit into the map, what the server shows of one is what it would show if
the others had done nothing, whatever they did in between and whatever was lost on the way. -/
theorem lookup_after_alone {events : List FleetEvent}
    (hfits : (events.map fun event => event.what.host).toFinset.card ≤ maxTracked) (host : Mac) :
    (server.after events).lookup host =
      (server.after (events.filter fun event => event.what.host = host)).lookup host := by
  rw [server.after_eq, server.after_eq, ← server.own_recorded]
  exact BootState.lookup_run_eq_alone ((server.card_hostsOf_recorded events).trans hfits) host

/-- A machine on the bench. -/
def bench : Node where
  authority := "10.0.0.5:8080".toList
  path := "/".toList
  mac := "aa:bb:cc:dd:ee:01".toList
  host := .ofOctets 0xaa 0xbb 0xcc 0xdd 0xee 0x01
  plain := plainUrl_node
  slashes := by decide
  parses := by decide

/-- Another machine fails to boot while it runs. -/
theorem lookup_after_alone_bench : ∃ order,
    let events : List FleetEvent :=
      [⟨⟨0, order⟩, .posts bench (.late "running".toList none) (.answered 12)⟩,
        ⟨⟨1, order⟩, .records (.observe (.ofOctets 0xaa 0xbb 0xcc 0xdd 0xee 0x02) .failed none)⟩]
    (grammarServer.after events).lookup bench.host =
      (grammarServer.after (events.filter fun event => event.what.host = bench.host)).lookup
        bench.host := by
  obtain ⟨order⟩ : Nonempty (HashMap.Iteration Mac HostState) := inferInstance
  refine ⟨order, lookup_after_alone grammarServer ?_ _⟩
  exact (List.toFinset_card_le _).trans (show 2 ≤ maxTracked by decide)

/-- An agent's post is a silent one exactly if it is recorded and the status of its answer
arrives. -/
theorem Node.silent_iff (node : Node) (moment : Moment) (boot : BootState) (passage : Passage)
    {post : Post} (hagent : ∀ phase detail, post ≠ .early phase detail) :
    node.Silent (server.network moment boot passage) post ↔
      passage.Arrives ∧ (node.op server.ex.limit post).isSome = true := by
  cases post with
  | early phase detail => exact absurd rfl (hagent phase detail)
  | late phase detail =>
    obtain ⟨target, r, hpost, hformed, hop⟩ :=
      read_report node.mac server.ex node.plain node.slashes phase detail
    have htold := post_cases server moment boot passage hpost hformed (report_eq_none_iff hpost)
    rw [hop] at htold
    exact htold.silent
  | hardware inv =>
    obtain ⟨target, r, hpost, hformed, hop⟩ :=
      read_inventory node.mac server.ex node.plain node.slashes inv
    have htold := post_cases server moment boot passage hpost hformed
      (reportInventory_eq_none_iff hpost)
    rw [hop] at htold
    exact htold.silent

/-- A silent post is recorded. -/
theorem Node.recorded_of_silent {node : Node} {moment : Moment} {boot : BootState}
    {passage : Passage} {post : Post} (h : node.Silent (server.network moment boot passage) post) :
    ∃ o, node.op server.ex.limit post = some o ∧
      server.recorded ⟨moment, .posts node post passage⟩ = some ⟨moment, o⟩ := by
  have hagent : ∀ phase detail, post ≠ .early phase detail := by
    rintro phase detail rfl
    exact h
  obtain ⟨harrives, hsome⟩ := (node.silent_iff server moment boot passage hagent).mp h
  obtain ⟨o, ho⟩ := Option.isSome_iff_exists.mp hsome
  refine ⟨o, ho, ?_⟩
  cases passage with
  | unreached err => cases harrives
  | lost err => cases harrives
  | answered length => simp only [BootServer.recorded, ho, Option.map_some]

/-- The server shows what the post said: at least the phase of a report, and the hardware of an
inventory until another is recorded. -/
def Shows (node : Node) (later : List FleetEvent) (shown : HostState) : Post → Prop
  | .early _ _ => True
  | .late phase _ => ∃ known, parsePhase phase = some known ∧ known ≤ shown.phase
  | .hardware inv =>
    (∀ event ∈ later, ∀ moment hardware,
      server.recorded event ≠ some ⟨moment, .setInventory node.host hardware⟩) →
    shown.hardware = some (hardwareOf inv)

/-- An operation that brings no inventory leaves the one there is. -/
theorem hardware_update {event : BootEvent}
    (h : ∀ hardware, event.op ≠ .setInventory event.op.host hardware) (state : HostState) :
    (event.update state).hardware = state.hardware := by
  unfold BootEvent.update
  cases hop : event.op with
  | observe mac phase detail =>
    simp only [BootState.advance]
    split_ifs <;> rfl
  | setPalletVersion mac version => rfl
  | setInventory mac hardware =>
    rw [hop] at h
    exact absurd rfl (h hardware)

/-- Once an agent was silent about a post, the server shows what the post said, whatever the fleet
does from then on. -/
theorem shows_of_silent {node : Node} {post : Post} {moment : Moment} {passage : Passage}
    (before later : List FleetEvent)
    (hfits : ((before ++ ⟨moment, .posts node post passage⟩ :: later).map
      fun event => event.what.host).toFinset.card ≤ maxTracked)
    (hsilent : node.Silent (server.network moment (server.after before) passage) post) :
    ∃ shown, (server.after (before ++ ⟨moment, .posts node post passage⟩ :: later)).lookup node.host =
      some shown ∧ Shows server node later shown post := by
  obtain ⟨o, ho, hrecorded⟩ := Node.recorded_of_silent server hsilent
  have hsplit : (before ++ ⟨moment, .posts node post passage⟩ :: later).filterMap server.recorded =
      before.filterMap server.recorded ++ [⟨moment, o⟩] ++ later.filterMap server.recorded := by
    rw [List.filterMap_append, List.filterMap_cons_some hrecorded, List.append_assoc]
    rfl
  have hcard := (server.card_hostsOf_recorded _).trans hfits
  rw [hsplit] at hcard
  rw [server.after_eq, hsplit]
  cases post with
  | early phase detail => exact hsilent.elim
  | late phase detail =>
    simp only [Node.op, reportOp] at ho
    split_ifs at ho
    simp only [ReportRequest.op, Node.agent, Agent.Reporter.ofArgs, node.parses,
      Option.map_eq_some_iff] at ho
    obtain ⟨known, hknown, rfl⟩ := ho
    obtain ⟨shown, hshown, hle⟩ := BootState.lookup_run_keeps node.host
      (P := fun state => known ≤ state.phase) hcard
      (fun event _ _ state hle => hle.trans (BootState.phase_le_update event state))
      (by rw [BootState.run_concat]; exact BootState.lookup_apply_observe ..)
    exact ⟨shown, hshown, known, hknown, hle⟩
  | hardware inv =>
    simp only [Node.op, inventoryOp] at ho
    split_ifs at ho
    simp only [InventoryRequest.op, Node.agent, Agent.Reporter.ofArgs, node.parses,
      Option.some.injEq] at ho
    subst ho
    obtain ⟨noted, hnoted, hhardware⟩ := Option.bind_eq_some_iff.mp (hardware_apply_setInventory
      (BootState.run ∅ (before.filterMap server.recorded)) moment node.host (hardwareOf inv))
    rw [← BootState.run_concat] at hnoted
    by_cases hlast : ∀ event ∈ later, ∀ moment hardware,
        server.recorded event ≠ some ⟨moment, .setInventory node.host hardware⟩
    · have hkeeps : ∀ event ∈ later.filterMap server.recorded, event.op.host = node.host →
          ∀ state, state.hardware = some (hardwareOf inv) →
            (event.update state).hardware = some (hardwareOf inv) := by
        intro event hevent hmac state hstate
        obtain ⟨happened, hmem, hrecorded⟩ := List.mem_filterMap.mp hevent
        refine (hardware_update (fun hardware hop => ?_) state).trans hstate
        rw [hmac] at hop
        exact hlast happened hmem event.moment hardware (by rw [hrecorded, ← hop])
      obtain ⟨shown, hshown, hkept⟩ :=
        BootState.lookup_run_keeps node.host hcard hkeeps ⟨noted, hnoted, hhardware⟩
      exact ⟨shown, hshown, fun _ => hkept⟩
    · obtain ⟨shown, hshown, -⟩ := BootState.lookup_run_keeps node.host (P := fun _ => True) hcard
        (fun _ _ _ _ _ => trivial) ⟨noted, hnoted, trivial⟩
      exact ⟨shown, hshown, fun h => absurd h hlast⟩

/-- The machine says that it runs, and then another fails to boot. -/
theorem shows_of_silent_bench : ∃ order,
    let later : List FleetEvent :=
      [⟨⟨1, order⟩, .records (.observe (.ofOctets 0xaa 0xbb 0xcc 0xdd 0xee 0x02) .failed none)⟩]
    ∃ shown, (grammarServer.after ([] ++
        ⟨⟨0, order⟩, .posts bench (.late "running".toList none) (.answered 12)⟩ :: later)).lookup
      bench.host = some shown ∧ Shows grammarServer bench later shown (.late "running".toList none) := by
  obtain ⟨order⟩ : Nonempty (HashMap.Iteration Mac HostState) := inferInstance
  refine ⟨order, shows_of_silent grammarServer [] _
    ((List.toFinset_card_le _).trans (show 2 ≤ maxTracked by decide)) ?_⟩
  refine (bench.silent_iff grammarServer _ _ _ fun _ _ h => by cases h).mpr ⟨le_rfl, ?_⟩
  have hop : ((bench.op 2097152 (.late "running".toList none)).isSome) = true := by decide
  exact hop

end Fleet

end Stormnetboot.Boot

import Stormnetboot.Common.Changes
import Stormnetboot.Server.Components
import Stormnetboot.Server.JsonFields

/-!
# The feed as it is pushed

A viewer that keeps a socket open is sent the whole feed as JSON, whenever its text is another one
than what was sent last. A feed is read back from its text, so two feeds have one text only if they
are the same: what a viewer reads is every feed there was, each until it changed, and as long as
the socket is open the last one is the present one.
-/

namespace Stormnetboot.Server

open Stormnetboot.Common

/-! ## Written feeds -/

/-- `rename_all = "lowercase"`. -/
def Health.text : Health → Text
  | .error => "error".toList
  | .warn => "warn".toList
  | .ok => "ok".toList
  | .idle => "idle".toList
  | .unknown => "unknown".toList

/-- `rename_all = "snake_case"`. -/
def RelationKind.text : RelationKind → Text
  | .hasOne => "has_one".toList
  | .hasMany => "has_many".toList
  | .belongsTo => "belongs_to".toList

/-- The members of a serialised `Metric`. -/
def Metric.fields (metric : Metric) : List (String × Option Json) :=
  [("label", some (.str metric.label)), ("value", some (.str metric.value)),
    ("unit", metric.unit.map .str), ("tone", metric.tone.map .str)]

/-- A `Metric` as a JSON value. -/
def Metric.toJson (metric : Metric) : Json :=
  .ofFields metric.fields

/-- The members of a serialised `Relation`. -/
def Relation.fields (relation : Relation) : List (String × Option Json) :=
  [("name", some (.str relation.name)), ("kind", some (.str relation.kind.text)),
    ("targets", some (.arr (relation.targets.map .str))), ("href", relation.href.map .str)]

/-- A `Relation` as a JSON value. -/
def Relation.toJson (relation : Relation) : Json :=
  .ofFields relation.fields

/-- The members of a serialised `Action`. -/
def Action.fields (action : Action) : List (String × Option Json) :=
  [("id", some (.str action.id)), ("label", some (.str action.label)),
    ("method", some (.str action.method)), ("path", some (.str action.path)),
    ("enabled", some (.bool action.enabled)), ("danger", some (.bool action.danger))]

/-- An `Action` as a JSON value. -/
def Action.toJson (action : Action) : Json :=
  .ofFields action.fields

/-- The members of a serialised `ComponentSummary`. -/
def ComponentSummary.fields (component : ComponentSummary) : List (String × Option Json) :=
  [("id", some (.str component.id)), ("kind", some (.str component.kind)),
    ("label", some (.str component.label)), ("health", some (.str component.health.text)),
    ("detail", some (.str component.detail)),
    ("metrics", some (.arr (component.metrics.map Metric.toJson))),
    ("actions", some (.arr (component.actions.map Action.toJson))),
    ("relations", listField Relation.toJson component.relations),
    ("link", component.link.map .str)]

/-- A `ComponentSummary` as a JSON value. -/
def ComponentSummary.toJson (component : ComponentSummary) : Json :=
  .ofFields component.fields

/-- The feed as a JSON value. -/
def feedJson (feed : List ComponentSummary) : Json :=
  .arr (feed.map ComponentSummary.toJson)

/-! ## Reading them -/

/-- Read a `Health` from its word. -/
def Health.ofJson (value : Json) : Option Health :=
  (readText value).bind fun s =>
    [Health.error, .warn, .ok, .idle, .unknown].find? fun health => health.text = s

/-- Read a `RelationKind` from its word. -/
def RelationKind.ofJson (value : Json) : Option RelationKind :=
  (readText value).bind fun s =>
    [RelationKind.hasOne, .hasMany, .belongsTo].find? fun kind => kind.text = s

/-- Read a `Metric` from its members. -/
def Metric.ofMembers (get : String → Option Json) : Option Metric := do
  let label ← (get "label").bind readText
  let value ← (get "value").bind readText
  let unit ← readOptional readText (get "unit")
  let tone ← readOptional readText (get "tone")
  some ⟨label, value, unit, tone⟩

/-- Read a `Metric`. -/
def Metric.ofJson (value : Json) : Option Metric :=
  match value with
  | .obj _ => Metric.ofMembers value.get
  | _ => none

/-- Read a `Relation` from its members. -/
def Relation.ofMembers (get : String → Option Json) : Option Relation := do
  let name ← (get "name").bind readText
  let kind ← (get "kind").bind RelationKind.ofJson
  let targets ← (get "targets").bind (readItems readText)
  let href ← readOptional readText (get "href")
  some ⟨name, kind, targets, href⟩

/-- Read a `Relation`. -/
def Relation.ofJson (value : Json) : Option Relation :=
  match value with
  | .obj _ => Relation.ofMembers value.get
  | _ => none

/-- Read an `Action` from its members. -/
def Action.ofMembers (get : String → Option Json) : Option Action := do
  let id ← (get "id").bind readText
  let label ← (get "label").bind readText
  let method ← (get "method").bind readText
  let path ← (get "path").bind readText
  let enabled ← (get "enabled").bind readBool
  let danger ← (get "danger").bind readBool
  some ⟨id, label, method, path, enabled, danger⟩

/-- Read an `Action`. -/
def Action.ofJson (value : Json) : Option Action :=
  match value with
  | .obj _ => Action.ofMembers value.get
  | _ => none

/-- Read a `ComponentSummary` from its members. -/
def ComponentSummary.ofMembers (get : String → Option Json) : Option ComponentSummary := do
  let id ← (get "id").bind readText
  let kind ← (get "kind").bind readText
  let label ← (get "label").bind readText
  let health ← (get "health").bind Health.ofJson
  let detail ← (get "detail").bind readText
  let metrics ← readList Metric.ofJson (get "metrics")
  let actions ← readList Action.ofJson (get "actions")
  let relations ← readList Relation.ofJson (get "relations")
  let link ← readOptional readText (get "link")
  some ⟨id, kind, label, health, detail, metrics, actions, relations, link⟩

/-- Read a `ComponentSummary`. -/
def ComponentSummary.ofJson (value : Json) : Option ComponentSummary :=
  match value with
  | .obj _ => ComponentSummary.ofMembers value.get
  | _ => none

/-- What a viewer reads in a message. -/
def readFeed (read : Text → Option Json) (message : Text) : Option (List ComponentSummary) :=
  (read message).bind (readItems ComponentSummary.ofJson)

/-! ## Reading back -/

/-- A health is read back. -/
theorem Health.ofJson_text (health : Health) : Health.ofJson (.str health.text) = some health := by
  cases health <;> decide

/-- A kind of relation is read back. -/
theorem RelationKind.ofJson_text (kind : RelationKind) :
    RelationKind.ofJson (.str kind.text) = some kind := by
  cases kind <;> decide

/-- A value of fields is read from what they say. -/
theorem get_fields (fields : List (String × Option Json)) (hnodup : (fields.map Prod.fst).Nodup)
    (name : String) : (Json.ofFields fields).get name = (fields.lookup name).join :=
  Json.get_ofFields fields hnodup name

/-- A metric is read back. -/
theorem Metric.ofJson_toJson (metric : Metric) : Metric.ofJson metric.toJson = some metric := by
  have hget := get_fields metric.fields (by simp [fields])
  have hread : Metric.ofJson metric.toJson = Metric.ofMembers (Json.ofFields metric.fields).get := rfl
  have hlabel := hget "label"
  have hvalue := hget "value"
  have hunit : (Json.ofFields metric.fields).get "unit" = metric.unit.map .str := hget "unit"
  have htone : (Json.ofFields metric.fields).get "tone" = metric.tone.map .str := hget "tone"
  rw [hread, ofMembers, hlabel, hvalue, hunit, htone, readOptional_map_str, readOptional_map_str]
  rfl

/-- A relation is read back. -/
theorem Relation.ofJson_toJson (relation : Relation) :
    Relation.ofJson relation.toJson = some relation := by
  have hget := get_fields relation.fields (by simp [fields])
  have hread : Relation.ofJson relation.toJson =
      Relation.ofMembers (Json.ofFields relation.fields).get := rfl
  have hkind : ((Json.ofFields relation.fields).get "kind").bind RelationKind.ofJson =
      some relation.kind := by
    rw [hget "kind"]
    exact RelationKind.ofJson_text relation.kind
  have htargets : ((Json.ofFields relation.fields).get "targets").bind (readItems readText) =
      some relation.targets := by
    rw [hget "targets"]
    have htext (target : Text) : readText (.str target) = some target := rfl
    exact readItems_map htext relation.targets
  have hhref : (Json.ofFields relation.fields).get "href" = relation.href.map .str := hget "href"
  rw [hread, ofMembers, hget "name", hkind, htargets, hhref, readOptional_map_str]
  rfl

/-- An action is read back. -/
theorem Action.ofJson_toJson (action : Action) : Action.ofJson action.toJson = some action := by
  have hget := get_fields action.fields (by simp [fields])
  have hread : Action.ofJson action.toJson = Action.ofMembers (Json.ofFields action.fields).get := rfl
  rw [hread, ofMembers, hget "id", hget "label", hget "method", hget "path", hget "enabled",
    hget "danger"]
  rfl

/-- A row is read back. -/
theorem ComponentSummary.ofJson_toJson (component : ComponentSummary) :
    ComponentSummary.ofJson component.toJson = some component := by
  have hget := get_fields component.fields (by simp [fields])
  have hread : ComponentSummary.ofJson component.toJson =
      ComponentSummary.ofMembers (Json.ofFields component.fields).get := rfl
  have hhealth : ((Json.ofFields component.fields).get "health").bind Health.ofJson =
      some component.health := by
    rw [hget "health"]
    exact Health.ofJson_text component.health
  have hmetrics : readList Metric.ofJson ((Json.ofFields component.fields).get "metrics") =
      some component.metrics := by
    rw [hget "metrics"]
    exact readList_map Metric.ofJson_toJson component.metrics
  have hactions : readList Action.ofJson ((Json.ofFields component.fields).get "actions") =
      some component.actions := by
    rw [hget "actions"]
    exact readList_map Action.ofJson_toJson component.actions
  have hrelations : readList Relation.ofJson ((Json.ofFields component.fields).get "relations") =
      some component.relations := by
    rw [hget "relations"]
    exact readList_listField Relation.toJson Relation.ofJson component.relations
      Relation.ofJson_toJson
  have hlink : (Json.ofFields component.fields).get "link" = component.link.map .str := hget "link"
  rw [hread, ofMembers, hget "id", hget "kind", hget "label", hhealth, hget "detail", hmetrics,
    hactions, hrelations, hlink, readOptional_map_str]
  rfl

/-- A feed is read back. -/
theorem readItems_feedJson (feed : List ComponentSummary) :
    readItems ComponentSummary.ofJson (feedJson feed) = some feed :=
  readItems_map ComponentSummary.ofJson_toJson feed

/-- Two feeds have one text only if they are the same. -/
theorem feedText_injective : Function.Injective fun feed => (feedJson feed).text := by
  intro feed other h
  have hjson : feedJson feed = feedJson other := Json.text_injective h
  have hread := readItems_feedJson feed
  rw [hjson, readItems_feedJson] at hread
  exact (Option.some.inj hread).symm

/-- It is not deep, and holds no number. -/
theorem within_feedJson (feed : List ComponentSummary) : Json.Within 127 (feedJson feed) := by
  have hmetric (metric : Metric) : Json.Within 2 metric.toJson := by
    refine Json.within_ofFields fun f hf value hvalue => ?_
    simp only [Metric.fields, List.mem_cons, List.not_mem_nil, or_false] at hf
    rcases hf with rfl | rfl | rfl | rfl
    · exact Option.some.inj hvalue ▸ .str 1 _
    · exact Option.some.inj hvalue ▸ .str 1 _
    · exact within_map_str hvalue
    · exact within_map_str hvalue
  have hrelation (relation : Relation) : Json.Within 2 relation.toJson := by
    refine Json.within_ofFields fun f hf value hvalue => ?_
    simp only [Relation.fields, List.mem_cons, List.not_mem_nil, or_false] at hf
    rcases hf with rfl | rfl | rfl | rfl
    · exact Option.some.inj hvalue ▸ .str 1 _
    · exact Option.some.inj hvalue ▸ .str 1 _
    · exact Option.some.inj hvalue ▸ within_map (.str 0) relation.targets
    · exact within_map_str hvalue
  have haction (action : Action) : Json.Within 2 action.toJson := by
    refine Json.within_ofFields fun f hf value hvalue => ?_
    simp only [Action.fields, List.mem_cons, List.not_mem_nil, or_false] at hf
    rcases hf with rfl | rfl | rfl | rfl | rfl | rfl <;> cases hvalue
    · exact .str 1 _
    · exact .str 1 _
    · exact .str 1 _
    · exact .str 1 _
    · exact .bool 1 _
    · exact .bool 1 _
  have hcomponent (component : ComponentSummary) : Json.Within 4 component.toJson := by
    refine Json.within_ofFields fun f hf value hvalue => ?_
    simp only [ComponentSummary.fields, List.mem_cons, List.not_mem_nil, or_false] at hf
    rcases hf with rfl | rfl | rfl | rfl | rfl | rfl | rfl | rfl | rfl
    · exact Option.some.inj hvalue ▸ .str 3 _
    · exact Option.some.inj hvalue ▸ .str 3 _
    · exact Option.some.inj hvalue ▸ .str 3 _
    · exact Option.some.inj hvalue ▸ .str 3 _
    · exact Option.some.inj hvalue ▸ .str 3 _
    · exact Option.some.inj hvalue ▸ within_map hmetric component.metrics
    · exact Option.some.inj hvalue ▸ within_map haction component.actions
    · simp only [listField] at hvalue
      split_ifs at hvalue
      exact Option.some.inj hvalue ▸ within_map hrelation component.relations
    · exact within_map_str hvalue
  have hfeed : Json.Within 5 (feedJson feed) := within_map hcomponent feed
  exact hfeed.mono (by decide)

/-- A viewer reads the feed in a message. -/
theorem readFeed_text {read : Text → Option Json} (hread : Json.Reads read)
    (feed : List ComponentSummary) : readFeed read (feedJson feed).text = some feed := by
  rw [readFeed, hread.read_text (within_feedJson feed), Option.bind_some, readItems_feedJson]

/-! ## The stream -/

/-- What a turn of the loop finds: the states and the assets it collects the feed from, and whether
the socket takes a message. -/
structure FeedTurn where
  orders : ReadOrders
  first : BootState
  second : BootState
  assets : AssetStatus
  sends : Bool

/-- The feed that a turn collects. -/
def FeedTurn.feed (turn : FeedTurn) : List ComponentSummary :=
  collect turn.orders turn.first turn.second turn.assets

/-- A socket of `/ws/components`. -/
structure FeedStream where
  /-- The text that was sent last. -/
  last : Text
  isOpen : Bool
  /-- The messages the viewer has. -/
  messages : List Text

namespace FeedStream

/-- A socket that has just been opened. -/
def opened : FeedStream where
  last := []
  isOpen := true
  messages := []

/-- A turn of the loop; it returns when the socket takes no more. -/
def turn (stream : FeedStream) (t : FeedTurn) : FeedStream :=
  if stream.isOpen then
    let json := (feedJson t.feed).text
    if json ≠ stream.last then
      if t.sends then ⟨json, true, stream.messages ++ [json]⟩
      else { stream with isOpen := false }
    else stream
  else stream

end FeedStream

/-- The feeds of the turns, without those that repeat the one before. -/
def feedChanges (turns : List FeedTurn) : List (List ComponentSummary) :=
  (turns.map FeedTurn.feed).destutter (· ≠ ·)

/-- The viewer has read every feed up to some turn, each until it changed. That turn is the last one
as long as the socket is open, and else the one before a change that could not be sent. -/
structure Follows (read : Text → Option Json) (turns : List FeedTurn) (stream : FeedStream) :
    Prop where
  upTo : ∃ n ≤ turns.length,
    stream.messages.map (readFeed read) = (feedChanges (turns.take n)).map some ∧
    stream.messages.getLast?.bind (readFeed read) = (turns.take n).getLast?.map FeedTurn.feed ∧
    (stream.isOpen = true → n = turns.length) ∧
    (stream.isOpen = false → ∃ t, turns[n]? = some t ∧ t.sends = false ∧
      (turns.take n).getLast?.map FeedTurn.feed ≠ some t.feed)

/-- The messages are the texts of the changes, and the last of them is remembered. -/
structure Sent (turns : List FeedTurn) (stream : FeedStream) : Prop where
  messages : stream.messages = (feedChanges turns).map fun feed => (feedJson feed).text
  last : stream.last = ((turns.getLast?.map FeedTurn.feed).map fun feed =>
    (feedJson feed).text).getD []

/-- A feed differs in its text from what was sent last exactly if it is another one. -/
theorem Sent.changed_iff {turns : List FeedTurn} {stream : FeedStream} (h : Sent turns stream)
    (feed : List ComponentSummary) :
    (feedJson feed).text ≠ stream.last ↔ turns.getLast?.map FeedTurn.feed ≠ some feed := by
  rw [h.last]
  cases turns.getLast?.map FeedTurn.feed with
  | none =>
    have hne : (feedJson feed).text ≠ [] := List.cons_ne_nil _ _
    exact iff_of_true hne (by simp)
  | some sent =>
    rw [Option.map_some, Option.getD_some, Ne, Ne, Option.some.injEq]
    exact not_congr ⟨fun heq => (feedText_injective heq).symm, fun heq => by rw [heq]⟩

/-- One more turn of an open stream keeps it up to date, unless the change cannot be sent. -/
theorem Sent.turn {turns : List FeedTurn} {stream : FeedStream} (h : Sent turns stream)
    (hopen : stream.isOpen = true) (t : FeedTurn) :
    (Sent (turns ++ [t]) (stream.turn t) ∧ (stream.turn t).isOpen = true) ∨
      stream.turn t = { stream with isOpen := false } ∧ t.sends = false ∧
        turns.getLast?.map FeedTurn.feed ≠ some t.feed := by
  have hchanges : feedChanges (turns ++ [t]) =
      if turns.getLast?.map FeedTurn.feed = some t.feed then feedChanges turns
      else feedChanges turns ++ [t.feed] := by
    rw [feedChanges, List.map_append, List.map_singleton, destutter_concat, List.getLast?_map]
    rfl
  have hlast : (turns ++ [t]).getLast?.map FeedTurn.feed = some t.feed := by
    rw [List.getLast?_concat]
    rfl
  rw [FeedStream.turn, if_pos hopen]
  simp only
  by_cases hchanged : (feedJson t.feed).text ≠ stream.last
  · have hother := (h.changed_iff t.feed).mp hchanged
    rw [if_pos hchanged]
    by_cases hsends : t.sends = true
    · rw [if_pos hsends]
      refine .inl ⟨⟨?_, by rw [hlast]; rfl⟩, rfl⟩
      rw [hchanges, if_neg hother, List.map_append, h.messages]
      rfl
    · rw [if_neg hsends]
      exact .inr ⟨rfl, Bool.not_eq_true _ ▸ hsends, hother⟩
  · have hsame := not_ne_iff.mp (mt (h.changed_iff t.feed).mpr hchanged)
    rw [if_neg hchanged]
    refine .inl ⟨⟨?_, ?_⟩, hopen⟩
    · rw [hchanges, if_pos hsame, h.messages]
    · rw [h.last, hsame, hlast]

/-- Nothing happens to a stream that was closed. -/
theorem FeedStream.foldl_turn_of_closed {stream : FeedStream} (h : stream.isOpen = false)
    (turns : List FeedTurn) : turns.foldl FeedStream.turn stream = stream := by
  induction turns with
  | nil => rfl
  | cons t rest ih =>
    have hturn : stream.turn t = stream := by
      rw [FeedStream.turn, if_neg (by simp [h])]
    rw [List.foldl_cons, hturn, ih]

/-- A stream that is up to date stays so, or is closed at a change. -/
theorem Sent.foldl_turn {before : List FeedTurn} {stream : FeedStream} (h : Sent before stream)
    (hopen : stream.isOpen = true) (turns : List FeedTurn) :
    ∃ n ≤ (before ++ turns).length, ∃ last : Bool,
      Sent ((before ++ turns).take n) { turns.foldl FeedStream.turn stream with isOpen := last } ∧
      ((turns.foldl FeedStream.turn stream).isOpen = true → n = (before ++ turns).length) ∧
      ((turns.foldl FeedStream.turn stream).isOpen = false →
        ∃ t, (before ++ turns)[n]? = some t ∧ t.sends = false ∧
          ((before ++ turns).take n).getLast?.map FeedTurn.feed ≠ some t.feed) := by
  induction turns generalizing before stream with
  | nil =>
    refine ⟨before.length, by simp, stream.isOpen, ?_, fun _ => by simp, fun hclosed => ?_⟩
    · rw [List.append_nil, List.take_length]
      exact h
    · rw [List.foldl_nil, hopen] at hclosed
      cases hclosed
  | cons t rest ih =>
    rw [List.foldl_cons]
    rcases h.turn hopen t with ⟨hsent, hstill⟩ | ⟨hclosed, hsends, hother⟩
    · have hmore := ih hsent hstill
      rwa [List.append_assoc, List.singleton_append] at hmore
    · have hend : rest.foldl FeedStream.turn (stream.turn t) = stream.turn t :=
        FeedStream.foldl_turn_of_closed (by rw [hclosed]) rest
      have htake : (before ++ t :: rest).take before.length = before := List.take_left
      refine ⟨before.length, by simp, true, ?_, fun hstill => ?_, fun _ => ⟨t, ?_, hsends, ?_⟩⟩
      · rw [htake, hend, hclosed]
        exact ⟨h.messages, h.last⟩
      · rw [hend, hclosed] at hstill
        cases hstill
      · rw [List.getElem?_append_right le_rfl, Nat.sub_self]
        rfl
      · rwa [htake]

/-- In every run of the loop a viewer reads each feed there was until it changed, and is up to date as
long as the socket takes what is sent. -/
theorem follows_run {read : Text → Option Json} (hread : Json.Reads read) (turns : List FeedTurn) :
    Follows read turns (turns.foldl FeedStream.turn .opened) := by
  have hopened : Sent [] .opened := ⟨rfl, rfl⟩
  obtain ⟨n, hle, last, hsent, hopen, hclosed⟩ := hopened.foldl_turn rfl turns
  rw [List.nil_append] at hle hsent hopen hclosed
  have hmessages := hsent.messages
  refine ⟨n, hle, ?_, ?_, hopen, hclosed⟩
  · rw [hmessages, List.map_map]
    exact List.map_congr_left fun feed _ => readFeed_text hread feed
  · rw [hmessages, List.getLast?_map, feedChanges, getLast?_destutter, List.getLast?_map]
    cases (turns.take n).getLast? with
    | none => rfl
    | some t => exact readFeed_text hread t.feed

/-! ## A feed that changes -/

/-- The boot pallet is one of the rows, so another one is another feed. -/
theorem feed_ne_of_detail {t u : FeedTurn} (h : t.assets.detail ≠ u.assets.detail) :
    t.feed ≠ u.feed := by
  intro heq
  have hrow := congrArg (fun feed => feed[1]?.map ComponentSummary.detail) heq
  exact h (Option.some.inj hrow)

namespace Rollout

/-- A machine that is running. -/
def hosts : BootState :=
  Finmap.singleton (.ofOctets 0xaa 0xbb 0xcc 0xdd 0xee 0x01)
    { mac := .ofOctets 0xaa 0xbb 0xcc 0xdd 0xee 0x01
      phase := .running
      firstSeenUnix := 1756000000
      updatedUnix := 1756000060
      detail := none
      palletVersion := none
      hardware := none }

/-- A look at a server of that machine, by what it says of its pallet. -/
def look (orders : ReadOrders) (ready : Bool) (detail : String) (sends : Bool) : FeedTurn where
  orders := orders
  first := hosts
  second := hosts
  assets := ⟨ready, detail.toList, none, none, false⟩
  sends := sends

/-- It comes to serve a pallet, and then another one, of which the viewer is not told: the socket is
gone. -/
def turns (orders : ReadOrders) : List FeedTurn :=
  [look orders false "no pallet" true, look orders false "no pallet" true,
    look orders true "stormcos/boot:1" true, look orders true "stormcos/boot:2" false]

/-- The socket is closed in the end. -/
theorem isOpen_turns (orders : ReadOrders) :
    ((turns orders).foldl FeedStream.turn .opened).isOpen = false := by
  have htext {t u : FeedTurn} (h : t.assets.detail ≠ u.assets.detail) :
      (feedJson t.feed).text ≠ (feedJson u.feed).text :=
    fun heq => feed_ne_of_detail h (feedText_injective heq)
  have hfirst : (feedJson (look orders false "no pallet" true).feed).text ≠ [] :=
    List.cons_ne_nil _ _
  have hserving : (feedJson (look orders true "stormcos/boot:1" true).feed).text ≠
      (feedJson (look orders false "no pallet" true).feed).text :=
    htext (show "stormcos/boot:1".toList ≠ "no pallet".toList by decide)
  have hmoved : (feedJson (look orders true "stormcos/boot:2" false).feed).text ≠
      (feedJson (look orders true "stormcos/boot:1" true).feed).text :=
    htext (show "stormcos/boot:2".toList ≠ "stormcos/boot:1".toList by decide)
  have hsends (ready : Bool) (detail : String) (sends : Bool) :
      (look orders ready detail sends).sends = sends := rfl
  simp only [turns, List.foldl_cons, List.foldl_nil, FeedStream.turn, FeedStream.opened, hsends,
    if_true, if_pos hfirst, ne_eq, not_true_eq_false, if_false, if_pos hserving, if_pos hmoved,
    Bool.false_eq_true]

end Rollout

/-- The viewer has every feed but the one that could not be sent. -/
theorem follows_rollout : ∃ orders,
    Follows Json.readMeaning (Rollout.turns orders)
      ((Rollout.turns orders).foldl FeedStream.turn .opened) ∧
    ((Rollout.turns orders).foldl FeedStream.turn .opened).isOpen = false := by
  obtain ⟨counted⟩ : Nonempty (HashMap.Iteration Mac HostState) := inferInstance
  obtain ⟨phases⟩ : Nonempty (HashMap.Iteration Phase ℕ) := inferInstance
  let orders : ReadOrders := ⟨counted, phases, counted⟩
  exact ⟨orders, follows_run Json.reads_readMeaning (Rollout.turns orders),
    Rollout.isOpen_turns orders⟩

end Stormnetboot.Server

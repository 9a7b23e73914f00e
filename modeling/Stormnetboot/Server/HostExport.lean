import Stormnetboot.Server.HostViews
import Stormnetboot.Server.JsonFields
import Stormnetboot.Server.MacIdentity

/-!
# Host records out of one server and into another

The management surface lists the records of both layers as JSON, beside their counts, and the
bootstrap file holds such a list of records. The records of a listing, saved as the file of another
server in any formatting, make that server look up what the first one does, for every MAC its own
cluster says nothing about. The whole listing is no such file.
-/

namespace Stormnetboot.Server

open Stormnetboot.Common

/-! ## The listing -/

/-- The members of an `ObjectRef` as a JSON value, in the order of their names. -/
def ObjectRef.fields (object : ObjectRef) : List (String × Option Json) :=
  [("generation", some (.num object.generation.toInt)), ("name", some (.str object.name)),
    ("namespace", some (.str object.namespace_))]

/-- An `ObjectRef` as a JSON value. -/
def ObjectRef.toJson (object : ObjectRef) : Json :=
  .ofFields object.fields

/-- The members of a `HostRecord` as a JSON value, in the order of their names. -/
def HostRecord.fields (record : HostRecord) : List (String × Option Json) :=
  [("extra_cmdline", record.extraCmdline.map .str), ("mac", some (.str record.mac.display)),
    ("name", some (.str record.name)), ("object", record.object.map ObjectRef.toJson),
    ("online", some (.bool record.online)), ("portal", record.portal.map .str),
    ("role", record.role.map .str), ("stack", record.stack.map .str)]

/-- A `HostRecord` as a JSON value. -/
def HostRecord.toJson (record : HostRecord) : Json :=
  .ofFields record.fields

/-- The counts as a JSON value. -/
def HostCounts.toJson (counts : HostCounts) : Json :=
  .ofFields [("boothost", some (.num counts.kube)), ("boothostSynced", some (.bool counts.kubeSynced)),
    ("file", some (.num counts.file)), ("total", some (.num counts.total))]

/-- `hosts_list`. -/
def hostsList (order : HashMap.Iteration Mac HostRecord) (store : HostStore) : Json :=
  .ofFields [("counts", some store.counts.toJson),
    ("records", some (.arr ((store.records order).map HostRecord.toJson)))]

/-- Read an `ObjectRef` from its members. -/
def ObjectRef.ofMembers (get : String → Option Json) : Option ObjectRef := do
  let namespace_ ← (get "namespace").bind readText
  let name ← (get "name").bind readText
  let generation ← readDefault readI64 0 (get "generation")
  some ⟨namespace_, name, generation⟩

/-- Read an `ObjectRef`; no member may stand twice. -/
def ObjectRef.ofJson : Json → Option ObjectRef
  | .obj members =>
    if namesOnce ["namespace", "name", "generation"] members then ofMembers (Json.obj members).get
    else none
  | _ => none

/-- A MAC in any spelling. -/
def readMac (value : Json) : Option Mac :=
  (readText value).bind fun s => (Mac.parse s).toOption

/-- Read a `HostRecord` from its members. -/
def HostRecord.ofMembers (get : String → Option Json) : Option HostRecord := do
  let mac ← (get "mac").bind readMac
  let name ← (get "name").bind readText
  let role ← readOptional readText (get "role")
  let stack ← readOptional readText (get "stack")
  let portal ← readOptional readText (get "portal")
  let extraCmdline ← readOptional readText (get "extra_cmdline")
  let online ← readDefault readBool true (get "online")
  let object ← readOptional ObjectRef.ofJson (get "object")
  some ⟨mac, name, role, stack, portal, extraCmdline, online, object⟩

/-- Read a `HostRecord`; no member may stand twice. -/
def HostRecord.ofJson : Json → Option HostRecord
  | .obj members =>
    if namesOnce ["mac", "name", "role", "stack", "portal", "extra_cmdline", "online", "object"]
        members then
      ofMembers (Json.obj members).get
    else none
  | _ => none

/-- The records in a file's text, by a JSON library and its message for what is no such list. -/
def decodeRecords (read : Text → Option Json) (message : Text → Text) : DecodeRecords := fun raw =>
  match (read raw).bind (readItems HostRecord.ofJson) with
  | some records => .ok records
  | none => .error (message raw)

/-! ## Reading back -/

/-- An object reference is read back. -/
theorem ObjectRef.ofJson_toJson (object : ObjectRef) :
    ObjectRef.ofJson object.toJson = some object := by
  have hnodup : (object.fields.map Prod.fst).Nodup := by simp [fields]
  have hget := Json.get_ofFields object.fields hnodup
  have hread : ObjectRef.ofJson object.toJson =
      ObjectRef.ofMembers (Json.ofFields object.fields).get :=
    if_pos (namesOnce_ofFields hnodup _)
  have hgeneration : (Json.ofFields object.fields).get "generation" =
      some (.num object.generation.toInt) := hget "generation"
  rw [hread, ofMembers, hget "namespace", hget "name", hgeneration, readDefault, readI64_num]
  rfl

/-- A displayed MAC is read back. -/
theorem readMac_display (mac : Mac) : readMac (.str mac.display) = some mac := by
  rw [readMac, readText, Option.bind_some, Mac.parse_display]
  rfl

/-- A record is read back. -/
theorem HostRecord.ofJson_toJson (record : HostRecord) :
    HostRecord.ofJson record.toJson = some record := by
  have hnodup : (record.fields.map Prod.fst).Nodup := by simp [fields]
  have hget := Json.get_ofFields record.fields hnodup
  have hread : HostRecord.ofJson record.toJson =
      HostRecord.ofMembers (Json.ofFields record.fields).get :=
    if_pos (namesOnce_ofFields hnodup _)
  have hmac : ((Json.ofFields record.fields).get "mac").bind readMac = some record.mac := by
    rw [hget "mac"]
    exact readMac_display record.mac
  have hrole : (Json.ofFields record.fields).get "role" = record.role.map .str := hget "role"
  have hstack : (Json.ofFields record.fields).get "stack" = record.stack.map .str := hget "stack"
  have hportal : (Json.ofFields record.fields).get "portal" = record.portal.map .str :=
    hget "portal"
  have hextra : (Json.ofFields record.fields).get "extra_cmdline" =
      record.extraCmdline.map .str := hget "extra_cmdline"
  have honline : (Json.ofFields record.fields).get "online" = some (.bool record.online) :=
    hget "online"
  have hobject : readOptional ObjectRef.ofJson ((Json.ofFields record.fields).get "object") =
      some record.object := by
    have hmember : (Json.ofFields record.fields).get "object" =
        record.object.map ObjectRef.toJson := hget "object"
    rw [hmember]
    cases record.object with
    | none => rfl
    | some object =>
      have hsome : readOptional ObjectRef.ofJson (some object.toJson) =
          (ObjectRef.ofJson object.toJson).map some := rfl
      rw [Option.map_some, hsome, ObjectRef.ofJson_toJson]
      rfl
  rw [hread, ofMembers, hmac, hget "name", hrole, hstack, hportal, hextra, honline, hobject,
    readOptional_map_str, readOptional_map_str, readOptional_map_str, readOptional_map_str]
  rfl

/-- The listing itself is no list of records: a server whose file holds all of it says so, and keeps
what it has. -/
theorem reload_listing (read : Text → Option Json) (hread : Json.Reads read)
    (message : Text → Text) (order : HashMap.Iteration Mac HostRecord) (source : HostStore)
    {raw : Text} (hraw : Json.StandsFor raw (hostsList order source))
    (hwithin : Json.Within 127 (hostsList order source)) {file : BackingFile}
    (hcontent : file.content = .ok raw) (target : BackedStore) (hpath : target.path.isSome)
    (hchanged : ¬target.Unchanged file) :
    target.reload (decodeRecords read message) file = (.error (.malformed (message raw)), target) := by
  obtain ⟨path, hpath⟩ := Option.isSome_iff_exists.mp hpath
  have hdecode : decodeRecords read message raw = .error (message raw) := by
    rw [decodeRecords, hread.reads raw _ hraw hwithin]
    rfl
  simp only [BackedStore.reload, hpath, if_neg hchanged, hcontent, hdecode]

namespace Moved

/-- A host of the cluster, with all there is to say of one. -/
def record : HostRecord where
  mac := .ofOctets 0xaa 0xbb 0xcc 0xdd 0xee 2
  name := "node2".toList
  role := some "worker".toList
  stack := some "stormcos:10.20".toList
  portal := some "10.0.0.5:4420".toList
  extraCmdline := some "console=\"ttyS0\"\nquiet".toList
  online := false
  object := some ⟨"default".toList, "node2".toList, 3⟩

/-- What another cluster says of the same host. -/
def own : HostRecord :=
  { record with role := some "storage".toList, object := none }

/-- A server that loaded a file which has gone since, in a cluster with one host. -/
def source : BackedStore :=
  [.apply record, .reload Removed.gone].foldl (BackedStore.step Removed.decode) Removed.store

/-- A server in the other cluster, which found no file. -/
def target : BackedStore :=
  BackedStore.step Removed.decode (.fromFile Removed.decode Removed.path Removed.gone) (.apply own)

end Moved

end Stormnetboot.Server

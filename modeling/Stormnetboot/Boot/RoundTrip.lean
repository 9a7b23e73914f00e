import Stormnetboot.Boot.KernelLine

/-!
# The initramfs decodes what the server encodes

Where the values have no whitespace and the extra command lines have none of the parser's keys,
every field of the plan that is put on the command line is read back from it, however the value
looks otherwise.
-/

namespace Stormnetboot.Boot

open Stormnetboot.Common Stormnetboot.Init Stormnetboot.Server

/-- A value that is one word. -/
def Plain (value : Text) : Prop :=
  value ≠ [] ∧ Solid isWhitespace value

/-- Whether a value is plain is decided on it. -/
instance (value : Text) : Decidable (Plain value) :=
  inferInstanceAs (Decidable (value ≠ [] ∧ Solid isWhitespace value))

/-- Every value on the command line is one word, and the extra command lines set nothing. -/
structure PlainFields (cfg : Config) (plan : BootPlan) : Prop where
  portal : ∀ value ∈ plan.portal, Plain value
  nqn : ∀ value ∈ plan.nqn, Plain value
  volume : ∀ value ∈ plan.volume, Plain value
  localDisk : ∀ value ∈ cfg.localDisk, Plain value
  name : ∀ record ∈ plan.record, Plain record.name
  role : ∀ record ∈ plan.record, ∀ value ∈ record.role, Plain value
  extras : FreeExtras cfg plan

/-- The parameters are the plan's: the identity and the flow-over disk in any case, and the
remote root if there is a portal. -/
structure Decodes (cfg : Config) (plan : BootPlan) (p : BootParams) : Prop where
  hostname : p.hostname = plan.record.map HostRecord.name
  role : p.role = plan.record.bind HostRecord.role
  localDisk : p.localDisk = cfg.localDisk
  portal : p.portal = plan.portal
  port : p.port = plan.portal.map fun _ => plan.portalPort.toNat
  nqn : p.nqn = plan.portal.bind fun _ => plan.nqn
  nsid : p.nsid = plan.portal.bind fun _ => plan.nsid.map UInt32.toNat
  volume : p.volume = plan.portal.bind fun _ => plan.volume

/-! ## Values of pieces -/

/-- The pieces hold one-word values only. -/
def PlainPieces (ps : List Piece) : Prop :=
  ∀ name value, .setting name value ∈ ps → Plain value

/-- Plain pieces stay plain when joined. -/
theorem PlainPieces.append {first rest : List Piece} (hfirst : PlainPieces first)
    (hrest : PlainPieces rest) : PlainPieces (first ++ rest) :=
  fun name value h => (List.mem_append.mp h).elim (hfirst name value) (hrest name value)

/-- No pieces are plain. -/
theorem plainPieces_nil : PlainPieces [] :=
  fun _ _ h => nomatch h

/-- A plain setting may stand in front. -/
theorem plainPieces_cons (key : String) {value : Text} {rest : List Piece} (hvalue : Plain value)
    (hrest : PlainPieces rest) : PlainPieces (setting key value :: rest) := by
  intro name value' h
  rcases List.mem_cons.mp h with heq | hmem
  · cases heq
    exact hvalue
  · exact hrest name value' hmem

/-- An optional setting is plain if its value is. -/
theorem plainPieces_optional (key : String) {value : Option Text}
    (hvalue : ∀ v ∈ value, Plain v) : PlainPieces (optional key value) := by
  cases value with
  | none => exact plainPieces_nil
  | some v => exact plainPieces_cons key (hvalue v rfl) plainPieces_nil

/-- A number is plain. -/
theorem plain_natText (n : ℕ) : Plain (natText n) :=
  ⟨natText_ne_nil n, solid_natText n⟩

/-- The root's device is plain. -/
theorem plain_device : Plain "/dev/ublkb0".toList :=
  ⟨by decide, by decide⟩

/-- The optional values are plain. -/
theorem PlainFields.nsid (plan : BootPlan) :
    ∀ v ∈ plan.nsid.map fun nsid => natText nsid.toNat, Plain v := by
  intro v hv
  obtain ⟨nsid, -, rfl⟩ := Option.map_eq_some_iff.mp hv
  exact plain_natText _

/-- The host's name is one word, if there is a host. -/
theorem PlainFields.recordName {cfg : Config} {plan : BootPlan} (h : PlainFields cfg plan) :
    ∀ v ∈ plan.record.map HostRecord.name, Plain v := by
  intro v hv
  obtain ⟨record, hrecord, rfl⟩ := Option.map_eq_some_iff.mp hv
  exact h.name record hrecord

/-- So is its role, if it has one. -/
theorem PlainFields.recordRole {cfg : Config} {plan : BootPlan} (h : PlainFields cfg plan) :
    ∀ v ∈ plan.record.bind HostRecord.role, Plain v := by
  intro v hv
  obtain ⟨record, hrecord, hvalue⟩ := Option.bind_eq_some_iff.mp hv
  exact h.role record hrecord v hvalue

/-- Plain fields make plain pieces. -/
theorem PlainFields.pieces {cfg : Config} {plan : BootPlan} (h : PlainFields cfg plan) :
    PlainPieces (pieces cfg plan) := by
  have hroot : PlainPieces (rootPieces plan) := by
    unfold rootPieces
    cases hportal : plan.portal with
    | none => exact plainPieces_nil
    | some portal =>
      refine .append (.append (.append (plainPieces_cons _ (h.portal portal hportal)
        (plainPieces_cons _ (plain_natText _) plainPieces_nil)) (plainPieces_optional _ h.nqn))
        (plainPieces_optional _ (PlainFields.nsid plan))) ?_
      exact .append (plainPieces_optional _ h.volume)
        (plainPieces_cons _ plain_device plainPieces_nil)
  have hextra : PlainPieces (extraPieces cfg plan) := by
    intro name value hmem
    obtain ⟨_, _, heq⟩ := List.mem_map.mp hmem
    cases heq
  exact .append hroot (.append (.append (plainPieces_optional _ h.localDisk)
    (.append (plainPieces_optional _ h.recordName) (plainPieces_optional _ h.recordRole))) hextra)

/-- What a setting says of a key. -/
theorem lastValue_setting_of_plain (name key : String) {value : Text} (rest : List Piece)
    (hvalue : Plain value) :
    Piece.lastValue (isKey name) (setting key value :: rest) =
      (Piece.lastValue (isKey name) rest).or (if key = name then some value else none) := by
  rw [lastValue_setting, said, if_neg hvalue.1]

/-- A plain optional setting says its value of its own key. -/
theorem lastValue_optional_of_plain (name key : String) {value : Option Text}
    (hvalue : ∀ v ∈ value, Plain v) :
    Piece.lastValue (isKey name) (optional key value) = if key = name then value else none := by
  rw [lastValue_optional]
  cases value with
  | none => rfl
  | some v => rw [Option.bind_some, said, if_neg (hvalue v rfl).1]

/-- What the plan's remote root says of a key. -/
def rootValue (plan : BootPlan) (name : String) : Option Text :=
  plan.portal.bind fun portal =>
    (if "root" = name then some "/dev/ublkb0".toList else none).or <|
    (if "stormblock.volume" = name then plan.volume else none).or <|
    (if "rd.stormblock.nsid" = name then plan.nsid.map fun nsid => natText nsid.toNat else none).or <|
    (if "rd.stormblock.nqn" = name then plan.nqn else none).or <|
    (if "rd.stormblock.port" = name then some (natText plan.portalPort.toNat) else none).or <|
    if "rd.stormblock.portal" = name then some portal else none

/-- What the flow-over disk and the identity say of a key. -/
def laterValue (cfg : Config) (plan : BootPlan) (name : String) : Option Text :=
  (if "storm.role" = name then plan.record.bind HostRecord.role else none).or <|
  (if "storm.hostname" = name then plan.record.map HostRecord.name else none).or <|
  if "rd.stormblock.local-disk" = name then cfg.localDisk else none

/-- The pieces of the root say what the plan has. -/
theorem lastValue_rootPieces {cfg : Config} {plan : BootPlan} (h : PlainFields cfg plan)
    (name : String) :
    Piece.lastValue (isKey name) (rootPieces plan) = rootValue plan name := by
  unfold rootPieces rootValue
  cases hportal : plan.portal with
  | none => rfl
  | some portal =>
    simp only [attachPieces, volumePieces, Piece.lastValue_append,
      lastValue_setting_of_plain _ _ _ plain_device, lastValue_optional_of_plain _ _ h.volume,
      lastValue_optional_of_plain _ _ (PlainFields.nsid plan), lastValue_optional_of_plain _ _ h.nqn,
      lastValue_setting_of_plain _ _ _ (plain_natText _),
      lastValue_setting_of_plain _ _ _ (h.portal portal hportal),
      Piece.lastValue, Option.none_or, Option.bind_some, Option.or_assoc]

/-- The later pieces say what the plan and the configuration have. -/
theorem lastValue_laterPieces {cfg : Config} {plan : BootPlan} (h : PlainFields cfg plan)
    (name : String) :
    Piece.lastValue (isKey name) (laterPieces cfg plan) = laterValue cfg plan name := by
  simp only [laterPieces, laterValue, identityPieces, extraPieces, Piece.lastValue_append,
    Piece.lastValue_free, lastValue_optional_of_plain _ _ h.localDisk, lastValue_optional_of_plain _ _ h.recordName,
    lastValue_optional_of_plain _ _ h.recordRole, Option.none_or, Option.or_assoc]

/-- A key of the parser is given what the plan says of it. -/
theorem lastSetting_cmdline {cfg : Config} {plan : BootPlan} (h : PlainFields cfg plan)
    {name : String} (hname : name ∈ bootKeys) :
    lastSetting (isKey name) (splitWhitespace (plan.cmdline cfg)) =
      (laterValue cfg plan name).or (rootValue plan name) := by
  have hkeys : ∀ key, isKey name key = true → ∃ k ∈ bootKeys, key = k.toList := fun key hkey =>
    ⟨name, hname, of_decide_eq_true hkey⟩
  rw [splitWhitespace_cmdline, Piece.lastSetting_eq_lastValue (by decide)
    (named_of_under (under_pieces cfg plan)) (fun n v hmem => (h.pieces n v hmem).2)
    fun text hmem => h.extras.lastSetting_eq_none hkeys (mem_extraParts_of_free hmem), pieces,
    Piece.lastValue_append, lastValue_laterPieces h, lastValue_rootPieces h]

/-- The initramfs reads back what the server put on the command line. -/
theorem decodes_parse_cmdline (cfg : Config) (plan : BootPlan) (h : PlainFields cfg plan) :
    Decodes cfg plan (BootParams.parse (plan.cmdline cfg)) := by
  have hset := BootParams.setBy_parse (plan.cmdline cfg)
  have hport := parseUnsigned_portalPort plan
  have hnsid := parseUnsigned_nsid plan
  refine ⟨?_, ?_, ?_, ?_, ?_, ?_, ?_, ?_⟩
  · rw [hset.hostname, lastSetting_cmdline h (by decide)]
    simp [laterValue, rootValue]
  · rw [hset.role, lastSetting_cmdline h (by decide)]
    simp [laterValue, rootValue]
  · rw [hset.localDisk, lastSetting_cmdline h (by decide)]
    simp [laterValue, rootValue]
  · rw [hset.portal, lastSetting_cmdline h (by decide)]
    simp [laterValue, rootValue]
  · rw [hset.port, lastSetting_cmdline h (by decide)]
    cases hportal : plan.portal <;> simp [laterValue, rootValue, hportal, hport]
  · rw [hset.nqn, lastSetting_cmdline h (by decide)]
    simp [laterValue, rootValue]
  · rw [hset.nsid, lastSetting_cmdline h (by decide), ← hnsid]
    cases hportal : plan.portal <;> simp [laterValue, rootValue, hportal]
  · rw [hset.volume, lastSetting_cmdline h (by decide)]
    simp [laterValue, rootValue]

/-! ## Values that look like something else -/

namespace Lookalike

/-- A server with a flow-over target and more words on its command line. -/
def cfg : Config :=
  { Config.default with
    localDisk := some "/dev/sda".toList
    extraCmdline := "console=ttyS0 quiet".toList }

/-- A host whose name and role look like settings. -/
def record : HostRecord where
  mac := ⟨Vector.replicate 6 0⟩
  name := "storm.role=evil".toList
  role := some "worker=2".toList
  stack := none
  portal := none
  extraCmdline := some "debug".toList
  online := true
  object := none

/-- A plan with every optional part, and values with equals signs in them. -/
def plan : BootPlan where
  mac := none
  record := some record
  portal := some "10.0.0.5".toList
  portalPort := 4431
  nqn := some "nqn.x:vol=7".toList
  nsid := some 2
  volume := some "rd.stormblock.port=1".toList

end Lookalike

/-- Values that hold an equals sign or another key are read back as they are. -/
theorem decodes_lookalike : Decodes Lookalike.cfg Lookalike.plan
    (BootParams.parse (Lookalike.plan.cmdline Lookalike.cfg)) :=
  decodes_parse_cmdline Lookalike.cfg Lookalike.plan
    ⟨by decide, by decide, by decide, by decide,
      by decide, by decide, by decide, by decide⟩

end Stormnetboot.Boot

import Stormnetboot.Common.Words
import Stormnetboot.Init.Cmdline

/-!
# What the words of a command line set

The parser goes through the words once, and a later word replaces what an earlier one set. A
field is therefore what the last word with its key gives it, read as the field is read; this is
stated for one field at a time, with the other fields out of sight.
-/

namespace Stormnetboot.Init

open Stormnetboot.Common

/-- The keys the parser matches. -/
def bootKeys : List String :=
  ["rd.stormblock.portal", "rd.stormblock.port", "rd.stormblock.nqn", "rd.stormblock.nsid",
    "stormblock.volume", "rd.stormblock.local-disk", "rd.stormblock.slab",
    "rd.stormblock.data-slab", "rd.stormblock.boothost", "rd.stormblock.tag",
    "rd.stormblock.namespace", "rd.stormblock.hostnqn", "rd.stormblock.meta",
    "rd.stormblock.image-store", "rd.stormblock.overlay", "rd.stormblock.writable",
    "rd.stormblock.mount", "rd.stormnetboot.media", "storm.hostname", "storm.role",
    "storm.report", "storm.mac", "BOOTIF"]

/-- No word of the line has a key that the parser matches. -/
def FreeOfBootKeys (line : Text) : Prop :=
  ∀ word ∈ splitWhitespace line, ∀ pair ∈ splitOnce '=' word, ∀ name ∈ bootKeys,
    pair.1 ≠ name.toList

/-- Whether a line sets none of the keys is decided on its words. -/
instance (line : Text) : Decidable (FreeOfBootKeys line) :=
  inferInstanceAs (Decidable (∀ word ∈ splitWhitespace line, ∀ pair ∈ splitOnce '=' word,
    ∀ name ∈ bootKeys, pair.1 ≠ name.toList))

/-- One key. -/
def isKey (name : String) (key : Text) : Bool :=
  key = name.toList

/-- The two keys of the MAC. -/
def isMacKey (key : Text) : Bool :=
  key = "storm.mac".toList || key = "BOOTIF".toList

namespace BootParams

/-! ## One word -/

section Skip

variable {α : Type} {key : Text}

/-- A key that is another one is not this one. -/
theorem skip_key {k k' : String} (h : k ≠ k') (x y : α) :
    (if key = k.toList then x else if key = k'.toList then y else x) =
      if key = k'.toList then y else x := by
  split_ifs with hk hk'
  · exact absurd (String.toList_inj.mp (hk.symm.trans hk')) h
  all_goals rfl

/-- A key that is neither of two is not one of them. -/
theorem skip_keys {k k' k'' : String} (h : k ≠ k') (h' : k ≠ k'') (x y : α) :
    (if key = k.toList then x else if (key = k'.toList || key = k''.toList) = true then y else x) =
      if (key = k'.toList || key = k''.toList) = true then y else x := by
  split_ifs with hk hk'
  · simp only [Bool.or_eq_true, decide_eq_true_eq] at hk'
    rcases hk' with hk' | hk'
    · exact absurd (String.toList_inj.mp (hk.symm.trans hk')) h
    · exact absurd (String.toList_inj.mp (hk.symm.trans hk')) h'
  all_goals rfl

end Skip

variable (p : BootParams) (key value : Text)

/-- The portal has one key. -/
theorem assign_portal : (p.assign key value).portal =
    if key = "rd.stormblock.portal".toList then some value else p.portal := by
  simp only [assign, apply_ite BootParams.portal, ite_self]

/-- The port has one, and its value is a number of 16 bits. -/
theorem assign_port : (p.assign key value).port =
    if key = "rd.stormblock.port".toList then parseUnsigned 16 value else p.port := by
  simp only [assign, apply_ite BootParams.port, ite_self]
  simp (disch := decide) only [skip_key]

/-- The NQN has one. -/
theorem assign_nqn : (p.assign key value).nqn =
    if key = "rd.stormblock.nqn".toList then some value else p.nqn := by
  simp only [assign, apply_ite BootParams.nqn, ite_self]
  simp (disch := decide) only [skip_key]

/-- The namespace has one, and its value is a number of 32 bits. -/
theorem assign_nsid : (p.assign key value).nsid =
    if key = "rd.stormblock.nsid".toList then parseUnsigned 32 value else p.nsid := by
  simp only [assign, apply_ite BootParams.nsid, ite_self]
  simp (disch := decide) only [skip_key]

/-- The volume has one. -/
theorem assign_volume : (p.assign key value).volume =
    if key = "stormblock.volume".toList then some value else p.volume := by
  simp only [assign, apply_ite BootParams.volume, ite_self]
  simp (disch := decide) only [skip_key]

/-- The flow-over target has one. -/
theorem assign_localDisk : (p.assign key value).localDisk =
    if key = "rd.stormblock.local-disk".toList then some value else p.localDisk := by
  simp only [assign, apply_ite BootParams.localDisk, ite_self]
  simp (disch := decide) only [skip_key]

/-- The data slab has one. -/
theorem assign_dataSlab : (p.assign key value).dataSlab =
    if key = "rd.stormblock.data-slab".toList then some value else p.dataSlab := by
  simp only [assign, apply_ite BootParams.dataSlab, ite_self]
  simp (disch := decide) only [skip_key]

/-- The slabs have one, and every word with it adds to them. -/
theorem assign_slabs : (p.assign key value).slabs =
    if key = "rd.stormblock.slab".toList then p.slabs ++ (value.splitOn ',').filter (!·.isEmpty)
    else p.slabs := by
  simp only [assign, apply_ite BootParams.slabs, ite_self]
  simp (disch := decide) only [skip_key]

/-- The hostname has one. -/
theorem assign_hostname : (p.assign key value).hostname =
    if key = "storm.hostname".toList then some value else p.hostname := by
  simp only [assign, apply_ite BootParams.hostname, ite_self]
  simp (disch := decide) only [skip_key]

/-- The role has one. -/
theorem assign_role : (p.assign key value).role =
    if key = "storm.role".toList then some value else p.role := by
  simp only [assign, apply_ite BootParams.role, ite_self]
  simp (disch := decide) only [skip_key]

/-- The report URL has one. -/
theorem assign_reportUrl : (p.assign key value).reportUrl =
    if key = "storm.report".toList then some value else p.reportUrl := by
  simp only [assign, apply_ite BootParams.reportUrl, ite_self]
  simp (disch := decide) only [skip_key]

/-- The writables have one, and its value is a list. -/
theorem assign_writable : (p.assign key value).writable =
    if key = "rd.stormblock.writable".toList then parseNamedMounts value else p.writable := by
  simp only [assign, apply_ite BootParams.writable, ite_self]
  simp (disch := decide) only [skip_key]

/-- So do the mounts, which keep only the entries with a mount point. -/
theorem assign_mounts : (p.assign key value).mounts =
    if key = "rd.stormblock.mount".toList then
      (parseNamedMounts value).filterMap fun (n, m) => m.map fun m => (n, m)
    else p.mounts := by
  simp only [assign, apply_ite BootParams.mounts, ite_self]
  simp (disch := decide) only [skip_key]

/-- The MAC has two keys, and is normalised. -/
theorem assign_mac : (p.assign key value).mac =
    if isMacKey key then some (normaliseBootif value) else p.mac := by
  simp only [assign, apply_ite BootParams.mac, isMacKey]
  simp (disch := decide) only [skip_keys]
  rfl

/-! ## All the words -/

/-- A field that one kind of key sets is what the last word with such a key gives. -/
theorem foldl_parseToken {α : Type} (field : BootParams → α) (isKey : Text → Bool)
    (read : Text → α)
    (hassign : ∀ p key value,
      field (assign p key value) = if isKey key then read value else field p)
    (words : List Text) (p : BootParams) :
    field (words.foldl parseToken p) =
      ((lastSetting isKey words).map read).getD (field p) := by
  induction words generalizing p with
  | nil => rfl
  | cons word rest ih =>
    have hword : field (parseToken p word) = ((settingOf isKey word).map read).getD (field p) := by
      unfold parseToken settingOf
      cases splitOnce '=' word with
      | none => rfl
      | some pair =>
        obtain ⟨key, value⟩ := pair
        cases hempty : value.isEmpty with
        | true => simp [hempty]
        | false =>
          simp only [hempty, Bool.false_eq_true, if_false, hassign, Bool.not_false, Bool.and_true]
          split_ifs <;> rfl
    rw [List.foldl_cons, ih, hword, lastSetting]
    cases lastSetting isKey rest <;> rfl

/-- A field that takes a text over is what the last word with its key gives. -/
theorem text_parse (field : BootParams → Option Text) (name : String) (hstart : field {} = none)
    (hassign : ∀ p key value, field (assign p key value) =
      if key = name.toList then some value else field p) (cmdline : Text) :
    field (parse cmdline) = lastSetting (isKey name) (splitWhitespace cmdline) := by
  rw [parse, foldl_parseToken field (isKey name) some (fun p key value => by
    rw [hassign p key value]; simp only [isKey, decide_eq_true_eq]), hstart]
  cases lastSetting (isKey name) (splitWhitespace cmdline) <;> rfl

/-- The data slab is what the last word with its key says. -/
theorem dataSlab_parse (cmdline : Text) : (parse cmdline).dataSlab =
    lastSetting (isKey "rd.stormblock.data-slab") (splitWhitespace cmdline) :=
  text_parse _ _ rfl assign_dataSlab cmdline

/-- The slabs that one word names. -/
def slabNames (value : Text) : List Text :=
  (value.splitOn ',').filter (!·.isEmpty)

/-- Every word with the key adds its slabs. -/
theorem slabs_foldl (words : List Text) (p : BootParams) :
    (words.foldl parseToken p).slabs = p.slabs ++
      words.flatMap fun word =>
        (settingOf (isKey "rd.stormblock.slab") word).toList.flatMap slabNames := by
  induction words generalizing p with
  | nil => exact (List.append_nil _).symm
  | cons word rest ih =>
    have hword : (parseToken p word).slabs = p.slabs ++
        (settingOf (isKey "rd.stormblock.slab") word).toList.flatMap slabNames := by
      unfold parseToken settingOf
      cases splitOnce '=' word with
      | none => exact (List.append_nil _).symm
      | some pair =>
        obtain ⟨key, value⟩ := pair
        cases hempty : value.isEmpty with
        | true => simp [hempty]
        | false =>
          simp only [hempty, Bool.false_eq_true, if_false, assign_slabs, Bool.not_false,
            Bool.and_true, isKey, decide_eq_true_eq]
          split_ifs with hkey
          · simp [slabNames]
          · simp
    rw [List.foldl_cons, ih, hword, List.append_assoc, List.flatMap_cons]

/-- No slab is named exactly when no word names one. -/
theorem slabs_parse_eq_nil_iff (cmdline : Text) : (parse cmdline).slabs = [] ↔
    ∀ word ∈ splitWhitespace cmdline, ∀ value ∈ settingOf (isKey "rd.stormblock.slab") word,
      slabNames value = [] := by
  rw [parse, slabs_foldl, List.append_eq_nil_iff, List.flatMap_eq_nil_iff]
  simp only [List.flatMap_eq_nil_iff, Option.mem_toList, Option.mem_def, true_and]

/-- The fields a boot script can set, as the words of a command line set them. -/
structure SetBy (p : BootParams) (words : List Text) : Prop where
  portal : p.portal = lastSetting (isKey "rd.stormblock.portal") words
  port : p.port = (lastSetting (isKey "rd.stormblock.port") words).bind (parseUnsigned 16)
  nqn : p.nqn = lastSetting (isKey "rd.stormblock.nqn") words
  nsid : p.nsid = (lastSetting (isKey "rd.stormblock.nsid") words).bind (parseUnsigned 32)
  volume : p.volume = lastSetting (isKey "stormblock.volume") words
  localDisk : p.localDisk = lastSetting (isKey "rd.stormblock.local-disk") words
  hostname : p.hostname = lastSetting (isKey "storm.hostname") words
  role : p.role = lastSetting (isKey "storm.role") words
  reportUrl : p.reportUrl = lastSetting (isKey "storm.report") words
  mac : p.mac = (lastSetting isMacKey words).map normaliseBootif

/-- The parser reads them off the words. -/
theorem setBy_parse (cmdline : Text) : SetBy (parse cmdline) (splitWhitespace cmdline) := by
  have htext := fun field name hstart hassign => text_parse field name hstart hassign cmdline
  have hnumber : ∀ (field : BootParams → Option ℕ) (name : String) (width : ℕ), field {} = none →
      (∀ p key value, field (assign p key value) =
        if key = name.toList then parseUnsigned width value else field p) →
      field (parse cmdline) =
        (lastSetting (isKey name) (splitWhitespace cmdline)).bind (parseUnsigned width) := by
    intro field name width hstart hassign
    rw [parse, foldl_parseToken field (isKey name) (parseUnsigned width) (fun p key value => by
      rw [hassign p key value]; simp only [isKey, decide_eq_true_eq]), hstart]
    cases lastSetting (isKey name) (splitWhitespace cmdline) <;> rfl
  refine ⟨htext _ _ rfl assign_portal, hnumber _ _ _ rfl assign_port, htext _ _ rfl assign_nqn,
    hnumber _ _ _ rfl assign_nsid, htext _ _ rfl assign_volume, htext _ _ rfl assign_localDisk,
    htext _ _ rfl assign_hostname, htext _ _ rfl assign_role, htext _ _ rfl assign_reportUrl, ?_⟩
  rw [parse, foldl_parseToken BootParams.mac isMacKey (fun value => some (normaliseBootif value))
    assign_mac]
  cases lastSetting isMacKey (splitWhitespace cmdline) <;> rfl

end BootParams

/-! ## The volume lists -/

/-- The entries of the last list that a command line has under a key. -/
def listEntries (key : String) (cmdline : Text) : List Text :=
  ((lastSetting (isKey key) (splitWhitespace cmdline)).map (List.splitOn ',')).getD []

/-- The entries of the list of writables that counts. -/
def writableEntries (cmdline : Text) : List Text :=
  listEntries "rd.stormblock.writable" cmdline

/-- The writables are the entries of the last list of them that are not empty. -/
theorem parse_writable (cmdline : Text) : (BootParams.parse cmdline).writable =
    ((writableEntries cmdline).filter (!·.isEmpty)).map parseNamedMount := by
  rw [BootParams.parse, BootParams.foldl_parseToken BootParams.writable
    (isKey "rd.stormblock.writable") parseNamedMounts fun p key value => by
      rw [BootParams.assign_writable]; simp only [isKey, decide_eq_true_eq]]
  unfold writableEntries listEntries
  cases lastSetting (isKey "rd.stormblock.writable") (splitWhitespace cmdline) <;> rfl

/-- The mounts are those of its list that have a mount point. -/
theorem parse_mounts (cmdline : Text) : (BootParams.parse cmdline).mounts =
    (((listEntries "rd.stormblock.mount" cmdline).filter (!·.isEmpty)).map
      parseNamedMount).filterMap fun (n, m) => m.map fun m => (n, m) := by
  rw [BootParams.parse, BootParams.foldl_parseToken BootParams.mounts
    (isKey "rd.stormblock.mount")
    (fun value => (parseNamedMounts value).filterMap fun (n, m) => m.map fun m => (n, m))
    fun p key value => by
      rw [BootParams.assign_mounts]; simp only [isKey, decide_eq_true_eq]]
  unfold listEntries
  cases lastSetting (isKey "rd.stormblock.mount") (splitWhitespace cmdline) <;> rfl

/-- A list has no more entries than its line has characters, and one. -/
theorem length_listEntries_le (key : String) (cmdline : Text) :
    (listEntries key cmdline).length ≤ cmdline.length + 1 := by
  unfold listEntries
  cases hvalue : lastSetting (isKey key) (splitWhitespace cmdline) with
  | none => exact Nat.zero_le _
  | some value =>
    obtain ⟨word, hword, hsuffix⟩ := suffix_of_lastSetting hvalue
    have hpart : word.length ≤ cmdline.length :=
      length_le_of_mem_splitOnP (List.mem_of_mem_filter hword)
    exact (length_splitOnP_le value).trans (Nat.succ_le_succ (hsuffix.length_le.trans hpart))

/-- A line without the parser's keys gives nothing to any of them. -/
theorem lastSetting_of_free {line : Text} (h : FreeOfBootKeys line) {isKey : Text → Bool}
    (hkeys : ∀ key, isKey key = true → ∃ name ∈ bootKeys, key = name.toList) :
    lastSetting isKey (splitWhitespace line) = none := by
  refine lastSetting_eq_none_iff.mpr fun word hword => ?_
  unfold settingOf
  cases hsplit : splitOnce '=' word with
  | none => rfl
  | some pair =>
    obtain ⟨key, value⟩ := pair
    have hother : isKey key = false := by
      rw [← Bool.not_eq_true]
      intro hkey
      obtain ⟨name, hmem, hname⟩ := hkeys key hkey
      exact h word hword (key, value) hsplit name hmem hname
    simp only [hother, Bool.false_and, Bool.false_eq_true, if_false]

end Stormnetboot.Init

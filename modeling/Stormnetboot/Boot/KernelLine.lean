import Stormnetboot.Init.Settings
import Stormnetboot.Server.Ipxe

/-!
# The kernel line of a boot script

The server joins the pieces of a command line into the kernel line of its script, where a
newline ends it early, and the initramfs reads the words of that line. Each piece gives one
word of the server's own, and whatever stands behind whitespace in its value besides.
-/

namespace Stormnetboot.Boot

open Stormnetboot.Common Stormnetboot.Init Stormnetboot.Server

/-! ## The pieces -/

/-- A setting under one of the server's keys. -/
def setting (key : String) (value : Text) : Piece :=
  .setting key.toList value

/-- A setting that may be absent. -/
def optional (key : String) (value : Option Text) : List Piece :=
  (value.map (setting key)).toList

/-- Where to attach root from, behind a portal. -/
def attachPieces (portal : Text) (plan : BootPlan) : List Piece :=
  [setting "rd.stormblock.portal" portal,
    setting "rd.stormblock.port" (natText plan.portalPort.toNat)] ++
  optional "rd.stormblock.nqn" plan.nqn ++
  optional "rd.stormblock.nsid" (plan.nsid.map fun nsid => natText nsid.toNat)

/-- The volume within it, and its device. -/
def volumePieces (plan : BootPlan) : List Piece :=
  optional "stormblock.volume" plan.volume ++ [setting "root" "/dev/ublkb0".toList]

/-- What the root is attached by, if there is a portal. -/
def rootPieces (plan : BootPlan) : List Piece :=
  match plan.portal with
  | none => []
  | some portal => attachPieces portal plan ++ volumePieces plan

/-- Who the machine is. -/
def identityPieces (record : Option HostRecord) : List Piece :=
  optional "storm.hostname" (record.map HostRecord.name) ++
    optional "storm.role" (record.bind HostRecord.role)

/-- The extra command lines. -/
def extraPieces (cfg : Config) (plan : BootPlan) : List Piece :=
  (BootPlan.extraParts cfg plan).map .free

/-- What stands behind the root, whether or not there is one. -/
def laterPieces (cfg : Config) (plan : BootPlan) : List Piece :=
  optional "rd.stormblock.local-disk" cfg.localDisk ++ identityPieces plan.record ++
    extraPieces cfg plan

/-- The pieces of the command line. -/
def pieces (cfg : Config) (plan : BootPlan) : List Piece :=
  rootPieces plan ++ laterPieces cfg plan

/-- A setting is its key with an equals sign, and its value. -/
theorem text_setting (key full : String) (value : Text) (h : full = key ++ "=") :
    (setting key value).text = full.toList ++ value := by
  rw [h, String.toList_append, List.append_assoc]
  rfl

/-- The texts of an optional setting: one, if it has a value. -/
theorem text_optional (key full : String) (value : Option Text) (h : full = key ++ "=") :
    (optional key value).map Piece.text = (value.map (full.toList ++ ·)).toList := by
  cases value with
  | none => rfl
  | some v => exact congrArg (fun t => [t]) (text_setting key full v h)

/-- The pieces are the parts the server joins. -/
theorem parts_eq (cfg : Config) (plan : BootPlan) :
    plan.parts cfg = (pieces cfg plan).map Piece.text := by
  have hroot : plan.rootParts = (rootPieces plan).map Piece.text := by
    unfold BootPlan.rootParts rootPieces
    cases plan.portal with
    | none => rfl
    | some portal =>
      simp only [attachPieces, volumePieces, List.map_append, List.map_cons, List.map_nil]
      rw [text_optional _ "rd.stormblock.nqn=" _ rfl, text_optional _ "rd.stormblock.nsid=" _ rfl,
        text_optional _ "stormblock.volume=" _ rfl, text_setting _ "rd.stormblock.portal=" _ rfl,
        text_setting _ "rd.stormblock.port=" _ rfl, text_setting _ "root=" _ rfl, Option.map_map,
        ← List.append_assoc, ← String.toList_append]
      rfl
  have hidentity : plan.identityParts = (identityPieces plan.record).map Piece.text := by
    unfold BootPlan.identityParts identityPieces
    rw [List.map_append, text_optional _ "storm.hostname=" _ rfl,
      text_optional _ "storm.role=" _ rfl]
    cases plan.record <;> rfl
  have hextra : BootPlan.extraParts cfg plan = (extraPieces cfg plan).map Piece.text := by
    rw [extraPieces, List.map_map]
    exact (List.map_id _).symm
  rw [BootPlan.parts, pieces, laterPieces, List.map_append, List.map_append, List.map_append, hroot,
    hidentity, hextra, text_optional _ "rd.stormblock.local-disk=" _ rfl]
  simp only [List.append_assoc]

/-! ## Keys -/

/-- The settings among the pieces are under these keys. -/
def Under (keys : List String) (pieces : List Piece) : Prop :=
  ∀ name value, .setting name value ∈ pieces → ∃ key ∈ keys, name = key.toList

section Under

variable {keys : List String} {first rest : List Piece}

/-- Pieces under some keys stay under them when joined. -/
theorem Under.append (hfirst : Under keys first) (hrest : Under keys rest) :
    Under keys (first ++ rest) :=
  fun name value h => (List.mem_append.mp h).elim (hfirst name value) (hrest name value)

/-- A setting under one of the keys may stand in front. -/
theorem under_cons {key : String} (hkey : key ∈ keys) (value : Text) (hrest : Under keys rest) :
    Under keys (setting key value :: rest) := by
  intro name value' h
  rcases List.mem_cons.mp h with heq | hmem
  · cases heq
    exact ⟨key, hkey, rfl⟩
  · exact hrest name value' hmem

/-- Pieces under some keys are under more keys. -/
theorem Under.mono {keys' : List String} (h : Under keys first) (hsub : keys ⊆ keys') :
    Under keys' first := by
  intro name value hmem
  obtain ⟨key, hkey, hname⟩ := h name value hmem
  exact ⟨key, hsub hkey, hname⟩

/-- No pieces are under any keys. -/
theorem under_nil : Under keys [] :=
  fun _ _ h => nomatch h

/-- An optional setting is under its key. -/
theorem under_optional {key : String} (hkey : key ∈ keys) (value : Option Text) :
    Under keys (optional key value) := by
  cases value with
  | none => exact under_nil
  | some v => exact under_cons hkey v under_nil

/-- Free words are under no key. -/
theorem under_free (texts : List Text) : Under keys (texts.map .free) := by
  intro name value h
  obtain ⟨_, _, heq⟩ := List.mem_map.mp h
  cases heq

/-- Cutting a line off changes no key. -/
theorem under_firstLine (h : Under keys first) : Under keys (firstLine first) := by
  intro name value hmem
  obtain ⟨whole, hwhole, rfl | hcut⟩ := exists_of_mem_firstLine hmem
  · exact h name value hwhole
  · cases whole with
    | free text => cases hcut
    | setting name' value' =>
      cases hcut
      exact h name value' hwhole

end Under

/-- The keys of the remote root. -/
def attachKeys : List String :=
  ["rd.stormblock.portal", "rd.stormblock.port", "rd.stormblock.nqn", "rd.stormblock.nsid"]

/-- The other keys of the server. -/
def otherKeys : List String :=
  ["stormblock.volume", "root", "rd.stormblock.local-disk", "storm.hostname", "storm.role"]

/-- The attachment's settings are under its keys. -/
theorem under_attach (portal : Text) (plan : BootPlan) :
    Under attachKeys (attachPieces portal plan) := by
  refine .append (.append (under_cons ?_ _ (under_cons ?_ _ under_nil)) (under_optional ?_ _))
    (under_optional ?_ _)
  all_goals decide

/-- The volume's settings are under the other keys. -/
theorem under_volume (plan : BootPlan) : Under otherKeys (volumePieces plan) := by
  refine .append (under_optional ?_ _) (under_cons ?_ _ under_nil)
  all_goals decide

/-- So are the settings behind the root's. -/
theorem under_later (cfg : Config) (plan : BootPlan) : Under otherKeys (laterPieces cfg plan) := by
  refine .append (.append (under_optional ?_ _) (.append (under_optional ?_ _) (under_optional ?_ _)))
    (under_free _)
  all_goals decide

/-- And those of the whole line are under one of the two. -/
theorem under_pieces (cfg : Config) (plan : BootPlan) :
    Under (attachKeys ++ otherKeys) (pieces cfg plan) := by
  have hother := List.subset_append_right attachKeys otherKeys
  refine .append ?_ ((under_later cfg plan).mono hother)
  unfold rootPieces
  cases plan.portal with
  | none => exact under_nil
  | some portal =>
    exact .append ((under_attach portal plan).mono (List.subset_append_left _ _))
      ((under_volume plan).mono hother)

/-- Only the extra command lines are other text. -/
theorem mem_extraParts_of_free {cfg : Config} {plan : BootPlan} {text : Text}
    (h : .free text ∈ pieces cfg plan) : text ∈ BootPlan.extraParts cfg plan := by
  have hoptional : ∀ key value, .free text ∉ optional key value := by
    intro key value hmem
    cases value with
    | none => cases hmem
    | some v => cases List.mem_singleton.mp hmem
  have hroot : .free text ∉ rootPieces plan := by
    unfold rootPieces
    cases plan.portal with
    | none => exact List.not_mem_nil
    | some portal => simp [hoptional, attachPieces, volumePieces, setting]
  simpa [pieces, laterPieces, identityPieces, extraPieces, hoptional, hroot] using h

/-- The server's keys are words without an equals sign. -/
theorem named_of_under {ps : List Piece} (h : Under (attachKeys ++ otherKeys) ps) :
    ∀ piece ∈ ps, piece.Named isWhitespace := by
  have hkeys : ∀ key ∈ attachKeys ++ otherKeys,
      Solid isWhitespace key.toList ∧ '=' ∉ key.toList := by decide
  intro piece hpiece
  cases piece with
  | free text => exact trivial
  | setting name value =>
    obtain ⟨key, hkey, rfl⟩ := h name value hpiece
    exact hkeys key hkey

/-- What a value says of its key; an empty one says nothing. -/
def said (value : Text) : Option Text :=
  if value = [] then none else some value

/-- A key is its own name and no other. -/
theorem isKey_toList (name key : String) : isKey name key.toList = decide (key = name) := by
  unfold isKey
  exact decide_eq_decide.mpr String.toList_inj

/-- What a setting says of a key. -/
theorem lastValue_setting (name key : String) (value : Text) (rest : List Piece) :
    Piece.lastValue (isKey name) (setting key value :: rest) =
      (Piece.lastValue (isKey name) rest).or (if key = name then said value else none) := by
  rw [setting, Piece.lastValue, isKey_toList, said]
  cases value with
  | nil => simp
  | cons c cs => simp

/-- An optional setting says its value of its own key and nothing of another. -/
theorem lastValue_optional (name key : String) (value : Option Text) :
    Piece.lastValue (isKey name) (optional key value) =
      if key = name then value.bind said else none := by
  cases value with
  | none => exact (ite_self none).symm
  | some v => exact lastValue_setting name key v []

/-- A number is never empty, so it says itself. -/
theorem said_natText (n : ℕ) : said (natText n) = some (natText n) :=
  if_neg (natText_ne_nil n)

/-- No word of the extra command lines has a key of the parser. -/
structure FreeExtras (cfg : Config) (plan : BootPlan) : Prop where
  server : FreeOfBootKeys cfg.extraCmdline
  host : ∀ record ∈ plan.record, ∀ extra ∈ record.extraCmdline, FreeOfBootKeys extra

/-- The extra command lines give nothing to the parser's keys. -/
theorem FreeExtras.lastSetting_eq_none {cfg : Config} {plan : BootPlan} (h : FreeExtras cfg plan)
    {isKey : Text → Bool} (hkeys : ∀ key, isKey key = true → ∃ name ∈ bootKeys, key = name.toList)
    {extra : Text} (hmem : extra ∈ BootPlan.extraParts cfg plan) :
    lastSetting isKey (wordsBy isWhitespace extra) = none := by
  rw [← splitWhitespace_eq]
  refine lastSetting_of_free ?_ hkeys
  rcases List.mem_append.mp hmem with hserver | hhost
  · split_ifs at hserver with hempty
    · cases hserver
    · rw [List.mem_singleton.mp hserver]
      exact h.server
  · obtain ⟨record, hrecord, hextra⟩ := Option.bind_eq_some_iff.mp (Option.mem_toList.mp hhost)
    exact h.host record hrecord extra hextra

/-- The words of the command line are those of its pieces. -/
theorem splitWhitespace_cmdline (cfg : Config) (plan : BootPlan) :
    splitWhitespace (plan.cmdline cfg) =
      (pieces cfg plan).flatMap fun piece => wordsBy isWhitespace piece.text := by
  rw [BootPlan.cmdline, parts_eq, splitWhitespace_eq, wordsBy_joinWith (by decide),
    List.flatMap_map]

/-! ## The line -/

/-- The arguments on the kernel line of the script. -/
def kernelArgs (cfg : Config) (plan : BootPlan) : Text :=
  ("initrd=initramfs.img ".toList ++ plan.cmdline cfg).takeWhile (· ≠ '\n')

/-- The pieces that stand on the kernel line. -/
def linePieces (cfg : Config) (plan : BootPlan) : List Piece :=
  firstLine (pieces cfg plan)

/-- The words on the kernel line that are not the server's own: those of the extra command
lines, and those behind the first in a value. -/
def strays (cfg : Config) (plan : BootPlan) : List Text :=
  (linePieces cfg plan).flatMap (Piece.strays isWhitespace)

/-- They are the rest of a line of the script. -/
theorem kernelArgs_mem_lines (cfg : Config) (plan : BootPlan) :
    "kernel $\x7bbase\x7d/boot/vmlinuz ".toList ++ kernelArgs cfg plan ∈
      (render cfg plan).splitOn '\n' := by
  have hsplit : "kernel $\x7bbase\x7d/boot/vmlinuz initrd=initramfs.img ".toList =
      "kernel $\x7bbase\x7d/boot/vmlinuz ".toList ++ "initrd=initramfs.img ".toList := by
    rw [← String.toList_append]
    rfl
  have hnewline : "\n".toList = ['\n'] := rfl
  have hclean : '\n' ∉ "kernel $\x7bbase\x7d/boot/vmlinuz ".toList := by decide
  have hshape : ∀ head kernel initrd args next last : Text,
      head ++ ['\n'] ++ (kernel ++ initrd) ++ args ++ ['\n'] ++ next ++ last =
        head ++ '\n' :: (kernel ++ ((initrd ++ args) ++ '\n' :: (next ++ last))) := by
    intro head kernel initrd args next last
    simp
  unfold render
  rw [hsplit, hnewline, hshape]
  exact mem_splitOn_newline _ _ _ _ hclean

/-- The pieces of the line are under the keys the server writes. -/
theorem under_linePieces (cfg : Config) (plan : BootPlan) :
    Under (attachKeys ++ otherKeys) (linePieces cfg plan) :=
  under_firstLine (under_pieces cfg plan)

/-- The words of the kernel line. -/
theorem splitWhitespace_kernelArgs (cfg : Config) (plan : BootPlan) :
    splitWhitespace (kernelArgs cfg plan) = "initrd=initramfs.img".toList ::
      (linePieces cfg plan).flatMap fun piece => wordsBy isWhitespace piece.text := by
  have hnames : ∀ name value, .setting name value ∈ pieces cfg plan → '\n' ∉ name := by
    intro name value h hnewline
    obtain ⟨hsolid, -⟩ := named_of_under (under_pieces cfg plan) _ h
    exact absurd (hsolid '\n' hnewline) (by decide)
  have hinitrd : "initrd=initramfs.img ".toList = "initrd=initramfs.img".toList ++ [' '] := by
    have hspace : [' '] = " ".toList := rfl
    rw [hspace, ← String.toList_append]
    rfl
  have hpos : ∀ c ∈ "initrd=initramfs.img ".toList, decide (c ≠ '\n') = true := by decide
  have hword : wordsBy isWhitespace "initrd=initramfs.img".toList =
      ["initrd=initramfs.img".toList] :=
    wordsBy_of_solid (by decide) (by decide)
  rw [kernelArgs, List.takeWhile_append_of_pos hpos, BootPlan.cmdline, parts_eq,
    takeWhile_joinWith _ hnames, splitWhitespace_eq, hinitrd, List.append_assoc,
    List.cons_append, List.nil_append, wordsBy_append_cons _ _ (by decide), hword,
    wordsBy_joinWith (by decide), List.flatMap_map]
  rfl

/-- Apart from the initramfs, the line is its pieces. -/
theorem lastSetting_linePieces {isKey : Text → Bool} (cfg : Config) (plan : BootPlan)
    (hinitrd : isKey "initrd".toList = false) :
    lastSetting isKey (splitWhitespace (kernelArgs cfg plan)) =
      lastSetting isKey ((linePieces cfg plan).flatMap fun piece =>
        wordsBy isWhitespace piece.text) := by
  have hsplit : "initrd=initramfs.img".toList =
      "initrd".toList ++ '=' :: "initramfs.img".toList := by
    have happend : '=' :: "initramfs.img".toList = ("=" ++ "initramfs.img").toList := rfl
    rw [happend, ← String.toList_append]
    rfl
  have hfirst : settingOf isKey "initrd=initramfs.img".toList = none := by
    rw [hsplit, settingOf_append _ _ _ (by decide), hinitrd, Bool.false_and,
      if_neg Bool.false_ne_true]
  rw [splitWhitespace_kernelArgs, lastSetting, hfirst, Option.or_none]

/-- Where none of the settings has a key of the kind, only the stray words count. -/
theorem lastSetting_strays {isKey : Text → Bool} {keys : List String} {ps : List Piece}
    (hunder : Under keys ps) (hsub : keys ⊆ attachKeys ++ otherKeys)
    (hkeys : ∀ key ∈ keys, isKey key.toList = false) :
    lastSetting isKey (ps.flatMap fun piece => wordsBy isWhitespace piece.text) =
      lastSetting isKey (ps.flatMap (Piece.strays isWhitespace)) := by
  refine Piece.lastSetting_words (by decide) (named_of_under (hunder.mono hsub))
    fun name value hmem => ?_
  obtain ⟨key, hkey, rfl⟩ := hunder name value hmem
  exact hkeys key hkey

/-- The portal's port is read back. -/
theorem parseUnsigned_portalPort (plan : BootPlan) :
    parseUnsigned 16 (natText plan.portalPort.toNat) = some plan.portalPort.toNat :=
  parseUnsigned_natText 16 _ plan.portalPort.toNat_lt

/-- The namespace is read back. -/
theorem parseUnsigned_nsid (plan : BootPlan) :
    (plan.nsid.map fun nsid => natText nsid.toNat).bind (parseUnsigned 32) =
      plan.nsid.map UInt32.toNat := by
  cases plan.nsid with
  | none => rfl
  | some nsid => exact parseUnsigned_natText 32 _ nsid.toNat_lt

end Stormnetboot.Boot

import Stormnetboot.Boot.RoundTrip
import Stormnetboot.Common.Program

/-!
# The command line on boot media

`build-boot-media.sh` bakes the kernel command line into the image it builds, so that a machine
finds its root with nobody there to tell it where. What the initramfs reads is what the script was
asked for; the words of `--extra` stand behind it and may set anything anew.
-/

namespace Stormnetboot.Boot

open Stormnetboot.Common Stormnetboot.Init

/-! ## What the script is asked for -/

/-- The variables of the script that its arguments set. -/
structure MediaOptions where
  portal : Text := []
  port : Text := []
  nqn : Text := []
  nsid : Text := "1".toList
  volume : Text := []
  hostname : Text := []
  role : Text := []
  localDisk : Text := []
  dataSlab : Text := []
  extra : Text := []
  mediaDev : Text := "/dev/sda1".toList
  kver : Text
  kernel : Text := []
  initramfs : Text := []
  stub : Text := "/usr/lib/systemd/boot/efi/linuxx64.efi.stub".toList
  sizeMib : Text := "512".toList
  output : Text := []

/-- Why the script ends early: it was asked for its usage, it refuses, or an argument has no
value, which `set -u` does not let pass. -/
inductive Halt where
  | usage
  | die (message : Text)
  | unbound
  deriving DecidableEq

namespace MediaOptions

/-- Take over the value of one argument. -/
def set (o : MediaOptions) (flag value : Text) : Option MediaOptions :=
  if flag = "--portal".toList then some { o with portal := value }
  else if flag = "--port".toList then some { o with port := value }
  else if flag = "--nqn".toList then some { o with nqn := value }
  else if flag = "--nsid".toList then some { o with nsid := value }
  else if flag = "--volume".toList then some { o with volume := value }
  else if flag = "--hostname".toList then some { o with hostname := value }
  else if flag = "--role".toList then some { o with role := value }
  else if flag = "--local-disk".toList then some { o with localDisk := value }
  else if flag = "--data-slab".toList then some { o with dataSlab := value }
  else if flag = "--media-dev".toList then some { o with mediaDev := value }
  else if flag = "--kernel".toList then some { o with kernel := value }
  else if flag = "--initramfs".toList then some { o with initramfs := value }
  else if flag = "--kver".toList then some { o with kver := value }
  else if flag = "--stub".toList then some { o with stub := value }
  else if flag = "--size".toList then some { o with sizeMib := value }
  else if flag = "--output".toList then some { o with output := value }
  else if flag = "--extra".toList then some { o with extra := value }
  else none

/-- The loop over the arguments. -/
def readArgs (o : MediaOptions) : List Text → Except Halt MediaOptions
  | [] => .ok o
  | [flag] =>
    if flag = "-h".toList || flag = "--help".toList then .error .usage
    else if (o.set flag []).isSome then .error .unbound
    else .error (.die ("unknown argument: ".toList ++ flag ++ " (--help for usage)".toList))
  | flag :: value :: rest =>
    if flag = "-h".toList || flag = "--help".toList then .error .usage
    else
      match o.set flag value with
      | some o => readArgs o rest
      | none => .error (.die ("unknown argument: ".toList ++ flag ++ " (--help for usage)".toList))

/-- The three that have no safe default. -/
def checkRequired (o : MediaOptions) : Except Halt MediaOptions :=
  if o.portal.isEmpty then .error (.die "--portal is required".toList)
  else if o.port.isEmpty then
    .error (.die "--port is required (per-export; there is no safe default)".toList)
  else if o.nqn.isEmpty then .error (.die "--nqn is required".toList)
  else .ok o

/-- What the script works with, on a build box that runs a kernel of this version. -/
def ofArgs (uname : Text) (args : List Text) : Except Halt MediaOptions := do
  let o ← readArgs { kver := uname } args
  o.checkRequired

/-- `[[ -n "$VALUE" ]] && CMDLINE="$CMDLINE part$VALUE"`. -/
def appendGiven (line : Text) (part : String) (value : Text) : Text :=
  if value.isEmpty then line else line ++ part.toList ++ value

/-- `CMDLINE`. -/
def cmdline (o : MediaOptions) : Text :=
  let line := "rd.stormblock.portal=".toList ++ o.portal ++ " rd.stormblock.port=".toList ++
    o.port ++ " rd.stormblock.nqn=".toList ++ o.nqn ++ " rd.stormblock.nsid=".toList ++ o.nsid
  let line := appendGiven line " stormblock.volume=" o.volume
  let line := appendGiven line " rd.stormblock.local-disk=" o.localDisk
  let line := appendGiven line " rd.stormblock.data-slab=" o.dataSlab
  let line := appendGiven line " storm.hostname=" o.hostname
  let line := appendGiven line " storm.role=" o.role
  let line := line ++ " rd.stormnetboot.media=".toList ++ o.mediaDev
  appendGiven line " " o.extra

/-- `cmdline.txt`, the section of the image that the kernel is given. -/
def cmdlineTxt (o : MediaOptions) : Text :=
  o.cmdline ++ "\n".toList

/-- What the script was asked for, as the initramfs keeps it. -/
def params (o : MediaOptions) : BootParams where
  portal := some o.portal
  port := parseUnsigned 16 o.port
  nqn := some o.nqn
  nsid := parseUnsigned 32 o.nsid
  volume := said o.volume
  localDisk := said o.localDisk
  dataSlab := said o.dataSlab
  hostname := said o.hostname
  role := said o.role
  mediaDev := said o.mediaDev

/-- Where the root is attached from, on a port. -/
def rootUri (o : MediaOptions) (port : ℕ) : Text :=
  "nvme-tcp://".toList ++ o.portal ++ ":".toList ++ natText port ++ "/".toList ++ o.nqn ++
    "?nsid=".toList ++ natText ((parseUnsigned 32 o.nsid).getD 1)

/-- None of the values is more than one word. -/
structure OneWord (o : MediaOptions) : Prop where
  portal : Solid isWhitespace o.portal
  port : Solid isWhitespace o.port
  nqn : Solid isWhitespace o.nqn
  nsid : Solid isWhitespace o.nsid
  volume : Solid isWhitespace o.volume
  localDisk : Solid isWhitespace o.localDisk
  dataSlab : Solid isWhitespace o.dataSlab
  hostname : Solid isWhitespace o.hostname
  role : Solid isWhitespace o.role
  mediaDev : Solid isWhitespace o.mediaDev

end MediaOptions

/-! ## The pieces of the line -/

/-- A setting that is left out if it has no value. -/
def given (key : String) (value : Text) : List Piece :=
  optional key (said value)

/-- The settings of the line. -/
def MediaOptions.settings (o : MediaOptions) : List Piece :=
  [setting "rd.stormblock.portal" o.portal, setting "rd.stormblock.port" o.port,
    setting "rd.stormblock.nqn" o.nqn, setting "rd.stormblock.nsid" o.nsid] ++
  given "stormblock.volume" o.volume ++ given "rd.stormblock.local-disk" o.localDisk ++
  given "rd.stormblock.data-slab" o.dataSlab ++ given "storm.hostname" o.hostname ++
  given "storm.role" o.role ++ [setting "rd.stormnetboot.media" o.mediaDev]

/-- What else stands on the line. -/
def MediaOptions.extras (o : MediaOptions) : List Piece :=
  ((said o.extra).map Piece.free).toList

/-- A setting behind a space begins with what the script writes for it. -/
theorem spaced_setting (key full : String) (value : Text) (h : full = " " ++ (key ++ "="))
    (rest : List Piece) :
    Piece.spaced (setting key value :: rest) = full.toList ++ value ++ Piece.spaced rest := by
  have htext : ' ' :: (setting key value).text = full.toList ++ value := by
    rw [text_setting key (key ++ "=") value rfl, h, String.toList_append (s := " ")]
    rfl
  rw [← htext]
  rfl

/-- A value that is given is appended as its setting. -/
theorem appendGiven_setting (line : Text) (key full : String) (value : Text)
    (h : full = " " ++ (key ++ "=")) :
    MediaOptions.appendGiven line full value = line ++ Piece.spaced (given key value) := by
  cases value with
  | nil => exact (List.append_nil line).symm
  | cons c cs =>
    have hgiven : Piece.spaced (given key (c :: cs)) = full.toList ++ (c :: cs) ++ [] :=
      spaced_setting key full (c :: cs) h []
    rw [hgiven, List.append_nil, ← List.append_assoc]
    rfl

/-- The extra words are appended as they are. -/
theorem appendGiven_extra (line : Text) (o : MediaOptions) :
    MediaOptions.appendGiven line " " o.extra = line ++ Piece.spaced o.extras := by
  unfold MediaOptions.extras MediaOptions.appendGiven
  cases o.extra with
  | nil => exact (List.append_nil line).symm
  | cons c cs =>
    have hextra : Piece.spaced [.free (c :: cs)] = ' ' :: c :: cs := List.flatMap_singleton ..
    exact (congrArg (line ++ ·) hextra).symm ▸ List.append_assoc ..

/-- The line is its pieces, each behind a space. -/
theorem cons_cmdline (o : MediaOptions) : ' ' :: o.cmdline = Piece.spaced (o.settings ++ o.extras) := by
  have hattach : ' ' :: ("rd.stormblock.portal=".toList ++ o.portal ++
      " rd.stormblock.port=".toList ++ o.port ++ " rd.stormblock.nqn=".toList ++ o.nqn ++
        " rd.stormblock.nsid=".toList ++ o.nsid) =
      Piece.spaced [setting "rd.stormblock.portal" o.portal, setting "rd.stormblock.port" o.port,
        setting "rd.stormblock.nqn" o.nqn, setting "rd.stormblock.nsid" o.nsid] := by
    rw [spaced_setting "rd.stormblock.portal" " rd.stormblock.portal=" _ rfl,
      spaced_setting "rd.stormblock.port" " rd.stormblock.port=" _ rfl,
      spaced_setting "rd.stormblock.nqn" " rd.stormblock.nqn=" _ rfl,
      spaced_setting "rd.stormblock.nsid" " rd.stormblock.nsid=" _ rfl]
    simp only [List.append_assoc]
    exact congrArg (' ' :: "rd.stormblock.portal=".toList ++ ·) (by simp [Piece.spaced])
  have hmedia : Piece.spaced [setting "rd.stormnetboot.media" o.mediaDev] =
      " rd.stormnetboot.media=".toList ++ o.mediaDev :=
    (spaced_setting _ " rd.stormnetboot.media=" _ rfl []).trans (List.append_nil _)
  simp only [MediaOptions.cmdline, appendGiven_extra,
    appendGiven_setting _ "stormblock.volume" " stormblock.volume=" _ rfl,
    appendGiven_setting _ "rd.stormblock.local-disk" " rd.stormblock.local-disk=" _ rfl,
    appendGiven_setting _ "rd.stormblock.data-slab" " rd.stormblock.data-slab=" _ rfl,
    appendGiven_setting _ "storm.hostname" " storm.hostname=" _ rfl,
    appendGiven_setting _ "storm.role" " storm.role=" _ rfl]
  simp only [MediaOptions.settings, Piece.spaced_append]
  rw [hmedia, ← hattach]
  simp only [List.cons_append, List.append_assoc]

/-- The words of the line are those of its pieces. -/
theorem splitWhitespace_cmdlineTxt (o : MediaOptions) :
    splitWhitespace o.cmdlineTxt =
      o.settings.flatMap (fun piece => wordsBy isWhitespace piece.text) ++
        splitWhitespace o.extra := by
  have hline : wordsBy isWhitespace (' ' :: o.cmdline) = wordsBy isWhitespace o.cmdline :=
    wordsBy_cons _ (by decide)
  have hextras : o.extras.flatMap (fun piece => wordsBy isWhitespace piece.text) =
      splitWhitespace o.extra := by
    unfold MediaOptions.extras
    cases o.extra with
    | nil => rfl
    | cons c cs => exact List.flatMap_singleton ..
  have hend : ∀ c ∈ "\n".toList.head?, isWhitespace c = true := fun c hc => Option.some.inj hc ▸ rfl
  rw [splitWhitespace_eq, MediaOptions.cmdlineTxt, wordsBy_append_of_head _ hend, ← hline,
    cons_cmdline, Piece.wordsBy_spaced (by decide), List.flatMap_append, hextras,
    List.append_assoc]
  exact congrArg _ (List.append_nil _)

/-! ## What the pieces are read as -/

/-- What a setting does to what is known already; without a value it does nothing. -/
def tell (p : BootParams) (key : String) (value : Text) : BootParams :=
  if value.isEmpty then p else p.assign key.toList value

section Tell

variable {key : String} {value : Text} (p : BootParams)

/-- The parser takes a setting over and goes on with the pieces behind it. -/
theorem foldl_setting (hkey : Solid isWhitespace key.toList ∧ '=' ∉ key.toList)
    (hvalue : Solid isWhitespace value) (rest : List Piece) :
    ((setting key value :: rest).flatMap fun piece => wordsBy isWhitespace piece.text).foldl
        BootParams.parseToken p =
      (rest.flatMap fun piece => wordsBy isWhitespace piece.text).foldl
        BootParams.parseToken (tell p key value) := by
  rw [List.flatMap_cons, List.foldl_append, setting,
    Piece.words_setting _ _ hkey.1 (by decide), firstWord_of_solid hvalue,
    strayWords_of_solid hvalue]
  simp only [List.foldl_cons, List.foldl_nil, BootParams.parseToken, splitOnce_append _ _ hkey.2]
  rfl

/-- A value that may be given is told if it is. -/
theorem foldl_given (hkey : Solid isWhitespace key.toList ∧ '=' ∉ key.toList)
    (hvalue : Solid isWhitespace value) :
    ((given key value).flatMap fun piece => wordsBy isWhitespace piece.text).foldl
      BootParams.parseToken p = tell p key value := by
  cases value with
  | nil => rfl
  | cons c cs => exact foldl_setting p hkey hvalue []

end Tell

/-- A value that is there is kept as it is. -/
theorem said_of_ne_nil {value : Text} (h : value ≠ []) : said value = some value :=
  if_neg h

/-- The settings tell the parser what the script was asked for. -/
theorem tell_settings {o : MediaOptions} (hportal : o.portal ≠ []) (hnqn : o.nqn ≠ []) :
    tell (tell (tell (tell (tell (tell (tell (tell (tell (tell {} "rd.stormblock.portal" o.portal)
      "rd.stormblock.port" o.port) "rd.stormblock.nqn" o.nqn) "rd.stormblock.nsid" o.nsid)
      "stormblock.volume" o.volume) "rd.stormblock.local-disk" o.localDisk)
      "rd.stormblock.data-slab" o.dataSlab) "storm.hostname" o.hostname) "storm.role" o.role)
      "rd.stormnetboot.media" o.mediaDev = o.params := by
  have hportalKey (p : BootParams) (v : Text) :
      tell p "rd.stormblock.portal" v = { p with portal := (said v).or p.portal } := by
    cases v <;> rfl
  have hportKey (p : BootParams) (v : Text) : tell p "rd.stormblock.port" v =
      { p with port := if v.isEmpty then p.port else parseUnsigned 16 v } := by
    cases v <;> rfl
  have hnqnKey (p : BootParams) (v : Text) :
      tell p "rd.stormblock.nqn" v = { p with nqn := (said v).or p.nqn } := by
    cases v <;> rfl
  have hnsidKey (p : BootParams) (v : Text) : tell p "rd.stormblock.nsid" v =
      { p with nsid := if v.isEmpty then p.nsid else parseUnsigned 32 v } := by
    cases v <;> rfl
  have hvolumeKey (p : BootParams) (v : Text) :
      tell p "stormblock.volume" v = { p with volume := (said v).or p.volume } := by
    cases v <;> rfl
  have hlocalDiskKey (p : BootParams) (v : Text) :
      tell p "rd.stormblock.local-disk" v = { p with localDisk := (said v).or p.localDisk } := by
    cases v <;> rfl
  have hdataSlabKey (p : BootParams) (v : Text) :
      tell p "rd.stormblock.data-slab" v = { p with dataSlab := (said v).or p.dataSlab } := by
    cases v <;> rfl
  have hhostnameKey (p : BootParams) (v : Text) :
      tell p "storm.hostname" v = { p with hostname := (said v).or p.hostname } := by
    cases v <;> rfl
  have hroleKey (p : BootParams) (v : Text) :
      tell p "storm.role" v = { p with role := (said v).or p.role } := by
    cases v <;> rfl
  have hmediaKey (p : BootParams) (v : Text) :
      tell p "rd.stormnetboot.media" v = { p with mediaDev := (said v).or p.mediaDev } := by
    cases v <;> rfl
  have hnumber (width : ℕ) (v : Text) :
      (if v.isEmpty then none else parseUnsigned width v) = parseUnsigned width v := by
    cases v <;> rfl
  rw [hportalKey, hportKey, hnqnKey, hnsidKey, hvolumeKey, hlocalDiskKey, hdataSlabKey,
    hhostnameKey, hroleKey, hmediaKey]
  simp only [Option.or_none, hnumber, said_of_ne_nil hportal, said_of_ne_nil hnqn]
  rfl

/-- The settings of the line are read as what the script was asked for. -/
theorem foldl_settings {o : MediaOptions} (hword : o.OneWord) (hportal : o.portal ≠ [])
    (hnqn : o.nqn ≠ []) :
    (o.settings.flatMap fun piece => wordsBy isWhitespace piece.text).foldl
      BootParams.parseToken {} = o.params := by
  have hkeys : ∀ key ∈ bootKeys, Solid isWhitespace key.toList ∧ '=' ∉ key.toList := by
    decide
  have hkey {key : String} (h : key ∈ bootKeys) := hkeys key h
  rw [MediaOptions.settings]
  simp only [List.flatMap_append, List.foldl_append]
  rw [foldl_setting _ (hkey (by decide)) hword.portal, foldl_setting _ (hkey (by decide)) hword.port,
    foldl_setting _ (hkey (by decide)) hword.nqn, foldl_setting _ (hkey (by decide)) hword.nsid,
    foldl_given _ (hkey (by decide)) hword.volume, foldl_given _ (hkey (by decide)) hword.localDisk,
    foldl_given _ (hkey (by decide)) hword.dataSlab, foldl_given _ (hkey (by decide)) hword.hostname,
    foldl_given _ (hkey (by decide)) hword.role, foldl_setting _ (hkey (by decide)) hword.mediaDev]
  exact tell_settings hportal hnqn

/-! ## What the media leads to -/

/-- What the script works with has the three that it insists on. -/
theorem required_of_ofArgs {uname : Text} {args : List Text} {o : MediaOptions}
    (h : MediaOptions.ofArgs uname args = .ok o) : o.portal ≠ [] ∧ o.port ≠ [] ∧ o.nqn ≠ [] := by
  obtain ⟨o', -, hcheck⟩ := (except_bind_eq_ok ..).mp h
  unfold MediaOptions.checkRequired at hcheck
  split_ifs at hcheck with hportal hport hnqn
  cases hcheck
  rw [List.isEmpty_iff] at hportal hport hnqn
  exact ⟨hportal, hport, hnqn⟩

/-- A key that is none of the parser's sets nothing. -/
theorem assign_of_not_bootKey {key : Text} (hkey : ∀ name ∈ bootKeys, key ≠ name.toList)
    (p : BootParams) (value : Text) : p.assign key value = p := by
  have hne {name : String} (hname : name ∈ bootKeys) : ¬key = name.toList := hkey name hname
  have hmac : (key = "storm.mac".toList || key = "BOOTIF".toList) = false := by
    rw [Bool.or_eq_false_iff]
    exact ⟨decide_eq_false (hne (by decide)), decide_eq_false (hne (by decide))⟩
  unfold BootParams.assign
  iterate 21 rw [if_neg (hne (by decide))]
  rw [hmac]
  rfl

/-- Words without the parser's keys tell it nothing. -/
theorem foldl_parseToken_of_free {line : Text} (hfree : FreeOfBootKeys line) (p : BootParams) :
    (splitWhitespace line).foldl BootParams.parseToken p = p := by
  have hwords : ∀ ws : List Text, (∀ word ∈ ws, word ∈ splitWhitespace line) →
      ws.foldl BootParams.parseToken p = p := by
    intro ws hws
    induction ws with
    | nil => rfl
    | cons word rest ih =>
      have hword : p.parseToken word = p := by
        unfold BootParams.parseToken
        cases hsplit : splitOnce '=' word with
        | none => rfl
        | some pair =>
          have hkey := hfree word (hws word List.mem_cons_self) pair hsplit
          simp only [assign_of_not_bootKey hkey]
          exact ite_self p
      rw [List.foldl_cons, hword]
      exact ih fun word h => hws word (List.mem_cons_of_mem _ h)
  exact hwords _ fun _ h => h

/-- What was asked for is the root and who the machine is; the extra words come after it. Where
they leave the parser's keys alone, the machine boots from the network exactly if the port is one,
and its root is the one that was asked for. -/
structure LeadsTo (o : MediaOptions) (p : BootParams) : Prop where
  params : p = (splitWhitespace o.extra).foldl BootParams.parseToken o.params
  root : FreeOfBootKeys o.extra → p.nvmeUri = (parseUnsigned 16 o.port).map o.rootUri
  network : FreeOfBootKeys o.extra →
    (p.isNetworkBoot = true ↔ (parseUnsigned 16 o.port).isSome = true)

/-- The initramfs reads from boot media what the script was asked for when it built them. -/
theorem leadsTo_parse {uname : Text} {args : List Text} {o : MediaOptions}
    (hargs : MediaOptions.ofArgs uname args = .ok o) (hword : o.OneWord) :
    LeadsTo o (BootParams.parse o.cmdlineTxt) := by
  obtain ⟨hportal, -, hnqn⟩ := required_of_ofArgs hargs
  have hparams : BootParams.parse o.cmdlineTxt =
      (splitWhitespace o.extra).foldl BootParams.parseToken o.params := by
    rw [BootParams.parse, splitWhitespace_cmdlineTxt, List.foldl_append,
      foldl_settings hword hportal hnqn]
  have hroot : o.params.nvmeUri = (parseUnsigned 16 o.port).map o.rootUri := by
    unfold BootParams.nvmeUri MediaOptions.params MediaOptions.rootUri
    cases parseUnsigned 16 o.port <;> rfl
  refine ⟨hparams, fun hfree => ?_, fun hfree => ?_⟩
  · rw [hparams, foldl_parseToken_of_free hfree, hroot]
  · rw [hparams, foldl_parseToken_of_free hfree, BootParams.isNetworkBoot, hroot,
      Option.isSome_map]
    exact Bool.or_eq_true_iff.trans (or_iff_left Bool.false_ne_true)

namespace Stick

/-- A stick for one host, with a console on its command line. -/
def args : List Text :=
  ["--portal", "10.0.0.5", "--port", "4431", "--nqn", "nqn.x:web", "--hostname", "web-1",
    "--extra", "console=ttyS0 quiet"].map String.toList

/-- The options of the stick. -/
def options : MediaOptions where
  portal := "10.0.0.5".toList
  port := "4431".toList
  nqn := "nqn.x:web".toList
  hostname := "web-1".toList
  extra := "console=ttyS0 quiet".toList
  kver := "6.12".toList

end Stick

/-- The stick's arguments are accepted, and its command line tells the boot what they say. -/
theorem leadsTo_stick : MediaOptions.ofArgs "6.12".toList Stick.args = .ok Stick.options ∧
    LeadsTo Stick.options (BootParams.parse Stick.options.cmdlineTxt) := by
  have hargs : MediaOptions.ofArgs "6.12".toList Stick.args = .ok Stick.options := rfl
  refine ⟨hargs, leadsTo_parse hargs ⟨?_, ?_, ?_, ?_, ?_, ?_, ?_, ?_, ?_, ?_⟩⟩
  all_goals decide

end Stormnetboot.Boot

import Stormnetboot.Init.Cmdline
import Stormnetboot.Init.System

/-!
# Boot-media self-refresh

The pass that runs once per boot with the root mounted: it compares the digest the golden
declares for the boot media with the stamp on the ESP and, when they differ, copies the
golden's image over the ESP's and writes the stamp last. The steps of `install` are separate
operations here, in the order the code performs them, so that an execution may be cut off
between any two of them.
-/

namespace Stormnetboot.Init

open Stormnetboot.Common

/-- `ESP_MOUNT`. -/
def espMount : Text := "/run/esp".toList

/-- `PAYLOAD_DIR`, below the new root. -/
def payloadDir : Text := "usr/lib/stormcos/boot-media".toList

/-- `PAYLOAD_UKI`. -/
def payloadUki : Text := "boot.efi".toList

/-- `PAYLOAD_CONF`. -/
def payloadConf : Text := "media.conf".toList

/-- `ESP_UKI`. -/
def espUki : Text := "EFI/BOOT/BOOTX64.EFI".toList

/-- `ESP_CONF`. -/
def espConf : Text := "stormnetboot/media.conf".toList

/-- The image that the firmware starts. -/
def liveUkiPath : Text := joinPath espMount espUki

/-- Where an image is written before it is renamed. -/
def stagedUkiPath : Text := joinPath espMount "EFI/BOOT/BOOTX64.EFI.new".toList

/-- Where the stamp is. -/
def stampPath : Text := joinPath espMount espConf

/-- What a refresh pass decided. -/
inductive Outcome where
  | disabled
  | current (digest : Text)
  | updated (fromDigest toDigest : Text)
  | skipped (why : Text)
  deriving DecidableEq, Repr

/-- The value a line of a stamp file gives for `pallet`, if it gives one. -/
def palletOfLine (line : Text) : Option Text :=
  let line := trim line
  if line.isEmpty || "#".toList.isPrefixOf line then none
  else
    match splitOnce '=' line with
    | some (key, value) =>
      if trim key = "pallet".toList then
        let value := trim value
        if value.isEmpty then none else some value
      else none
    | none => none

/-- Pull `pallet=` out of the text of a `key=value` stamp file: the first line that gives it a
value. -/
def palletOfText (text : Text) : Option Text :=
  (lines text).findSome? palletOfLine

/-- `read_pallet`. -/
def readPallet (path : Text) : Boot (Option Text) := do
  match ← Program.perform (SysOp.readFile path) with
  | .ok text => .done (palletOfText text)
  | .error _ => .done none

/-- Enough of a digest to tell two apart. The slice ends after twelve bytes, and panics when
that is inside a character. -/
def short (digest : Text) : Boot Text :=
  let bare := (stripPrefix "sha256:".toList digest).getD digest
  if utf8Len bare > 12 then
    match takeBytes 12 bare with
    | some head => .done (head ++ "...".toList)
    | none => .fail .panic
  else .done bare

/-- The text of the stamp that records an installed digest. -/
def stampText (wanted : Text) : Text :=
  "# written by stormnetboot-init; the digest of the UKI in ".toList ++ espUki ++
    "\npallet=".toList ++ wanted ++ "\n".toList

/-- Copy the golden's UKI over the ESP's, then record what was installed. -/
def install (payloadUkiPath wanted : Text) : Boot Unit := do
  orFail (← Program.perform (SysOp.createDirAll (joinPath espMount "EFI/BOOT".toList)))
  orFail (← Program.perform (SysOp.createDirAll (joinPath espMount "stormnetboot".toList)))
  orFail (← Program.perform (SysOp.copyFile payloadUkiPath stagedUkiPath))
  orFail (← Program.perform (SysOp.syncFile stagedUkiPath))
  orFail (← Program.perform (SysOp.rename stagedUkiPath liveUkiPath))
  orFail (← Program.perform (SysOp.writeFile stampPath (stampText wanted)))
  orFail (← Program.perform (SysOp.syncFile stampPath))
  let _ ← runCommand (words ["/bin/sync"])
  .done ()

/-- `mount_vfat`. -/
def mountVfat (device target : Text) : Boot Bool := do
  let result ← runCommand (words ["/bin/mount", "-t", "vfat"] ++ [device, target])
  .done result.succeeded

/-- Compare and, if need be, install: the pass without its logging and unmounting. -/
def mediaRun (params : BootParams) (sysroot : Text) : Boot Outcome :=
  match params.mediaDev with
  | none => .done .disabled
  | some device => do
    let payload := joinPath sysroot payloadDir
    let ukiPath := joinPath payload payloadUki
    let confPath := joinPath payload payloadConf
    let noPayload := Outcome.skipped ("golden carries no ".toList ++ payloadDir ++ " payload".toList)
    if !(← pathExists ukiPath) then .done noPayload
    else if !(← pathExists confPath) then .done noPayload
    else
      match ← readPallet confPath with
      | none => bail (payloadDir ++ "/".toList ++ payloadConf ++ " names no pallet digest".toList)
      | some wanted =>
        createDirAllOk espMount
        if !(← mountVfat device espMount) then
          .done (.skipped ("could not mount ".toList ++ device ++ " as vfat on ".toList ++ espMount))
        else if !(← pathExists stampPath) then
          .done (.skipped (device ++ " carries no ".toList ++ espConf ++
            "; not stormnetboot media, refusing to write".toList))
        else
          let installed := (← readPallet stampPath).getD "unknown".toList
          if installed = wanted then .done (.current wanted)
          else
            withContext ("rewriting ".toList ++ espUki ++ " on ".toList ++ device ++
              " failed".toList) (install ukiPath wanted)
            .done (.updated installed wanted)

/-- Unmount the ESP and log what the pass decided. -/
def concludeRefresh (outcome : Outcome) : Boot Outcome := do
  let _ ← runCommand [("/bin/umount".toList), espMount]
  match outcome with
  | .disabled => .done ()
  | .current digest => do
    stamp ("boot media current (".toList ++ (← short digest) ++ ")".toList)
  | .updated fromDigest toDigest => do
    stamp ("boot media updated ".toList ++ (← short fromDigest) ++ " -> ".toList ++
      (← short toDigest) ++ "; next boot runs it".toList)
    reportPhase "media-updated"
      (some ((← short fromDigest) ++ " -> ".toList ++ (← short toDigest)))
  | .skipped why => stamp ("boot media not refreshed: ".toList ++ why)
  .done outcome

/-- Refresh the boot media. Every error of the pass becomes a skip. -/
def refresh (params : BootParams) (sysroot : Text) : Boot Outcome := do
  match ← (mediaRun params sysroot).attempt with
  | .ok outcome => concludeRefresh outcome
  | .error (.error err) => concludeRefresh (.skipped err)
  | .error .panic => .fail .panic

/-! ## Reading a stamp back -/

/-- A digest a stamp file can name: trimmed, on one line, and not empty. -/
structure IsDigest (digest : Text) : Prop where
  ne_nil : digest ≠ []
  newline : '\n' ∉ digest
  head : ∀ c, digest.head? = some c → isWhitespace c = false
  last : ∀ c, digest.getLast? = some c → isWhitespace c = false

/-- What is read out of a file can be written into one. -/
theorem isDigest_of_palletOfText {text digest : Text} (h : palletOfText text = some digest) :
    IsDigest digest := by
  obtain ⟨line, hline, hread⟩ := List.exists_of_findSome?_eq_some h
  have hnewline := newline_notMem_of_mem_lines hline
  unfold palletOfLine at hread
  simp only at hread
  split_ifs at hread
  cases hsplit : splitOnce '=' (trim line) with
  | none => simp [hsplit] at hread
  | some parts =>
    obtain ⟨key, value⟩ := parts
    simp only [hsplit] at hread
    split_ifs at hread with hkey hempty
    cases hread
    have hvalue : ∀ c ∈ value, c ∈ trim line := by
      intro c hc
      unfold splitOnce at hsplit
      split at hsplit
      · cases hsplit
      · rename_i rest hrest
        cases hsplit
        exact (List.dropWhile_suffix _).subset (hrest ▸ List.mem_cons_of_mem _ hc)
    refine ⟨by simpa using hempty, fun hmem => ?_, fun c hc => isWhitespace_of_head?_trim hc,
      fun c hc => isWhitespace_of_getLast?_trim hc⟩
    exact hnewline (mem_of_mem_trim (hvalue _ (mem_of_mem_trim hmem)))

/-- The stamp of an install names the digest that was installed. -/
theorem palletOfText_stampText (wanted : Text) (h : IsDigest wanted) :
    palletOfText (stampText wanted) = some wanted := by
  let comment : Text := "# written by stormnetboot-init; the digest of the UKI in ".toList ++ espUki
  have hcomment : '\n' ∉ comment := by decide
  have hkey : '\n' ∉ "pallet=".toList ++ wanted := by
    simp only [List.mem_append, not_or]
    exact ⟨by decide, h.newline⟩
  have hstamp : stampText wanted =
      (comment ++ ['\n']) ++ (("pallet=".toList ++ wanted) ++ ['\n']) := by
    have hline : "\npallet=".toList = ['\n'] ++ "pallet=".toList := by decide
    have hend : "\n".toList = ['\n'] := by decide
    unfold stampText
    rw [hline, hend]
    simp only [List.append_assoc, comment]
  have hlast : ("pallet=".toList ++ wanted).getLast? = wanted.getLast? := by
    rw [List.getLast?_append_of_ne_nil _ h.ne_nil]
  have hreturn : ("pallet=".toList ++ wanted).getLast? ≠ some '\r' := by
    rw [hlast]
    intro hr
    exact absurd (h.last _ hr) (by decide)
  have hlines : lines (stampText wanted) = [comment, "pallet=".toList ++ wanted] := by
    rw [lines, hstamp, splitInclusive_append _ _ _ (.inr List.getLast?_concat),
      splitInclusive_singleton _ _ hcomment, splitInclusive_singleton _ _ hkey]
    simp only [List.singleton_append, List.map_cons, List.map_nil]
    rw [stripLineEnd_append_newline _ (by decide), stripLineEnd_append_newline _ hreturn]
  have hskip : palletOfLine comment = none := by decide
  have htrim : trim ("pallet=".toList ++ wanted) = "pallet=".toList ++ wanted := by
    refine trim_eq_self (fun c hc => ?_) fun c hc => h.last c (hlast ▸ hc)
    have hp : ("pallet=".toList ++ wanted).head? = some 'p' := rfl
    rw [hp] at hc
    cases hc
    decide
  have hread : palletOfLine ("pallet=".toList ++ wanted) = some wanted := by
    have hsplit : splitOnce '=' ("pallet=".toList ++ wanted) =
        some ("pallet".toList, wanted) := rfl
    unfold palletOfLine
    simp only [htrim, hsplit]
    rw [if_neg (by simp), if_pos (by decide), trim_eq_self h.head h.last, if_neg (by simp [h.ne_nil])]
  rw [palletOfText, hlines, List.findSome?_cons, hskip, List.findSome?_cons, hread]

end Stormnetboot.Init

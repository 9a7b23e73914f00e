import Stormnetboot.Common.Text

/-!
# Kernel command line parsing

What the initramfs learns from `/proc/cmdline`, and the decisions it takes on that alone:
whether there is a network root, which slabs to attach, where each exported volume lands,
and whether a flow-over would format the disk that holds the data slab.
-/

namespace Stormnetboot.Init

open Stormnetboot.Common

/-- Everything the initramfs needs, taken from `/proc/cmdline`. -/
structure BootParams where
  portal : Option Text := none
  port : Option ℕ := none
  nqn : Option Text := none
  nsid : Option ℕ := none
  volume : Option Text := none
  localDisk : Option Text := none
  hostname : Option Text := none
  role : Option Text := none
  reportUrl : Option Text := none
  mac : Option Text := none
  slabs : List Text := []
  dataSlab : Option Text := none
  boothost : Option Text := none
  tag : Option Text := none
  claimNamespace : Option Text := none
  hostnqn : Option Text := none
  metaDir : Option Text := none
  imageStore : Option Text := none
  overlay : Option Text := none
  writable : List (Text × Option Text) := []
  mounts : List (Text × Text) := []
  mediaDev : Option Text := none
  deriving DecidableEq, Repr

/-- One entry of a `name:/mount` list. A bare name, or one side of the colon missing, has no
mount point. -/
def parseNamedMount (entry : Text) : Text × Option Text :=
  match splitOnce ':' entry with
  | some (name, mnt) => if !name.isEmpty && !mnt.isEmpty then (name, some mnt) else (name, none)
  | none => (entry, none)

/-- One `name:/mount` list from the command line. -/
def parseNamedMounts (value : Text) : List (Text × Option Text) :=
  ((value.splitOn ',').filter (!·.isEmpty)).map parseNamedMount

/-- PXE's `BOOTIF` carries a hardware-type prefix and dashes; bring it to the plain spelling. -/
def normaliseBootif (value : Text) : Text :=
  let trimmed := (stripPrefix "01-".toList value).getD value
  toAsciiLowercase (replaceChar '-' ':' trimmed)

namespace BootParams

/-- Take over one `key=value` token. Two integer fields are cleared by a value that is not a
number in range. -/
def assign (p : BootParams) (key value : Text) : BootParams :=
  if key = "rd.stormblock.portal".toList then { p with portal := some value }
  else if key = "rd.stormblock.port".toList then { p with port := parseUnsigned 16 value }
  else if key = "rd.stormblock.nqn".toList then { p with nqn := some value }
  else if key = "rd.stormblock.nsid".toList then { p with nsid := parseUnsigned 32 value }
  else if key = "stormblock.volume".toList then { p with volume := some value }
  else if key = "rd.stormblock.local-disk".toList then { p with localDisk := some value }
  else if key = "rd.stormblock.slab".toList then
    { p with slabs := p.slabs ++ (value.splitOn ',').filter (!·.isEmpty) }
  else if key = "rd.stormblock.data-slab".toList then { p with dataSlab := some value }
  else if key = "rd.stormblock.boothost".toList then { p with boothost := some value }
  else if key = "rd.stormblock.tag".toList then { p with tag := some value }
  else if key = "rd.stormblock.namespace".toList then { p with claimNamespace := some value }
  else if key = "rd.stormblock.hostnqn".toList then { p with hostnqn := some value }
  else if key = "rd.stormblock.meta".toList then { p with metaDir := some value }
  else if key = "rd.stormblock.image-store".toList then { p with imageStore := some value }
  else if key = "rd.stormblock.overlay".toList then { p with overlay := some value }
  else if key = "rd.stormblock.writable".toList then { p with writable := parseNamedMounts value }
  else if key = "rd.stormblock.mount".toList then
    { p with mounts := (parseNamedMounts value).filterMap fun (n, m) => m.map fun m => (n, m) }
  else if key = "rd.stormnetboot.media".toList then { p with mediaDev := some value }
  else if key = "storm.hostname".toList then { p with hostname := some value }
  else if key = "storm.role".toList then { p with role := some value }
  else if key = "storm.report".toList then { p with reportUrl := some value }
  else if key = "storm.mac".toList || key = "BOOTIF".toList then
    { p with mac := some (normaliseBootif value) }
  else p

/-- One token of the command line; a bare word or an empty value says nothing. -/
def parseToken (p : BootParams) (token : Text) : BootParams :=
  match splitOnce '=' token with
  | none => p
  | some (key, value) => if value.isEmpty then p else p.assign key value

/-- `BootParams::parse`. -/
def parse (cmdline : Text) : BootParams :=
  (splitWhitespace cmdline).foldl parseToken {}

/-- The `nvme-tcp://` URI of the remote root, when portal, port and NQN are all present. -/
def nvmeUri (p : BootParams) : Option Text := do
  let portal ← p.portal
  let port ← p.port
  let nqn ← p.nqn
  let nsid := p.nsid.getD 1
  some ("nvme-tcp://".toList ++ portal ++ ":".toList ++ natText port ++ "/".toList ++ nqn ++
    "?nsid=".toList ++ natText nsid)

/-- The appliance claim to make: appliance, tag and namespace. -/
def boothostClaim (p : BootParams) : Option (Text × Text × Text) :=
  match p.boothost, p.tag with
  | some host, some tag => some (host, tag, p.claimNamespace.getD "boothost".toList)
  | _, _ => none

/-- Whether this is a network boot at all. -/
def isNetworkBoot (p : BootParams) : Bool :=
  p.nvmeUri.isSome || p.boothostClaim.isSome

/-- Every slab to attach: the root source, the named slabs, and the data slab if it is not
among them. -/
def allSlabs (p : BootParams) : List Text :=
  let slabs := p.nvmeUri.toList ++ p.slabs
  match p.dataSlab with
  | some data => if slabs.contains data then slabs else slabs ++ [data]
  | none => slabs

/-- What is missing for a root source, by its name on the command line. -/
def missing (p : BootParams) : List Text :=
  (if p.portal.isNone then ["rd.stormblock.portal".toList] else []) ++
  (if p.port.isNone then ["rd.stormblock.port".toList] else []) ++
  (if p.nqn.isNone then ["rd.stormblock.nqn".toList] else []) ++
  (if p.boothost.isSome && p.tag.isNone then ["rd.stormblock.tag".toList] else [])

end BootParams

/-- Where each exported volume lands as a ublk device. -/
structure ExportPlan where
  writableArgs : List Text := []
  mountMap : List (Text × Text) := []
  fstabWritable : List (Text × Text) := []
  imageStore : Option (Text × Text) := none
  deriving DecidableEq, Repr

/-- Where the image store is mounted. -/
def imageStoreMount : Text := "/var/lib/stormcos/image-store".toList

/-- The ublk device of an export index. -/
def ublkDevice (idx : ℕ) : Text :=
  "/dev/ublkb".toList ++ natText idx

/-- One writable volume: exported in order, and in the fstab if it has a mount point. -/
def ExportPlan.addWritable (plan : ExportPlan × ℕ) (entry : Text × Option Text) : ExportPlan × ℕ :=
  ({ plan.1 with
      writableArgs := plan.1.writableArgs ++ [entry.1]
      fstabWritable := plan.1.fstabWritable ++ (entry.2.map fun m => (ublkDevice plan.2, m)).toList },
    plan.2 + 1)

/-- One mounted volume: exported in order, after the writables. -/
def ExportPlan.addMount (plan : ExportPlan × ℕ) (entry : Text × Text) : ExportPlan × ℕ :=
  ({ plan.1 with
      writableArgs := plan.1.writableArgs ++ [entry.1]
      mountMap := plan.1.mountMap ++ [(ublkDevice plan.2, entry.2)] },
    plan.2 + 1)

/-- Compute the ublk export layout. Index zero is root, and an image store takes index one. -/
def BootParams.exportPlan (p : BootParams) : ExportPlan :=
  let start : ExportPlan × ℕ := match p.imageStore with
    | some _ => ({ imageStore := some ("/dev/ublkb1".toList, imageStoreMount) }, 2)
    | none => ({}, 1)
  (p.mounts.foldl ExportPlan.addMount (p.writable.foldl ExportPlan.addWritable start)).1

/-! ## The data slab guard -/

/-- The part of a name before its last `p`, when that `p` follows a digit and only digits
follow it: the whole device of `nvme0n1p2` and `mmcblk0p1`. -/
def partitionHead (name : Text) : Option Text :=
  match splitLast 'p' name with
  | some (head, digits) =>
    if !digits.isEmpty && digits.all Char.isDigit && endsWithDigit head then some head else none
  | none => none

/-- Names whose trailing digits belong to the device itself. -/
def hasDevicePrefix (name : Text) : Bool :=
  "nvme".toList.isPrefixOf name || "mmcblk".toList.isPrefixOf name || "loop".toList.isPrefixOf name

/-- Reduce a partition path to its whole device. -/
def deviceBase (path : Text) : Text :=
  let name := path.rtakeWhile (· ≠ '/')
  let dir := path.rdropWhile (· ≠ '/')
  match partitionHead name with
  | some head => dir ++ head
  | none =>
    if hasDevicePrefix name then path
    else dir ++ name.rdropWhile Char.isDigit

/-- Refuse a flow-over that would destroy the data slab. -/
def BootParams.checkLocalDisk (p : BootParams) : Except Text Unit :=
  match p.localDisk, p.dataSlab with
  | some disk, some data =>
    if deviceBase disk = deviceBase data then
      .error ("refusing flow-over onto ".toList ++ disk ++ ": it holds the data slab ".toList ++
        data ++ ", and formatting it would destroy this node's identity".toList)
    else .ok ()
  | _, _ => .ok ()

/-- The scheme of names the guard was written for. -/
example : ["/dev/sda2", "/dev/sda", "/dev/nvme0n1p2", "/dev/nvme0n1", "/dev/mmcblk0p1"].map
      (fun s => deviceBase s.toList) =
    ["/dev/sda", "/dev/sda", "/dev/nvme0n1", "/dev/nvme0n1", "/dev/mmcblk0"].map String.toList := by
  decide

end Stormnetboot.Init

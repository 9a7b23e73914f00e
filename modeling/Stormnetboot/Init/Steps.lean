import Stormnetboot.Init.Media

/-!
# The boot sequence

From the pseudo-filesystems to `switch_root`, in the order the code performs them. Waiting
for a device is one operation that answers whether it appeared; everything else that can
fail does so as an answer of the operation it is.
-/

namespace Stormnetboot.Init

open Stormnetboot.Common

/-- `STORMBLOCK`. -/
def stormblock : Text := "/usr/sbin/stormblock".toList

/-- `ROOT_DEV`. -/
def rootDev : Text := "/dev/ublkb0".toList

/-- `SYSROOT`. -/
def sysroot : Text := "/sysroot".toList

/-- The modules the root needs. -/
def requiredModules : List Text :=
  words ["nvme_tcp", "ublk_drv", "erofs", "overlay", "ext4", "xfs", "vfat"]

/-- Whether a mount point stands in the second column of `/proc/mounts`. -/
def isMounted (target : Text) : Boot Bool := do
  match ← Program.perform (SysOp.readFile "/proc/mounts".toList) with
  | .ok mounts =>
    .done ((lines mounts).any fun l => (l.splitOn ' ')[1]? == some target)
  | .error _ => .done false

/-- One filesystem of `mount_pseudo_filesystems`: its place is made and it is mounted, unless it
is. -/
def mountPseudoFilesystem (source target fstype : Text) : Boot Unit := do
  createDirAllOk target
  if ← isMounted target then .done ()
  else
    match ← runCommand (words ["/bin/mount", "-t"] ++ [fstype, source, target]) with
    | .exited true _ _ => .done ()
    | .exited false status _ =>
      tracingWarn ("mounting ".toList ++ target ++ " exited ".toList ++ status)
    | .notStarted err =>
      tracingWarn ("mounting ".toList ++ target ++ " failed: ".toList ++ err)

/-- `mount_pseudo_filesystems`. -/
def mountPseudoFilesystems : Boot Unit :=
  Program.forEach
    [("proc", "/proc", "proc"), ("sysfs", "/sys", "sysfs"), ("devtmpfs", "/dev", "devtmpfs"),
      ("tmpfs", "/run", "tmpfs")]
    fun (source, target, fstype) =>
      mountPseudoFilesystem source.toList target.toList fstype.toList

/-- `load_modules`. -/
def loadModules : Boot Unit := do
  Program.forEach requiredModules fun module => do
    let _ ← runCommand (words ["/usr/sbin/modprobe", "-q"] ++ [module])
    .done ()
  let path := "/proc/sys/kernel/io_uring_disabled".toList
  if ← pathExists path then
    let _ ← Program.perform (SysOp.writeFile path "0".toList)
  if !(← pathExists "/dev/ublk-control".toList) then
    tracingWarn
      "/dev/ublk-control missing: ublk_drv did not load, root will not appear".toList

/-- The first interface in name order that is neither the loopback nor a `veth`. -/
def firstEthernet : Boot (Option Text) := do
  match ← Program.perform (SysOp.readDir "/sys/class/net".toList) with
  | none => .done none
  | some entries =>
    let names := entries.filter fun n => n != "lo".toList && !"veth".toList.isPrefixOf n
    .done (names.mergeSort fun a b => decide (a ≤ b)).head?

/-- `bring_up_network`. -/
def bringUpNetwork (params : BootParams) : Boot Unit := do
  stamp "bringing up network".toList
  let _ ← runCommand (words ["/bin/ip", "link", "set", "lo", "up"])
  match ← firstEthernet with
  | none => bail "no ethernet interface found".toList
  | some iface =>
    let _ ← runCommand (words ["/bin/ip", "link", "set"] ++ [iface, "up".toList])
    let result ← runCommand (words ["/sbin/udhcpc", "-i"] ++ [iface] ++
      words ["-s", "/usr/share/udhcpc/default.script", "-q", "-n", "-t", "10"])
    if result.succeeded then stamp ("network up on ".toList ++ iface)
    else
      tracingWarn ("DHCP did not complete on ".toList ++ iface ++
        "; continuing in case ip= configured it".toList)
    match params.portal with
    | some portal => stamp ("portal ".toList ++ portal ++ " is the root source".toList)
    | none => .done ()

/-- A `stormblock slab list` line that names a slab by a 36-character identifier. -/
def isSlabLine (line : Text) : Bool :=
  match splitOnceText ": slab ".toList line with
  | none => false
  | some (_, rest) =>
    let id := rest.takeWhile (· ≠ ' ')
    utf8Len id == 36 && id.all fun c => c.isDigit || ('a' ≤ c && c ≤ 'f') || ('A' ≤ c && c ≤ 'F') || c == '-'

/-- Whether a device is genuinely a slab: positive evidence only. -/
def isSlab (dev : Text) : Boot Bool := do
  if !(← pathExists dev) then .done false
  else
    match ← runCommand ([stormblock] ++ words ["slab", "list"] ++ [dev]) with
    | .exited true _ stdout => .done ((lines stdout).any isSlabLine)
    | _ => .done false

/-- The environment of a command that presents an initiator NQN. -/
def hostNqnEnv (hostnqn : Option Text) : List (Text × Text) :=
  (hostnqn.map fun nqn => ("STORMBLOCK_HOST_NQN".toList, nqn)).toList

/-- Claim this machine's image from the appliance. -/
def bootClaim (boothost tag claimNamespace : Text) (hostnqn : Option Text) : Boot Text := do
  let argv := [stormblock] ++ words ["boot-claim", "--boothost"] ++ [boothost, "--tag".toList, tag] ++
    if claimNamespace ≠ "boothost".toList then ["--namespace".toList, claimNamespace] else []
  match ← Program.perform (SysOp.command argv (hostNqnEnv hostnqn)) with
  | .notStarted err => bail ("running stormblock boot-claim: ".toList ++ err)
  | .exited success _ stdout =>
    if !success then
      bail ("no image is assigned to ".toList ++ tag ++ " on ".toList ++ boothost ++
        " (boot-claim failed)".toList)
    else
      let uri := trim stdout
      if uri.isEmpty then
        bail ("boot-claim for ".toList ++ tag ++ " returned no attach URI".toList)
      else .done uri

/-- Keep the named slabs that are URIs or prove to be slabs, in order. -/
def survivingSlabs (boothost : Text) : List Text → Boot (List Text)
  | [] => .done []
  | slab :: rest => do
    let trusted ← if containsText "://".toList slab then .done true else isSlab slab
    if trusted then
      let kept ← survivingSlabs boothost rest
      .done (slab :: kept)
    else
      stamp (slab ++ " is not a slab - asking ".toList ++ boothost ++ " instead".toList)
      survivingSlabs boothost rest

/-- The ordered slabs to hand `boot-local`. -/
def resolveSlabs (params : BootParams) : Boot (List Text) :=
  match params.boothostClaim with
  | none => .done params.allSlabs
  | some (boothost, tag, claimNamespace) => do
    let kept ← survivingSlabs boothost params.slabs
    let slabs ←
      if kept.isEmpty then do
        stamp ("asking ".toList ++ boothost ++ " which image ".toList ++ tag ++ " boots".toList)
        let uri ← bootClaim boothost tag claimNamespace params.hostnqn
        stamp ("claimed root: ".toList ++ uri)
        .done (uri :: kept)
      else .done kept
    match params.dataSlab with
    | some data => .done (if slabs.contains data then slabs else slabs ++ [data])
    | none => .done slabs

/-- The flag and value of an optional argument. -/
def optionalFlag (flag : String) (value : Option Text) : List Text :=
  match value with
  | some v => [flag.toList, v]
  | none => []

/-- The engine's arguments. -/
def engineArgs (params : BootParams) (slabs : List Text) (plan : ExportPlan) : List Text :=
  [stormblock, "boot-local".toList] ++ slabs.flatMap (fun s => ["--slab".toList, s]) ++
    optionalFlag "--meta" params.metaDir ++ optionalFlag "--image-store" params.imageStore ++
    optionalFlag "--volume" params.volume ++ optionalFlag "--local-disk" params.localDisk ++
    plan.writableArgs.flatMap fun name => ["--writable".toList, name]

/-- Start the engine in the background. -/
def startEngine (params : BootParams) (slabs : List Text) (plan : ExportPlan) : Boot Unit := do
  if slabs.isEmpty then bail "no slab to boot from".toList
  else
    stamp ("starting engine on ".toList ++ joinWith ", ".toList slabs)
    match params.dataSlab with
    | some data =>
      stamp ("data slab ".toList ++ data ++ " carries node identity; never formatted".toList)
    | none => .done ()
    withContext ("spawning ".toList ++ stormblock) do
      orFail (← Program.perform
        (SysOp.spawnEngine (engineArgs params slabs plan) (hostNqnEnv params.hostnqn)))

/-- Wait for the root device; the error names the ublk devices that are there. -/
def waitForDevice (path : Text) (seconds : ℕ) : Boot Unit := do
  let appeared : Bool ← Program.perform (SysOp.waitFor path seconds)
  if appeared then .done ()
  else
    let entries ← Program.perform (SysOp.readDir "/dev".toList)
    let present := (entries.getD []).filter ("ublk".toList.isPrefixOf ·)
    bail (path ++ " did not appear within ".toList ++ natText seconds ++
      "s; ublk devices present: ".toList ++ debugTexts present)

/-- Try the ways of mounting a stormcos filesystem until one works. -/
def mountFs (dev mnt : Text) : Boot Bool := do
  let erofs ← runCommand (words ["/bin/mount", "-t", "erofs", "-o", "ro"] ++ [dev, mnt])
  if erofs.succeeded then .done true
  else
    let ext4 ← runCommand (words ["/bin/mount", "-t", "ext4"] ++ [dev, mnt])
    if ext4.succeeded then .done true
    else
      let auto ← runCommand (words ["/bin/mount"] ++ [dev, mnt])
      .done auto.succeeded

/-- Whether a block device appears within fifteen seconds. -/
def waitForBlock (dev : Text) : Boot Bool :=
  Program.perform (SysOp.waitFor dev 15)

/-- Where the root is mounted below an overlay. -/
def overlayLower : Text := "/run/stormblock/lower".toList

/-- Where the upper layer is mounted. -/
def overlayRw : Text := "/run/stormblock/rw".toList

/-- Mount the upper layer of an overlay root: a tmpfs of the given size, or a device. -/
def mountOverlayUpper (overlay : Text) : Boot Unit :=
  match stripPrefix "tmpfs".toList overlay with
  | some size => do
    let size := (stripPrefix ":".toList size).getD "512m".toList
    let result ← runCommand (words ["/bin/mount", "-t", "tmpfs", "-o"] ++
      ["size=".toList ++ size, "tmpfs".toList, overlayRw])
    if !result.succeeded then
      bail ("overlay: could not mount tmpfs upper (size=".toList ++ size ++ ")".toList)
  | none => do
    let _ ← waitForBlock overlay
    let result ← runCommand (words ["/bin/mount"] ++ [overlay, overlayRw])
    if !result.succeeded then bail ("overlay: could not mount upper ".toList ++ overlay)

/-- An overlay over the read-only root. -/
def mountOverlayRoot (overlay : Text) : Boot Unit := do
  createDirAllOk sysroot
  createDirAllOk overlayLower
  createDirAllOk overlayRw
  if !(← mountFs rootDev overlayLower) then
    bail ("overlay: could not mount lower ".toList ++ rootDev)
  mountOverlayUpper overlay
  let upper := overlayRw ++ "/upper".toList
  let work := overlayRw ++ "/work".toList
  createDirAllOk upper
  createDirAllOk work
  let opt := "lowerdir=".toList ++ overlayLower ++ ",upperdir=".toList ++ upper ++
    ",workdir=".toList ++ work
  let result ← runCommand (words ["/bin/mount", "-t", "overlay", "overlay", "-o"] ++ [opt, sysroot])
  if !result.succeeded then
    bail ("overlay: could not mount overlay root on ".toList ++ sysroot)
  stamp ("overlay root: lower=".toList ++ rootDev ++ " upper=".toList ++ overlay)

/-- `mount_root`. -/
def mountRoot (params : BootParams) : Boot Unit :=
  match params.overlay with
  | some overlay => mountOverlayRoot overlay
  | none => do
    createDirAllOk sysroot
    if ← mountFs rootDev sysroot then
      stamp ("mounted root ".toList ++ rootDev ++ " on ".toList ++ sysroot)
    else
      bail ("could not mount ".toList ++ rootDev ++ " on ".toList ++ sysroot ++
        " as erofs, ext4 or auto".toList)

/-- Append a line to the real root's fstab; a failure is a warning. -/
def appendFstab (line : Text) : Boot Unit := do
  let path := sysroot ++ "/etc/fstab".toList
  match ← Program.perform (SysOp.appendLine path line) with
  | .appended => .done ()
  | .notWritten err => tracingWarn ("could not append to ".toList ++ path ++ ": ".toList ++ err)
  | .notOpened err => tracingWarn ("could not open ".toList ++ path ++ ": ".toList ++ err)

/-- Mount one of the planned mounts in the new root. -/
def applyMount (dev mnt : Text) : Boot Unit := do
  if !(← waitForBlock dev) then
    tracingWarn (dev ++ " never appeared; ".toList ++ mnt ++ " will be empty".toList)
  else
    let target := sysroot ++ mnt
    createDirAllOk target
    let result ← runCommand (words ["/bin/mount"] ++ [dev, target])
    if result.succeeded then stamp ("mounted ".toList ++ dev ++ " -> ".toList ++ mnt)
    else tracingWarn (dev ++ " would not mount at ".toList ++ mnt)

/-- Enter one of the planned writables into the new root's fstab. -/
def applyWritable (dev mnt : Text) : Boot Unit := do
  if ← waitForBlock dev then
    appendFstab (dev ++ " ".toList ++ mnt ++
      " xfs defaults,x-systemd.makefs,x-systemd.growfs,nofail 0 0".toList)
    stamp ("writable ".toList ++ dev ++ " -> ".toList ++ mnt)
  else
    tracingWarn (dev ++ " never appeared; ".toList ++ mnt ++ " falls back to overlay".toList)

/-- Enter the image store. -/
def applyImageStore (dev mnt : Text) : Boot Unit := do
  if ← waitForBlock dev then
    createDirAllOk (sysroot ++ mnt)
    appendFstab (dev ++ " ".toList ++ mnt ++ " erofs ro,nofail 0 0".toList)
    stamp ("image-store ".toList ++ dev ++ " -> ".toList ++ mnt ++ " (ro)".toList)
  else tracingWarn ("image-store ".toList ++ dev ++ " never appeared".toList)

/-- Apply the export plan once root is mounted. -/
def applyExports (plan : ExportPlan) : Boot Unit := do
  Program.forEach plan.mountMap fun (dev, mnt) => applyMount dev mnt
  Program.forEach plan.fstabWritable fun (dev, mnt) => applyWritable dev mnt
  match plan.imageStore with
  | some (dev, mnt) => applyImageStore dev mnt
  | none => .done ()

/-- Write the identity pinned at PXE time into the new root. -/
def writeIdentity (params : BootParams) : Boot Unit := do
  match params.hostname with
  | some hostname =>
    let path := sysroot ++ "/etc/hostname".toList
    match ← Program.perform (SysOp.writeFile path (hostname ++ "\n".toList)) with
    | .ok () => .done ()
    | .error err => tracingWarn ("could not write ".toList ++ path ++ ": ".toList ++ err)
  | none => .done ()
  match params.role with
  | some role =>
    let dir := sysroot ++ "/etc/storm".toList
    createDirAllOk dir
    match ← Program.perform (SysOp.writeFile (dir ++ "/role".toList) (role ++ "\n".toList)) with
    | .ok () => .done ()
    | .error err => tracingWarn ("could not write role: ".toList ++ err)
  | none => .done ()
  if ← pathExists "/etc/resolv.conf".toList then
    let _ ← Program.perform
      (SysOp.copyFile "/etc/resolv.conf".toList (sysroot ++ "/etc/resolv.conf".toList))

/-- The first of the candidates that exists under the new root. -/
def findInit : List Text → Boot (Option Text)
  | [] => .done none
  | candidate :: rest => do
    if ← pathExists (sysroot ++ candidate) then .done (some candidate) else findInit rest

/-- Move the mounts over and become the new root's init; returning at all is a failure. -/
def switchRoot : Boot Unit := do
  Program.forEach (words ["/proc", "/sys", "/dev", "/run"]) fun point => do
    createDirAllOk (sysroot ++ point)
    let _ ← runCommand (words ["/bin/mount", "--move"] ++ [point, sysroot ++ point])
    .done ()
  match ← findInit (words ["/sbin/init", "/usr/lib/systemd/systemd"]) with
  | none => bail "no init found in the new root".toList
  | some init =>
    stamp ("switch_root into ".toList ++ init)
    let err : Text ← Program.perform (SysOp.execReplace ["/sbin/switch_root".toList, sysroot, init])
    bail ("switch_root failed: ".toList ++ err)

/-- Everything after the flow-over guard: attach the root, mount it, hand over. -/
def attachAndHandOver (params : BootParams) : Boot Unit := do
  if params.isNetworkBoot then bringUpNetwork params
  else if params.slabs.isEmpty then
    bail ("no root source on the command line: missing ".toList ++
      joinWith ", ".toList params.missing ++ " (and no rd.stormblock.slab for a local boot)".toList)
  reportPhase "assets-fetched" none
  let slabs ← withContext "resolving the root slab".toList (resolveSlabs params)
  let plan := params.exportPlan
  withContext "starting stormblock".toList (startEngine params slabs plan)
  match ← (waitForDevice rootDev 60).attempt with
  | .ok () => .done ()
  | .error e =>
    Program.perform SysOp.killEngine
    .fail e
  reportPhase "root-attached" none
  stamp "root device present".toList
  mountRoot params
  applyExports plan
  writeIdentity params
  let _ ← refresh params sysroot
  reportPhase "running" none
  if params.localDisk.isSome then
    reportPhase "assimilating" (some "flow-over started".toList)
  switchRoot

/-- The boot sequence. -/
def run (params : BootParams) : Boot Unit := do
  stamp "stormnetboot-init starting".toList
  mountPseudoFilesystems
  loadModules
  match params.checkLocalDisk with
  | .error err => bail err
  | .ok () => attachAndHandOver params

end Stormnetboot.Init

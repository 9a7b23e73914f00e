import Stormnetboot.Server.Config

/-!
# iPXE script rendering

The script is rendered per host, so that the initramfs is told on the kernel command line
where root lives, who the machine is and what role it plays.
-/

namespace Stormnetboot.Server

open Stormnetboot.Common

/-- Everything needed to render one host's boot. -/
structure BootPlan where
  mac : Option Mac
  record : Option HostRecord
  portal : Option Text
  portalPort : UInt16
  nqn : Option Text
  nsid : Option UInt32
  volume : Option Text
  deriving DecidableEq, Repr

namespace BootPlan

/-- Resolve a plan from the configuration and the host's record, whose portal wins. -/
def resolve (cfg : Config) (mac : Option Mac) (record : Option HostRecord) : BootPlan where
  mac := mac
  record := record
  portal := (record.bind HostRecord.portal).or cfg.portal
  portalPort := cfg.portalPort
  nqn := none
  nsid := none
  volume := none

/-- Where root comes from; nothing without a portal. The volume's key lacks the `rd.` of the
others. -/
def rootParts (plan : BootPlan) : List Text :=
  match plan.portal with
  | none => []
  | some portal =>
    ["rd.stormblock.portal=".toList ++ portal,
      "rd.stormblock.port=".toList ++ natText plan.portalPort.toNat] ++
    (plan.nqn.map ("rd.stormblock.nqn=".toList ++ ·)).toList ++
    (plan.nsid.map fun nsid => "rd.stormblock.nsid=".toList ++ natText nsid.toNat).toList ++
    (plan.volume.map ("stormblock.volume=".toList ++ ·)).toList ++
    ["root=/dev/ublkb0".toList]

/-- Who the machine is. -/
def identityParts (plan : BootPlan) : List Text :=
  match plan.record with
  | none => []
  | some record =>
    ["storm.hostname=".toList ++ record.name] ++
    (record.role.map ("storm.role=".toList ++ ·)).toList

/-- The configured extra command line, when there is one, and the host's own. -/
def extraParts (cfg : Config) (plan : BootPlan) : List Text :=
  (if cfg.extraCmdline.isEmpty then [] else [cfg.extraCmdline]) ++
  (plan.record.bind HostRecord.extraCmdline).toList

/-- The pieces of the kernel command line, in order. -/
def parts (cfg : Config) (plan : BootPlan) : List Text :=
  plan.rootParts ++
  (cfg.localDisk.map ("rd.stormblock.local-disk=".toList ++ ·)).toList ++
  plan.identityParts ++ extraParts cfg plan

/-- The kernel command line fragment. -/
def cmdline (cfg : Config) (plan : BootPlan) : Text :=
  joinWith " ".toList (plan.parts cfg)

end BootPlan

/-- The comment that says whom the script is for. -/
def greeting (plan : BootPlan) : Text :=
  match plan.mac, plan.record with
  | some mac, some record => "# ".toList ++ mac.display ++ " -> ".toList ++ record.name ++ "\n".toList
  | some mac, none =>
    "# ".toList ++ mac.display ++ " (no host record; serving defaults)\n".toList
  | none, _ => "# no MAC supplied; serving the default boot\n".toList

/-- The warning of a script that has no portal to name. -/
def portalWarning : Text :=
  "# WARNING: no NVMe/TCP portal for this host. The kernel will boot but\n".toList ++
    "# the initramfs has nowhere to attach root from.\n".toList

/-- Render the per-host boot script. -/
def render (cfg : Config) (plan : BootPlan) : Text :=
  "#!ipxe\n\n".toList ++ greeting plan ++
    (if plan.portal.isNone then portalWarning else []) ++
    "\nset base ".toList ++ cfg.base ++ "\n".toList ++
    "kernel $\x7bbase\x7d/boot/vmlinuz initrd=initramfs.img ".toList ++ plan.cmdline cfg ++
    "\n".toList ++ "initrd $\x7bbase\x7d/boot/initramfs.img\n".toList ++ "boot\n".toList

end Stormnetboot.Server

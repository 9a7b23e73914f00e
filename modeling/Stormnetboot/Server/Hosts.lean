import Stormnetboot.Common.HashMap
import Stormnetboot.Server.Mac

/-!
# Host records

Who a booting machine is and what it should boot, in two layers: the cluster's `BootHost`
objects answer first, and the bootstrap file for the machines the cluster does not know.
-/

namespace Stormnetboot.Server

open Stormnetboot.Common

/-- The Kubernetes object a record was read from. -/
structure ObjectRef where
  namespace_ : Text
  name : Text
  generation : Int64
  deriving DecidableEq, Repr

/-- What a specific machine should boot, and as whom. -/
structure HostRecord where
  mac : Mac
  name : Text
  role : Option Text
  stack : Option Text
  portal : Option Text
  extraCmdline : Option Text
  online : Bool
  object : Option ObjectRef
  deriving DecidableEq, Repr

/-- What to do when a machine without a record asks to boot. -/
inductive UnknownHostPolicy where
  | allow
  | deny
  deriving DecidableEq, Repr

/-- The two layers, and whether the cluster has been listed at least once. -/
structure HostStore where
  file : HashMap Mac HostRecord
  kube : HashMap Mac HostRecord
  kubeSynced : Bool

namespace HostStore

/-- A store with no records. -/
def empty : HostStore where
  file := ∅
  kube := ∅
  kubeSynced := false

/-- Replace the bootstrap layer, as a reload of a changed file does. -/
def setFileRecords (records : List HostRecord) (store : HostStore) : HostStore :=
  { store with file := HashMap.collect (records.map fun r => (r.mac, r)) }

/-- Replace the whole cluster layer. -/
def setKubeRecords (records : List HostRecord) (store : HostStore) : HostStore :=
  { store with
    kube := HashMap.collect (records.map fun r => (r.mac, r))
    kubeSynced := true }

/-- Apply one `BootHost`. -/
def applyKubeRecord (record : HostRecord) (store : HostStore) : HostStore :=
  { store with kube := store.kube.insert record.mac record }

/-- Forget one `BootHost`. -/
def removeKubeRecord (mac : Mac) (store : HostStore) : HostStore :=
  { store with kube := store.kube.erase mac }

/-- The cluster layer answers first. -/
def lookup (mac : Mac) (store : HostStore) : Option HostRecord :=
  (store.kube.lookup mac).or (store.file.lookup mac)

end HostStore

end Stormnetboot.Server

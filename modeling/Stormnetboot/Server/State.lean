import Stormnetboot.Common.HashMap
import Stormnetboot.Server.Mac

/-!
# Boot state tracking

What each host was last seen doing, in a bounded map. A full map makes room for a host it
does not track by forgetting the finished ones, or else the one that was silent for longest.
The clock and the order in which the map is iterated are inputs of every operation.
-/

namespace Stormnetboot.Server

open Stormnetboot.Common

/-- Where a host is in the sequence, in the order it happens. -/
inductive Phase where
  | scriptFetched
  | assetsFetched
  | rootAttached
  | running
  | assimilating
  | local
  | failed
  deriving DecidableEq, Repr

namespace Phase

/-- The position in the declaration, which the derived order compares. -/
def rank : Phase → ℕ
  | .scriptFetched => 0
  | .assetsFetched => 1
  | .rootAttached => 2
  | .running => 3
  | .assimilating => 4
  | .local => 5
  | .failed => 6

/-- The host no longer needs the boot server. -/
def isTerminal : Phase → Bool
  | .local => true
  | .failed => true
  | _ => false

/-- The wire spelling. -/
def slug : Phase → Text
  | .scriptFetched => "script-fetched".toList
  | .assetsFetched => "assets-fetched".toList
  | .rootAttached => "root-attached".toList
  | .running => "running".toList
  | .assimilating => "assimilating".toList
  | .local => "local".toList
  | .failed => "failed".toList

end Phase

/-- Hardware as the running node described itself. -/
structure Inventory where
  cpus : UInt32
  memoryKb : UInt64
  product : Option Text
  serial : Option Text
  disks : List Text
  deriving DecidableEq, Repr

/-- What the server has seen of one host. -/
structure HostState where
  mac : Mac
  phase : Phase
  detail : Option Text
  palletVersion : Option Text
  hardware : Option Inventory
  firstSeenUnix : ℕ
  updatedUnix : ℕ
  deriving DecidableEq, Repr

/-- Upper bound on tracked hosts. -/
def maxTracked : ℕ := 20000

/-- What the server has seen, by MAC. -/
abbrev BootState := HashMap Mac HostState

/-- What an operation finds in its surroundings: the time, and the order of the map. -/
structure Moment where
  now : ℕ
  order : HashMap.Iteration Mac HostState

namespace BootState

/-- Forget the finished hosts; if the map is still full, forget the least recently updated
one, the first of them in the map's order. -/
def evictFinished (order : HashMap.Iteration Mac HostState) (hosts : BootState) : BootState :=
  let hosts := HashMap.retain (fun state => !state.phase.isTerminal) hosts
  if HashMap.len hosts ≥ maxTracked then
    match (order.values hosts).argmin HostState.updatedUnix with
    | some oldest => hosts.erase oldest.mac
    | none => hosts
  else hosts

/-- Make room for a host the map does not hold. -/
def makeRoom (order : HashMap.Iteration Mac HostState) (mac : Mac) (hosts : BootState) :
    BootState :=
  if HashMap.len hosts ≥ maxTracked ∧ (hosts.lookup mac).isNone then evictFinished order hosts
  else hosts

/-- A tracked host at a new observation: phases only move forward, except to failure. -/
def advance (now : ℕ) (phase : Phase) (detail : Option Text) (state : HostState) : HostState :=
  if phase.rank ≥ state.phase.rank ∨ phase = .failed then
    { state with phase := phase, detail := detail, updatedUnix := now }
  else state

/-- Record a phase transition. -/
def observe (moment : Moment) (mac : Mac) (phase : Phase) (detail : Option Text)
    (hosts : BootState) : BootState :=
  let hosts := makeRoom moment.order mac hosts
  match hosts.lookup mac with
  | some state => hosts.insert mac (advance moment.now phase detail state)
  | none => hosts.insert mac {
      mac := mac
      phase := phase
      detail := detail
      palletVersion := none
      hardware := none
      firstSeenUnix := moment.now
      updatedUnix := moment.now }

/-- Note which boot pallet version a host was served. -/
def setPalletVersion (mac : Mac) (version : Text) (hosts : BootState) : BootState :=
  HashMap.modify mac (fun state => { state with palletVersion := some version }) hosts

/-- Record the inventory a running node reported about itself. -/
def setInventory (moment : Moment) (mac : Mac) (hardware : Inventory) (hosts : BootState) :
    BootState :=
  let hosts := makeRoom moment.order mac hosts
  match hosts.lookup mac with
  | some state =>
    hosts.insert mac { state with hardware := some hardware, updatedUnix := moment.now }
  | none => hosts.insert mac {
      mac := mac
      phase := .running
      detail := none
      palletVersion := none
      hardware := some hardware
      firstSeenUnix := moment.now
      updatedUnix := moment.now }

end BootState

end Stormnetboot.Server

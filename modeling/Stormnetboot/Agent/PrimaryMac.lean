import Stormnetboot.Common.Listings
import Stormnetboot.Common.Text
import Mathlib.Data.Char
import Mathlib.Data.List.Lex

/-!
# The MAC a node reports under

A node that is not told its MAC takes it from the interface of its first default route, and from
the first interface in name order where that one has no usable address. The search for the route
ends the function when it finds none, so the interfaces are never looked at on a node that has no
default route yet: it finds no MAC, and reports nothing.
-/

namespace Stormnetboot.Agent

open Stormnetboot.Common

/-- What the kernel shows of a node's network. -/
structure NetworkFiles where
  /-- `/proc/net/route`, if it can be read. -/
  route : Option Text
  /-- The entries of `/sys/class/net` in the order of the directory, if it can be read. -/
  interfaces : Option (List Text)
  /-- The `address` of an interface, if there is such a file and it can be read. -/
  address : Text → Option Text

/-- The interface of a line of the routing table, if the line is a default route. -/
def defaultInterface (line : Text) : Option Text :=
  match splitWhitespace line with
  | iface :: destination :: _ => if destination = "00000000".toList then some iface else none
  | _ => none

/-- The interface of the first default route, below the header. -/
def defaultRoute (route : Text) : Option Text :=
  ((lines route).drop 1).findSome? defaultInterface

namespace NetworkFiles

/-- The address of an interface, unless it is empty or all zero. -/
def readMac (net : NetworkFiles) (iface : Text) : Option Text :=
  match net.address iface with
  | none => none
  | some content =>
    let mac := toAsciiLowercase (trim content)
    if !mac.isEmpty ∧ mac ≠ "00:00:00:00:00:00".toList then some mac else none

/-- The first interface in name order with a usable address. -/
def firstInterface (net : NetworkFiles) : Option Text :=
  match net.interfaces with
  | none => none
  | some entries =>
    let names := (entries.filter fun n => n ≠ "lo".toList).mergeSort fun a b => decide (a ≤ b)
    names.findSome? net.readMac

/-- MAC of the interface holding the default route. -/
def primaryMac (net : NetworkFiles) : Option Text :=
  match net.route with
  | none => none
  | some route =>
    -- The search for a default route returns where there is none, before the fallback.
    match defaultRoute route with
    | none => none
    | some iface => (net.readMac iface).or net.firstInterface

end NetworkFiles

/-- The MAC the agent reports under: the one it is given, or the primary one. -/
def reportMac (given : Option Text) (net : NetworkFiles) : Except Text Text :=
  match given with
  | some mac => .ok mac
  | none =>
    match net.primaryMac with
    | some mac => .ok mac
    | none => .error ("could not determine this node's MAC; pass --mac so reports can be " ++
        "matched to the host").toList

/-! ## The MAC it should find -/

/-- The line is a default route by the interface. -/
def RoutesBy (line iface : Text) : Prop :=
  ∃ rest, splitWhitespace line = iface :: "00000000".toList :: rest

/-- It is the first one below the header. -/
def FirstDefault (route iface : Text) : Prop :=
  ∃ before line after, (lines route).drop 1 = before ++ line :: after ∧ RoutesBy line iface ∧
    ∀ earlier ∈ before, ∀ other, ¬RoutesBy earlier other

namespace NetworkFiles

/-- The routing table has a default route. -/
def HasDefaultRoute (net : NetworkFiles) : Prop :=
  ∃ route iface, net.route = some route ∧ FirstDefault route iface

/-- The interface is listed, and is not the loopback. -/
def Listed (net : NetworkFiles) (iface : Text) : Prop :=
  ∃ entries, net.interfaces = some entries ∧ iface ∈ entries ∧ iface ≠ "lo".toList

/-- The MAC a node has: by its first default route where that gives one, else by the first listed
interface in name order that gives one, and none where no interface does. -/
inductive HasMac (net : NetworkFiles) : Option Text → Prop where
  | routed {route iface mac : Text} (hroute : net.route = some route)
      (hfirst : FirstDefault route iface) (hmac : net.readMac iface = some mac) :
      HasMac net (some mac)
  | listed {iface mac : Text}
      (hunrouted : ∀ route iface, net.route = some route → FirstDefault route iface →
        net.readMac iface = none)
      (hlisted : net.Listed iface) (hmac : net.readMac iface = some mac)
      (hfirst : ∀ other, net.Listed other → other < iface → net.readMac other = none) :
      HasMac net (some mac)
  | none
      (hunrouted : ∀ route iface, net.route = some route → FirstDefault route iface →
        net.readMac iface = none)
      (hunlisted : ∀ iface, net.Listed iface → net.readMac iface = none) : HasMac net none

end NetworkFiles

/-- A line gives its interface exactly when it is a default route. -/
theorem defaultInterface_eq_some_iff (line iface : Text) :
    defaultInterface line = some iface ↔ RoutesBy line iface := by
  unfold defaultInterface RoutesBy
  rcases splitWhitespace line with _ | ⟨first, _ | ⟨second, rest⟩⟩
  · simp
  · simp
  · simp only [Option.ite_none_right_eq_some, Option.some.injEq, List.cons.injEq]
    constructor
    · rintro ⟨hdestination, rfl⟩
      exact ⟨rest, rfl, hdestination, rfl⟩
    · rintro ⟨rest, rfl, hdestination, -⟩
      exact ⟨hdestination, rfl⟩

/-- The interface of a table is that of its first default route. -/
theorem defaultRoute_eq_some_iff (route iface : Text) :
    defaultRoute route = some iface ↔ FirstDefault route iface := by
  rw [defaultRoute, List.findSome?_eq_some_iff, FirstDefault]
  refine exists₃_congr fun before line after => and_congr_right fun _ => ?_
  refine and_congr (defaultInterface_eq_some_iff line iface) (forall₂_congr fun earlier _ => ?_)
  rw [Option.eq_none_iff_forall_ne_some]
  exact forall_congr' fun other => not_congr (defaultInterface_eq_some_iff earlier other)

namespace NetworkFiles

variable (net : NetworkFiles)

/-- The listed interfaces are the entries but for the loopback. -/
theorem listed_iff {entries : List Text} (hentries : net.interfaces = some entries)
    (iface : Text) : net.Listed iface ↔ iface ∈ entries.filter fun n => n ≠ "lo".toList := by
  rw [List.mem_filter, decide_eq_true_eq]
  constructor
  · rintro ⟨entries', hentries', hmem⟩
    cases hentries.symm.trans hentries'
    exact hmem
  · exact fun hmem => ⟨entries, hentries, hmem⟩

/-- Without a usable address on any listed interface there is none to fall back to. -/
theorem firstInterface_eq_none_iff :
    net.firstInterface = none ↔ ∀ iface, net.Listed iface → net.readMac iface = none := by
  unfold firstInterface
  cases hentries : net.interfaces with
  | none => simp [Listed, hentries]
  | some entries => simp only [List.findSome?_eq_none_iff, List.mem_mergeSort, net.listed_iff hentries]

/-- What is found by the names is found at the first of them. -/
theorem listed_of_firstInterface {mac : Text} (h : net.firstInterface = some mac) :
    ∃ iface, net.Listed iface ∧ net.readMac iface = some mac ∧
      ∀ other, net.Listed other → other < iface → net.readMac other = none := by
  unfold firstInterface at h
  cases hentries : net.interfaces with
  | none =>
    rw [hentries] at h
    cases h
  | some entries =>
    rw [hentries] at h
    simp only [net.listed_iff hentries]
    exact findSome?_mergeSort h

/-- Without a default route the function returns before it looks at the interfaces. -/
theorem primaryMac_of_unrouted (h : ¬net.HasDefaultRoute) : net.primaryMac = none := by
  unfold primaryMac
  cases hroute : net.route with
  | none => rfl
  | some route =>
    cases hdefault : defaultRoute route with
    | none => simp only [hdefault]
    | some iface => exact absurd ⟨route, iface, hroute, (defaultRoute_eq_some_iff ..).mp hdefault⟩ h

/-- With one it looks at that route's interface, and then at the listed ones. -/
theorem primaryMac_of_routed {route iface : Text} (hroute : net.route = some route)
    (hfirst : FirstDefault route iface) :
    net.primaryMac = (net.readMac iface).or net.firstInterface := by
  unfold primaryMac
  rw [hroute]
  simp only [(defaultRoute_eq_some_iff route iface).mpr hfirst]

/-- There is one first default route. -/
theorem firstDefault_unique {route iface iface' : Text} (h : FirstDefault route iface)
    (h' : FirstDefault route iface') : iface' = iface := by
  rw [← defaultRoute_eq_some_iff] at h h'
  exact Option.some.inj (h'.symm.trans h)

/-- Behind a default route the node finds the MAC it has. -/
theorem hasMac_of_routed (h : net.HasDefaultRoute) : net.HasMac net.primaryMac := by
  obtain ⟨route, iface, hroute, hfirst⟩ := h
  rw [net.primaryMac_of_routed hroute hfirst]
  cases hmac : net.readMac iface with
  | some mac => exact .routed hroute hfirst hmac
  | none =>
    have hunrouted : ∀ route' iface', net.route = some route' → FirstDefault route' iface' →
        net.readMac iface' = none := by
      intro route' iface' hroute' hfirst'
      cases hroute.symm.trans hroute'
      rw [firstDefault_unique hfirst hfirst', hmac]
    rw [Option.none_or]
    cases hinterface : net.firstInterface with
    | none => exact .none hunrouted ((net.firstInterface_eq_none_iff).mp hinterface)
    | some mac =>
      obtain ⟨other, hlisted, hmac, hbefore⟩ := net.listed_of_firstInterface hinterface
      exact .listed hunrouted hlisted hmac hbefore

/-- The node finds the MAC it has exactly where its routing table has a default route, or no
listed interface has a usable address: without a default route it finds none. -/
theorem hasMac_primaryMac_iff :
    net.HasMac net.primaryMac ↔
      net.HasDefaultRoute ∨ ∀ iface, net.Listed iface → net.readMac iface = none := by
  constructor
  · intro h
    by_cases hrouted : net.HasDefaultRoute
    · exact .inl hrouted
    · rw [net.primaryMac_of_unrouted hrouted] at h
      cases h with
      | none _ hunlisted => exact .inr hunlisted
  · rintro (hrouted | hunlisted)
    · exact net.hasMac_of_routed hrouted
    · by_cases hrouted : net.HasDefaultRoute
      · exact net.hasMac_of_routed hrouted
      · rw [net.primaryMac_of_unrouted hrouted]
        exact .none (fun route iface hroute hfirst => absurd ⟨route, iface, hroute, hfirst⟩ hrouted)
          hunlisted

/-- A node that booted from an interface which has no route yet. -/
def unrouted : NetworkFiles where
  route := some "Iface\tDestination\tGateway\tFlags\n".toList
  interfaces := some ["lo".toList, "eth0".toList]
  address iface :=
    if iface = "eth0".toList then some "AA:BB:CC:DD:EE:01\n".toList
    else if iface = "lo".toList then some "00:00:00:00:00:00\n".toList
    else none

/-- It has a MAC and does not find it. -/
theorem not_hasMac_unrouted : ¬unrouted.HasMac unrouted.primaryMac := by
  have hprimary : unrouted.primaryMac = none := by decide
  have hmac : unrouted.readMac "eth0".toList = some "aa:bb:cc:dd:ee:01".toList := by decide
  rw [hprimary]
  intro h
  cases h with
  | none _ hunlisted =>
    have hlisted : unrouted.Listed "eth0".toList := ⟨_, rfl, by decide, by decide⟩
    rw [hunlisted _ hlisted] at hmac
    cases hmac

end NetworkFiles

/-- An agent that is not given a MAC, on a node without a default route, does not start. -/
theorem reportMac_of_unrouted {net : NetworkFiles} (h : ¬net.HasDefaultRoute) :
    ∃ err, reportMac none net = .error err := by
  rw [reportMac, net.primaryMac_of_unrouted h]
  exact ⟨_, rfl⟩

end Stormnetboot.Agent

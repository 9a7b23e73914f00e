import Stormnetboot.Boot.AttachRoot

/-!
# The numbers in an attach URI

The port and the namespace are read with their errors dropped. A port that is no number leaves no
URI behind, but a namespace that is no number leaves the first one, so the URI names what the
command line says exactly where the last namespace on it can be read, or nothing is attached.
-/

namespace Stormnetboot.Boot

open Stormnetboot.Common Stormnetboot.Init

/-- What the last word with this key and a value gives it. -/
def lastGiven (name : String) (cmdline : Text) : Option Text :=
  lastSetting (isKey name) (splitWhitespace cmdline)

/-- The number it gives, where it is one of the width. -/
def lastNumber (name : String) (width : ℕ) (cmdline : Text) : Option ℕ :=
  (lastGiven name cmdline).bind (parseUnsigned width)

/-- A URI has the port of the last port on the line, and the namespace of the last one if there
is one at all. -/
def NeverGuesses (cmdline : Text) : Prop :=
  ∀ uri, (BootParams.parse cmdline).nvmeUri = some uri →
    ∃ portal port nqn nsid, uri = rootUri portal port nqn nsid ∧
      lastGiven "rd.stormblock.portal" cmdline = some portal ∧
      lastGiven "rd.stormblock.nqn" cmdline = some nqn ∧
      lastNumber "rd.stormblock.port" 16 cmdline = some port ∧
      ((lastGiven "rd.stormblock.nsid" cmdline).isSome →
        lastNumber "rd.stormblock.nsid" 32 cmdline = some nsid)

/-- The line names a portal, a readable port and an NQN. -/
def NamesRoot (cmdline : Text) : Prop :=
  (lastGiven "rd.stormblock.portal" cmdline).isSome ∧
    (lastNumber "rd.stormblock.port" 16 cmdline).isSome ∧
    (lastGiven "rd.stormblock.nqn" cmdline).isSome

/-- The last namespace on the line, if there is one, is a number. -/
def ReadableNamespace (cmdline : Text) : Prop :=
  (lastGiven "rd.stormblock.nsid" cmdline).isSome →
    (lastNumber "rd.stormblock.nsid" 32 cmdline).isSome

/-- A URI is made of what the line names. -/
theorem nvmeUri_parse_eq_some_iff (cmdline uri : Text) :
    (BootParams.parse cmdline).nvmeUri = some uri ↔
      ∃ portal port nqn, lastGiven "rd.stormblock.portal" cmdline = some portal ∧
        lastNumber "rd.stormblock.port" 16 cmdline = some port ∧
        lastGiven "rd.stormblock.nqn" cmdline = some nqn ∧
        rootUri portal port nqn ((lastNumber "rd.stormblock.nsid" 32 cmdline).getD 1) = uri := by
  have hset := BootParams.setBy_parse cmdline
  have huri : (BootParams.parse cmdline).nvmeUri =
      (lastGiven "rd.stormblock.portal" cmdline).bind fun portal =>
        (lastNumber "rd.stormblock.port" 16 cmdline).bind fun port =>
          (lastGiven "rd.stormblock.nqn" cmdline).bind fun nqn =>
            some (rootUri portal port nqn
              ((lastNumber "rd.stormblock.nsid" 32 cmdline).getD 1)) := by
    unfold BootParams.nvmeUri
    rw [hset.portal, hset.port, hset.nqn, hset.nsid]
    rfl
  simp only [huri, Option.bind_eq_some_iff, Option.some.injEq]
  constructor
  · rintro ⟨portal, hportal, port, hport, nqn, hnqn, huri⟩
    exact ⟨portal, port, nqn, hportal, hport, hnqn, huri⟩
  · rintro ⟨portal, port, nqn, hportal, hport, hnqn, huri⟩
    exact ⟨portal, hportal, port, hport, nqn, hnqn, huri⟩

/-- The URI never guesses exactly where the namespace can be read or no root is named. -/
theorem neverGuesses_iff (cmdline : Text) :
    NeverGuesses cmdline ↔ (NamesRoot cmdline → ReadableNamespace cmdline) := by
  constructor
  · rintro h ⟨hportal, hport, hnqn⟩ hgiven
    obtain ⟨portal, hportal⟩ := Option.isSome_iff_exists.mp hportal
    obtain ⟨port, hport⟩ := Option.isSome_iff_exists.mp hport
    obtain ⟨nqn, hnqn⟩ := Option.isSome_iff_exists.mp hnqn
    obtain ⟨_, _, _, nsid, -, -, -, -, hnsid⟩ :=
      h _ ((nvmeUri_parse_eq_some_iff ..).mpr ⟨portal, port, nqn, hportal, hport, hnqn, rfl⟩)
    rw [hnsid hgiven]
    rfl
  · intro h uri huri
    obtain ⟨portal, port, nqn, hportal, hport, hnqn, rfl⟩ :=
      (nvmeUri_parse_eq_some_iff ..).mp huri
    refine ⟨portal, port, nqn, _, rfl, hportal, hnqn, hport, fun hgiven => ?_⟩
    have hnames : NamesRoot cmdline := by
      rw [NamesRoot, hportal, hport, hnqn]
      exact ⟨rfl, rfl, rfl⟩
    obtain ⟨nsid, hnsid⟩ := Option.isSome_iff_exists.mp (h hnames hgiven)
    rw [hnsid]
    rfl

/-- A namespace that is no number: the first one is attached. -/
theorem not_neverGuesses_malformed :
    ¬NeverGuesses ("rd.stormblock.portal=10.0.0.5 rd.stormblock.port=4431 ".toList ++
      "rd.stormblock.nqn=nqn.x rd.stormblock.nsid=two".toList) := by
  intro h
  obtain ⟨_, _, _, nsid, -, -, -, -, hnsid⟩ :=
    h "nvme-tcp://10.0.0.5:4431/nqn.x?nsid=1".toList (by decide)
  have hgiven := hnsid (by decide)
  have hnone : lastNumber "rd.stormblock.nsid" 32
      ("rd.stormblock.portal=10.0.0.5 rd.stormblock.port=4431 ".toList ++
        "rd.stormblock.nqn=nqn.x rd.stormblock.nsid=two".toList) = none := by decide
  rw [hnone] at hgiven
  cases hgiven

end Stormnetboot.Boot

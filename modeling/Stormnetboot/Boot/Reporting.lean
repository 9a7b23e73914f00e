import Stormnetboot.Boot.AttachRoot
import Stormnetboot.Boot.ReportWire
import Stormnetboot.Boot.RoundTrip
import Stormnetboot.Server.PhaseReport

/-!
# Whether a netbooted node can report

The reporter of the initramfs needs a MAC and a report URL from the command line, and the
server writes neither of them. A node reports only if the operator's extra command line has
both, or if a value breaks apart at whitespace into words that do, and only if the URL is one
that the reporter can take apart.
-/

namespace Stormnetboot.Boot

open Stormnetboot.Common Stormnetboot.Init Stormnetboot.Server

/-- A message goes out for whatever the initramfs reports, and what it reports is tracked under this
MAC. -/
structure Reports (mac : Mac) (p : BootParams) : Prop where
  posts : ∀ phase detail, ∃ target wire,
    (Reporter.mk p.reportUrl p.mac).message phase detail = .ok (some (target, wire))
  mac : ∃ text, p.mac = some text ∧ Mac.parse text = .ok mac ∧
    ∀ moment phase detail boot, report moment ⟨text, Phase.slug phase, detail⟩ boot =
      .ok (boot.observe moment mac phase detail)

/-- So its reporter is not inert. -/
theorem Reports.not_inert {mac : Mac} {p : BootParams} (h : Reports mac p) :
    ¬ (Reporter.mk p.reportUrl p.mac).Inert := by
  intro hinert
  obtain ⟨target, wire, hsent⟩ := h.posts [] none
  cases (hinert [] none).symm.trans hsent

/-- The stray words of the line say both: this MAC, and a URL that the reporter can take apart. -/
def StraysReport (cfg : Config) (plan : BootPlan) (mac : Mac) : Prop :=
  (∃ value, lastSetting isMacKey (strays cfg plan) = some value ∧
    Mac.parse (normaliseBootif value) = .ok mac) ∧
  ∃ url target, lastSetting (isKey "storm.report") (strays cfg plan) = some url ∧
    splitUrl url = .ok target

/-- Where the values are one word each, the stray words are those of the extra command lines. -/
theorem exists_extra_of_mem_strays {cfg : Config} {plan : BootPlan} (h : PlainFields cfg plan)
    {word : Text} (hword : word ∈ strays cfg plan) :
    ∃ extra ∈ BootPlan.extraParts cfg plan, word ∈ wordsBy isWhitespace extra := by
  obtain ⟨piece, hpiece, hstray⟩ := List.mem_flatMap.mp hword
  obtain ⟨whole, hwhole, hcases⟩ := exists_of_mem_firstLine hpiece
  cases whole with
  | setting name value =>
    have hsolid := (h.pieces name value hwhole).2
    have hfirst : Solid isWhitespace (value.takeWhile (· ≠ '\n')) :=
      fun c hc => hsolid c ((List.takeWhile_prefix _).subset hc)
    have hnone : piece.strays isWhitespace = [] := by
      rcases hcases with rfl | rfl
      · exact strayWords_of_solid hsolid
      · exact strayWords_of_solid hfirst
    rw [hnone] at hstray
    cases hstray
  | free line =>
    refine ⟨line, mem_extraParts_of_free hwhole, ?_⟩
    rcases hcases with rfl | rfl
    · exact hstray
    · exact wordsBy_takeWhile_subset (by decide) line hstray

/-- With one-word values and no boot keys in the extra command lines, no node reports. -/
theorem not_straysReport_of_plain {cfg : Config} {plan : BootPlan} (h : PlainFields cfg plan)
    (mac : Mac) : ¬ StraysReport cfg plan mac := by
  intro ⟨_, url, _, hurl, _⟩
  have hkeys : ∀ key, isKey "storm.report" key = true → ∃ name ∈ bootKeys, key = name.toList :=
    fun key hkey => ⟨"storm.report", by decide, of_decide_eq_true hkey⟩
  have hnone : lastSetting (isKey "storm.report") (strays cfg plan) = none := by
    refine lastSetting_eq_none_iff.mpr fun word hword => ?_
    obtain ⟨extra, hextra, hmem⟩ := exists_extra_of_mem_strays h hword
    exact lastSetting_eq_none_iff.mp (h.extras.lastSetting_eq_none hkeys hextra) word hmem
  rw [hnone] at hurl
  cases hurl

namespace Reported

/-- The machine's MAC as it asks for its script. -/
def raw : Text := "aa-bb-cc-dd-ee-01".toList

/-- The same, parsed. -/
def mac : Mac :=
  .ofOctets 0xaa 0xbb 0xcc 0xdd 0xee 0x01

/-- The plan of a claimed clone, and that of the helped node. -/
def claimedPlan : BootPlan :=
  bootPlan Retrying.cfg ⟨some mac, none⟩
    (some (Retrying.clone "c3".toList (some Retrying.exported)))

end Reported

end Stormnetboot.Boot

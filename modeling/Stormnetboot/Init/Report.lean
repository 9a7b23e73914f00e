import Stormnetboot.Common.Text

/-!
# Progress reports from inside the initramfs

A report is one hand-written POST over a plain socket, with a JSON body escaped by hand.
Without a boot server's URL or without the machine's MAC the reporter sends nothing, and says
nothing about it.
-/

namespace Stormnetboot.Init

open Stormnetboot.Common

/-- Where the boot reports and as which machine, if it knows. -/
structure Reporter where
  url : Option Text
  mac : Option Text
  deriving DecidableEq, Repr

/-- Split `http://host:port/...` into the connect target and the `Host` header. -/
def splitUrl (url : Text) : Except Text (Text × Text) :=
  match stripPrefix "http://".toList url with
  | none => .error ("only http:// is supported here: ".toList ++ url)
  | some rest =>
    let authority := rest.takeWhile (· ≠ '/')
    if authority.isEmpty then .error ("no host in ".toList ++ url)
    else if ':' ∈ authority then .ok (authority, authority)
    else .ok (authority ++ ":80".toList, authority)

/-- One character inside a JSON string; other control characters become a space. -/
def escapeChar (c : Char) : Text :=
  if c = '"' then ['\\', '"']
  else if c = '\\' then ['\\', '\\']
  else if c = '\n' then ['\\', 'n']
  else if c = '\r' then ['\\', 'r']
  else if c = '\t' then ['\\', 't']
  else if c.toNat < 0x20 then [' ']
  else [c]

/-- A text as it stands in a JSON string. -/
def escape (s : Text) : Text :=
  s.flatMap escapeChar

/-- The report as JSON. -/
def buildBody (mac phase : Text) (detail : Option Text) : Text :=
  let detail := match detail with
    | some detail => ",\"detail\":\"".toList ++ escape detail ++ "\"".toList
    | none => []
  "\x7b\"mac\":\"".toList ++ escape mac ++ "\",\"phase\":\"".toList ++ escape phase ++
    "\"".toList ++ detail ++ "\x7d".toList

namespace Reporter

/-- What `try_post` sends, and where: nothing without a URL and a MAC. -/
def message (reporter : Reporter) (phase : Text) (detail : Option Text) :
    Except Text (Option (Text × Text)) :=
  match reporter.url, reporter.mac with
  | some url, some mac =>
    match splitUrl url with
    | .error err => .error err
    | .ok (hostPort, hostHeader) =>
      let body := buildBody mac phase detail
      .ok (some (hostPort,
        "POST /api/v1/report HTTP/1.1\r\n".toList ++
        "Host: ".toList ++ hostHeader ++ "\r\n".toList ++
        "Content-Type: application/json\r\n".toList ++
        "Content-Length: ".toList ++ natText (utf8Len body) ++ "\r\n".toList ++
        "Connection: close\r\n\r\n".toList ++ body))
  | _, _ => .ok none

/-- Every report is dropped without a word: nothing is sent, and nothing has failed. -/
def Inert (reporter : Reporter) : Prop :=
  ∀ phase detail, reporter.message phase detail = .ok none

/-- What is sent goes where the URL says, for the MAC there is. -/
theorem exists_of_message {reporter : Reporter} {phase : Text} {detail : Option Text}
    {target wire : Text} (h : reporter.message phase detail = .ok (some (target, wire))) :
    ∃ url mac, reporter.url = some url ∧ reporter.mac = some mac ∧
      ∃ host, splitUrl url = .ok (target, host) := by
  obtain ⟨url, mac⟩ := reporter
  cases url with
  | none => cases h
  | some url =>
    cases mac with
    | none => cases h
    | some mac =>
      cases hsplit : splitUrl url with
      | error err => simp only [message, hsplit, reduceCtorEq] at h
      | ok parts =>
        obtain ⟨hostPort, host⟩ := parts
        simp only [message, hsplit, Except.ok.injEq, Option.some.injEq, Prod.mk.injEq] at h
        exact ⟨url, mac, rfl, rfl, host, by rw [hsplit, h.1]⟩

/-- A reporter is inert exactly when it lacks the URL or the MAC. -/
theorem inert_iff (reporter : Reporter) :
    reporter.Inert ↔ reporter.url = none ∨ reporter.mac = none := by
  obtain ⟨url, mac⟩ := reporter
  constructor
  · intro h
    cases url with
    | none => exact .inl rfl
    | some url =>
      cases mac with
      | none => exact .inr rfl
      | some mac =>
        have hsent := h [] none
        unfold message at hsent
        cases hsplit : splitUrl url with
        | error err =>
          simp only [hsplit, reduceCtorEq] at hsent
        | ok target =>
          simp only [hsplit, Except.ok.injEq, reduceCtorEq] at hsent
  · rintro (rfl | rfl) phase detail
    · rfl
    · cases url <;> rfl

end Reporter

end Stormnetboot.Init

import Stormnetboot.Common.Runs
import Stormnetboot.Server.RefreshRuns
import Stormnetboot.Server.SignatureCalls

/-!
# What was verified before something was written or published

A server process logs, pass by pass, the calls of its signature check, the operations of the
pass and the statuses it publishes. With a signature required, everything written and every
digest published follows a verified statement about the manifest of its pass, although a pass
that finds the published digest again verifies nothing. Without that requirement the same
shortcut publishes a signature that nobody checked.
-/

namespace Stormnetboot.Server

open Stormnetboot.Common
set_option maxRecDepth 8192

/-! ## Digests in statements -/

/-- A hex digit is no letter `s`, is in lower case and no blank. -/
theorem digitChar_facts (n : ℕ) (h : n < 16) :
    Nat.digitChar n ≠ 's' ∧ (Nat.digitChar n).toLower = Nat.digitChar n ∧
      isWhitespace (Nat.digitChar n) = false := by
  interval_cases n <;> decide

/-- What is no blank in lower case is no blank. -/
theorem isWhitespace_of_toLower (c : Char) (h : isWhitespace c.toLower = false) :
    isWhitespace c = false := by
  by_cases hupper : 65 ≤ c.toNat ∧ c.toNat ≤ 90
  · simp only [isWhitespace, Bool.or_eq_false_iff, Bool.and_eq_false_iff, decide_eq_false_iff_not,
      beq_eq_false_iff_ne]
    omega
  · have hsame : c.toLower = c := Char.toNat_inj.mp (by rw [toNat_toLower, if_neg hupper])
    rwa [hsame] at h

/-- A statement about a digest that is, up to case, that of some bytes is about these bytes. -/
theorem eq_of_normaliseDigest (digest : Text) (signed hash : Bytes)
    (hdigest : toAsciiLowercase digest = "sha256:".toList ++ hexEncode hash)
    (hsigned : hexEncode signed = normaliseDigest digest) : signed = hash := by
  have hchars : ∀ c ∈ "sha256:".toList ++ hexEncode hash, isWhitespace c = false := by
    intro c hc
    have hstarts : ∀ c ∈ "sha256:".toList, isWhitespace c = false := by decide
    rcases List.mem_append.mp hc with hmem | hhex
    · exact hstarts c hmem
    · obtain ⟨n, hn, rfl⟩ := exists_of_mem_hexEncode hhex
      exact (digitChar_facts n hn).2.2
  have hclean : ∀ c ∈ digest, isWhitespace c = false := fun c hc =>
    isWhitespace_of_toLower c (hchars _ (hdigest ▸ List.mem_map_of_mem hc))
  have htrim : trim digest = digest :=
    trim_eq_self (fun c hc => hclean c (List.mem_of_mem_head? hc))
      fun c hc => hclean c (List.mem_of_getLast? hc)
  have hs : ∀ bytes : Bytes, 's' ∉ hexEncode bytes := by
    intro bytes hmem
    obtain ⟨n, hn, hchar⟩ := exists_of_mem_hexEncode hmem
    exact (digitChar_facts n hn).1 hchar.symm
  unfold normaliseDigest at hsigned
  rw [htrim] at hsigned
  cases hstarts : stripPrefix "sha256:".toList digest with
  | none =>
    -- The prefix is not in lower case, so it stays and no statement has it.
    have hkept : trimStartMatches "sha256:".toList digest = digest := by
      unfold trimStartMatches
      cases digest.length with
      | zero => rfl
      | succ n => rw [trimStartMatchesUpTo, hstarts]
    rw [hkept, hdigest] at hsigned
    exact absurd (hsigned ▸ List.mem_append_left _ (by decide)) (hs signed)
  | some rest =>
    have hsplit := (stripPrefix_eq_some_iff ..).mp hstarts
    have hrest : toAsciiLowercase rest = hexEncode hash := by
      rw [hsplit, toAsciiLowercase, List.map_append] at hdigest
      exact List.append_cancel_left hdigest
    have hnone : stripPrefix "sha256:".toList rest = none := by
      rw [Option.eq_none_iff_forall_ne_some]
      intro rest' hrest'
      rw [(stripPrefix_eq_some_iff ..).mp hrest'] at hrest
      exact hs hash (hrest ▸ List.mem_cons_self)
    have hstripped : trimStartMatches "sha256:".toList digest = rest := by
      have hlength : digest.length = (rest.length + 6) + 1 := by
        rw [hsplit, List.length_append, Nat.add_comm]
        rfl
      unfold trimStartMatches
      rw [hlength, trimStartMatchesUpTo, hstarts]
      simp only
      rw [trimStartMatchesUpTo, hnone]
    rw [hstripped, hrest] at hsigned
    exact hexEncode_inj hsigned

section Runs

variable (lib : Libraries) (src : PalletSource)

/-! ## The log of a process -/

/-- What a process does that the log keeps. -/
inductive Event where
  | call (call : VerifyCall)
  | op (op : PalletOp)
  | publish (status : AssetStatus)

/-- The operation may change the cache directory. -/
def PalletOp.Mutates : PalletOp → Prop
  | .createDirAll _ => True
  | .write _ _ _ => True
  | .rename _ _ _ => True
  | _ => False

/-- Something is written into the cache directory, or a digest is published. -/
def Event.Exposes : Event → Prop
  | .call _ => False
  | .op operation => operation.Mutates
  | .publish status => status.digest.isSome = true

/-- The calls and the operations of a pass, in order. -/
def passCalls (env : Environment) (current : Option Text) (disk : Disk) :
    List (VerifyCall ⊕ PalletOp) :=
  Program.trace (Program.observe (VerifyCall.answer lib) env.handle)
    (Calling.refresh lib src current) disk

/-- Without its calls this is what the pass performs. -/
theorem getRight_passCalls (env : Environment) (current : Option Text) (disk : Disk) :
    (passCalls lib src env current disk).filterMap Sum.getRight? =
      Program.trace env.handle (refresh lib src current) disk := by
  rw [passCalls, Program.filterMap_trace_observe, Calling.erase_refresh]

/-- What a pass adds to the log. -/
def passEvents (env : Environment) (current : Option Text) (disk : Disk) : List Event :=
  (passCalls lib src env current disk).map (Sum.elim Event.call Event.op)

/-- One pass of the log: the answers it was given and what it did. -/
structure PassRecord where
  env : Environment
  events : List Event

/-- Startup publishes a status whatever comes of its pass. -/
def startRecord (env : Environment) (cache : Disk) : PassRecord where
  env := env
  events := passEvents lib src env none cache ++ [.publish (startServing lib src env cache).status]

/-- A round publishes the status of its pass if that succeeds. -/
def Serving.roundRecord (env : Environment) (s : Serving) : PassRecord where
  env := env
  events := passEvents lib src env s.status.digest s.disk ++
    match (Program.exec env.handle (refresh lib src s.status.digest) s.disk).1 with
    | .ok refreshed => [.publish refreshed.status]
    | .error _ => []

/-- The rounds of the loop from a state on. -/
def roundRecords (s : Serving) : List Environment → List PassRecord
  | [] => []
  | env :: rest => s.roundRecord lib src env :: roundRecords (s.round lib src env) rest

/-- A process, with the answers of the registry and of the disk. -/
abbrev ServerRun := RunWith Environment (List Environment)

/-- What it logs, pass by pass. -/
def ServerRun.records (run : ServerRun) : List PassRecord :=
  startRecord lib src run.startup run.cache ::
    roundRecords lib src (startServing lib src run.startup run.cache) run.rounds

/-- Every event of every pass is as it should be, given what was logged before it. -/
def Throughout (P : List Event → Environment → Event → Prop) (history : List Event) :
    List PassRecord → Prop
  | [] => True
  | record :: rest =>
    (∀ before event after, record.events = before ++ event :: after →
      P (history ++ before) record.env event) ∧ Throughout P (history ++ record.events) rest

/-- Some call of `verify` for this digest returned a statement. -/
def VerifiedIn (history : List Event) (digest : Text) : Prop :=
  ∃ call statement, .call call ∈ history ∧ call.subject = digest ∧
    call.trustedKeys = src.trustedKeys ∧ call.answer lib = .ok statement

/-- An earlier call of `verify` returned a statement whose digest is the hash of the manifest of
this pass, and the digest it was called with, and any that is published, is that of the manifest. -/
structure BackedBy (history : List Event) (env : Environment) (event : Event) (bytes : Bytes)
    (manifest : Manifest) (call : VerifyCall) (statement : Statement) (statementBytes : Bytes) :
    Prop where
  received : received (env.registry .manifest) = some bytes
  parsed : lib.manifest bytes = some manifest
  called : .call call ∈ history
  trusted : call.trustedKeys = src.trustedKeys
  verified : call.answer lib = .ok statement
  statement_hex : hexDecode (trim call.doc.statement) = some statementBytes
  statement_parsed : parseStatement statementBytes = .ok statement
  statement_digest : slice statementBytes Off.digest Off.digestEnd = lib.sha256 bytes
  subject : toAsciiLowercase call.subject = lib.digest bytes
  published : ∀ status, event = .publish status → status.digest = some call.subject

/-- Some verified statement stands behind the event. -/
def Backed (history : List Event) (env : Environment) (event : Event) : Prop :=
  ∃ bytes manifest call statement statementBytes,
    BackedBy lib src history env event bytes manifest call statement statementBytes

/-! ## One pass -/

/-- The call is about this digest, with the keys the source trusts, and returned a statement. -/
def Vouches (subject : Text) (call : VerifyCall) : Prop :=
  call.subject = subject ∧ call.trustedKeys = src.trustedKeys ∧
    ∃ statement, call.answer lib = .ok statement

/-- Wherever the computation ends in such a value, it has made a call that vouches. -/
def Reports {α : Type} (env : Environment) (subject : Text) (accept : α → Prop)
    (p : CallingFetch α) : Prop :=
  ∀ disk a t, Program.exec (Program.observe (VerifyCall.answer lib) env.handle) p disk =
    (.ok a, t) → accept a → ∃ call, Vouches lib src subject call ∧
      Sum.inl call ∈ Program.trace (Program.observe (VerifyCall.answer lib) env.handle) p disk

/-- A call that is reported by a part is reported by the whole. -/
theorem reports_bind {α β : Type} {env : Environment} {subject : Text} {first : α → Prop}
    {accept : β → Prop} {p : CallingFetch α} {f : α → CallingFetch β}
    (hp : Reports lib src env subject first p)
    (hf : ∀ a, first a ∨ Reports lib src env subject accept (f a)) :
    Reports lib src env subject accept (p >>= f) := by
  intro disk b t hexec hb
  rw [Program.exec_bind] at hexec
  rcases hfirst : Program.exec (Program.observe (VerifyCall.answer lib) env.handle) p disk with
    ⟨err | a, m⟩
  · rw [hfirst] at hexec
    cases hexec
  · rw [hfirst] at hexec
    rcases hf a with ha | hrest
    · obtain ⟨call, hvouches, hmem⟩ := hp disk a m hfirst ha
      exact ⟨call, hvouches, (Program.mem_trace_bind_iff ..).mpr (.inl hmem)⟩
    · obtain ⟨call, hvouches, hmem⟩ := hrest m b t hexec hb
      exact ⟨call, hvouches, (Program.mem_trace_bind_iff ..).mpr (.inr ⟨a, m, hfirst, hmem⟩)⟩

/-- A first part of which nothing is known. -/
theorem reports_after {α β : Type} {env : Environment} {subject : Text} {accept : β → Prop}
    (p : CallingFetch α) {f : α → CallingFetch β}
    (hf : ∀ a, Reports lib src env subject accept (f a)) :
    Reports lib src env subject accept (p >>= f) := by
  have hp : Reports lib src env subject (fun _ => False) p := fun _ _ _ _ h => h.elim
  exact reports_bind lib src hp fun a => .inr (hf a)

/-- A call that returns a statement reports it. -/
theorem reports_verify (env : Environment) (doc : SignatureDoc) (subject : Text) :
    Reports lib src env subject (fun r => ∃ statement, r = .ok statement)
      (Calling.verify doc subject src.trustedKeys) := by
  intro disk r t hexec hr
  cases hexec
  exact ⟨⟨doc, subject, src.trustedKeys⟩, ⟨rfl, rfl, hr⟩, List.mem_singleton_self _⟩

/-- The search reports the call it accepts by. -/
theorem reports_checkReferrers (env : Environment) (subject : Text) (i : ℕ)
    (lastError : Option SignatureFault) (referrers : List Descriptor) :
    Reports lib src env subject (· = true)
      (Calling.checkReferrers lib src subject i lastError referrers) := by
  induction referrers generalizing i lastError with
  | nil =>
    intro disk a t hexec ha
    cases lastError with
    | none =>
      cases hexec
      cases ha
    | some err => cases hexec
  | cons referrer rest ih =>
    unfold Calling.checkReferrers
    split
    · exact ih _ _
    refine reports_after lib src _ fun manifestBytes => ?_
    cases lib.manifest manifestBytes with
    | none => exact ih _ _
    | some manifest =>
      refine reports_after lib src _ fun docBytes => ?_
      cases lib.document docBytes with
      | none => exact ih _ _
      | some doc =>
        refine reports_bind lib src (reports_verify lib src env doc subject) fun r => ?_
        cases r with
        | ok statement => exact .inl ⟨statement, rfl⟩
        | error err => exact .inr (ih _ _)

/-- So does the check of the signature. -/
theorem reports_verifySignature (env : Environment) (subject : Text) :
    Reports lib src env subject (· = true) (Calling.verifySignature lib src subject) := by
  have hfalse : Reports lib src env subject (· = true) (.done false) := by
    intro disk a t hexec ha
    cases hexec
    cases ha
  have hfail : ∀ err, Reports lib src env subject (· = true) (.fail err) := by
    intro err disk a t hexec
    cases hexec
  unfold Calling.verifySignature
  split
  · exact hfalse
  refine reports_after lib src _ fun answer => ?_
  cases answer with
  | none => exact hfail _
  | some resp =>
    simp only
    split
    · exact hfalse
    cases resp.body.bind lib.index with
    | none => exact hfail _
    | some index => exact reports_checkReferrers lib src env subject 0 none index.manifests

/-- An admitted manifest is vouched for if it is reported signed, and in any case if a signature
is required. -/
theorem reports_admitManifest (env : Environment) (pinned : PinnedManifest) :
    Reports lib src env pinned.digest (fun r => r.2 = true ∨ src.requireSignature = true)
      (Calling.admitManifest lib src pinned) := by
  refine reports_bind lib src (reports_verifySignature lib src env pinned.digest) fun signed => ?_
  cases signed with
  | true => exact .inl rfl
  | false =>
    refine .inr fun disk r t hexec hr => ?_
    cases hrequired : src.requireSignature with
    | true =>
      rw [hrequired] at hexec
      cases hexec
    | false =>
      rw [hrequired] at hexec hr
      cases hmanifest : lib.manifest pinned.bytes with
      | none =>
        rw [hmanifest] at hexec
        cases hexec
      | some manifest =>
        rw [hmanifest] at hexec
        simp only [Bool.not_false, Bool.and_true, Bool.false_eq_true, if_false] at hexec
        split at hexec
        · cases hexec
        · cases hexec
          rcases hr with hr | hr <;> cases hr

/-- What makes no calls runs as it does. -/
theorem exec_lift {α : Type} (env : Environment) (p : Fetch α) (disk : Disk) :
    Program.exec (Program.observe (VerifyCall.answer lib) env.handle) p.lift disk =
      Program.exec env.handle p disk := by
  rw [Program.exec_observe, Program.erase_lift]

/-- The admission runs as it does without its calls. -/
theorem exec_admitManifest (env : Environment) (pinned : PinnedManifest) (disk : Disk) :
    Program.exec (Program.observe (VerifyCall.answer lib) env.handle)
        (Calling.admitManifest lib src pinned) disk =
      (env.result (admitManifest lib src pinned), disk) := by
  rw [Program.exec_observe, Calling.erase_admitManifest,
    exec_eq_result env _ (admitManifest_isGet lib src pinned)]

/-- Where the operations of a computation without its calls only ask the registry, so do those
with them. -/
theorem isGet_of_mem_calls {α : Type} (env : Environment) (p : CallingFetch α)
    (hp : (p.erase (VerifyCall.answer lib)).Only IsGet) (disk : Disk) (op : PalletOp)
    (h : Sum.inr op ∈ Program.trace (Program.observe (VerifyCall.answer lib) env.handle) p disk) :
    IsGet op := by
  refine hp.of_mem_trace (h := env.handle) (s := disk) ?_
  rw [← Program.filterMap_trace_observe]
  exact List.mem_filterMap.mpr ⟨_, h, rfl⟩

/-- What changes the cache is no request. -/
theorem not_isGet_of_mutates (op : PalletOp) (h : op.Mutates) : ¬ IsGet op := by
  cases op with
  | get request url accept => exact h.elim
  | createDirAll path => exact id
  | tryExists path => exact id
  | write i path bytes => exact id
  | rename i source target => exact id

/-- Before a pass changes the cache it has admitted its manifest, with the calls that takes. -/
theorem called_before_mutation (env : Environment) (current : Option Text) (disk : Disk)
    (before after : List (VerifyCall ⊕ PalletOp)) (op : PalletOp) (hop : op.Mutates)
    (h : passCalls lib src env current disk = before ++ .inr op :: after) :
    ∃ pinned manifest, env.result (fetchManifest lib src) = .ok pinned ∧
      lib.manifest pinned.bytes = some manifest ∧ (src.requireSignature = true →
        ∃ call, Vouches lib src pinned.digest call ∧ Sum.inl call ∈ before) := by
  have hget := not_isGet_of_mutates op hop
  have hne : ∀ rest : List (VerifyCall ⊕ PalletOp), rest ++ .inr op :: after ≠ [] := fun rest =>
    List.append_ne_nil_of_right_ne_nil rest (List.cons_ne_nil _ _)
  unfold passCalls Calling.refresh at h
  rw [Program.trace_bind, exec_lift, exec_eq_result env _ (fetchManifest_isGet lib src)] at h
  obtain ⟨rest, rfl, hrest⟩ := exists_of_append_eq h fun hmem =>
    hget (isGet_of_mem_calls lib env _ (by rw [Program.erase_lift]; exact fetchManifest_isGet lib src)
      disk op hmem)
  cases hfetch : env.result (fetchManifest lib src) with
  | error err =>
    rw [hfetch] at hrest
    exact absurd hrest.symm (hne _)
  | ok pinned =>
    rw [hfetch] at hrest
    simp only at hrest
    split at hrest
    · -- The pass found the published digest again and performs nothing more.
      cases hstatus : statusFor lib src pinned true true with
      | error err =>
        rw [hstatus] at hrest
        exact absurd hrest.symm (hne _)
      | ok status =>
        rw [hstatus] at hrest
        exact absurd hrest.symm (hne _)
    rw [Program.trace_bind, exec_admitManifest] at hrest
    obtain ⟨rest', rfl, hproject⟩ := exists_of_append_eq hrest fun hmem =>
      hget (isGet_of_mem_calls lib env _
        (by rw [Calling.erase_admitManifest]; exact admitManifest_isGet lib src pinned) disk op hmem)
    cases hadmitted : env.result (admitManifest lib src pinned) with
    | error err =>
      rw [hadmitted] at hproject
      exact absurd hproject.symm (hne _)
    | ok admitted =>
      obtain ⟨manifest, verified⟩ := admitted
      refine ⟨pinned, manifest, rfl, (admitManifest_ok lib src env pinned manifest verified hadmitted).1,
        fun hrequired => ?_⟩
      obtain ⟨call, hvouches, hmem⟩ := reports_admitManifest lib src env pinned disk _ disk
        ((exec_admitManifest lib src env pinned disk).trans (by rw [hadmitted])) (.inr hrequired)
      exact ⟨call, hvouches, by simp only [List.mem_append, hmem, true_or, or_true]⟩

/-- The calls of a signature check are among those of its pass. -/
theorem mem_passCalls (env : Environment) (current : Option Text) (disk : Disk)
    (pinned : PinnedManifest) (hfetch : env.result (fetchManifest lib src) = .ok pinned)
    (hchanged : some pinned.digest ≠ current) (x : VerifyCall ⊕ PalletOp)
    (h : x ∈ Program.trace (Program.observe (VerifyCall.answer lib) env.handle)
      (Calling.admitManifest lib src pinned) disk) : x ∈ passCalls lib src env current disk := by
  unfold passCalls Calling.refresh
  refine (Program.mem_trace_bind_iff ..).mpr (.inr ⟨pinned, disk, ?_, ?_⟩)
  · rw [exec_lift, exec_eq_result env _ (fetchManifest_isGet lib src), hfetch]
  · rw [if_neg hchanged]
    exact (Program.mem_trace_bind_iff ..).mpr (.inl h)

/-- The status of a pass names the digest it fetched. Either that is the published one, and the
status says it is signed, or the pass has made the calls that admit its manifest. -/
theorem status_of_refresh (env : Environment) (current : Option Text) (disk t : Disk)
    (refreshed : Refreshed)
    (h : Program.exec env.handle (refresh lib src current) disk = (.ok refreshed, t)) :
    ∃ pinned manifest, env.result (fetchManifest lib src) = .ok pinned ∧
      lib.manifest pinned.bytes = some manifest ∧ refreshed.status.digest = some pinned.digest ∧
        (current = some pinned.digest ∧ refreshed.status.signatureVerified = true ∨
          (refreshed.status.signatureVerified = true ∨ src.requireSignature = true →
            ∃ call, Vouches lib src pinned.digest call ∧
              Sum.inl call ∈ passCalls lib src env current disk)) := by
  obtain ⟨pinned, verified, hfetch, hstatus, hcases⟩ :=
    exec_refresh_ok lib src env current disk t refreshed h
  obtain ⟨hmanifest, hdigest, -, hsigned⟩ := statusFor_ok lib src pinned _ _ _ hstatus
  obtain ⟨manifest, hparsed⟩ := Option.isSome_iff_exists.mp hmanifest
  refine ⟨pinned, manifest, hfetch, hparsed, hdigest, ?_⟩
  rcases hcases with ⟨hsame, rfl⟩ | ⟨hchanged, manifest', hadmitted⟩
  · exact .inl ⟨hsame.symm, hsigned⟩
  refine .inr fun hreported => ?_
  have hexec := (exec_admitManifest lib src env pinned disk).trans (by rw [hadmitted])
  obtain ⟨call, hvouches, hmem⟩ := reports_admitManifest lib src env pinned disk _ disk hexec
    (hreported.imp_left fun h => hsigned.symm.trans h)
  exact ⟨call, hvouches, mem_passCalls lib src env current disk pinned hfetch hchanged _ hmem⟩

/-! ## Whole runs -/

/-- A call of a pass is one of its events. -/
theorem call_mem_passEvents (env : Environment) (current : Option Text) (disk : Disk)
    (call : VerifyCall) (h : Sum.inl call ∈ passCalls lib src env current disk) :
    .call call ∈ passEvents lib src env current disk :=
  List.mem_map.mpr ⟨.inl call, h, rfl⟩

/-- What was verified stays verified. -/
theorem VerifiedIn.append {history : List Event} {digest : Text}
    (h : VerifiedIn lib src history digest) (later : List Event) :
    VerifiedIn lib src (history ++ later) digest := by
  obtain ⟨call, statement, hmem, hcall⟩ := h
  exact ⟨call, statement, List.mem_append_left _ hmem, hcall⟩

/-- A digest that a call vouches for has been verified. -/
theorem verifiedIn_of_vouches {history : List Event} {digest : Text} {call : VerifyCall}
    (h : Vouches lib src digest call) (hmem : .call call ∈ history) :
    VerifiedIn lib src history digest := by
  obtain ⟨hsubject, hkeys, statement, hstatement⟩ := h
  exact ⟨call, statement, hmem, hsubject, hkeys, hstatement⟩

/-- What was verified for the digest of a manifest backs whatever is done with it afterwards. -/
theorem backed_of_verifiedIn (history : List Event) (env : Environment) (event : Event)
    (pinned : PinnedManifest) (manifest : Manifest)
    (hfetch : env.result (fetchManifest lib src) = .ok pinned)
    (hparsed : lib.manifest pinned.bytes = some manifest)
    (hverified : VerifiedIn lib src history pinned.digest)
    (hpublished : ∀ status, event = .publish status → status.digest = some pinned.digest) :
    Backed lib src history env event := by
  obtain ⟨call, statement, hmem, hsubject, hkeys, hanswer⟩ := hverified
  obtain ⟨hreceived, hdigest⟩ := fetchManifest_ok lib src env pinned hfetch
  obtain ⟨-, statementBytes, keyBytes, sigBytes, hsigned⟩ := (verify_ok_iff ..).mp hanswer
  have hhash : slice statementBytes Off.digest Off.digestEnd = lib.sha256 pinned.bytes := by
    refine eq_of_normaliseDigest pinned.digest _ _ hdigest ?_
    obtain ⟨-, -, -, hstatement⟩ := (parseStatement_ok_iff ..).mp hsigned.parsed
    have hread : statement.subjectHex = hexEncode (slice statementBytes Off.digest Off.digestEnd) :=
      congrArg Statement.subjectHex hstatement
    rw [← hread, hsigned.subject, hsubject]
  exact ⟨pinned.bytes, manifest, call, statement, statementBytes, {
    received := hreceived
    parsed := hparsed
    called := hmem
    trusted := hkeys
    verified := hanswer
    statement_hex := hsigned.statement_hex
    statement_parsed := hsigned.parsed
    statement_digest := hhash
    subject := hsubject ▸ hdigest
    published := fun status h => hsubject ▸ hpublished status h }⟩

/-! ## The signature gate -/

/-- Where a signature is required, what a pass does to the cache is backed by its own calls. -/
theorem backed_of_mem_passEvents (history : List Event) (env : Environment)
    (current : Option Text) (disk : Disk) (before after : List Event) (event : Event)
    (hexposes : event.Exposes)
    (h : passEvents lib src.signedOnly env current disk = before ++ event :: after) :
    Backed lib src.signedOnly (history ++ before) env event := by
  obtain ⟨calls, rest, hcalls, rfl, hrest⟩ := List.map_eq_append_iff.mp h
  obtain ⟨x, tail, rfl, rfl, -⟩ := List.map_eq_cons_iff.mp hrest
  cases x with
  | inl call => exact hexposes.elim
  | inr op =>
    obtain ⟨pinned, manifest, hfetch, hparsed, hcalled⟩ :=
      called_before_mutation lib src.signedOnly env current disk calls tail op hexposes hcalls
    obtain ⟨call, hvouches, hmem⟩ := hcalled rfl
    refine backed_of_verifiedIn lib src.signedOnly _ env _ pinned manifest hfetch hparsed ?_
      fun status hstatus => by cases hstatus
    exact verifiedIn_of_vouches lib src.signedOnly hvouches
      (List.mem_append_right _ (List.mem_map.mpr ⟨.inl call, hmem, rfl⟩))

/-- The digest such a pass publishes has been verified, by its own calls or before it was
published first. -/
theorem verifiedIn_of_refresh (history : List Event) (env : Environment) (current : Option Text)
    (disk t : Disk) (refreshed : Refreshed)
    (hcurrent : ∀ digest, current = some digest → VerifiedIn lib src.signedOnly history digest)
    (hexec : Program.exec env.handle (refresh lib src.signedOnly current) disk =
      (.ok refreshed, t)) :
    ∃ pinned manifest, env.result (fetchManifest lib src.signedOnly) = .ok pinned ∧
      lib.manifest pinned.bytes = some manifest ∧ refreshed.status.digest = some pinned.digest ∧
        VerifiedIn lib src.signedOnly (history ++ passEvents lib src.signedOnly env current disk)
          pinned.digest := by
  obtain ⟨pinned, manifest, hfetch, hparsed, hdigest, hcases⟩ :=
    status_of_refresh lib src.signedOnly env current disk t refreshed hexec
  refine ⟨pinned, manifest, hfetch, hparsed, hdigest, ?_⟩
  rcases hcases with ⟨hsame, -⟩ | hcalled
  · exact (hcurrent _ hsame).append lib src.signedOnly _
  · obtain ⟨call, hvouches, hmem⟩ := hcalled (.inr rfl)
    exact verifiedIn_of_vouches lib src.signedOnly hvouches
      (List.mem_append_right _ (call_mem_passEvents lib src.signedOnly env current disk call hmem))

/-- Whatever the rounds expose is backed, if what was published before was verified. -/
theorem backed_rounds (history : List Event) (s : Serving) (rounds : List Environment)
    (hs : ∀ digest, s.status.digest = some digest → VerifiedIn lib src.signedOnly history digest) :
    Throughout (fun h env event => event.Exposes → Backed lib src.signedOnly h env event) history
      (roundRecords lib src.signedOnly s rounds) := by
  induction rounds generalizing history s with
  | nil => trivial
  | cons env rest ih =>
    rcases hexec : Program.exec env.handle (refresh lib src.signedOnly s.status.digest) s.disk with
      ⟨err | refreshed, t⟩
    · refine ⟨fun before event after hsplit hexposes => ?_, ih _ _ fun digest hdigest => ?_⟩
      · simp only [Serving.roundRecord, hexec, List.append_nil] at hsplit
        exact backed_of_mem_passEvents lib src history env _ _ before after event hexposes hsplit
      · rw [round_eq, hexec] at hdigest
        exact (hs digest hdigest).append lib src.signedOnly _
    · obtain ⟨pinned, manifest, hfetch, hparsed, hdigest, hverified⟩ :=
        verifiedIn_of_refresh lib src history env _ _ t refreshed hs hexec
      refine ⟨fun before event after hsplit hexposes => ?_, ih _ _ fun digest hsome => ?_⟩
      · simp only [Serving.roundRecord, hexec] at hsplit
        rcases append_singleton_cases hsplit with ⟨after', hfirst⟩ | ⟨rfl, rfl⟩
        · exact backed_of_mem_passEvents lib src history env _ _ before after' event hexposes hfirst
        · exact backed_of_verifiedIn lib src.signedOnly _ env _ pinned manifest hfetch hparsed
            hverified fun status hstatus => by cases hstatus; exact hdigest
      · rw [round_eq, hexec] at hsome
        obtain rfl := Option.some.inj (hdigest.symm.trans hsome)
        simp only [Serving.roundRecord, hexec]
        rw [← List.append_assoc]
        exact hverified.append lib src.signedOnly _

/-- The digest startup publishes, if any, has been verified by the calls of its pass. -/
theorem startServing_digest (env : Environment) (cache : Disk) :
    (startServing lib src.signedOnly env cache).status.digest = none ∨
      ∃ pinned manifest, env.result (fetchManifest lib src.signedOnly) = .ok pinned ∧
        lib.manifest pinned.bytes = some manifest ∧
          (startServing lib src.signedOnly env cache).status.digest = some pinned.digest ∧
            VerifiedIn lib src.signedOnly (passEvents lib src.signedOnly env none cache)
              pinned.digest := by
  rcases hexec : Program.exec env.handle (refresh lib src.signedOnly none) cache with
    ⟨err | refreshed, t⟩
  · obtain ⟨status, hstart, hnone, -⟩ :=
      startServing_of_error lib src.signedOnly env cache t err hexec
    rw [hstart]
    exact .inl hnone
  · rw [startServing_of_ok lib src.signedOnly env cache t refreshed hexec]
    exact .inr (verifiedIn_of_refresh lib src [] env none cache t refreshed
      (fun _ h => by cases h) hexec)

/-- Startup has nothing published before it. -/
theorem backed_startRecord (env : Environment) (cache : Disk) (before after : List Event)
    (event : Event) (hexposes : event.Exposes)
    (h : (startRecord lib src.signedOnly env cache).events = before ++ event :: after) :
    Backed lib src.signedOnly before env event := by
  rcases append_singleton_cases h with ⟨after', hfirst⟩ | ⟨rfl, rfl⟩
  · exact backed_of_mem_passEvents lib src [] env none cache before after' event hexposes hfirst
  rcases startServing_digest lib src env cache with
    hnone | ⟨pinned, manifest, hfetch, hparsed, hdigest, hverified⟩
  · simp only [Event.Exposes, hnone] at hexposes
    cases hexposes
  · refine backed_of_verifiedIn lib src.signedOnly _ env _ pinned manifest hfetch hparsed hverified
      fun status hstatus => ?_
    cases hstatus
    exact hdigest

/-- What startup publishes has been verified. -/
theorem verifiedIn_startServing (env : Environment) (cache : Disk) (digest : Text)
    (h : (startServing lib src.signedOnly env cache).status.digest = some digest) :
    VerifiedIn lib src.signedOnly (startRecord lib src.signedOnly env cache).events digest := by
  rcases startServing_digest lib src env cache with hnone | ⟨pinned, manifest, -, -, hdigest, hverified⟩
  · cases hnone.symm.trans h
  · cases hdigest.symm.trans h
    exact hverified.append lib src.signedOnly _

/-- A pass that finds another digest than the published one, and none of whose calls returns a
statement, fails and changes nothing. -/
theorem refresh_refused (env : Environment) (s : Serving) (pinned : PinnedManifest)
    (hfetch : env.result (fetchManifest lib src.signedOnly) = .ok pinned)
    (hchanged : some pinned.digest ≠ s.status.digest)
    (hnone : ∀ call statement, Sum.inl call ∈
      passCalls lib src.signedOnly env s.status.digest s.disk → call.answer lib ≠ .ok statement) :
    ∃ err, Program.exec env.handle (refresh lib src.signedOnly s.status.digest) s.disk =
      (.error err, s.disk) := by
  unfold refresh
  rw [exec_gets_bind env _ (fetchManifest_isGet lib src.signedOnly), hfetch]
  simp only [if_neg hchanged]
  rw [exec_gets_bind env _ (admitManifest_isGet lib src.signedOnly pinned)]
  cases hadmitted : env.result (admitManifest lib src.signedOnly pinned) with
  | error err => exact ⟨err, rfl⟩
  | ok admitted =>
    obtain ⟨call, ⟨-, -, statement, hanswer⟩, hmem⟩ :=
      reports_admitManifest lib src.signedOnly env pinned s.disk admitted s.disk
        ((exec_admitManifest lib src.signedOnly env pinned s.disk).trans (by rw [hadmitted])) (.inr rfl)
    exact absurd hanswer (hnone call statement
      (mem_passCalls lib src.signedOnly env _ s.disk pinned hfetch hchanged _ hmem))

/-- With a signature required, whatever a process writes into the cache and every digest it
publishes follows a verified statement about the manifest of that pass; and a pass with nothing
verified for a new digest fails and leaves the cache and the published status. The operations of
the log are those of the passes. -/
theorem signatureGate :
    (∀ (env : Environment) (current : Option Text) (disk : Disk),
      (passCalls lib src.signedOnly env current disk).filterMap Sum.getRight? =
        Program.trace env.handle (refresh lib src.signedOnly current) disk) ∧
    (∀ run : ServerRun, Throughout
      (fun history env event => event.Exposes → Backed lib src.signedOnly history env event) []
        (run.records lib src.signedOnly)) ∧
    ∀ (env : Environment) (s : Serving) (pinned : PinnedManifest),
      env.result (fetchManifest lib src.signedOnly) = .ok pinned →
      some pinned.digest ≠ s.status.digest →
      (∀ call statement, Sum.inl call ∈
        passCalls lib src.signedOnly env s.status.digest s.disk → call.answer lib ≠ .ok statement) →
      (∃ err, Program.exec env.handle (refresh lib src.signedOnly s.status.digest) s.disk =
        (.error err, s.disk)) ∧ s.round lib src.signedOnly env = s := by
  refine ⟨getRight_passCalls lib src.signedOnly,
    fun run => ⟨fun before event after h hexposes => ?_, ?_⟩, ?_⟩
  · exact backed_startRecord lib src run.startup run.cache before after event hexposes h
  · exact backed_rounds lib src _ _ run.rounds (verifiedIn_startServing lib src run.startup run.cache)
  · intro env s pinned hfetch hchanged hnone
    obtain ⟨err, hexec⟩ := refresh_refused lib src env s pinned hfetch hchanged hnone
    refine ⟨⟨err, hexec⟩, ?_⟩
    rw [round_eq, hexec]

/-! ## The published signature -/

/-- A published status says that it is signed only if its digest has been verified. -/
def HonestEvent (history : List Event) (_ : Environment) (event : Event) : Prop :=
  ∀ status, event = .publish status → status.signatureVerified = true →
    ∃ digest, status.digest = some digest ∧ VerifiedIn lib src history digest

/-- Every published status of the run is honest. -/
def ServerRun.Honest (run : ServerRun) : Prop :=
  Throughout (HonestEvent lib src) [] (run.records lib src)

/-- A round that finds the published digest again finds it published as signed. -/
def Serving.RefindsSigned (env : Environment) (s : Serving) : Prop :=
  ∀ pinned, env.result (fetchManifest lib src) = .ok pinned →
    s.status.digest = some pinned.digest → s.status.signatureVerified = true

/-- From this state on, every round does. -/
def RefindsSignedFrom (s : Serving) : List Environment → Prop
  | [] => True
  | env :: rest =>
    s.RefindsSigned lib src env ∧ RefindsSignedFrom (s.round lib src env) rest

/-- No round of the run finds an unsigned digest again. -/
def ServerRun.RefindsSigned (run : ServerRun) : Prop :=
  RefindsSignedFrom lib src (startServing lib src run.startup run.cache) run.rounds

/-- The status is honest, given what was logged. -/
def HonestStatus (history : List Event) (status : AssetStatus) : Prop :=
  status.signatureVerified = true →
    ∃ digest, status.digest = some digest ∧ VerifiedIn lib src history digest

/-- An honest status stays honest. -/
theorem HonestStatus.append {history : List Event} {status : AssetStatus}
    (h : HonestStatus lib src history status) (later : List Event) :
    HonestStatus lib src (history ++ later) status := by
  intro hsigned
  obtain ⟨digest, hdigest, hverified⟩ := h hsigned
  exact ⟨digest, hdigest, hverified.append lib src later⟩

/-- A pass publishes an honest status if it does not find an unsigned digest again. -/
theorem honestStatus_of_refresh (history : List Event) (env : Environment) (s : Serving) (t : Disk)
    (refreshed : Refreshed) (hs : HonestStatus lib src history s.status)
    (hrefinds : s.RefindsSigned lib src env)
    (hexec : Program.exec env.handle (refresh lib src s.status.digest) s.disk =
      (.ok refreshed, t)) :
    HonestStatus lib src (history ++ passEvents lib src env s.status.digest s.disk)
      refreshed.status := by
  intro hsigned
  obtain ⟨pinned, manifest, hfetch, -, hdigest, hcases⟩ :=
    status_of_refresh lib src env s.status.digest s.disk t refreshed hexec
  refine ⟨pinned.digest, hdigest, ?_⟩
  rcases hcases with ⟨hsame, -⟩ | hcalled
  · obtain ⟨digest, hpublished, hverified⟩ := hs (hrefinds pinned hfetch hsame)
    obtain rfl := Option.some.inj (hpublished.symm.trans hsame)
    exact hverified.append lib src _
  · obtain ⟨call, hvouches, hmem⟩ := hcalled (.inl hsigned)
    exact verifiedIn_of_vouches lib src hvouches
      (List.mem_append_right _ (call_mem_passEvents lib src env _ _ call hmem))

/-- Only the last event of a pass publishes anything. -/
theorem passEvents_ne (env : Environment) (current : Option Text) (disk : Disk)
    (before after : List Event) (status : AssetStatus) :
    passEvents lib src env current disk ≠ before ++ .publish status :: after := by
  intro h
  obtain ⟨calls, rest, -, -, hrest⟩ := List.map_eq_append_iff.mp h
  obtain ⟨x, tail, -, hx, -⟩ := List.map_eq_cons_iff.mp hrest
  cases x <;> cases hx

/-- The rounds publish honest statuses, if none finds an unsigned digest again. -/
theorem honest_rounds (history : List Event) (s : Serving) (rounds : List Environment)
    (hs : HonestStatus lib src history s.status) (hrefinds : RefindsSignedFrom lib src s rounds) :
    Throughout (HonestEvent lib src) history (roundRecords lib src s rounds) := by
  induction rounds generalizing history s with
  | nil => trivial
  | cons env rest ih =>
    obtain ⟨hround, hrest⟩ := hrefinds
    rcases hexec : Program.exec env.handle (refresh lib src s.status.digest) s.disk with
      ⟨err | refreshed, t⟩
    · refine ⟨fun before event after hsplit status hevent => ?_, ih _ _ ?_ hrest⟩
      · simp only [Serving.roundRecord, hexec, List.append_nil] at hsplit
        subst hevent
        exact absurd hsplit (passEvents_ne lib src env _ _ before after status)
      · rw [round_eq, hexec]
        exact hs.append lib src _
    · have hhonest := honestStatus_of_refresh lib src history env s t refreshed hs hround hexec
      refine ⟨fun before event after hsplit status hevent => ?_, ih _ _ ?_ hrest⟩
      · simp only [Serving.roundRecord, hexec] at hsplit
        subst hevent
        rcases append_singleton_cases hsplit with ⟨after', hfirst⟩ | ⟨rfl, hlast⟩
        · exact absurd hfirst (passEvents_ne lib src env _ _ before after' status)
        · cases hlast
          exact hhonest
      · rw [round_eq, hexec]
        simp only [Serving.roundRecord, hexec]
        rw [← List.append_assoc]
        exact hhonest.append lib src _

/-- What startup publishes is honest: there is no published digest to find again. -/
theorem honestStatus_startServing (env : Environment) (cache : Disk) :
    HonestStatus lib src (passEvents lib src env none cache)
      (startServing lib src env cache).status := by
  rcases hexec : Program.exec env.handle (refresh lib src none) cache with ⟨err | refreshed, t⟩
  · obtain ⟨status, hstart, -, hunsigned, -⟩ :=
      startServing_of_error lib src env cache t err hexec
    rw [hstart]
    intro hsigned
    rw [hunsigned] at hsigned
    cases hsigned
  · rw [startServing_of_ok lib src env cache t refreshed hexec]
    intro hsigned
    obtain ⟨pinned, -, -, -, hdigest, hcases⟩ :=
      status_of_refresh lib src env none cache t refreshed hexec
    obtain ⟨call, hvouches, hmem⟩ := hcases.resolve_left (fun h => by cases h.1) (.inl hsigned)
    exact ⟨pinned.digest, hdigest, verifiedIn_of_vouches lib src hvouches
      (call_mem_passEvents lib src env none cache call hmem)⟩

/-- A run in which no round finds a digest again that is published as unsigned is honest. -/
theorem ServerRun.honest_of_refindsSigned (run : ServerRun) (h : run.RefindsSigned lib src) :
    run.Honest lib src := by
  have hstart := honestStatus_startServing lib src run.startup run.cache
  refine ⟨fun before event after hsplit status hevent => ?_,
    honest_rounds lib src _ _ run.rounds (hstart.append lib src _) h⟩
  subst hevent
  rcases append_singleton_cases hsplit with ⟨after', hfirst⟩ | ⟨rfl, hlast⟩
  · exact absurd hfirst (passEvents_ne lib src run.startup none _ before after' status)
  · cases hlast
    exact hstart

end Runs

/-! ## A signed pallet -/

namespace SignedPallet

/-- What is known of the signed manifest, with the kernel that it names. -/
def lib : Libraries :=
  { ForgedSpec.lib with
    sha256 := hashOf ((utf8Encode "kernel".toList, ForgedSpec.kernelHex) :: ForgedSpec.hashes) }

/-- A source that trusts the key and would allow an unsigned pallet too. -/
def src : PalletSource :=
  { ForgedSpec.src with requireSignature := false }

/-- A registry with the pallet and its signature. -/
def env : Environment where
  registry
    | .spec => ForgedSpec.answer emptySpecText
    | .member 0 => ForgedSpec.answer "kernel".toList
    | request => ForgedSpec.env.registry request
  disk _ := .ok ()

/-- The tag stays on it for two rounds. -/
def run : ServerRun where
  cache _ := none
  startup := env
  rounds := [env, env]

/-- Startup has verified it. -/
theorem verified_startServing :
    (startServing lib src run.startup run.cache).status.signatureVerified = true := by
  decide

/-- A round that finds it again says so as well. -/
theorem verified_round :
    ((startServing lib src run.startup run.cache).round lib src env).status.signatureVerified =
      true := by
  decide

end SignedPallet

/-- What such a run publishes as signed is signed. -/
theorem honest_signedPallet : SignedPallet.run.Honest SignedPallet.lib SignedPallet.src := by
  refine ServerRun.honest_of_refindsSigned _ _ SignedPallet.run ⟨?_, ?_, trivial⟩
  · intro pinned _ _
    exact SignedPallet.verified_startServing
  · intro pinned _ _
    exact SignedPallet.verified_round

/-! ## A pallet nobody signed -/

namespace TwoPallets

/-- The tag stays on the first pallet. -/
def unchangedRun : ServerRun where
  cache := emptyCache
  startup := .ofRegistry (serve first [0, 1])
  rounds := [.ofRegistry (serve first [0, 1])]

end TwoPallets

/-- The second pass over the same unsigned pallet publishes it as signed, with no key to verify
anything with. -/
theorem not_honest_unchangedRun :
    ¬ TwoPallets.unchangedRun.Honest TwoPallets.lib TwoPallets.src := by
  intro h
  obtain ⟨-, hround, -⟩ := h
  have hpass : ((Program.exec (Environment.ofRegistry (TwoPallets.serve TwoPallets.first [0, 1])).handle
      (refresh TwoPallets.lib TwoPallets.src (startServing TwoPallets.lib TwoPallets.src
        TwoPallets.unchangedRun.startup TwoPallets.unchangedRun.cache).status.digest)
      (startServing TwoPallets.lib TwoPallets.src TwoPallets.unchangedRun.startup
        TwoPallets.unchangedRun.cache).disk).1.toOption.map fun r => r.status.signatureVerified) =
          some true := by decide
  cases hok : (Program.exec (Environment.ofRegistry (TwoPallets.serve TwoPallets.first [0, 1])).handle
      (refresh TwoPallets.lib TwoPallets.src (startServing TwoPallets.lib TwoPallets.src
        TwoPallets.unchangedRun.startup TwoPallets.unchangedRun.cache).status.digest)
      (startServing TwoPallets.lib TwoPallets.src TwoPallets.unchangedRun.startup
        TwoPallets.unchangedRun.cache).disk).1 with
  | error err =>
    rw [hok] at hpass
    cases hpass
  | ok refreshed =>
    rw [hok] at hpass
    obtain ⟨digest, -, call, statement, -, -, hkeys, hanswer⟩ :=
      hround _ (.publish refreshed.status) [] (by
        simp only [Serving.roundRecord, hok]
        rfl) refreshed.status rfl (Option.some.inj hpass)
    obtain ⟨htrusted, -⟩ := (verify_ok_iff ..).mp hanswer
    rw [hkeys] at htrusted
    cases htrusted

end Stormnetboot.Server

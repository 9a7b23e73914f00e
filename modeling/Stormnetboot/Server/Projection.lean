import Stormnetboot.Server.Pallet
import Mathlib.Tactic.SplitIfs

/-!
# The shape of a pass

Up to the projection of an admitted manifest a pass only asks the registry, so the answers
alone decide what it admits and the disk stays as it was. What the projection writes is then
read off the layers one by one.
-/

namespace Stormnetboot.Server

open Stormnetboot.Common

/-- The body of an answer that was sent, successful and whole. -/
def received (answer : Option Response) : Option Bytes :=
  answer.bind fun resp => if resp.isSuccess then resp.body else none

/-- A body is what was received. -/
theorem bodyOf_ok_iff (url : Text) (answer : Option Response) (bytes : Bytes) :
    bodyOf url answer = .ok bytes ↔ received answer = some bytes := by
  cases answer with
  | none => simp [bodyOf, received]
  | some resp =>
    cases hs : resp.isSuccess with
    | false => simp [bodyOf, received, hs]
    | true =>
      cases hb : resp.body with
      | none => simp [bodyOf, received, hs, hb]
      | some body => simp [bodyOf, received, hs, hb]

/-- The operation asks the registry. -/
def IsGet : PalletOp → Prop
  | .get _ _ _ => True
  | _ => False

/-- Making a directory leaves the files. -/
theorem handle_createDirAll (env : Environment) (path : Text) (disk : Disk) :
    env.handle (.createDirAll path) disk = (env.disk (.createDirAll path), disk) := by
  simp only [Environment.handle, Environment.onSuccess, ite_self]
  rfl

/-- The result of a computation, where it does not depend on the disk. -/
def Environment.result {α : Type} (env : Environment) (p : Fetch α) : Except PalletError α :=
  (Program.exec env.handle p fun _ => none).1

/-- A computation that only asks the registry has one result on every disk, and leaves it. -/
theorem exec_eq_result {α : Type} (env : Environment) (p : Fetch α) (hp : p.Only IsGet)
    (disk : Disk) : Program.exec env.handle p disk = (env.result p, disk) := by
  induction p with
  | done a => rfl
  | fail err => rfl
  | call op next ih =>
    cases op with
    | get request url accept => exact ih _ (hp.2 _)
    | createDirAll path => cases hp.1
    | tryExists path => cases hp.1
    | write i path bytes => cases hp.1
    | rename i source target => cases hp.1

/-- A computed result performs nothing. -/
theorem ofExcept_only {α : Type} (P : PalletOp → Prop) (r : Except PalletError α) :
    (ofExcept r).Only P := by
  cases r <;> trivial

/-- It leaves the disk. -/
theorem exec_ofExcept {α : Type} (env : Environment) (r : Except PalletError α) (disk : Disk) :
    Program.exec env.handle (ofExcept r) disk = (r, disk) := by
  cases r <;> rfl

/-- So does raising the error of an operation. -/
theorem exec_onDisk (env : Environment) (path : Text) (r : Except Text Unit) (disk : Disk) :
    Program.exec env.handle (onDisk path r) disk =
      (r.mapError (PalletError.disk path), disk) := by
  cases r <;> rfl

/-- A body is got by one request. -/
theorem getBody_isGet (request : Request) (url : Text) (accept : Option Text) :
    (getBody request url accept).Only IsGet :=
  Program.only_bind (Program.only_perform _ trivial) fun _ => ofExcept_only _ _

section Pass

variable (lib : Libraries) (src : PalletSource)

/-- A manifest is. -/
theorem fetchManifest_isGet : (fetchManifest lib src).Only IsGet :=
  Program.only_bind (Program.only_perform _ trivial) fun _ =>
    Program.only_bind (ofExcept_only _ _) fun _ => ofExcept_only _ _

/-- A blob is. -/
theorem fetchBlobOrManifest_isGet (request : Request) (digest : Text) (isManifest : Bool) :
    (fetchBlobOrManifest src request digest isManifest).Only IsGet :=
  getBody_isGet _ _ _

/-- A search among the referrers only asks. -/
theorem checkReferrers_isGet (subject : Text) (i : ℕ) (lastError : Option SignatureFault)
    (referrers : List Descriptor) :
    (checkReferrers lib src subject i lastError referrers).Only IsGet := by
  induction referrers generalizing i lastError with
  | nil => cases lastError <;> trivial
  | cons referrer rest ih =>
    unfold checkReferrers
    split
    · exact ih _ _
    refine Program.only_bind (fetchBlobOrManifest_isGet _ _ _ _) fun manifestBytes => ?_
    cases lib.manifest manifestBytes with
    | none => exact ih _ _
    | some manifest =>
      refine Program.only_bind (fetchBlobOrManifest_isGet _ _ _ _) fun docBytes => ?_
      cases lib.document docBytes with
      | none => exact ih _ _
      | some doc =>
        simp only
        cases verify lib.ed25519 doc subject src.trustedKeys with
        | ok statement => trivial
        | error err => exact ih _ _

/-- The check of the signature only asks. -/
theorem verifySignature_isGet (subject : Text) : (verifySignature lib src subject).Only IsGet := by
  unfold verifySignature
  split
  · trivial
  refine Program.only_bind (Program.only_perform _ trivial) fun answer => ?_
  cases answer with
  | none => trivial
  | some resp =>
    simp only
    split
    · trivial
    cases resp.body.bind lib.index with
    | none => trivial
    | some index => exact checkReferrers_isGet _ _ _ _ _ _

/-- The admission only asks. -/
theorem admitManifest_isGet (pinned : PinnedManifest) :
    (admitManifest lib src pinned).Only IsGet := by
  refine Program.only_bind (verifySignature_isGet _ _ _) fun signatureVerified => ?_
  split
  · trivial
  cases lib.manifest pinned.bytes with
  | none => trivial
  | some manifest =>
    simp only
    split <;> trivial

/-- The spec is asked for. -/
theorem fetchSpec_isGet (manifest : Manifest) : (fetchSpec lib src manifest).Only IsGet := by
  refine Program.only_bind (Program.only_attempt (fetchBlobOrManifest_isGet _ _ _ _)) fun answer => ?_
  cases answer <;> trivial

/-- The spec that the registry's answer gives. -/
def Environment.servedSpec (env : Environment) : PalletSpec :=
  ((received (env.registry .spec)).bind lib.spec).getD {}

/-- A pass goes by the spec it was served. -/
theorem result_fetchSpec (env : Environment) (manifest : Manifest) :
    env.result (fetchSpec lib src manifest) = .ok (env.servedSpec lib) := by
  have hbody : ∀ url : Text, ((bodyOf url (env.registry .spec)).toOption.bind lib.spec).getD {} =
      env.servedSpec lib := by
    intro url
    unfold Environment.servedSpec
    cases hb : bodyOf url (env.registry .spec) with
    | ok bytes => rw [(bodyOf_ok_iff ..).mp hb]; rfl
    | error err =>
      cases hr : received (env.registry .spec) with
      | none => rfl
      | some bytes =>
        rw [(bodyOf_ok_iff url ..).mpr hr] at hb
        cases hb
  unfold Environment.result fetchSpec fetchBlobOrManifest getBody
  rw [Program.exec_bind, Program.exec_attempt, Program.exec_bind]
  simp only [Program.perform, Program.exec_call, Program.exec_done, exec_ofExcept]
  rw [← hbody]
  simp only [Environment.handle]
  cases bodyOf _ (env.registry .spec) <;> rfl

/-- The pass gets as far as projecting this manifest. -/
structure Admits (env : Environment) (current : Option Text) (pinned : PinnedManifest)
    (manifest : Manifest) (signatureVerified : Bool) : Prop where
  fetched : env.result (fetchManifest lib src) = .ok pinned
  changed : some pinned.digest ≠ current
  admitted : env.result (admitManifest lib src pinned) = .ok (manifest, signatureVerified)
  cacheDir : env.disk (.createDirAll src.cacheDir) = .ok ()

/-! ## Paths -/

/-- Different names are different paths in a directory. -/
theorem joinPath_inj (dir a b : Text) (h : joinPath dir a = joinPath dir b) : a = b :=
  List.append_cancel_left h

/-- Different files of the cache directory have different paths. -/
theorem assetPath_inj (a b : Asset) (h : src.assetPath a = src.assetPath b) : a = b := by
  have hname := joinPath_inj _ _ _ h
  cases a <;> cases b <;> first | rfl | exact absurd hname (by decide)

/-- No temporary file is served. -/
theorem tmpPath_ne_assetPath (a b : Asset) : src.tmpPath a ≠ src.assetPath b := by
  intro h
  have hname := joinPath_inj _ _ _ h
  cases a <;> cases b <;> exact absurd hname (by decide)

/-! ## Up to the projection -/

/-- Only what comes after the requests can write. -/
theorem mem_trace_gets_bind_iff {α β : Type} (env : Environment) (p : Fetch α) (hp : p.Only IsGet)
    (f : α → Fetch β) (disk : Disk) (op : PalletOp) (hop : ¬ IsGet op) :
    op ∈ Program.trace env.handle (p >>= f) disk ↔
      ∃ a, env.result p = .ok a ∧ op ∈ Program.trace env.handle (f a) disk := by
  rw [Program.mem_trace_bind_iff]
  constructor
  · rintro (hmem | ⟨a, t, hexec, hmem⟩)
    · exact absurd (hp.of_mem_trace hmem) hop
    · rw [exec_eq_result env p hp, Prod.mk.injEq] at hexec
      obtain ⟨ha, rfl⟩ := hexec
      exact ⟨a, ha, hmem⟩
  · rintro ⟨a, ha, hmem⟩
    exact .inr ⟨a, disk, by rw [exec_eq_result env p hp, ha], hmem⟩

/-- Execution goes on from the same disk. -/
theorem exec_gets_bind {α β : Type} (env : Environment) (p : Fetch α) (hp : p.Only IsGet)
    (f : α → Fetch β) (disk : Disk) :
    Program.exec env.handle (p >>= f) disk =
      match env.result p with
      | .ok a => Program.exec env.handle (f a) disk
      | .error err => (.error err, disk) := by
  rw [Program.exec_bind, exec_eq_result env p hp]
  cases env.result p <;> rfl

/-- What a pass does with the members it served. -/
def concludePass (pinned : PinnedManifest) (signatureVerified : Bool) (served : List Asset) :
    Except PalletError Refreshed :=
  if .kernel ∉ served ∨ .initramfs ∉ served then .error (.incomplete pinned.digest served)
  else (statusFor lib src pinned true signatureVerified).map fun status => ⟨status, true⟩

/-- The projection of a manifest makes the cache directory and goes through the layers. -/
theorem exec_projectMembers (env : Environment) (manifest : Manifest) (disk : Disk)
    (hdir : env.disk (.createDirAll src.cacheDir) = .ok ()) :
    Program.exec env.handle (projectMembers lib src manifest) disk =
      Program.exec env.handle
        (projectLayers lib src (env.servedSpec lib) 0 [] manifest.layers) disk := by
  unfold projectMembers
  rw [Program.bind_perform, Program.exec_call, handle_createDirAll, hdir]
  change Program.exec env.handle (fetchSpec lib src manifest >>= _) disk = _
  rw [exec_gets_bind env _ (fetchSpec_isGet lib src manifest), result_fetchSpec]

/-- A pass that admits a manifest ends as the projection of its layers does. -/
theorem exec_refresh_of_admits (env : Environment) (current : Option Text)
    (pinned : PinnedManifest) (manifest : Manifest) (signatureVerified : Bool) (disk : Disk)
    (h : Admits lib src env current pinned manifest signatureVerified) :
    Program.exec env.handle (refresh lib src current) disk =
      match Program.exec env.handle
        (projectLayers lib src (env.servedSpec lib) 0 [] manifest.layers) disk with
      | (.ok served, t) => (concludePass lib src pinned signatureVerified served, t)
      | (.error err, t) => (.error err, t) := by
  unfold refresh
  rw [exec_gets_bind env _ (fetchManifest_isGet lib src), h.fetched]
  simp only [if_neg h.changed]
  rw [exec_gets_bind env _ (admitManifest_isGet lib src pinned), h.admitted]
  simp only
  rw [Program.exec_bind, exec_projectMembers lib src env manifest disk h.cacheDir]
  rcases Program.exec env.handle
    (projectLayers lib src (env.servedSpec lib) 0 [] manifest.layers) disk with ⟨_ | served, t⟩
  · rfl
  · simp only [concludePass]
    split
    · rfl
    · rw [Program.exec_bind, exec_ofExcept]
      cases statusFor lib src pinned true signatureVerified <;> rfl

/-- A status is made of a manifest that parses, and says what it is given. -/
theorem statusFor_ok (pinned : PinnedManifest) (ready signatureVerified : Bool)
    (status : AssetStatus) (h : statusFor lib src pinned ready signatureVerified = .ok status) :
    (lib.manifest pinned.bytes).isSome ∧ status.digest = some pinned.digest ∧
      status.ready = ready ∧ status.signatureVerified = signatureVerified := by
  unfold statusFor at h
  cases hmanifest : lib.manifest pinned.bytes with
  | none =>
    rw [hmanifest] at h
    cases h
  | some manifest =>
    rw [hmanifest] at h
    cases h
    exact ⟨rfl, rfl, rfl, rfl⟩

/-- The status of a pass names the digest it pinned. -/
theorem statusFor_digest (pinned : PinnedManifest) (ready signatureVerified : Bool)
    (status : AssetStatus) (h : statusFor lib src pinned ready signatureVerified = .ok status) :
    status.digest = some pinned.digest :=
  (statusFor_ok lib src pinned ready signatureVerified status h).2.1

/-- A pass that admits none leaves the disk, and succeeds only if it finds the current digest
again. -/
theorem exec_refresh_of_not_admits (env : Environment) (current : Option Text) (disk : Disk)
    (h : ∀ pinned manifest verified, ¬ Admits lib src env current pinned manifest verified) :
    ∃ r, Program.exec env.handle (refresh lib src current) disk = (r, disk) ∧
      ∀ refreshed, r = .ok refreshed →
        ∃ digest, current = some digest ∧ refreshed.status.digest = some digest := by
  unfold refresh
  rw [exec_gets_bind env _ (fetchManifest_isGet lib src)]
  cases hfetch : env.result (fetchManifest lib src) with
  | error err => exact ⟨_, rfl, fun _ hr => by cases hr⟩
  | ok pinned =>
    simp only
    split
    · rename_i hsame
      rw [Program.exec_bind, exec_ofExcept]
      cases hstatus : statusFor lib src pinned true true with
      | error err => exact ⟨_, rfl, fun _ hr => by cases hr⟩
      | ok status =>
        refine ⟨_, rfl, fun refreshed hr => ?_⟩
        cases hr
        exact ⟨pinned.digest, hsame.symm, statusFor_digest lib src pinned true true status hstatus⟩
    · rename_i hchanged
      rw [exec_gets_bind env _ (admitManifest_isGet lib src pinned)]
      cases hadmitted : env.result (admitManifest lib src pinned) with
      | error err => exact ⟨_, rfl, fun _ hr => by cases hr⟩
      | ok admitted =>
        obtain ⟨manifest, verified⟩ := admitted
        cases hdir : env.disk (.createDirAll src.cacheDir) with
        | ok made => exact absurd ⟨hfetch, hchanged, hadmitted, hdir⟩ (h pinned manifest verified)
        | error err =>
          simp only
          rw [Program.exec_bind]
          unfold projectMembers
          rw [Program.bind_perform, Program.exec_call, handle_createDirAll, hdir]
          exact ⟨_, rfl, fun _ hr => by cases hr⟩

/-- A pass that succeeds publishes the status of the manifest it fetched. Either the digest is the
published one, or the pass has admitted the manifest. -/
theorem exec_refresh_ok (env : Environment) (current : Option Text) (disk t : Disk)
    (refreshed : Refreshed)
    (h : Program.exec env.handle (refresh lib src current) disk = (.ok refreshed, t)) :
    ∃ pinned verified, env.result (fetchManifest lib src) = .ok pinned ∧
      statusFor lib src pinned true verified = .ok refreshed.status ∧
        (some pinned.digest = current ∧ verified = true ∨
          some pinned.digest ≠ current ∧
            ∃ manifest, env.result (admitManifest lib src pinned) = .ok (manifest, verified)) := by
  have hconclude : ∀ pinned verified changed (s : Disk),
      Program.exec env.handle (ofExcept (statusFor lib src pinned true verified) >>= fun status =>
        .done (Refreshed.mk status changed)) s = (.ok refreshed, t) →
      statusFor lib src pinned true verified = .ok refreshed.status := by
    intro pinned verified changed s hexec
    rw [Program.exec_bind, exec_ofExcept] at hexec
    cases hstatus : statusFor lib src pinned true verified with
    | error err =>
      rw [hstatus] at hexec
      cases hexec
    | ok status =>
      rw [hstatus] at hexec
      cases hexec
      rfl
  unfold refresh at h
  rw [exec_gets_bind env _ (fetchManifest_isGet lib src)] at h
  cases hfetch : env.result (fetchManifest lib src) with
  | error err =>
    rw [hfetch] at h
    cases h
  | ok pinned =>
    rw [hfetch] at h
    simp only at h
    split at h
    · rename_i hsame
      exact ⟨pinned, true, rfl, hconclude pinned true false disk h, .inl ⟨hsame, rfl⟩⟩
    rename_i hchanged
    rw [exec_gets_bind env _ (admitManifest_isGet lib src pinned)] at h
    cases hadmitted : env.result (admitManifest lib src pinned) with
    | error err =>
      rw [hadmitted] at h
      cases h
    | ok admitted =>
      obtain ⟨manifest, verified⟩ := admitted
      rw [hadmitted] at h
      simp only at h
      rw [Program.exec_bind] at h
      rcases hproject : Program.exec env.handle (projectMembers lib src manifest) disk with
        ⟨err | served, after⟩
      · rw [hproject] at h
        cases h
      rw [hproject] at h
      simp only at h
      split at h
      · cases h
      · exact ⟨pinned, verified, rfl, hconclude pinned verified true after h,
          .inr ⟨hchanged, manifest, hadmitted⟩⟩

/-- A pass that succeeds has fetched the manifest whose digest its status names. -/
theorem fetched_of_exec_refresh (env : Environment) (current : Option Text) (disk t : Disk)
    (refreshed : Refreshed)
    (h : Program.exec env.handle (refresh lib src current) disk = (.ok refreshed, t)) :
    ∃ pinned, env.result (fetchManifest lib src) = .ok pinned ∧
      refreshed.status.digest = some pinned.digest := by
  obtain ⟨pinned, verified, hfetch, hstatus, -⟩ :=
    exec_refresh_ok lib src env current disk t refreshed h
  exact ⟨pinned, hfetch, statusFor_digest lib src pinned true verified _ hstatus⟩

/-- What the projection of a manifest writes, it writes going through the layers. -/
theorem write_mem_trace_projectMembers_iff (env : Environment) (manifest : Manifest) (disk : Disk)
    (i : ℕ) (path : Text) (bytes : Bytes) :
    .write i path bytes ∈ Program.trace env.handle (projectMembers lib src manifest) disk ↔
      env.disk (.createDirAll src.cacheDir) = .ok () ∧
        .write i path bytes ∈ Program.trace env.handle
          (projectLayers lib src (env.servedSpec lib) 0 [] manifest.layers) disk := by
  have hop : ¬ IsGet (.write i path bytes) := fun h => h
  unfold projectMembers
  rw [Program.bind_perform, Program.trace, List.mem_cons, handle_createDirAll]
  cases hdir : env.disk (.createDirAll src.cacheDir) with
  | error err =>
    constructor
    · rintro (heq | hmem)
      · cases heq
      · cases hmem
    · rintro ⟨hok, -⟩
      cases hok
  | ok made =>
    change _ ∨ _ ∈ Program.trace env.handle (fetchSpec lib src manifest >>= _) disk ↔ _
    rw [mem_trace_gets_bind_iff env _ (fetchSpec_isGet lib src manifest) _ _ _ hop,
      result_fetchSpec]
    constructor
    · rintro (heq | ⟨spec, hspec, hmem⟩)
      · cases heq
      · cases hspec
        exact ⟨rfl, hmem⟩
    · rintro ⟨-, hmem⟩
      exact .inr ⟨_, rfl, hmem⟩

/-- A pass writes what the projection of an admitted manifest writes. -/
theorem write_mem_trace_refresh_iff (env : Environment) (current : Option Text) (disk : Disk)
    (i : ℕ) (path : Text) (bytes : Bytes) :
    .write i path bytes ∈ Program.trace env.handle (refresh lib src current) disk ↔
      ∃ pinned manifest verified, Admits lib src env current pinned manifest verified ∧
        .write i path bytes ∈ Program.trace env.handle
          (projectLayers lib src (env.servedSpec lib) 0 [] manifest.layers) disk := by
  have hop : ¬ IsGet (.write i path bytes) := fun h => h
  unfold refresh
  rw [mem_trace_gets_bind_iff env _ (fetchManifest_isGet lib src) _ _ _ hop]
  constructor
  · rintro ⟨pinned, hfetch, hmem⟩
    simp only at hmem
    split at hmem
    · rw [mem_trace_gets_bind_iff env _ (ofExcept_only _ _) _ _ _ hop] at hmem
      obtain ⟨_, -, hmem⟩ := hmem
      cases hmem
    rename_i hchanged
    rw [mem_trace_gets_bind_iff env _ (admitManifest_isGet lib src pinned) _ _ _ hop] at hmem
    obtain ⟨⟨manifest, verified⟩, hadmitted, hmem⟩ := hmem
    rcases (Program.mem_trace_bind_iff ..).mp hmem with hmem | ⟨served, t, -, hmem⟩
    · obtain ⟨hdir, hmem⟩ := (write_mem_trace_projectMembers_iff ..).mp hmem
      exact ⟨pinned, manifest, verified, ⟨hfetch, hchanged, hadmitted, hdir⟩, hmem⟩
    split at hmem
    · cases hmem
    · rw [mem_trace_gets_bind_iff env _ (ofExcept_only _ _) _ _ _ hop] at hmem
      obtain ⟨_, -, hmem⟩ := hmem
      cases hmem
  · rintro ⟨pinned, manifest, verified, h, hmem⟩
    refine ⟨pinned, h.fetched, ?_⟩
    simp only [if_neg h.changed]
    rw [mem_trace_gets_bind_iff env _ (admitManifest_isGet lib src pinned) _ _ _ hop]
    refine ⟨(manifest, verified), h.admitted, ?_⟩
    exact (Program.mem_trace_bind_iff ..).mpr
      (.inl ((write_mem_trace_projectMembers_iff ..).mpr ⟨h.cacheDir, hmem⟩))

/-! ## Layer by layer -/

/-- What a served layer is written from: the inline text for its role or, if there is none, its
blob once checked. -/
def Environment.memberBytes (env : Environment) (spec : PalletSpec) (i : ℕ) (layer : Descriptor)
    (role : Text) (asset : Asset) : Option Bytes :=
  match inlineText spec role with
  | some text => some (utf8Encode text)
  | none => (received (env.registry (.member i))).bind fun body =>
      (checkMember lib layer asset body).toOption

/-- The path it is written under. -/
def writePath (spec : PalletSpec) (role : Text) (asset : Asset) : Text :=
  if (inlineText spec role).isSome then src.assetPath asset else src.tmpPath asset

/-- The layer is not served, or its bytes can be had and the disk takes them. -/
def Obtained (env : Environment) (spec : PalletSpec) (i : ℕ) (layer : Descriptor) : Prop :=
  ∀ role asset, servedAs layer = some (role, asset) →
    ∃ bytes, env.memberBytes lib spec i layer role asset = some bytes ∧
      env.disk (.write i (writePath src spec role asset) bytes) = .ok () ∧
      (inlineText spec role = none →
        env.disk (.rename i (src.tmpPath asset) (src.assetPath asset)) = .ok ())

/-- The file a layer is served as then holds its bytes, and a blob's temporary file is gone. -/
def Disk.serve (disk : Disk) (spec : PalletSpec) (role : Text) (asset : Asset) (bytes : Bytes) :
    Disk :=
  if (inlineText spec role).isSome then Function.update disk (src.assetPath asset) (some bytes)
  else Function.update (Function.update disk (src.tmpPath asset) none) (src.assetPath asset)
    (some bytes)

/-- A member is accepted exactly when it hashes to its digest and has its size, if it has one. -/
theorem checkMember_ok_iff (layer : Descriptor) (asset : Asset) (body bytes : Bytes) :
    checkMember lib layer asset body = .ok bytes ↔
      bytes = body ∧ lib.digest body = toAsciiLowercase layer.digest ∧
        (layer.size = 0 ∨ layer.size = body.length) := by
  simp only [checkMember]
  split_ifs with hdigest hsize
  · simp [hdigest]
  · simp only [false_iff, not_and, not_or]
    exact fun _ _ => hsize
  · rw [not_and_or, not_not, not_not] at hsize
    rw [not_not] at hdigest
    rw [Except.ok.injEq]
    exact ⟨fun h => ⟨h.symm, hdigest, hsize⟩, fun h => h.1.symm⟩

/-- A body leaves the disk. -/
theorem exec_getBody (env : Environment) (request : Request) (url : Text) (accept : Option Text)
    (disk : Disk) :
    Program.exec env.handle (getBody request url accept) disk =
      (bodyOf url (env.registry request), disk) :=
  exec_ofExcept env _ disk

/-- A write has happened exactly when it succeeded. -/
theorem exec_writeFile (env : Environment) (i : ℕ) (path : Text) (bytes : Bytes) (disk : Disk) :
    Program.exec env.handle (writeFile i path bytes) disk =
      ((env.disk (.write i path bytes)).mapError (PalletError.disk path),
        if (env.disk (.write i path bytes)).isOk then Function.update disk path (some bytes)
        else disk) :=
  exec_onDisk env path _ _

/-- A rename moves what the source holds, if it succeeds. -/
theorem exec_renameFile (env : Environment) (i : ℕ) (source target : Text) (disk : Disk) :
    Program.exec env.handle (renameFile i source target) disk =
      ((env.disk (.rename i source target)).mapError (PalletError.disk target),
        if (env.disk (.rename i source target)).isOk then
          Function.update (Function.update disk source none) target (disk source)
        else disk) :=
  exec_onDisk env target _ _

/-- Raising an error performs nothing. -/
theorem trace_onDisk (env : Environment) (path : Text) (r : Except Text Unit) (disk : Disk) :
    Program.trace env.handle (onDisk path r) disk = [] := by
  cases r <;> rfl

/-- A write performs one operation. -/
theorem trace_writeFile (env : Environment) (i : ℕ) (path : Text) (bytes : Bytes) (disk : Disk) :
    Program.trace env.handle (writeFile i path bytes) disk = [.write i path bytes] :=
  congrArg (_ :: ·) (trace_onDisk env path _ _)

/-- So does a rename. -/
theorem trace_renameFile (env : Environment) (i : ℕ) (source target : Text) (disk : Disk) :
    Program.trace env.handle (renameFile i source target) disk = [.rename i source target] :=
  congrArg (_ :: ·) (trace_onDisk env target _ _)

/-- A member is got by one request. -/
theorem downloadMember_isGet (i : ℕ) (layer : Descriptor) (asset : Asset) :
    (downloadMember lib src i layer asset).Only IsGet :=
  Program.only_bind (getBody_isGet _ _ _) fun _ => ofExcept_only _ _

/-- A download succeeds with the body it was answered, if that passes the checks. -/
theorem result_downloadMember_ok_iff (env : Environment) (i : ℕ) (layer : Descriptor)
    (asset : Asset) (bytes : Bytes) :
    env.result (downloadMember lib src i layer asset) = .ok bytes ↔
      ((received (env.registry (.member i))).bind fun body =>
        (checkMember lib layer asset body).toOption) = some bytes := by
  unfold Environment.result downloadMember
  rw [Program.exec_bind, exec_getBody, Option.bind_eq_some_iff]
  cases hbody : bodyOf (src.repoUrl "blobs".toList layer.digest) (env.registry (.member i)) with
  | error err =>
    simp only [reduceCtorEq, false_iff, not_exists, not_and]
    intro body hreceived
    rw [(bodyOf_ok_iff ..).mpr hreceived] at hbody
    cases hbody
  | ok body =>
    simp only [exec_ofExcept, (bodyOf_ok_iff ..).mp hbody, Option.some.injEq, exists_eq_left']
    cases checkMember lib layer asset body <;> simp [Except.toOption]

/-- What is written for a layer. -/
theorem write_mem_trace_projectLayer_iff (env : Environment) (spec : PalletSpec) (i j : ℕ)
    (layer : Descriptor) (path : Text) (bytes : Bytes) (disk : Disk) :
    .write j path bytes ∈ Program.trace env.handle (projectLayer lib src spec i layer) disk ↔
      j = i ∧ ∃ role asset, servedAs layer = some (role, asset) ∧
        env.memberBytes lib spec i layer role asset = some bytes ∧
          path = writePath src spec role asset := by
  have hop : ¬ IsGet (.write j path bytes) := fun h => h
  unfold projectLayer
  cases hserved : servedAs layer with
  | none =>
    simp only [Program.trace, List.not_mem_nil, reduceCtorEq, false_and, exists_false, and_false]
  | some served =>
    obtain ⟨role, asset⟩ := served
    simp only [Option.some.injEq, Prod.mk.injEq, and_assoc, exists_and_left, exists_eq_left']
    unfold Environment.memberBytes writePath
    cases hinline : inlineText spec role with
    | some text =>
      simp only [Program.mem_trace_bind_iff, trace_writeFile, List.mem_singleton, Program.trace,
        List.not_mem_nil, and_false, exists_false, or_false, PalletOp.write.injEq,
        Option.some.injEq, Option.isSome_some, if_true]
      constructor
      · rintro ⟨rfl, rfl, rfl⟩
        exact ⟨rfl, rfl, rfl⟩
      · rintro ⟨rfl, rfl, rfl⟩
        exact ⟨rfl, rfl, rfl⟩
    | none =>
      simp only [Program.mem_trace_bind_iff, Program.trace_mapError, Program.trace,
        List.not_mem_nil, and_false, exists_false, or_false, Option.isSome_none,
        Bool.false_eq_true, if_false]
      unfold fetchMember
      rw [mem_trace_gets_bind_iff env _ (downloadMember_isGet lib src i layer asset) _ _ _ hop]
      simp only [Program.mem_trace_bind_iff, trace_writeFile, trace_renameFile, List.mem_singleton,
        reduceCtorEq, and_false, exists_false, or_false, PalletOp.write.injEq,
        result_downloadMember_ok_iff]
      constructor
      · rintro ⟨body, hbody, rfl, rfl, rfl⟩
        exact ⟨rfl, hbody, rfl⟩
      · rintro ⟨rfl, hbody, rfl⟩
        exact ⟨bytes, hbody, rfl, rfl, rfl⟩

/-- The disk once a layer is served. -/
def Environment.afterLayer (env : Environment) (spec : PalletSpec) (i : ℕ) (layer : Descriptor)
    (disk : Disk) : Disk :=
  match servedAs layer with
  | none => disk
  | some (role, asset) =>
    match env.memberBytes lib spec i layer role asset with
    | some bytes => disk.serve src spec role asset bytes
    | none => disk

/-- A layer that is obtained is served. -/
theorem exec_projectLayer_of_obtained (env : Environment) (spec : PalletSpec) (i : ℕ)
    (layer : Descriptor) (disk : Disk) (h : Obtained lib src env spec i layer) :
    Program.exec env.handle (projectLayer lib src spec i layer) disk =
      (.ok ((servedAs layer).map (·.2)), env.afterLayer lib src spec i layer disk) := by
  unfold projectLayer Environment.afterLayer
  cases hserved : servedAs layer with
  | none => rfl
  | some served =>
    obtain ⟨role, asset⟩ := served
    obtain ⟨bytes, hbytes, hwrite, hrename⟩ := h role asset hserved
    unfold writePath at hwrite
    cases hinline : inlineText spec role with
    | some text =>
      have htext : utf8Encode text = bytes := by
        rw [Environment.memberBytes, hinline] at hbytes
        exact Option.some.inj hbytes
      simp only [hinline, Option.isSome_some, if_true] at hwrite
      simp only [hbytes, htext, Disk.serve, hinline, Option.isSome_some, if_true]
      rw [Program.exec_bind, exec_writeFile, hwrite]
      rfl
    | none =>
      have hdownload : env.result (downloadMember lib src i layer asset) = .ok bytes := by
        rw [result_downloadMember_ok_iff]
        rw [Environment.memberBytes, hinline] at hbytes
        exact hbytes
      simp only [hinline, Option.isSome_none, Bool.false_eq_true, if_false] at hwrite
      simp only [hbytes, Disk.serve, hinline, Option.isSome_none, Bool.false_eq_true, if_false]
      rw [Program.exec_bind, Program.exec_mapError]
      unfold fetchMember
      rw [exec_gets_bind env _ (downloadMember_isGet lib src i layer asset), hdownload]
      simp only
      rw [Program.exec_bind, exec_writeFile, hwrite]
      simp only [Except.mapError, Except.isOk, Except.toBool, if_true]
      rw [exec_renameFile, hrename hinline]
      simp only [Except.mapError, Except.isOk, Except.toBool, if_true, Function.update_self,
        Function.update_idem]
      rfl

/-- A layer that is served was obtained. -/
theorem obtained_of_exec_projectLayer (env : Environment) (spec : PalletSpec) (i : ℕ)
    (layer : Descriptor) (disk t : Disk) (served : Option Asset)
    (h : Program.exec env.handle (projectLayer lib src spec i layer) disk = (.ok served, t)) :
    Obtained lib src env spec i layer := by
  intro role asset hserved
  unfold projectLayer at h
  simp only [hserved] at h
  unfold writePath Environment.memberBytes
  cases hinline : inlineText spec role with
  | some text =>
    simp only [hinline] at h
    rw [Program.exec_bind, exec_writeFile] at h
    refine ⟨utf8Encode text, rfl, ?_, fun hnone => by cases hnone⟩
    simp only [Option.isSome_some, if_true]
    cases hwrite : env.disk (.write i (src.assetPath asset) (utf8Encode text)) with
    | ok done => rfl
    | error err =>
      rw [hwrite] at h
      cases h
  | none =>
    simp only [hinline] at h
    rw [Program.exec_bind, Program.exec_mapError] at h
    unfold fetchMember at h
    rw [exec_gets_bind env _ (downloadMember_isGet lib src i layer asset)] at h
    cases hdownload : env.result (downloadMember lib src i layer asset) with
    | error err =>
      rw [hdownload] at h
      cases h
    | ok bytes =>
      rw [hdownload] at h
      simp only at h
      rw [Program.exec_bind, exec_writeFile] at h
      refine ⟨bytes, (result_downloadMember_ok_iff ..).mp hdownload, ?_, fun _ => ?_⟩
      · simp only [Option.isSome_none, Bool.false_eq_true, if_false]
        cases hwrite : env.disk (.write i (src.tmpPath asset) bytes) with
        | ok done => rfl
        | error err =>
          rw [hwrite] at h
          cases h
      · cases hwrite : env.disk (.write i (src.tmpPath asset) bytes) with
        | error err =>
          rw [hwrite] at h
          cases h
        | ok done =>
          rw [hwrite] at h
          simp only [Except.mapError] at h
          rw [exec_renameFile] at h
          cases hrename : env.disk (.rename i (src.tmpPath asset) (src.assetPath asset)) with
          | ok done => rfl
          | error err =>
            rw [hrename] at h
            cases h

/-- A layer writes for the pass if every layer before it was obtained. -/
theorem write_mem_trace_projectLayers_iff (env : Environment) (spec : PalletSpec) (i j : ℕ)
    (served : List Asset) (layers : List Descriptor) (path : Text) (bytes : Bytes) (disk : Disk) :
    .write j path bytes ∈
        Program.trace env.handle (projectLayers lib src spec i served layers) disk ↔
      ∃ k layer, layers[k]? = some layer ∧
        (∀ m < k, ∀ before, layers[m]? = some before → Obtained lib src env spec (i + m) before) ∧
          j = i + k ∧ ∃ role asset, servedAs layer = some (role, asset) ∧
            env.memberBytes lib spec (i + k) layer role asset = some bytes ∧
              path = writePath src spec role asset := by
  induction layers generalizing i served disk with
  | nil =>
    simp only [projectLayers, Program.trace, List.not_mem_nil, List.getElem?_nil, reduceCtorEq,
      false_and, exists_false]
  | cons layer rest ih =>
    unfold projectLayers
    rw [Program.mem_trace_bind_iff, write_mem_trace_projectLayer_iff]
    constructor
    · rintro (⟨rfl, role, asset, hwrite⟩ | ⟨asset, t, hexec, hmem⟩)
      · exact ⟨0, layer, rfl, fun m hm => absurd hm m.not_lt_zero, rfl, role, asset, hwrite⟩
      · obtain ⟨k, later, hlater, hbefore, rfl, hwrite⟩ := (ih ..).mp hmem
        refine ⟨k + 1, later, hlater, fun m hm before hm' => ?_, by omega, ?_⟩
        · cases m with
          | zero =>
            cases hm'
            exact obtained_of_exec_projectLayer lib src env spec i layer disk t asset hexec
          | succ m =>
            have hobtained := hbefore m (by omega) before hm'
            rwa [show i + 1 + m = i + (m + 1) by omega] at hobtained
        · rwa [show i + 1 + k = i + (k + 1) by omega] at hwrite
    · rintro ⟨k, later, hlater, hbefore, rfl, hwrite⟩
      cases k with
      | zero =>
        cases hlater
        exact .inl ⟨rfl, hwrite⟩
      | succ k =>
        have hfirst := hbefore 0 k.succ_pos layer rfl
        refine .inr ⟨_, _, exec_projectLayer_of_obtained lib src env spec i layer disk hfirst, ?_⟩
        refine (ih ..).mpr ⟨k, later, hlater, fun m hm before hm' => ?_, by omega, ?_⟩
        · rw [show i + 1 + m = i + (m + 1) by omega]
          exact hbefore (m + 1) (by omega) before hm'
        · rwa [show i + 1 + k = i + (k + 1) by omega]

end Pass

end Stormnetboot.Server

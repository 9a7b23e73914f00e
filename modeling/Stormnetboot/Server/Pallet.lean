import Stormnetboot.Server.Stormsig

/-!
# Boot pallet projection

The pass that fetches the active boot pallet from the registry and materialises its members
in the cache directory that machines boot from. Hashing, the curve and the JSON decoders are
parameters. A request names its place in the pass beside its URL, so that a registry may
answer every request of a pass as it likes, the same URL differently each time included.
-/

namespace Stormnetboot.Server

open Stormnetboot.Common

/-- artifactType of a pallet manifest. -/
def palletArtifactType : Text := "application/vnd.stormblock.pallet.v1+json".toList

/-- Media type of the pallet spec carried as the manifest's config blob. -/
def palletConfigType : Text := "application/vnd.stormblock.pallet.config.v1+json".toList

/-- Media type prefix shared by every member layer; the suffix is the role. -/
def memberMediaPrefix : Text := "application/vnd.stormblock.member.".toList

/-- `OCI_MANIFEST_TYPE`. -/
def ociManifestType : Text := "application/vnd.oci.image.manifest.v1+json".toList

/-- `OCI_INDEX_TYPE`. -/
def ociIndexType : Text := "application/vnd.oci.image.index.v1+json".toList

/-- `ANNOTATION_ROLE`. -/
def annotationRole : Text := "org.stormblock.member.role".toList

/-- `ANNOTATION_NAME`. -/
def annotationName : Text := "org.stormblock.member.name".toList

/-- What the server is currently able to serve, for health and the console. -/
structure AssetStatus where
  ready : Bool
  detail : Text
  version : Option Text
  digest : Option Text
  signatureVerified : Bool
  deriving DecidableEq, Repr

/-- A descriptor of a manifest, a config or a layer. -/
structure Descriptor where
  mediaType : Text
  digest : Text
  size : ℕ := 0
  artifactType : Option Text := none
  annotations : List (Text × Text) := []
  deriving DecidableEq, Repr

/-- An image manifest. -/
structure Manifest where
  artifactType : Option Text := none
  config : Descriptor
  layers : List Descriptor := []
  annotations : List (Text × Text) := []
  deriving DecidableEq, Repr

/-- An index of manifests. -/
structure Index where
  manifests : List Descriptor := []
  deriving DecidableEq, Repr

/-- A member as described by the spec. An `inline` member's content is its text. -/
structure MemberDef where
  name : Text := []
  role : Text := []
  source : Text := []
  text : Option Text := none
  deriving DecidableEq, Repr

/-- The pallet's config blob, the spec describing the pallet. -/
structure PalletSpec where
  members : List MemberDef := []
  deriving DecidableEq, Repr

/-- What the pass uses of other libraries: SHA-256, Ed25519, and the JSON decoders. -/
structure Libraries where
  sha256 : Bytes → Bytes
  ed25519 : Ed25519
  manifest : Bytes → Option Manifest
  index : Bytes → Option Index
  spec : Bytes → Option PalletSpec
  document : Bytes → Option SignatureDoc

/-- The digest of some bytes, as manifests write it. -/
def Libraries.digest (lib : Libraries) (bytes : Bytes) : Text :=
  "sha256:".toList ++ hexEncode (lib.sha256 bytes)

/-- The files a cache directory is filled with. -/
inductive Asset where
  | kernel
  | initramfs
  | cmdline
  deriving DecidableEq, Repr

/-- What the firmware calls them. -/
def Asset.filename : Asset → Text
  | .kernel => "vmlinuz".toList
  | .initramfs => "initramfs.img".toList
  | .cmdline => "cmdline".toList

/-- The file a member of this role is served as, if it is served at all. -/
def filenameForRole (role : Text) : Option Asset :=
  if role = "kernel".toList then some .kernel
  else if role = "initramfs".toList then some .initramfs
  else if role = "cmdline".toList ∨ role = "bootconfig".toList then some .cmdline
  else none

/-- A member's role, from its annotation or its media type suffix. -/
def memberRole (layer : Descriptor) : Option Text :=
  match layer.annotations.lookup annotationRole with
  | some role => some role
  | none =>
    match layer.annotations.lookup annotationName with
    | some name => some name
    | none => stripPrefix memberMediaPrefix layer.mediaType

/-- Inline content for a role, if the spec carries it: that of the first inline member whose
role or name it is. -/
def inlineText (spec : PalletSpec) (role : Text) : Option Text :=
  (spec.members.find? fun m =>
    m.source = "inline".toList ∧ (m.role = role ∨ m.name = role)).bind (·.text)

/-- Where the pallet comes from and where its members go. -/
structure PalletSource where
  /-- Base URL of the registry. -/
  registry : Text
  /-- Repository holding the boot pallet. -/
  repo : Text
  /-- Tag or digest to resolve. -/
  reference : Text
  cacheDir : Text
  trustedKeys : List Text
  /-- Refuse to serve a pallet whose signature does not verify. -/
  requireSignature : Bool
  deriving DecidableEq, Repr

namespace PalletSource

/-- Where an asset is served from. -/
def assetPath (src : PalletSource) (asset : Asset) : Text :=
  joinPath src.cacheDir asset.filename

/-- Where it is written first. -/
def tmpPath (src : PalletSource) (asset : Asset) : Text :=
  joinPath src.cacheDir (".".toList ++ asset.filename ++ ".tmp".toList)

/-- The URL of something in the repository. -/
def repoUrl (src : PalletSource) (kind name : Text) : Text :=
  src.registry ++ "/v2/".toList ++ src.repo ++ "/".toList ++ kind ++ "/".toList ++ name

end PalletSource

/-! ## What the pass asks for -/

/-- The place of a request in the pass. Referrers and layers are counted in the order in which
they are listed. -/
inductive Request where
  | manifest
  | referrers
  | referrer (i : ℕ)
  | document (i : ℕ)
  | spec
  | member (i : ℕ)
  deriving DecidableEq, Repr

/-- An answer of the registry. The body is absent if its transfer broke off. -/
structure Response where
  status : ℕ
  digestHeader : Option Text
  body : Option Bytes
  deriving DecidableEq, Repr

/-- `StatusCode::is_success`. -/
def Response.isSuccess (resp : Response) : Bool :=
  200 ≤ resp.status && resp.status < 300

/-- What the pass asks of the registry and of the disk. -/
inductive PalletOp where
  | get (request : Request) (url : Text) (accept : Option Text)
  | createDirAll (path : Text)
  | tryExists (path : Text)
  | write (layer : ℕ) (path : Text) (bytes : Bytes)
  | rename (layer : ℕ) (source target : Text)
  deriving DecidableEq

/-- The answer of each operation; a request that could not be sent has none. -/
def PalletOp.Ans : PalletOp → Type
  | .get _ _ _ => Option Response
  | .createDirAll _ => Except Text Unit
  | .tryExists _ => Bool
  | .write _ _ _ => Except Text Unit
  | .rename _ _ _ => Except Text Unit

/-- Why a referrer did not count as a signature. -/
inductive SignatureFault where
  | manifestUnparseable
  | documentUnparseable
  | rejected (err : VerifyError)
  deriving DecidableEq, Repr

/-- Why a pass failed, with what the error's text says. -/
inductive PalletError where
  | unreachable (url : Text)
  | refused (url : Text) (status : ℕ)
  | brokenOff (url : Text)
  | digestMismatch (header computed : Text)
  | referrersUnparseable
  | noAcceptableSignature (digest : Text) (last : SignatureFault)
  | unsigned (digest : Text)
  | manifestUnparseable
  | notPallet (artifactType : Option Text) (configType : Text)
  | disk (path err : Text)
  | memberDigest (asset : Asset) (expected computed : Text)
  | memberSize (asset : Asset) (expected actual : ℕ)
  | member (role digest : Text) (cause : PalletError)
  | incomplete (digest : Text) (served : List Asset)
  deriving DecidableEq, Repr

/-- A program of the pallet source. -/
abbrev Fetch := Program PalletOp PalletOp.Ans PalletError

/-- Raise an error that was computed. -/
def ofExcept {α : Type} : Except PalletError α → Fetch α
  | .ok a => .done a
  | .error err => .fail err

/-- Raise the error of a disk operation on a path. -/
def onDisk (path : Text) : Except Text Unit → Fetch Unit
  | .ok () => .done ()
  | .error err => .fail (.disk path err)

/-- `tokio::fs::write`. -/
def writeFile (layer : ℕ) (path : Text) (bytes : Bytes) : Fetch Unit := do
  onDisk path (← Program.perform (PalletOp.write layer path bytes))

/-- `tokio::fs::rename`. -/
def renameFile (layer : ℕ) (source target : Text) : Fetch Unit := do
  onDisk target (← Program.perform (PalletOp.rename layer source target))

/-- The body of an answer that was sent, successful and whole. -/
def bodyOf (url : Text) : Option Response → Except PalletError Bytes
  | none => .error (.unreachable url)
  | some resp =>
    if !resp.isSuccess then .error (.refused url resp.status)
    else
      match resp.body with
      | some bytes => .ok bytes
      | none => .error (.brokenOff url)

/-- Send a request and read its body. -/
def getBody (request : Request) (url : Text) (accept : Option Text) : Fetch Bytes := do
  ofExcept (bodyOf url (← Program.perform (PalletOp.get request url accept)))

/-! ## The manifest and its signature -/

/-- The bytes of the manifest and the digest that names them. -/
structure PinnedManifest where
  bytes : Bytes
  digest : Text
  deriving DecidableEq, Repr

section Pass

variable (lib : Libraries) (src : PalletSource)

/-- The registry's own digest header, if there is one, must be that of the bytes up to case. -/
def pinManifest (header : Option Text) (bytes : Bytes) : Except PalletError PinnedManifest :=
  let computed := lib.digest bytes
  match header with
  | some header =>
    if toAsciiLowercase header ≠ computed then .error (.digestMismatch header computed)
    else .ok ⟨bytes, header⟩
  | none => .ok ⟨bytes, computed⟩

/-- `PalletSource::fetch_manifest`. -/
def fetchManifest : Fetch PinnedManifest := do
  let url := src.repoUrl "manifests".toList src.reference
  let answer ← Program.perform
    (PalletOp.get .manifest url (some (ociManifestType ++ ", ".toList ++ ociIndexType)))
  let bytes ← ofExcept (bodyOf url answer)
  ofExcept (pinManifest lib (answer.bind (·.digestHeader)) bytes)

/-- Nothing compares the bytes with the digest they were asked for by. -/
def fetchBlobOrManifest (request : Request) (digest : Text) (isManifest : Bool) : Fetch Bytes :=
  let kind := if isManifest then "manifests".toList else "blobs".toList
  getBody request (src.repoUrl kind digest) (some ociManifestType)

/-- Look for a referrer whose document is a trusted signature over the subject. -/
def checkReferrers (subject : Text) (i : ℕ) (lastError : Option SignatureFault) :
    List Descriptor → Fetch Bool
  | [] =>
    match lastError with
    | some err => .fail (.noAcceptableSignature subject err)
    | none => .done false
  | referrer :: rest =>
    if referrer.artifactType ≠ some signatureArtifactType then
      checkReferrers subject (i + 1) lastError rest
    else do
      let manifestBytes ← fetchBlobOrManifest src (.referrer i) referrer.digest true
      match lib.manifest manifestBytes with
      | none => checkReferrers subject (i + 1) (some .manifestUnparseable) rest
      | some manifest => do
        let docBytes ← fetchBlobOrManifest src (.document i) manifest.config.digest false
        match lib.document docBytes with
        | none => checkReferrers subject (i + 1) (some .documentUnparseable) rest
        | some doc =>
          match verify lib.ed25519 doc subject src.trustedKeys with
          | .ok _ => .done true
          | .error err => checkReferrers subject (i + 1) (some (.rejected err)) rest

/-- Find and check a trusted signature over this manifest digest. The answer is `false` when
none exists, and an error when one exists and none is good. -/
def verifySignature (subject : Text) : Fetch Bool := do
  if src.trustedKeys.isEmpty then .done false
  else
    let url := src.repoUrl "referrers".toList
      (subject ++ "?artifactType=".toList ++ signatureArtifactType)
    match ← Program.perform (PalletOp.get .referrers url none) with
    | none => .fail (.unreachable url)
    | some resp =>
      if !resp.isSuccess then .done false
      else
        match resp.body.bind lib.index with
        | none => .fail .referrersUnparseable
        | some index => checkReferrers lib src subject 0 none index.manifests

/-- A pallet announces itself by its artifact type or by its config's media type. -/
def isPallet (manifest : Manifest) : Bool :=
  manifest.artifactType = some palletArtifactType ||
    manifest.config.mediaType = palletConfigType

/-- What stands between a fetched manifest and its projection: the signature, the parser and
the kind of artifact. -/
def admitManifest (pinned : PinnedManifest) : Fetch (Manifest × Bool) := do
  let signatureVerified ← verifySignature lib src pinned.digest
  if src.requireSignature && !signatureVerified then .fail (.unsigned pinned.digest)
  else
    match lib.manifest pinned.bytes with
    | none => .fail .manifestUnparseable
    | some manifest =>
      if !isPallet manifest then
        .fail (.notPallet manifest.artifactType manifest.config.mediaType)
      else .done (manifest, signatureVerified)

/-! ## Members -/

/-- The digest and, unless it is given as zero, the size must be the layer's. -/
def checkMember (layer : Descriptor) (asset : Asset) (bytes : Bytes) : Except PalletError Bytes :=
  let computed := lib.digest bytes
  if computed ≠ toAsciiLowercase layer.digest then
    .error (.memberDigest asset layer.digest computed)
  else if layer.size ≠ 0 ∧ layer.size ≠ bytes.length then
    .error (.memberSize asset layer.size bytes.length)
  else .ok bytes

/-- The body of a member's blob, if it is the member. -/
def downloadMember (i : ℕ) (layer : Descriptor) (asset : Asset) : Fetch Bytes := do
  let body ← getBody (.member i) (src.repoUrl "blobs".toList layer.digest) none
  ofExcept (checkMember lib layer asset body)

/-- Download one member into the cache, under a temporary name first. -/
def fetchMember (i : ℕ) (layer : Descriptor) (asset : Asset) : Fetch Unit := do
  let bytes ← downloadMember lib src i layer asset
  writeFile i (src.tmpPath asset) bytes
  renameFile i (src.tmpPath asset) (src.assetPath asset)

/-- The spec that the config blob holds. A spec that cannot be had is an empty one. -/
def fetchSpec (manifest : Manifest) : Fetch PalletSpec := do
  match ← (fetchBlobOrManifest src .spec manifest.config.digest false).attempt with
  | .ok bytes => .done ((lib.spec bytes).getD {})
  | .error _ => .done {}

/-- The role and the file of a layer that is served. -/
def servedAs (layer : Descriptor) : Option (Text × Asset) :=
  (memberRole layer).bind fun role => (filenameForRole role).map fun asset => (role, asset)

/-- One layer. A text that the spec has for its role is written in place of its blob. -/
def projectLayer (spec : PalletSpec) (i : ℕ) (layer : Descriptor) : Fetch (Option Asset) :=
  match servedAs layer with
  | none => .done none
  | some (role, asset) =>
    match inlineText spec role with
    | some text => do
      writeFile i (src.assetPath asset) (utf8Encode text)
      .done (some asset)
    | none => do
      (fetchMember lib src i layer asset).mapError (.member role layer.digest)
      .done (some asset)

/-- The members one after the other, with the assets served so far. -/
def projectLayers (spec : PalletSpec) (i : ℕ) (served : List Asset) :
    List Descriptor → Fetch (List Asset)
  | [] => .done served
  | layer :: rest => do
    let asset ← projectLayer lib src spec i layer
    projectLayers spec (i + 1) (served ++ asset.toList) rest

/-- Fill the cache directory with the members of an admitted manifest. -/
def projectMembers (manifest : Manifest) : Fetch (List Asset) := do
  onDisk src.cacheDir (← Program.perform (PalletOp.createDirAll src.cacheDir))
  let spec ← fetchSpec lib src manifest
  projectLayers lib src spec 0 [] manifest.layers

/-! ## The pass -/

/-- `PalletSource::status_for`. -/
def statusFor (pinned : PinnedManifest) (ready signatureVerified : Bool) :
    Except PalletError AssetStatus :=
  match lib.manifest pinned.bytes with
  | none => .error .manifestUnparseable
  | some manifest =>
    let annotated (key : String) := manifest.annotations.lookup key.toList
    .ok {
      ready := ready
      detail := src.repo ++ ":".toList ++ src.reference
      version := (((annotated "org.stormblock.pallet.version_label").or
        (annotated "org.stormblock.pallet.version"))).or (some src.reference)
      digest := some pinned.digest
      signatureVerified := signatureVerified }

/-- What a pass returns. -/
structure Refreshed where
  status : AssetStatus
  /-- The pinned digest changed and files were rewritten. -/
  changed : Bool
  deriving DecidableEq, Repr

/-- Fetch the pallet if its digest changed, verify it, and materialise its members into the
cache directory. -/
def refresh (current : Option Text) : Fetch Refreshed := do
  let pinned ← fetchManifest lib src
  if some pinned.digest = current then
    let status ← ofExcept (statusFor lib src pinned true true)
    .done ⟨status, false⟩
  else
    let (manifest, signatureVerified) ← admitManifest lib src pinned
    let served ← projectMembers lib src manifest
    if .kernel ∉ served ∨ .initramfs ∉ served then .fail (.incomplete pinned.digest served)
    else
      let status ← ofExcept (statusFor lib src pinned true signatureVerified)
      .done ⟨status, true⟩

/-- A program of the server around its passes, which cannot fail. -/
abbrev Serve := Program PalletOp PalletOp.Ans Empty

/-- Whether the cache holds everything a machine needs to boot. -/
def cacheIsComplete : Serve Bool := do
  if !(← Program.perform (PalletOp.tryExists (src.assetPath .kernel))) then .done false
  else
    let initramfs ← Program.perform (PalletOp.tryExists (src.assetPath .initramfs))
    .done initramfs

/-- What the server can serve at startup. -/
def initialStatus : Serve AssetStatus := do
  match ← (refresh lib src none).attempt with
  | .ok refreshed => .done refreshed.status
  | .error _ =>
    if ← cacheIsComplete src then
      .done ⟨true, "directory ".toList ++ src.cacheDir, none, none, false⟩
    else
      .done ⟨false, "no kernel or initramfs in ".toList ++ src.cacheDir, none, none, false⟩

/-- One round of the refresh loop: the status it publishes after the one it read. -/
def refreshRound (status : AssetStatus) : Serve AssetStatus := do
  match ← (refresh lib src status.digest).attempt with
  | .ok refreshed => .done refreshed.status
  | .error _ => .done status

end Pass

/-! ## The registry and the disk -/

/-- The contents of the files, by path. -/
abbrev Disk := Text → Option Bytes

/-- How a registry and a disk answer during a pass. -/
structure Environment where
  registry : Request → Option Response
  disk : PalletOp → Except Text Unit

namespace Environment

/-- A disk operation that fails changes nothing; what a torn write leaves is not modelled. -/
def onSuccess (env : Environment) (op : PalletOp) (disk : Disk) (next : Disk) :
    Except Text Unit × Disk :=
  (env.disk op, if (env.disk op).isOk then next else disk)

/-- The registry and the disk of a pass, with the disk as the state. -/
def handle (env : Environment) : Handler PalletOp PalletOp.Ans Disk := fun op disk =>
  match op with
  | .get request _ _ => (env.registry request, disk)
  | .tryExists path => ((disk path).isSome, disk)
  | .createDirAll path => env.onSuccess (.createDirAll path) disk disk
  | .write i path bytes =>
    env.onSuccess (.write i path bytes) disk (Function.update disk path (some bytes))
  | .rename i source target =>
    env.onSuccess (.rename i source target) disk
      (Function.update (Function.update disk source none) target (disk source))

/-- Run a program that cannot fail. -/
def run {α : Type} (env : Environment) (p : Serve α) (disk : Disk) : α × Disk :=
  match Program.exec env.handle p disk with
  | (.ok a, t) => (a, t)
  | (.error err, _) => nomatch err

/-- A registry, with a disk on which everything succeeds. -/
def ofRegistry (registry : Request → Option Response) : Environment where
  registry := registry
  disk _ := .ok ()

end Environment

end Stormnetboot.Server

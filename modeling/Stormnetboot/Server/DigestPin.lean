import Stormnetboot.Server.PalletIntegrity

/-!
# A reference that is a digest

The reference goes into the URL of the manifest and nowhere else: the bytes are compared with the
digest the registry gives them, and that digest is published. A reference that names a manifest
by its digest therefore pins it only as far as the registry answers with that manifest.
-/

namespace Stormnetboot.Server

open Stormnetboot.Common
set_option maxRecDepth 8192

/-- The source as it is configured to serve the pallet with this digest. -/
def PalletSource.pinnedTo (src : PalletSource) (hex : Text) : PalletSource :=
  { src with reference := sha256Of hex }

section Pin

variable (lib : Libraries) (src : PalletSource)

/-- A pass that succeeds has fetched the manifest that hashes to the digest, and publishes it. -/
def PublishesDigest (env : Environment) (hex : Text) (current : Option Text) (disk : Disk) :
    Prop :=
  ∀ refreshed t, Program.exec env.handle (refresh lib src current) disk = (.ok refreshed, t) →
    ∃ bytes, received (env.registry .manifest) = some bytes ∧
      lib.digest bytes = toAsciiLowercase (sha256Of hex) ∧
        refreshed.status.digest.map toAsciiLowercase = some (lib.digest bytes)

/-- The answer is a whole manifest under its own digest, if it comes with one. -/
structure WellFormedAnswer (answer : Option Response) (bytes : Bytes) : Prop where
  received : received answer = some bytes
  header : ∀ header, answer.bind (·.digestHeader) = some header →
    toAsciiLowercase header = lib.digest bytes
  parsed : (lib.manifest bytes).isSome

/-- Such an answer is what a pass fetches. -/
theorem result_fetchManifest_of_wellFormed (env : Environment) (bytes : Bytes)
    (h : WellFormedAnswer lib (env.registry .manifest) bytes) :
    ∃ digest, env.result (fetchManifest lib src) = .ok ⟨bytes, digest⟩ :=
  ⟨((env.registry .manifest).bind (·.digestHeader)).getD (lib.digest bytes),
    (result_fetchManifest_ok_iff ..).mpr ⟨h.received, h.header, rfl⟩⟩

/-- And a pass that fetches a manifest was given such an answer, if the manifest parses. -/
theorem wellFormed_of_result_fetchManifest (env : Environment) (pinned : PinnedManifest)
    (h : env.result (fetchManifest lib src) = .ok pinned)
    (hparsed : (lib.manifest pinned.bytes).isSome) :
    WellFormedAnswer lib (env.registry .manifest) pinned.bytes := by
  obtain ⟨hreceived, hheader, -⟩ := (result_fetchManifest_ok_iff ..).mp h
  exact ⟨hreceived, hheader, hparsed⟩

/-- There is one exactly if the manifest parses. -/
theorem statusFor_ok_iff (pinned : PinnedManifest) (ready signatureVerified : Bool) :
    (∃ status, statusFor lib src pinned ready signatureVerified = .ok status) ↔
      (lib.manifest pinned.bytes).isSome := by
  constructor
  · rintro ⟨status, hstatus⟩
    exact (statusFor_ok lib src pinned ready signatureVerified status hstatus).1
  · intro hparsed
    obtain ⟨manifest, hmanifest⟩ := Option.isSome_iff_exists.mp hparsed
    unfold statusFor
    rw [hmanifest]
    exact ⟨_, rfl⟩

/-- A pass that finds the current digest again succeeds. -/
theorem exec_refresh_same (env : Environment) (pinned : PinnedManifest) (disk : Disk)
    (h : env.result (fetchManifest lib src) = .ok pinned)
    (hparsed : (lib.manifest pinned.bytes).isSome) :
    ∃ refreshed, Program.exec env.handle (refresh lib src (some pinned.digest)) disk =
      (.ok refreshed, disk) := by
  obtain ⟨status, hstatus⟩ := (statusFor_ok_iff lib src pinned true true).mpr hparsed
  refine ⟨⟨status, false⟩, ?_⟩
  unfold refresh
  rw [exec_gets_bind env _ (fetchManifest_isGet lib src), h]
  simp only [if_true]
  rw [Program.exec_bind, exec_ofExcept, hstatus]
  rfl

/-- A digest reference pins the manifest exactly as far as the registry answers for it with no
other well-formed manifest. -/
theorem publishesDigest_iff (hex : Text) (answer : Option Response) :
    (∀ env : Environment, env.registry .manifest = answer → ∀ current disk,
      PublishesDigest lib (src.pinnedTo hex) env hex current disk) ↔
      ∀ bytes, WellFormedAnswer lib answer bytes →
        lib.digest bytes = toAsciiLowercase (sha256Of hex) := by
  constructor
  · intro hpins bytes hanswer
    let env := Environment.ofRegistry fun
      | .manifest => answer
      | _ => none
    have hmanifest : env.registry .manifest = answer := rfl
    rw [← hmanifest] at hanswer
    obtain ⟨digest, hfetch⟩ :=
      result_fetchManifest_of_wellFormed lib (src.pinnedTo hex) env bytes hanswer
    obtain ⟨refreshed, hexec⟩ := exec_refresh_same lib (src.pinnedTo hex) env _ (fun _ => none)
      hfetch hanswer.parsed
    obtain ⟨bytes', hreceived, hdigest, -⟩ := hpins env hmanifest _ _ refreshed _ hexec
    rw [hanswer.received, Option.some.injEq] at hreceived
    rw [hreceived, hdigest]
  · rintro hanswers env rfl current disk refreshed t hexec
    obtain ⟨pinned, verified, hfetch, hstatus, -⟩ :=
      exec_refresh_ok lib (src.pinnedTo hex) env current disk t refreshed hexec
    obtain ⟨hreceived, hdigest⟩ := fetchManifest_ok lib (src.pinnedTo hex) env pinned hfetch
    have hparsed := (statusFor_ok_iff ..).mp ⟨_, hstatus⟩
    refine ⟨pinned.bytes, hreceived, hanswers pinned.bytes
      (wellFormed_of_result_fetchManifest lib (src.pinnedTo hex) env pinned hfetch hparsed), ?_⟩
    rw [statusFor_digest lib (src.pinnedTo hex) pinned true verified _ hstatus, Option.map_some,
      hdigest]

end Pin

/-! ## An older pallet

A registry that answers the request for one digest with another manifest, which a trusted key has
signed. -/

namespace OlderPallet

/-- The digest that is asked for. -/
def pinnedHex : Text :=
  hexText 64 0x9f86d081884c7d659a2feaa0c55ad015a3bf4f1b2b0b822cd15d6c15b0f00a08

/-- The decoders and the hash, on the bytes of a pallet whose kernel is served too. -/
def lib : Libraries where
  sha256 := hashOf ((utf8Encode "kernel".toList, ForgedSpec.kernelHex) :: ForgedSpec.hashes)
  ed25519 := ForgedSpec.lib.ed25519
  manifest := ForgedSpec.lib.manifest
  index := ForgedSpec.lib.index
  spec := ForgedSpec.lib.spec
  document := ForgedSpec.lib.document

/-- The registry. -/
def env : Environment where
  registry
    | .manifest => ForgedSpec.answer (manifestText ForgedSpec.manifest)
    | .referrers => ForgedSpec.answer ForgedSpec.referrersText
    | .referrer _ => ForgedSpec.answer ForgedSpec.signatureManifestText
    | .document _ => ForgedSpec.answer ForgedSpec.documentText
    | .spec => ForgedSpec.answer emptySpecText
    | .member 0 => ForgedSpec.answer "kernel".toList
    | .member _ => ForgedSpec.answer "initramfs".toList
  disk _ := .ok ()

/-- A source that is pinned to a digest; its tag names an older pallet. -/
def src : PalletSource := ForgedSpec.src.signedOnly.pinnedTo pinnedHex

/-- The pass publishes the older pallet, under the pinned reference. -/
theorem published : (Program.exec env.handle (refresh lib src none) fun _ => none).1 = .ok
    { status := {
        ready := true
        detail := "stormcos/boot:".toList ++ sha256Of pinnedHex
        version := some (sha256Of pinnedHex)
        digest := some (sha256Of ForgedSpec.manifestHex)
        signatureVerified := true }
      changed := true } := by
  decide

/-- The manifest that is served does not hash to it. -/
theorem digest_manifest : lib.digest (utf8Encode (manifestText ForgedSpec.manifest)) ≠
    toAsciiLowercase (sha256Of pinnedHex) := by
  decide

end OlderPallet

/-- The server's first pass takes it, with signatures required. -/
theorem not_publishesDigest_olderPallet : ¬ PublishesDigest OlderPallet.lib OlderPallet.src
    OlderPallet.env OlderPallet.pinnedHex none fun _ => none := by
  intro hpins
  have hpublished := OlderPallet.published
  rcases hexec : Program.exec OlderPallet.env.handle
    (refresh OlderPallet.lib OlderPallet.src none) (fun _ => none) with ⟨result, after⟩
  rw [hexec] at hpublished
  obtain rfl : result = _ := hpublished
  obtain ⟨bytes, hreceived, hdigest, -⟩ := hpins _ after hexec
  have hbytes : received (OlderPallet.env.registry .manifest) =
      some (utf8Encode (manifestText ForgedSpec.manifest)) := rfl
  rw [← Option.some.inj (hbytes.symm.trans hreceived)] at hdigest
  exact OlderPallet.digest_manifest hdigest

end Stormnetboot.Server

import Stormnetboot.Server.RefreshRuns

/-!
# The two files a host reads

A booting host asks for the kernel and for the initramfs in two requests, each answered from
the file there is at that moment. The operations of successive passes are put in one list and
a read is a position in it. No request holds the other's pallet, so a pass that replaces a file
between the two reads can give the host files of two pallets; a pair is of one pallet whenever
both of its files are as they stood together between two passes.
-/

namespace Stormnetboot.Server

open Stormnetboot.Common
set_option maxRecDepth 8192

/-- What an operation does to a disk that does not fail. -/
def PalletOp.effect : PalletOp → Disk → Disk
  | .write _ path bytes, disk => Function.update disk path (some bytes)
  | .rename _ source target, disk =>
    Function.update (Function.update disk source none) target (disk source)
  | _, disk => disk

/-- The operation may change what this path holds. -/
def PalletOp.Replaces (path : Text) : PalletOp → Prop
  | .write _ target _ => target = path
  | .rename _ source target => source = path ∨ target = path
  | _ => False

/-- Whether an operation replaces a path is decided on its targets. -/
instance (path : Text) (op : PalletOp) : Decidable (op.Replaces path) :=
  match op with
  | .get _ _ _ => .isFalse id
  | .createDirAll _ => .isFalse id
  | .tryExists _ => .isFalse id
  | .write _ target _ => inferInstanceAs (Decidable (target = path))
  | .rename _ source target => inferInstanceAs (Decidable (source = path ∨ target = path))

/-- What does not replace a path leaves what it holds. -/
theorem effect_of_not_replaces (op : PalletOp) (disk : Disk) (path : Text)
    (h : ¬ op.Replaces path) : op.effect disk path = disk path := by
  cases op with
  | get request url accept => rfl
  | createDirAll dir => rfl
  | tryExists file => rfl
  | write i target bytes => exact Function.update_of_ne (Ne.symm h) _ _
  | rename i source target =>
    obtain ⟨hsource, htarget⟩ := not_or.mp h
    simp only [PalletOp.effect]
    rw [Function.update_of_ne (Ne.symm htarget), Function.update_of_ne (Ne.symm hsource)]

/-- The disk after some operations. -/
def applyOps (disk : Disk) (ops : List PalletOp) : Disk :=
  ops.foldl (fun d op => op.effect d) disk

/-- So do any number of such operations. -/
theorem applyOps_of_not_replaces (disk : Disk) (ops : List PalletOp) (path : Text)
    (h : ∀ op ∈ ops, ¬ op.Replaces path) : applyOps disk ops path = disk path := by
  induction ops generalizing disk with
  | nil => rfl
  | cons op rest ih =>
    rw [applyOps, List.foldl_cons]
    exact (ih _ fun later hlater => h later (List.mem_cons_of_mem _ hlater)).trans
      (effect_of_not_replaces op disk path (h op List.mem_cons_self))

/-- A program leaves the disk that its operations make of it. -/
theorem exec_snd_eq_applyOps {ε α : Type} (registry : Request → Option Response)
    (p : Program PalletOp PalletOp.Ans ε α) (disk : Disk) :
    (Program.exec (Environment.ofRegistry registry).handle p disk).2 =
      applyOps disk (Program.trace (Environment.ofRegistry registry).handle p disk) := by
  induction p generalizing disk with
  | done a => rfl
  | fail err => rfl
  | call op next ih =>
    have hstep : ((Environment.ofRegistry registry).handle op disk).2 = op.effect disk := by
      cases op <;> rfl
    rw [Program.exec_call, ih, hstep]
    exact congrArg (applyOps (op.effect disk)) (by rw [← hstep])

section Reads

variable (lib : Libraries) (src : PalletSource)

/-- A pass, by the digest it compares with and the answers it is given. -/
structure Pass where
  current : Option Text
  registry : Request → Option Response

/-- The operations of successive passes, pass by pass. -/
def passTraces (disk : Disk) : List Pass → List (List PalletOp)
  | [] => []
  | p :: rest =>
    let trace := Program.trace (Environment.ofRegistry p.registry).handle
      (refresh lib src p.current) disk
    trace :: passTraces (applyOps disk trace) rest

/-- Successive passes over a cache that holds no complete pair or that of a pallet, in which every
manifest that is projected has both members. -/
structure AssetRun where
  cache : Disk
  found : Text
  passes : List Pass
  cached : (∀ asset : Asset, asset.required = true → (cache (src.assetPath asset)).isSome = true) →
    MembersOf lib src found cache
  carries : ∀ p ∈ passes, ∀ pinned manifest verified,
    Admits lib src (.ofRegistry p.registry) p.current pinned manifest verified →
      ∀ asset : Asset, asset.required = true →
        ∃ layer ∈ manifest.layers, ∃ role, servedAs layer = some (role, asset)

namespace AssetRun

variable {lib src}

/-- All the operations, in order. -/
def ops (run : AssetRun lib src) : List PalletOp :=
  (passTraces lib src run.cache run.passes).flatten

/-- The disk at a moment, after so many operations. -/
def diskAt (run : AssetRun lib src) (n : ℕ) : Disk :=
  applyOps run.cache (run.ops.take n)

/-- The moment between two passes, after so many of them. -/
def boundary (run : AssetRun lib src) (k : ℕ) : ℕ :=
  ((passTraces lib src run.cache run.passes).take k).flatten.length

/-- A pallet of the run: the one found in the cache or one that a pass fetched. -/
def HasPallet (run : AssetRun lib src) (digest : Text) : Prop :=
  digest = run.found ∨ ∃ p ∈ run.passes, ∃ pinned,
    (Environment.ofRegistry p.registry).result (fetchManifest lib src) = .ok pinned ∧
      pinned.digest = digest

/-- A kernel read at one moment and an initramfs read at another are members of one pallet of
the run. -/
def Agree (run : AssetRun lib src) (n m : ℕ) : Prop :=
  ∀ kernel initramfs, run.diskAt n (src.assetPath .kernel) = some kernel →
    run.diskAt m (src.assetPath .initramfs) = some initramfs →
      ∃ digest manifestBytes manifest, run.HasPallet digest ∧
        lib.digest manifestBytes = toAsciiLowercase digest ∧
          lib.manifest manifestBytes = some manifest ∧ Vouched lib manifest .kernel kernel ∧
            Vouched lib manifest .initramfs initramfs

/-- Whenever the two files are read, they agree. -/
def AlwaysAgree (run : AssetRun lib src) : Prop :=
  ∀ n m, run.Agree n m

/-- No operation between the two moments, in either order, may change what the path holds. -/
def Undisturbed (run : AssetRun lib src) (path : Text) (a b : ℕ) : Prop :=
  ∀ op ∈ (run.ops.take (max a b)).drop (min a b), ¬ op.Replaces path

/-- Whether nothing replaces a path between two moments is decided on the operations between them.
-/
instance (run : AssetRun lib src) (path : Text) (a b : ℕ) : Decidable (run.Undisturbed path a b) :=
  inferInstanceAs (Decidable (∀ op ∈ (run.ops.take (max a b)).drop (min a b), ¬ op.Replaces path))

end AssetRun

/-- Every pass is clean. -/
def CleanPasses (disk : Disk) : List Pass → Prop
  | [] => True
  | p :: rest =>
    CleanPass lib src (.ofRegistry p.registry) p.current disk ∧
      CleanPasses (applyOps disk (Program.trace (Environment.ofRegistry p.registry).handle
        (refresh lib src p.current) disk)) rest

/-- A complete pair is that of one of these pallets. -/
def OnePallet (pallets : Text → Prop) (disk : Disk) : Prop :=
  (∀ asset : Asset, asset.required = true → (disk (src.assetPath asset)).isSome = true) →
    ∃ digest, pallets digest ∧ MembersOf lib src digest disk

/-- A clean pass leaves the pair of one pallet, which it may have fetched. -/
theorem onePallet_of_cleanPass (pallets : Text → Prop) (p : Pass) (disk : Disk)
    (hpallets : ∀ pinned, (Environment.ofRegistry p.registry).result (fetchManifest lib src) =
      .ok pinned → pallets pinned.digest)
    (hdisk : OnePallet lib src pallets disk)
    (hclean : CleanPass lib src (.ofRegistry p.registry) p.current disk) :
    OnePallet lib src pallets (applyOps disk (Program.trace
      (Environment.ofRegistry p.registry).handle (refresh lib src p.current) disk)) := by
  rw [← exec_snd_eq_applyOps]
  rcases hexec : Program.exec (Environment.ofRegistry p.registry).handle
    (refresh lib src p.current) disk with ⟨err | refreshed, t⟩
  · have hsame := cleanOutcome_of_cleanPass lib src p.registry _ disk t _ hclean hexec
    intro hcomplete
    obtain ⟨digest, hdigest, hmembers⟩ := hdisk fun asset hasset => by
      rw [← hsame asset hasset]
      exact hcomplete asset hasset
    exact ⟨digest, hdigest, hmembers.congr lib src hsame⟩
  · obtain ⟨digest, hstatus, hcases⟩ :=
      cleanOutcome_of_cleanPass lib src p.registry _ disk t _ hclean hexec
    rcases hcases with ⟨-, rfl⟩ | hmembers
    · exact hdisk
    · obtain ⟨pinned, hfetched, hpinned⟩ :=
        fetched_of_exec_refresh lib src _ p.current disk t refreshed hexec
      obtain rfl := Option.some.inj (hstatus.symm.trans hpinned)
      exact fun _ => ⟨pinned.digest, hpallets pinned hfetched, hmembers⟩

/-- So do several, from any number of passes on. -/
theorem onePallet_of_cleanPasses (pallets : Text → Prop) (passes : List Pass) (k : ℕ) (disk : Disk)
    (hpallets : ∀ p ∈ passes, ∀ pinned,
      (Environment.ofRegistry p.registry).result (fetchManifest lib src) = .ok pinned →
        pallets pinned.digest)
    (hdisk : OnePallet lib src pallets disk) (hclean : CleanPasses lib src disk passes) :
    OnePallet lib src pallets
      (applyOps disk ((passTraces lib src disk passes).take k).flatten) := by
  induction passes generalizing k disk with
  | nil =>
    rw [passTraces, List.take_nil]
    exact hdisk
  | cons p rest ih =>
    cases k with
    | zero => exact hdisk
    | succ k =>
      rw [passTraces, List.take_succ_cons, List.flatten_cons, applyOps, List.foldl_append]
      exact ih k _ (fun q hq => hpallets q (List.mem_cons_of_mem _ hq))
        (onePallet_of_cleanPass lib src pallets p disk (hpallets p List.mem_cons_self) hdisk hclean.1)
        hclean.2

/-! ## The two reads -/

variable {lib src}

/-- A file is the same at two moments between which nothing may change it. -/
theorem AssetRun.diskAt_of_undisturbed (run : AssetRun lib src) (path : Text) (a b : ℕ)
    (h : run.Undisturbed path a b) : run.diskAt a path = run.diskAt b path := by
  have hordered : ∀ n m, n ≤ m →
      (∀ op ∈ (run.ops.take m).drop n, ¬ op.Replaces path) →
        run.diskAt m path = run.diskAt n path := by
    intro n m hle hops
    have htake : run.ops.take m = run.ops.take n ++ (run.ops.take m).drop n := by
      conv_lhs => rw [← List.take_append_drop n (run.ops.take m)]
      rw [List.take_take, Nat.min_eq_left hle]
    unfold AssetRun.diskAt
    rw [htake, applyOps, List.foldl_append]
    exact applyOps_of_not_replaces _ _ path hops
  unfold AssetRun.Undisturbed at h
  rcases Nat.le_total a b with hle | hle
  · rw [Nat.max_eq_right hle, Nat.min_eq_left hle] at h
    exact (hordered a b hle h).symm
  · rw [Nat.max_eq_left hle, Nat.min_eq_right hle] at h
    exact hordered b a hle h

/-- Between two passes the disk is what the passes before have made of it. -/
theorem AssetRun.diskAt_boundary (run : AssetRun lib src) (k : ℕ) :
    run.diskAt (run.boundary k) =
      applyOps run.cache ((passTraces lib src run.cache run.passes).take k).flatten := by
  have hops : run.ops =
      ((passTraces lib src run.cache run.passes).take k).flatten ++
        ((passTraces lib src run.cache run.passes).drop k).flatten := by
    rw [AssetRun.ops, ← List.flatten_append, List.take_append_drop]
  rw [AssetRun.diskAt, AssetRun.boundary, hops, List.take_left]

/-- In a run of clean passes the two files agree if, counting from some moment between two passes,
the kernel was not replaced up to its read, nor the initramfs up to its own. -/
theorem AssetRun.agree_of_undisturbed (run : AssetRun lib src) (k n m : ℕ)
    (hclean : CleanPasses lib src run.cache run.passes)
    (hkernel : run.Undisturbed (src.assetPath .kernel) (run.boundary k) n)
    (hinitramfs : run.Undisturbed (src.assetPath .initramfs) (run.boundary k) m) :
    run.Agree n m := by
  intro kernel initramfs hreadKernel hreadInitramfs
  rw [← run.diskAt_of_undisturbed _ _ _ hkernel, run.diskAt_boundary] at hreadKernel
  rw [← run.diskAt_of_undisturbed _ _ _ hinitramfs, run.diskAt_boundary] at hreadInitramfs
  have hpair := onePallet_of_cleanPasses lib src run.HasPallet run.passes k run.cache
    (fun p hp pinned hfetched => .inr ⟨p, hp, pinned, hfetched, rfl⟩)
    (fun hcomplete => ⟨run.found, .inl rfl, run.cached hcomplete⟩) hclean
  obtain ⟨digest, hdigest, manifestBytes, manifest, hbytes, hparsed, hmembers⟩ :=
    hpair fun asset hasset => by
      cases asset with
      | kernel =>
        rw [hreadKernel]
        rfl
      | initramfs =>
        rw [hreadInitramfs]
        rfl
      | cmdline => cases hasset
  obtain ⟨kernel', hkernel', hvouchedKernel⟩ := hmembers .kernel rfl
  obtain ⟨initramfs', hinitramfs', hvouchedInitramfs⟩ := hmembers .initramfs rfl
  obtain rfl := Option.some.inj (hreadKernel.symm.trans hkernel')
  obtain rfl := Option.some.inj (hreadInitramfs.symm.trans hinitramfs')
  exact ⟨digest, manifestBytes, manifest, hdigest, hbytes, hparsed, hvouchedKernel,
    hvouchedInitramfs⟩

end Reads

/-! ## A pass between the two reads -/

namespace TwoPallets

/-- The cache as a pass over this pallet leaves it. -/
def cacheOf (p : BootPallet) : Disk :=
  Function.update (Function.update emptyCache (src.assetPath .kernel) (some (utf8Encode p.kernel)))
    (src.assetPath .initramfs) (some (utf8Encode p.initramfs))

/-- The first pallet's cache holds its members. -/
theorem membersOf_first : MembersOf lib src (sha256Of first.manifestHex) (cacheOf first) := by
  refine ⟨utf8Encode (manifestText first.manifest), first.manifest, by decide,
    parsed_first, fun asset hasset => ?_⟩
  cases asset with
  | kernel =>
    exact ⟨utf8Encode first.kernel, by decide,
      .inl ⟨_, List.mem_cons_self, "kernel".toList, rfl, by decide⟩⟩
  | initramfs =>
    exact ⟨utf8Encode first.initramfs, by decide,
      .inl ⟨_, List.mem_cons_of_mem _ List.mem_cons_self, "initramfs".toList, rfl,
        by decide⟩⟩
  | cmdline => cases hasset

/-- The tag moves from the first pallet to the second, and one pass fetches all of it. -/
def switchRun : AssetRun lib src where
  cache := cacheOf first
  found := sha256Of first.manifestHex
  passes := [⟨some (sha256Of first.manifestHex), serve second [0, 1]⟩]
  cached _ := membersOf_first
  carries p hp pinned manifest verified hadmits asset hasset := by
    obtain rfl := List.mem_singleton.mp hp
    obtain rfl := manifest_of_admits second _ _ pinned manifest verified parsed_second hadmits
    cases asset with
    | kernel => exact ⟨_, List.mem_cons_self, "kernel".toList, rfl⟩
    | initramfs => exact ⟨_, List.mem_cons_of_mem _ List.mem_cons_self, "initramfs".toList, rfl⟩
    | cmdline => cases hasset

/-- The second manifest has the second digest. -/
theorem digest_second :
    lib.digest (utf8Encode (manifestText second.manifest)) = sha256Of second.manifestHex := by
  decide

/-- The manifest that a pass over the second pallet fetches. -/
theorem fetched_second (blobs : List ℕ) :
    (Environment.ofRegistry (serve second blobs)).result (fetchManifest lib src) =
      .ok ⟨utf8Encode (manifestText second.manifest), sha256Of second.manifestHex⟩ := by
  rw [← digest_second]
  rfl

/-- Nothing else has it. -/
theorem eq_of_digest_second (bytes : Bytes)
    (h : lib.digest bytes = toAsciiLowercase (sha256Of second.manifestHex)) :
    bytes = utf8Encode (manifestText second.manifest) :=
  eq_of_hashOf hashes bytes _ _ (by decide) (by decide) h

/-- The pass over the second pallet is clean. -/
theorem cleanPass_switch (current : Option Text) (disk : Disk) :
    CleanPass lib src (.ofRegistry (serve second [0, 1])) current disk :=
  cleanPass_serve second current disk parsed_second (by decide) (by decide)

end TwoPallets

/-- A kernel read before the pass and an initramfs read after it are of the two pallets. -/
theorem not_alwaysAgree_switchRun : ¬ TwoPallets.switchRun.AlwaysAgree := by
  intro hagree
  obtain ⟨digest, manifestBytes, manifest, hdigest, hbytes, hparsed, hkernel, hinitramfs⟩ :=
    hagree 0 9 (utf8Encode TwoPallets.first.kernel) (utf8Encode TwoPallets.second.initramfs)
      (by decide) (by decide)
  rcases hdigest with rfl | ⟨p, hp, pinned, hresult, rfl⟩
  · rw [TwoPallets.eq_of_digest_first manifestBytes hbytes, TwoPallets.parsed_first] at hparsed
    cases hparsed
    exact TwoPallets.not_vouched TwoPallets.first .initramfs _ (by decide) hinitramfs
  · obtain rfl := List.mem_singleton.mp hp
    obtain rfl := Except.ok.inj ((TwoPallets.fetched_second [0, 1]).symm.trans hresult)
    rw [TwoPallets.eq_of_digest_second manifestBytes hbytes, TwoPallets.parsed_second] at hparsed
    cases hparsed
    exact TwoPallets.not_vouched TwoPallets.second .kernel _ (by decide) hkernel

/-- A kernel read before the pass agrees with an initramfs read while the pass has replaced the
kernel only. -/
theorem agree_switchRun : TwoPallets.switchRun.Agree 0 6 :=
  TwoPallets.switchRun.agree_of_undisturbed 0 0 6
    ⟨TwoPallets.cleanPass_switch _ _, trivial⟩ (by decide) (by decide)

end Stormnetboot.Server

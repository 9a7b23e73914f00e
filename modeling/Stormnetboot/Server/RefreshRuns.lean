import Stormnetboot.Server.PalletIntegrity

/-!
# The served pallet over a run of passes

The server starts with one pass and repeats it for as long as it runs, publishing the digest
of the last pass that succeeded. A pass replaces the kernel and the initramfs one at a time
and looks whether it has both afterwards, so a pass that stops in between leaves files of two
pallets under the digest of the first. Between passes that do not, the published digest and
the cache agree.
-/

namespace Stormnetboot.Server

open Stormnetboot.Common
set_option maxRecDepth 8192

/-- What a machine cannot boot without. -/
def Asset.required : Asset → Bool
  | .kernel => true
  | .initramfs => true
  | .cmdline => false

section Passes

variable (lib : Libraries) (src : PalletSource)

/-- Both files are members of the manifest that this digest names. -/
def MembersOf (digest : Text) (disk : Disk) : Prop :=
  ∃ manifestBytes manifest, lib.digest manifestBytes = toAsciiLowercase digest ∧
    lib.manifest manifestBytes = some manifest ∧
      ∀ asset : Asset, asset.required = true →
        ∃ bytes, disk (src.assetPath asset) = some bytes ∧ Vouched lib manifest asset bytes

/-- The two disks hold the same kernel and initramfs. -/
def SameAssets (before after : Disk) : Prop :=
  ∀ asset : Asset, asset.required = true →
    after (src.assetPath asset) = before (src.assetPath asset)

/-- A pass over this manifest does not end with both files served: some layer cannot be had, or
no layer is served as one of the two. -/
def Stops (env : Environment) (manifest : Manifest) : Prop :=
  (∃ i layer, manifest.layers[i]? = some layer ∧
    ¬ Obtained lib src env (env.servedSpec lib) i layer) ∨
  ∃ asset : Asset, asset.required = true ∧
    ∀ layer ∈ manifest.layers, ∀ role, servedAs layer ≠ some (role, asset)

/-- Whatever the pass writes over the kernel or the initramfs is what the file already holds. -/
def RewritesOnly (env : Environment) (manifest : Manifest) (disk : Disk) : Prop :=
  ∀ i layer role asset bytes, manifest.layers[i]? = some layer →
    (∀ m < i, ∀ before, manifest.layers[m]? = some before →
      Obtained lib src env (env.servedSpec lib) m before) →
    servedAs layer = some (role, asset) → asset.required = true →
    env.memberBytes lib (env.servedSpec lib) i layer role asset = some bytes →
      disk (src.assetPath asset) = some bytes

/-- The inline texts for the kernel and the initramfs are members of the manifest. -/
def BootTextsVouched (env : Environment) (manifest : Manifest) : Prop :=
  ∀ layer ∈ manifest.layers, ∀ role asset text, servedAs layer = some (role, asset) →
    asset.required = true → inlineText (env.servedSpec lib) role = some text →
      Vouched lib manifest asset (utf8Encode text)

/-- A pass that stops has not replaced either file, and one that does not serves members only. -/
def CleanPass (env : Environment) (current : Option Text) (disk : Disk) : Prop :=
  ∀ pinned manifest verified, Admits lib src env current pinned manifest verified →
    (Stops lib src env manifest → RewritesOnly lib src env manifest disk) ∧
      (¬ Stops lib src env manifest → BootTextsVouched lib env manifest)

/-- So are those of an authentic spec. -/
theorem bootTextsVouched_of_specAuthentic (env : Environment) (manifest : Manifest)
    (h : SpecAuthentic lib env manifest) : BootTextsVouched lib env manifest :=
  fun layer _ role asset text hserved _ hinline =>
    vouched_of_specAuthentic lib env manifest layer role text asset h hserved hinline

/-! ## One pass -/

/-- On a disk that does not fail, a layer whose bytes can be had is obtained. -/
theorem obtained_ofRegistry_iff (registry : Request → Option Response) (spec : PalletSpec) (i : ℕ)
    (layer : Descriptor) :
    Obtained lib src (.ofRegistry registry) spec i layer ↔
      ∀ role asset, servedAs layer = some (role, asset) →
        ((Environment.ofRegistry registry).memberBytes lib spec i layer role asset).isSome := by
  constructor
  · intro h role asset hserved
    obtain ⟨bytes, hbytes, -⟩ := h role asset hserved
    rw [hbytes]
    rfl
  · intro h role asset hserved
    obtain ⟨bytes, hbytes⟩ := Option.isSome_iff_exists.mp (h role asset hserved)
    exact ⟨bytes, hbytes, rfl, fun _ => rfl⟩

/-- There, a layer that is not obtained stops the pass before it touches a file. -/
theorem exec_projectLayer_of_not_obtained (registry : Request → Option Response)
    (spec : PalletSpec) (i : ℕ) (layer : Descriptor) (disk : Disk)
    (h : ¬ Obtained lib src (.ofRegistry registry) spec i layer) :
    ∃ err, Program.exec (Environment.ofRegistry registry).handle
      (projectLayer lib src spec i layer) disk = (.error err, disk) := by
  rw [obtained_ofRegistry_iff] at h
  push Not at h
  obtain ⟨role, asset, hserved, hbytes⟩ := h
  unfold projectLayer
  simp only [hserved]
  cases hinline : inlineText spec role with
  | some text =>
    rw [Environment.memberBytes, hinline] at hbytes
    exact absurd rfl hbytes
  | none =>
    rw [Environment.memberBytes, hinline] at hbytes
    simp only
    rw [Program.exec_bind, Program.exec_mapError]
    unfold fetchMember
    rw [exec_gets_bind _ _ (downloadMember_isGet lib src i layer asset)]
    cases hdownload : (Environment.ofRegistry registry).result
      (downloadMember lib src i layer asset) with
    | error err => exact ⟨_, rfl⟩
    | ok bytes =>
      rw [(result_downloadMember_ok_iff ..).mp hdownload] at hbytes
      exact absurd rfl hbytes

/-- Serving a layer puts its bytes in its file and leaves every other file of the cache. -/
theorem serve_assetPath (disk : Disk) (spec : PalletSpec) (role : Text) (asset other : Asset)
    (bytes : Bytes) :
    disk.serve src spec role asset bytes (src.assetPath other) =
      if other = asset then some bytes else disk (src.assetPath other) := by
  have hpath : src.assetPath other = src.assetPath asset ↔ other = asset :=
    ⟨assetPath_inj src other asset, fun h => by rw [h]⟩
  have htmp : src.assetPath other ≠ src.tmpPath asset := (tmpPath_ne_assetPath src asset other).symm
  unfold Disk.serve
  split
  · simp only [Function.update_apply, hpath]
  · simp only [Function.update_apply, hpath, htmp, if_false]

/-- Some layer that the pass gets to, counting from `i`, is served as this file with these
contents. -/
def WrittenBy (env : Environment) (spec : PalletSpec) (i : ℕ) (layers : List Descriptor)
    (asset : Asset) (content : Option Bytes) : Prop :=
  ∃ k layer role bytes, layers[k]? = some layer ∧
    (∀ m < k, ∀ before, layers[m]? = some before → Obtained lib src env spec (i + m) before) ∧
      servedAs layer = some (role, asset) ∧
        env.memberBytes lib spec (i + k) layer role asset = some bytes ∧ content = some bytes

/-- What the rest of the layers writes is written behind an obtained layer too. -/
theorem WrittenBy.cons {env : Environment} {spec : PalletSpec} {i : ℕ} {layer : Descriptor}
    {rest : List Descriptor} {asset : Asset} {content : Option Bytes}
    (hobtained : Obtained lib src env spec i layer)
    (h : WrittenBy lib src env spec (i + 1) rest asset content) :
    WrittenBy lib src env spec i (layer :: rest) asset content := by
  obtain ⟨k, later, role, bytes, hlater, hbefore, hserved, hbytes, hcontent⟩ := h
  refine ⟨k + 1, later, role, bytes, hlater, fun m hm before hm' => ?_, hserved, ?_, hcontent⟩
  · cases m with
    | zero =>
      cases hm'
      exact hobtained
    | succ m =>
      rw [show i + (m + 1) = i + 1 + m by omega]
      exact hbefore m (by omega) before hm'
  · rw [show i + (k + 1) = i + 1 + k by omega]
    exact hbytes

/-- A layer that is obtained is written, and the rest goes on from there. -/
theorem exec_projectLayers_cons (env : Environment) (spec : PalletSpec) (i : ℕ)
    (served : List Asset) (layer : Descriptor) (rest : List Descriptor) (disk : Disk)
    (h : Obtained lib src env spec i layer) :
    Program.exec env.handle (projectLayers lib src spec i served (layer :: rest)) disk =
      Program.exec env.handle (projectLayers lib src spec (i + 1)
        (served ++ ((servedAs layer).map (·.2)).toList) rest)
        (env.afterLayer lib src spec i layer disk) := by
  rw [projectLayers, Program.exec_bind, exec_projectLayer_of_obtained lib src env spec i layer disk h]

/-- One that is not ends the projection. -/
theorem exec_projectLayers_cons_of_not (registry : Request → Option Response) (spec : PalletSpec)
    (i : ℕ) (served : List Asset) (layer : Descriptor) (rest : List Descriptor) (disk : Disk)
    (h : ¬ Obtained lib src (.ofRegistry registry) spec i layer) :
    ∃ err, Program.exec (Environment.ofRegistry registry).handle
      (projectLayers lib src spec i served (layer :: rest)) disk = (.error err, disk) := by
  obtain ⟨err, hexec⟩ := exec_projectLayer_of_not_obtained lib src registry spec i layer disk h
  refine ⟨err, ?_⟩
  rw [projectLayers, Program.exec_bind, hexec]

/-- One layer leaves a file or is what it holds. -/
theorem afterLayer_assetPath (env : Environment) (spec : PalletSpec) (i : ℕ) (layer : Descriptor)
    (rest : List Descriptor) (disk : Disk) (asset : Asset) :
    env.afterLayer lib src spec i layer disk (src.assetPath asset) =
        disk (src.assetPath asset) ∨
      WrittenBy lib src env spec i (layer :: rest) asset
        (env.afterLayer lib src spec i layer disk (src.assetPath asset)) := by
  unfold Environment.afterLayer
  cases hserved : servedAs layer with
  | none => exact .inl rfl
  | some served =>
    obtain ⟨role, other⟩ := served
    simp only
    cases hbytes : env.memberBytes lib spec i layer role other with
    | none => exact .inl rfl
    | some bytes =>
      simp only [serve_assetPath]
      split
      · rename_i hsame
        subst hsame
        exact .inr ⟨0, layer, role, bytes, rfl, fun m hm => absurd hm m.not_lt_zero, hserved, hbytes,
          rfl⟩
      · exact .inl rfl

/-- A layer that is obtained is what its file then holds. -/
theorem afterLayer_served (env : Environment) (spec : PalletSpec) (i : ℕ) (layer : Descriptor)
    (rest : List Descriptor) (disk : Disk) (role : Text) (asset : Asset)
    (hobtained : Obtained lib src env spec i layer) (hserved : servedAs layer = some (role, asset)) :
    WrittenBy lib src env spec i (layer :: rest) asset
      (env.afterLayer lib src spec i layer disk (src.assetPath asset)) := by
  obtain ⟨bytes, hbytes, -⟩ := hobtained role asset hserved
  refine ⟨0, layer, role, bytes, rfl, fun m hm => absurd hm m.not_lt_zero, hserved, hbytes, ?_⟩
  unfold Environment.afterLayer
  simp only [hserved, hbytes, serve_assetPath, if_true]

/-- A file holds what it held or what some layer was served with. -/
theorem exec_projectLayers_written (registry : Request → Option Response) (spec : PalletSpec)
    (i : ℕ) (served : List Asset) (layers : List Descriptor) (disk t : Disk)
    (r : Except PalletError (List Asset)) (asset : Asset)
    (h : Program.exec (Environment.ofRegistry registry).handle
      (projectLayers lib src spec i served layers) disk = (r, t)) :
    t (src.assetPath asset) = disk (src.assetPath asset) ∨
      WrittenBy lib src (.ofRegistry registry) spec i layers asset (t (src.assetPath asset)) := by
  induction layers generalizing i served disk with
  | nil =>
    cases h
    exact .inl rfl
  | cons layer rest ih =>
    by_cases hobtained : Obtained lib src (.ofRegistry registry) spec i layer
    · rw [exec_projectLayers_cons lib src _ spec i served layer rest disk hobtained] at h
      rcases ih _ _ _ h with hsame | hwritten
      · rw [hsame]
        exact afterLayer_assetPath lib src _ spec i layer rest disk asset
      · exact .inr (hwritten.cons lib src hobtained)
    · obtain ⟨err, hexec⟩ := exec_projectLayers_cons_of_not lib src registry spec i served layer rest
        disk hobtained
      rw [hexec] at h
      cases h
      exact .inl rfl

/-- A projection that succeeds has obtained every layer, and has served what the layers are
served as. -/
theorem exec_projectLayers_ok (registry : Request → Option Response) (spec : PalletSpec)
    (i : ℕ) (served result : List Asset) (layers : List Descriptor) (disk t : Disk)
    (h : Program.exec (Environment.ofRegistry registry).handle
      (projectLayers lib src spec i served layers) disk = (.ok result, t)) :
    (∀ k layer, layers[k]? = some layer →
      Obtained lib src (.ofRegistry registry) spec (i + k) layer) ∧
    ∀ asset, asset ∈ result ↔
      asset ∈ served ∨ ∃ layer ∈ layers, ∃ role, servedAs layer = some (role, asset) := by
  induction layers generalizing i served disk with
  | nil =>
    cases h
    exact ⟨fun _ _ hk => (by cases hk), fun asset => (by simp)⟩
  | cons layer rest ih =>
    by_cases hobtained : Obtained lib src (.ofRegistry registry) spec i layer
    · rw [exec_projectLayers_cons lib src _ spec i served layer rest disk hobtained] at h
      obtain ⟨hrest, hresult⟩ := ih _ _ _ h
      refine ⟨fun k later hk => ?_, fun asset => ?_⟩
      · cases k with
        | zero =>
          cases hk
          exact hobtained
        | succ k =>
          rw [show i + (k + 1) = i + 1 + k by omega]
          exact hrest k later hk
      · rw [hresult, List.mem_append, or_assoc, Option.mem_toList, Option.map_eq_some_iff]
        simp only [List.exists_mem_cons_iff, Prod.exists, exists_eq_right]
    · obtain ⟨err, hexec⟩ := exec_projectLayers_cons_of_not lib src registry spec i served layer rest
        disk hobtained
      rw [hexec] at h
      cases h

/-- It leaves each of these files with what some layer was served with. -/
theorem exec_projectLayers_served (registry : Request → Option Response) (spec : PalletSpec)
    (i : ℕ) (served result : List Asset) (layers : List Descriptor) (disk t : Disk)
    (h : Program.exec (Environment.ofRegistry registry).handle
      (projectLayers lib src spec i served layers) disk = (.ok result, t)) (asset : Asset)
    (hasset : ∃ layer ∈ layers, ∃ role, servedAs layer = some (role, asset)) :
    WrittenBy lib src (.ofRegistry registry) spec i layers asset (t (src.assetPath asset)) := by
  induction layers generalizing i served disk with
  | nil =>
    obtain ⟨layer, hlayer, -⟩ := hasset
    cases hlayer
  | cons layer rest ih =>
    have hobtained := (exec_projectLayers_ok lib src registry spec i served result (layer :: rest)
      disk t h).1 0 layer rfl
    rw [exec_projectLayers_cons lib src _ spec i served layer rest disk hobtained] at h
    by_cases hrest : ∃ later ∈ rest, ∃ role, servedAs later = some (role, asset)
    · exact (ih _ _ _ h hrest).cons lib src hobtained
    · obtain ⟨layer', hlayer', role, hserved⟩ := hasset
      rcases List.mem_cons.mp hlayer' with rfl | hmem
      · rcases exec_projectLayers_written lib src registry spec (i + 1) _ rest _ t _ asset h with
          hsame | hwritten
        · rw [hsame]
          exact afterLayer_served lib src _ spec i layer' rest disk role asset hobtained hserved
        · exact hwritten.cons lib src hobtained
      · exact absurd ⟨layer', hmem, role, hserved⟩ hrest

/-- A projection that obtains every layer succeeds. -/
theorem exec_projectLayers_of_obtained (registry : Request → Option Response) (spec : PalletSpec)
    (i : ℕ) (served : List Asset) (layers : List Descriptor) (disk : Disk)
    (h : ∀ k layer, layers[k]? = some layer →
      Obtained lib src (.ofRegistry registry) spec (i + k) layer) :
    ∃ result t, Program.exec (Environment.ofRegistry registry).handle
      (projectLayers lib src spec i served layers) disk = (.ok result, t) := by
  induction layers generalizing i served disk with
  | nil => exact ⟨_, _, rfl⟩
  | cons layer rest ih =>
    rw [exec_projectLayers_cons lib src _ spec i served layer rest disk (h 0 layer rfl)]
    refine ih _ _ _ fun k later hk => ?_
    rw [show i + 1 + k = i + (k + 1) by omega]
    exact h (k + 1) later hk

/-- A projection that rewrites the kernel and the initramfs with what they hold leaves them. -/
theorem sameAssets_of_rewritesOnly (registry : Request → Option Response) (manifest : Manifest)
    (disk t : Disk) (r : Except PalletError (List Asset))
    (hrewrites : RewritesOnly lib src (.ofRegistry registry) manifest disk)
    (h : Program.exec (Environment.ofRegistry registry).handle (projectLayers lib src
      ((Environment.ofRegistry registry).servedSpec lib) 0 [] manifest.layers) disk = (r, t)) :
    SameAssets src disk t := by
  intro asset hasset
  rcases exec_projectLayers_written lib src registry _ 0 [] manifest.layers disk t r asset h with
    hsame | ⟨k, layer, role, bytes, hlayer, hbefore, hserved, hbytes, hcontent⟩
  · exact hsame
  · simp only [Nat.zero_add] at hbefore hbytes
    rw [hcontent, hrewrites k layer role asset bytes hlayer hbefore hserved hasset hbytes]

/-- What a layer is served with is a member of its manifest. -/
theorem vouched_of_writtenBy (registry : Request → Option Response) (manifest : Manifest)
    (asset : Asset) (content : Option Bytes) (hasset : asset.required = true)
    (htexts : BootTextsVouched lib (.ofRegistry registry) manifest)
    (h : WrittenBy lib src (.ofRegistry registry)
      ((Environment.ofRegistry registry).servedSpec lib) 0 manifest.layers asset content) :
    ∃ bytes, content = some bytes ∧ Vouched lib manifest asset bytes := by
  obtain ⟨k, layer, role, bytes, hlayer, -, hserved, hbytes, hcontent⟩ := h
  have hmem := List.mem_of_getElem? hlayer
  refine ⟨bytes, hcontent, ?_⟩
  cases hinline : inlineText ((Environment.ofRegistry registry).servedSpec lib) role with
  | none =>
    exact vouched_of_blob lib _ manifest (0 + k) layer role asset bytes hmem hserved hinline hbytes
  | some text =>
    rw [Environment.memberBytes, hinline] at hbytes
    obtain rfl := Option.some.inj hbytes
    exact htexts layer hmem role asset text hserved hasset hinline

/-- What a clean pass comes to: it failed and both files are as they were, it found the current
digest again and changed nothing, or both files are members of the manifest it names. -/
def CleanOutcome (current : Option Text) (disk t : Disk) : Except PalletError Refreshed → Prop
  | .error _ => SameAssets src disk t
  | .ok refreshed => ∃ digest, refreshed.status.digest = some digest ∧
      (current = some digest ∧ t = disk ∨ MembersOf lib src digest t)

/-- The required members are served exactly when neither of the two is missing. -/
theorem mem_served_iff (served : List Asset) :
    (∀ asset : Asset, asset.required = true → asset ∈ served) ↔
      ¬ (.kernel ∉ served ∨ .initramfs ∉ served) := by
  rw [not_or, not_not, not_not]
  constructor
  · exact fun h => ⟨h .kernel rfl, h .initramfs rfl⟩
  · rintro ⟨hkernel, hinitramfs⟩ asset hasset
    cases asset with
    | kernel => exact hkernel
    | initramfs => exact hinitramfs
    | cmdline => cases hasset

/-- A pass that admits a manifest. -/
theorem cleanOutcome_of_admits (registry : Request → Option Response) (current : Option Text)
    (pinned : PinnedManifest) (manifest : Manifest) (verified : Bool) (disk t : Disk)
    (r : Except PalletError Refreshed)
    (hclean : CleanPass lib src (.ofRegistry registry) current disk)
    (hadmits : Admits lib src (.ofRegistry registry) current pinned manifest verified)
    (hexec : Program.exec (Environment.ofRegistry registry).handle (refresh lib src current) disk =
      (r, t)) : CleanOutcome lib src current disk t r := by
  obtain ⟨hstops, htexts⟩ := hclean pinned manifest verified hadmits
  rw [exec_refresh_of_admits lib src _ current pinned manifest verified disk hadmits] at hexec
  rcases hproject : Program.exec (Environment.ofRegistry registry).handle (projectLayers lib src
    ((Environment.ofRegistry registry).servedSpec lib) 0 [] manifest.layers) disk with
    ⟨err | served, after⟩
  · rw [hproject] at hexec
    cases hexec
    refine sameAssets_of_rewritesOnly lib src registry manifest disk t _ (hstops (.inl ?_)) hproject
    by_contra hall
    push Not at hall
    obtain ⟨result, t', hok⟩ := exec_projectLayers_of_obtained lib src registry
      ((Environment.ofRegistry registry).servedSpec lib) 0 [] manifest.layers disk
      (fun k layer hk => by rw [Nat.zero_add]; exact hall k layer hk)
    rw [hproject] at hok
    cases hok
  · rw [hproject] at hexec
    obtain ⟨hobtained, hserved⟩ := exec_projectLayers_ok lib src registry _ 0 [] served
      manifest.layers disk after hproject
    simp only [List.not_mem_nil, false_or, Nat.zero_add] at hserved hobtained
    by_cases hcovered : ∀ asset : Asset, asset.required = true → asset ∈ served
    · obtain ⟨-, hdigest⟩ := fetchManifest_ok lib src _ pinned hadmits.fetched
      obtain ⟨hparsed, -⟩ := admitManifest_ok lib src _ pinned manifest verified hadmits.admitted
      have hnot : ¬ Stops lib src (.ofRegistry registry) manifest := by
        rintro (⟨i, layer, hlayer, hmissing⟩ | ⟨asset, hasset, hnone⟩)
        · exact hmissing (hobtained i layer hlayer)
        · obtain ⟨layer, hlayer, role, hrole⟩ := (hserved asset).mp (hcovered asset hasset)
          exact hnone layer hlayer role hrole
      simp only [concludePass, if_neg ((mem_served_iff served).mp hcovered)] at hexec
      cases hstatus : statusFor lib src pinned true verified with
      | error err =>
        unfold statusFor at hstatus
        rw [hparsed] at hstatus
        cases hstatus
      | ok status =>
        rw [hstatus] at hexec
        cases hexec
        refine ⟨pinned.digest, statusFor_digest lib src pinned true verified status hstatus, .inr ?_⟩
        refine ⟨pinned.bytes, manifest, hdigest.symm, hparsed, fun asset hasset => ?_⟩
        exact vouched_of_writtenBy lib src registry manifest asset _ hasset (htexts hnot)
          (exec_projectLayers_served lib src registry _ 0 [] served manifest.layers disk t hproject
            asset ((hserved asset).mp (hcovered asset hasset)))
    · have hmissing := not_not.mp (mt (mem_served_iff served).mpr hcovered)
      simp only [concludePass, if_pos hmissing] at hexec
      cases hexec
      refine sameAssets_of_rewritesOnly lib src registry manifest disk t _ (hstops (.inr ?_)) hproject
      push Not at hcovered
      obtain ⟨asset, hasset, hnone⟩ := hcovered
      exact ⟨asset, hasset, fun layer hlayer role hrole =>
        hnone ((hserved asset).mpr ⟨layer, hlayer, role, hrole⟩)⟩

/-- A clean pass comes to one of the three. -/
theorem cleanOutcome_of_cleanPass (registry : Request → Option Response) (current : Option Text)
    (disk t : Disk) (r : Except PalletError Refreshed)
    (hclean : CleanPass lib src (.ofRegistry registry) current disk)
    (hexec : Program.exec (Environment.ofRegistry registry).handle (refresh lib src current) disk =
      (r, t)) : CleanOutcome lib src current disk t r := by
  by_cases hadmits : ∃ pinned manifest verified,
    Admits lib src (.ofRegistry registry) current pinned manifest verified
  · obtain ⟨pinned, manifest, verified, hadmits⟩ := hadmits
    exact cleanOutcome_of_admits lib src registry current pinned manifest verified disk t r hclean
      hadmits hexec
  · push Not at hadmits
    obtain ⟨r', hexec', hdigest⟩ := exec_refresh_of_not_admits lib src _ current disk hadmits
    rw [hexec', Prod.mk.injEq] at hexec
    obtain ⟨rfl, rfl⟩ := hexec
    cases r' with
    | error err => exact fun _ _ => rfl
    | ok refreshed =>
      obtain ⟨digest, hcurrent, hstatus⟩ := hdigest refreshed rfl
      exact ⟨digest, hstatus, .inl ⟨hcurrent, rfl⟩⟩

/-! ## A run of passes -/

/-- What the server serves between two passes: the cache and the status it has published. -/
structure Serving where
  disk : Disk
  status : AssetStatus

/-- The state after startup. -/
def startServing (env : Environment) (cache : Disk) : Serving :=
  let started := env.run (initialStatus lib src) cache
  ⟨started.2, started.1⟩

/-- The state after a round of the refresh loop. -/
def Serving.round (env : Environment) (s : Serving) : Serving :=
  let refreshed := env.run (refreshRound lib src s.status) s.disk
  ⟨refreshed.2, refreshed.1⟩

/-- A run of the server: the cache as startup finds it, and the answers it is given at startup and in
the rounds of the refresh loop. -/
structure RunWith (Answers Rounds : Type) where
  cache : Disk
  startup : Answers
  rounds : Rounds

/-- A published digest is that of the two files, and a server that is ready without one still
serves both files of the pallet it found in the cache. -/
def Coherent (found : Text) (s : Serving) : Prop :=
  (∀ digest, s.status.digest = some digest → MembersOf lib src digest s.disk) ∧
    (s.status.ready = true → s.status.digest = none → MembersOf lib src found s.disk)

/-- A pass that returns an error leaves both files as they were. -/
def ErrorKeepsAssets (registry : Request → Option Response) (current : Option Text)
    (disk : Disk) : Prop :=
  ∀ err t, Program.exec (Environment.ofRegistry registry).handle (refresh lib src current) disk =
    (.error err, t) → SameAssets src disk t

/-- A run in which only the registry gives answers, and the disk does not fail. The cache is without
a complete pair, or with that of a pallet some earlier run has served. -/
structure RefreshRun extends
    RunWith (Request → Option Response) (List (Request → Option Response)) where
  found : Text
  cached : (∀ asset : Asset, asset.required = true → (cache (src.assetPath asset)).isSome = true) →
    MembersOf lib src found cache

/-- From this state on, every state between two passes is coherent and every error harmless. -/
def AtomicFrom (found : Text) (s : Serving) : List (Request → Option Response) → Prop
  | [] => Coherent lib src found s
  | registry :: rest =>
    Coherent lib src found s ∧ ErrorKeepsAssets lib src registry s.status.digest s.disk ∧
      AtomicFrom found (s.round lib src (.ofRegistry registry)) rest

/-- Every pass of the run leaves the assets of one pallet. -/
def RefreshRun.Atomic (run : RefreshRun lib src) : Prop :=
  ErrorKeepsAssets lib src run.startup none run.cache ∧
    AtomicFrom lib src run.found (startServing lib src (.ofRegistry run.startup) run.cache) run.rounds

/-- From this state on, every pass is clean. -/
def CleanFrom (s : Serving) : List (Request → Option Response) → Prop
  | [] => True
  | registry :: rest =>
    CleanPass lib src (.ofRegistry registry) s.status.digest s.disk ∧
      CleanFrom (s.round lib src (.ofRegistry registry)) rest

/-- Every pass of the run is clean. -/
def RefreshRun.Clean (run : RefreshRun lib src) : Prop :=
  CleanPass lib src (.ofRegistry run.startup) none run.cache ∧
    CleanFrom lib src (startServing lib src (.ofRegistry run.startup) run.cache) run.rounds

/-- The members of a digest are still there on a disk with the same assets. -/
theorem MembersOf.congr {digest : Text} {disk t : Disk} (h : MembersOf lib src digest disk)
    (hsame : SameAssets src disk t) : MembersOf lib src digest t := by
  obtain ⟨manifestBytes, manifest, hdigest, hparsed, hmembers⟩ := h
  refine ⟨manifestBytes, manifest, hdigest, hparsed, fun asset hasset => ?_⟩
  rw [hsame asset hasset]
  exact hmembers asset hasset

/-- A round of the loop ends with the status of its pass, or keeps the one it read if the pass
fails. -/
theorem run_refreshRound (env : Environment) (status : AssetStatus) (disk : Disk) :
    env.run (refreshRound lib src status) disk =
      match Program.exec env.handle (refresh lib src status.digest) disk with
      | (.ok refreshed, t) => (refreshed.status, t)
      | (.error _, t) => (status, t) := by
  unfold Environment.run refreshRound
  rw [Program.exec_bind, Program.exec_attempt]
  rcases Program.exec env.handle (refresh lib src status.digest) disk with ⟨err | refreshed, t⟩ <;> rfl

/-- A round publishes the status of its pass, or keeps the one there is if the pass fails. -/
theorem round_eq (env : Environment) (s : Serving) :
    s.round lib src env =
      match Program.exec env.handle (refresh lib src s.status.digest) s.disk with
      | (.ok refreshed, t) => ⟨t, refreshed.status⟩
      | (.error _, t) => ⟨t, s.status⟩ := by
  unfold Serving.round
  rw [run_refreshRound]
  rcases Program.exec env.handle (refresh lib src s.status.digest) s.disk with
    ⟨err | refreshed, t⟩ <;> rfl

/-- Startup publishes the status of its pass. -/
theorem startServing_of_ok (env : Environment) (cache t : Disk) (refreshed : Refreshed)
    (h : Program.exec env.handle (refresh lib src none) cache = (.ok refreshed, t)) :
    startServing lib src env cache = ⟨t, refreshed.status⟩ := by
  unfold startServing Environment.run initialStatus
  rw [Program.exec_bind, Program.exec_attempt, h]
  rfl

/-- The cache is complete exactly when both files are there. -/
theorem exec_cacheIsComplete (env : Environment) (disk : Disk) :
    Program.exec env.handle (cacheIsComplete src) disk =
      (.ok ((disk (src.assetPath .kernel)).isSome && (disk (src.assetPath .initramfs)).isSome),
        disk) := by
  unfold cacheIsComplete
  rw [Program.bind_perform, Program.exec_call]
  change Program.exec env.handle (if (!(disk (src.assetPath .kernel)).isSome) = true then _ else _)
    disk = _
  cases (disk (src.assetPath .kernel)).isSome <;> rfl

/-- If the pass fails, the status names no digest and no signature, and is ready when both files
are there. -/
theorem startServing_of_error (env : Environment) (cache t : Disk) (err : PalletError)
    (h : Program.exec env.handle (refresh lib src none) cache = (.error err, t)) :
    ∃ status, startServing lib src env cache = ⟨t, status⟩ ∧ status.digest = none ∧
      status.signatureVerified = false ∧ (status.ready = true →
        ∀ asset : Asset, asset.required = true → (t (src.assetPath asset)).isSome = true) := by
  unfold startServing Environment.run initialStatus
  rw [Program.exec_bind, Program.exec_attempt, h]
  simp only
  rw [Program.exec_bind, exec_cacheIsComplete]
  simp only
  cases hcomplete :
    ((t (src.assetPath .kernel)).isSome && (t (src.assetPath .initramfs)).isSome) with
  | true =>
    rw [Bool.and_eq_true] at hcomplete
    refine ⟨_, rfl, rfl, rfl, fun _ asset hasset => ?_⟩
    cases asset with
    | kernel => exact hcomplete.1
    | initramfs => exact hcomplete.2
    | cmdline => cases hasset
  | false => exact ⟨_, rfl, rfl, rfl, fun hready => by cases hready⟩

/-! ## Clean runs -/

/-- A state is coherent that has published the digest of its two files. -/
theorem Coherent.of_digest {found digest : Text} {s : Serving}
    (hstatus : s.status.digest = some digest) (hmembers : MembersOf lib src digest s.disk) :
    Coherent lib src found s := by
  refine ⟨fun other hother => ?_, fun _ hnone => ?_⟩
  · obtain rfl := Option.some.inj (hstatus.symm.trans hother)
    exact hmembers
  · cases hstatus.symm.trans hnone

/-- A clean round takes a coherent state to a coherent state. -/
theorem coherent_round (registry : Request → Option Response) (found : Text) (s : Serving)
    (hs : Coherent lib src found s)
    (hclean : CleanPass lib src (.ofRegistry registry) s.status.digest s.disk) :
    Coherent lib src found (s.round lib src (.ofRegistry registry)) := by
  rw [round_eq]
  rcases hexec : Program.exec (Environment.ofRegistry registry).handle
    (refresh lib src s.status.digest) s.disk with ⟨err | refreshed, t⟩
  · have hsame := cleanOutcome_of_cleanPass lib src registry _ s.disk t _ hclean hexec
    exact ⟨fun digest hdigest => (hs.1 digest hdigest).congr lib src hsame,
      fun hready hnone => (hs.2 hready hnone).congr lib src hsame⟩
  · obtain ⟨digest, hstatus, hcases⟩ :=
      cleanOutcome_of_cleanPass lib src registry _ s.disk t _ hclean hexec
    have hmembers : MembersOf lib src digest t := by
      rcases hcases with ⟨hcurrent, rfl⟩ | hmembers
      · exact hs.1 digest hcurrent
      · exact hmembers
    exact .of_digest lib src hstatus hmembers

/-- A clean startup reaches a coherent state. -/
theorem coherent_startServing (registry : Request → Option Response) (found : Text) (cache : Disk)
    (hcached : (∀ asset : Asset, asset.required = true →
      (cache (src.assetPath asset)).isSome = true) → MembersOf lib src found cache)
    (hclean : CleanPass lib src (.ofRegistry registry) none cache) :
    Coherent lib src found (startServing lib src (.ofRegistry registry) cache) := by
  rcases hexec : Program.exec (Environment.ofRegistry registry).handle (refresh lib src none) cache
    with ⟨err | refreshed, t⟩
  · have hsame := cleanOutcome_of_cleanPass lib src registry _ cache t _ hclean hexec
    obtain ⟨status, hstart, hdigest, -, hready⟩ :=
      startServing_of_error lib src _ cache t err hexec
    rw [hstart]
    refine ⟨fun digest hsome => ?_, fun hisReady _ => ?_⟩
    · rw [hdigest] at hsome
      cases hsome
    · have hcomplete := hready hisReady
      have hmembers := hcached fun asset hasset => by
        rw [← hsame asset hasset]
        exact hcomplete asset hasset
      exact hmembers.congr lib src hsame
  · obtain ⟨digest, hstatus, hcases⟩ :=
      cleanOutcome_of_cleanPass lib src registry _ cache t _ hclean hexec
    have hmembers := hcases.resolve_left fun h => by cases h.1
    rw [startServing_of_ok lib src _ cache t refreshed hexec]
    exact .of_digest lib src hstatus hmembers

/-- A clean pass that returns an error leaves both files. -/
theorem errorKeepsAssets_of_cleanPass (registry : Request → Option Response)
    (current : Option Text) (disk : Disk)
    (hclean : CleanPass lib src (.ofRegistry registry) current disk) :
    ErrorKeepsAssets lib src registry current disk :=
  fun err t hexec =>
    cleanOutcome_of_cleanPass lib src registry current disk t (.error err) hclean hexec

/-- Clean rounds keep the assets those of one pallet. -/
theorem atomicFrom_of_cleanFrom (found : Text) (s : Serving)
    (rounds : List (Request → Option Response)) (hs : Coherent lib src found s)
    (hclean : CleanFrom lib src s rounds) : AtomicFrom lib src found s rounds := by
  induction rounds generalizing s with
  | nil => exact hs
  | cons registry rest ih =>
    exact ⟨hs, errorKeepsAssets_of_cleanPass lib src registry _ _ hclean.1,
      ih _ (coherent_round lib src registry found s hs hclean.1) hclean.2⟩

/-- In a run whose passes are clean the published digest and the two files always agree. -/
theorem RefreshRun.atomic_of_clean (run : RefreshRun lib src) (hclean : run.Clean) : run.Atomic :=
  ⟨errorKeepsAssets_of_cleanPass lib src _ _ _ hclean.1,
    atomicFrom_of_cleanFrom lib src run.found _ _
      (coherent_startServing lib src _ run.found _ run.cached hclean.1) hclean.2⟩

end Passes

/-! ## A pass that stops between the two files -/

namespace TwoPallets

/-- A kernel and an initramfs, with their SHA-256 hashes and that of their pallet's manifest. -/
structure BootPallet where
  kernel : Text
  initramfs : Text
  kernelHex : Text
  initramfsHex : Text
  manifestHex : Text

/-- Its manifest. -/
def BootPallet.manifest (p : BootPallet) : Manifest :=
  bootManifest emptySpecHex p.kernelHex p.initramfsHex

/-- The pallet the server starts with. -/
def first : BootPallet where
  kernel := "kernel a".toList
  initramfs := "initramfs a".toList
  kernelHex := hexText 64 0x2153bab41bd69649642e33a9c06e743b653cd6b02813fc1abd6b1cd14679302c
  initramfsHex := hexText 64 0xed8791fea8e405498d536791d39afdcad4bd289037d012fb1f61a7e25c38d47a
  manifestHex := hexText 64 0x4d07e99c41e2beb843bc6dc535e5c38eda16c5d94303b1d64152914397d898bd

/-- The pallet the tag moves to. -/
def second : BootPallet where
  kernel := "kernel b".toList
  initramfs := "initramfs b".toList
  kernelHex := hexText 64 0xa2afa7113d7674bf812fc1f8296ab3d18ce624c784bfb5b80574372dcad97bc3
  initramfsHex := hexText 64 0x8d772084b7cb93d4e3399ad2d7b761db724ab9ec6c4fd686eea9ad979c7b7056
  manifestHex := hexText 64 0x9da3db3f2eb802266801d05a967ddb341b992f856aa9a7103496caade9b5b4aa

/-- The digests of its manifest and its members. -/
def BootPallet.hashes (p : BootPallet) : List (Bytes × Text) :=
  [(utf8Encode (manifestText p.manifest), p.manifestHex), (utf8Encode p.kernel, p.kernelHex),
    (utf8Encode p.initramfs, p.initramfsHex)]

/-- The digests of both. -/
def hashes : List (Bytes × Text) :=
  (utf8Encode emptySpecText, emptySpecHex) :: (first.hashes ++ second.hashes)

/-- SHA-256 and the decoders, on these bytes. No signature is looked at. -/
def lib : Libraries where
  sha256 := hashOf hashes
  ed25519 := ⟨fun _ => false, fun _ _ _ => false⟩
  manifest bytes :=
    if bytes = utf8Encode (manifestText first.manifest) then some first.manifest
    else if bytes = utf8Encode (manifestText second.manifest) then some second.manifest
    else none
  index _ := none
  spec bytes := if bytes = utf8Encode emptySpecText then some {} else none
  document _ := none

/-- A source that allows unsigned pallets. -/
def src : PalletSource where
  registry := "http://registry:5100".toList
  repo := "stormcos/boot".toList
  reference := "stable".toList
  cacheDir := "/assets".toList
  trustedKeys := []
  requireSignature := false

/-- A registry whose tag names this pallet, and which serves those of its blobs that are asked
for by number. -/
def serve (p : BootPallet) (blobs : List ℕ) : Request → Option Response
  | .manifest => some ⟨200, none, some (utf8Encode (manifestText p.manifest))⟩
  | .spec => some ⟨200, none, some (utf8Encode emptySpecText)⟩
  | .member i =>
    if i ∈ blobs then some ⟨200, none, some (utf8Encode (if i = 0 then p.kernel else p.initramfs))⟩
    else some ⟨404, none, some []⟩
  | _ => none

/-- A cache directory without a file. -/
def emptyCache : Disk := fun _ => none

/-- The tag moves to the second pallet when its kernel can be had and its initramfs cannot. -/
def tornRun : RefreshRun lib src where
  cache := emptyCache
  found := []
  startup := serve first [0, 1]
  rounds := [serve second [0]]
  cached h := by cases h .kernel rfl

/-! What the decoders and SHA-256 make of these bytes. -/

/-- A manifest is decoded from one of two texts. -/
theorem lib_manifest (bytes : Bytes) :
    lib.manifest bytes =
      if bytes = utf8Encode (manifestText first.manifest) then some first.manifest
      else if bytes = utf8Encode (manifestText second.manifest) then some second.manifest
      else none := rfl

/-- Only the empty spec is decoded. -/
theorem lib_spec (bytes : Bytes) :
    lib.spec bytes = if bytes = utf8Encode emptySpecText then some {} else none := rfl

/-- It is decoded from its text. -/
theorem parsed_emptySpec : lib.spec (utf8Encode emptySpecText) = some {} := by
  rw [lib_spec, if_pos rfl]

/-- The first manifest is decoded from its text. -/
theorem parsed_first : lib.manifest (utf8Encode (manifestText first.manifest)) =
    some first.manifest := by
  rw [lib_manifest, if_pos rfl]

/-- So is the second. -/
theorem parsed_second : lib.manifest (utf8Encode (manifestText second.manifest)) =
    some second.manifest := by
  have hother : utf8Encode (manifestText second.manifest) ≠
      utf8Encode (manifestText first.manifest) := by decide
  rw [lib_manifest, if_neg hother, if_pos rfl]

/-- The empty spec has its digest. -/
theorem digest_emptySpec :
    lib.digest (utf8Encode emptySpecText) = toAsciiLowercase (sha256Of emptySpecHex) := by
  decide

/-- Nothing but the first manifest has the first digest. -/
theorem eq_of_digest_first (bytes : Bytes)
    (h : lib.digest bytes = toAsciiLowercase (sha256Of first.manifestHex)) :
    bytes = utf8Encode (manifestText first.manifest) :=
  eq_of_hashOf hashes bytes _ _ (by decide) (by decide) h

/-- Nothing but the empty spec has its digest. -/
theorem eq_emptySpecText_of_digest (bytes : Bytes)
    (h : lib.digest bytes = toAsciiLowercase (sha256Of emptySpecHex)) :
    bytes = utf8Encode emptySpecText :=
  eq_of_hashOf hashes bytes _ _ (by decide) (by decide) h

/-- With no inline members, bytes that no layer has the digest of are no member. -/
theorem not_vouched (p : BootPallet) (asset : Asset) (bytes : Bytes)
    (hlayers : ∀ layer ∈ p.manifest.layers, lib.digest bytes ≠ toAsciiLowercase layer.digest) :
    ¬ Vouched lib p.manifest asset bytes := by
  rintro (⟨layer, hlayer, role, -, hdigest⟩ | ⟨specBytes, spec, role, text, hdigest, hparse, -,
    hinline, -⟩)
  · exact hlayers layer hlayer hdigest
  · rw [eq_emptySpecText_of_digest specBytes hdigest, parsed_emptySpec] at hparse
    cases hparse
    cases hinline

/-- A pass admits the manifest the tag names, if any. -/
theorem manifest_of_admits (p : BootPallet) (blobs : List ℕ) (current : Option Text)
    (pinned : PinnedManifest) (manifest : Manifest) (verified : Bool)
    (hparse : lib.manifest (utf8Encode (manifestText p.manifest)) = some p.manifest)
    (h : Admits lib src (.ofRegistry (serve p blobs)) current pinned manifest verified) :
    manifest = p.manifest := by
  obtain ⟨hreceived, -⟩ := fetchManifest_ok lib src _ pinned h.fetched
  obtain ⟨hparsed, -⟩ := admitManifest_ok lib src _ pinned manifest verified h.admitted
  have hbytes : received ((Environment.ofRegistry (serve p blobs)).registry .manifest) =
      some (utf8Encode (manifestText p.manifest)) := rfl
  rw [← Option.some.inj (hbytes.symm.trans hreceived), hparse] at hparsed
  exact (Option.some.inj hparsed).symm

/-- The two layers of a pallet. -/
theorem layer_cases (p : BootPallet) (i : ℕ) (layer : Descriptor)
    (h : p.manifest.layers[i]? = some layer) :
    (i = 0 ∧ servedAs layer = some ("kernel".toList, .kernel) ∧
        layer.digest = sha256Of p.kernelHex ∧ layer.size = 0) ∨
      i = 1 ∧ servedAs layer = some ("initramfs".toList, .initramfs) ∧
        layer.digest = sha256Of p.initramfsHex ∧ layer.size = 0 := by
  match i with
  | 0 =>
    cases h
    exact .inl ⟨rfl, rfl, rfl, rfl⟩
  | 1 =>
    cases h
    exact .inr ⟨rfl, rfl, rfl, rfl⟩
  | n + 2 => cases h

/-- Both pallets are served with the empty spec. -/
theorem servedSpec_serve (p : BootPallet) (blobs : List ℕ) :
    (Environment.ofRegistry (serve p blobs)).servedSpec lib = {} := by
  change (lib.spec (utf8Encode emptySpecText)).getD {} = {}
  rw [parsed_emptySpec]
  rfl

/-- A pass that finds all of a pallet is clean. -/
theorem cleanPass_serve (p : BootPallet) (current : Option Text) (disk : Disk)
    (hparse : lib.manifest (utf8Encode (manifestText p.manifest)) = some p.manifest)
    (hkernel : lib.digest (utf8Encode p.kernel) = toAsciiLowercase (sha256Of p.kernelHex))
    (hinitramfs : lib.digest (utf8Encode p.initramfs) =
      toAsciiLowercase (sha256Of p.initramfsHex)) :
    CleanPass lib src (.ofRegistry (serve p [0, 1])) current disk := by
  intro pinned manifest verified hadmits
  obtain rfl := manifest_of_admits p _ current pinned manifest verified hparse hadmits
  have hobtained : ∀ i layer, p.manifest.layers[i]? = some layer →
      Obtained lib src (.ofRegistry (serve p [0, 1])) {} i layer := by
    intro i layer hlayer
    rw [obtained_ofRegistry_iff]
    intro role asset hserved
    rcases layer_cases p i layer hlayer with ⟨rfl, hrole, hdigest, hsize⟩ |
      ⟨rfl, hrole, hdigest, hsize⟩
    · rw [Option.isSome_iff_exists]
      refine ⟨utf8Encode p.kernel, ?_⟩
      change (checkMember lib layer asset (utf8Encode p.kernel)).toOption = _
      rw [(checkMember_ok_iff lib layer asset _ _).mpr ⟨rfl, hdigest ▸ hkernel, .inl hsize⟩]
      rfl
    · rw [Option.isSome_iff_exists]
      refine ⟨utf8Encode p.initramfs, ?_⟩
      change (checkMember lib layer asset (utf8Encode p.initramfs)).toOption = _
      rw [(checkMember_ok_iff lib layer asset _ _).mpr ⟨rfl, hdigest ▸ hinitramfs, .inl hsize⟩]
      rfl
  refine ⟨fun hstops => ?_, fun _ => bootTextsVouched_of_specAuthentic lib _ p.manifest
    ⟨utf8Encode emptySpecText, rfl, digest_emptySpec⟩⟩
  rcases hstops with ⟨i, layer, hlayer, hmissing⟩ | ⟨asset, hasset, hnone⟩
  · rw [servedSpec_serve] at hmissing
    exact absurd (hobtained i layer hlayer) hmissing
  · cases asset with
    | kernel => exact absurd rfl (hnone _ List.mem_cons_self "kernel".toList)
    | initramfs =>
      exact absurd rfl (hnone _ (List.mem_cons_of_mem _ List.mem_cons_self) "initramfs".toList)
    | cmdline => cases hasset

/-- A pass over the first pallet is clean. -/
theorem cleanPass_first (current : Option Text) (disk : Disk) :
    CleanPass lib src (.ofRegistry (serve first [0, 1])) current disk :=
  cleanPass_serve first current disk parsed_first (by decide) (by decide)

/-- A pass that cannot have the second pallet's kernel, its first layer, is clean. -/
theorem cleanPass_second (current : Option Text) (disk : Disk) :
    CleanPass lib src (.ofRegistry (serve second [])) current disk := by
  intro pinned manifest verified hadmits
  obtain rfl := manifest_of_admits second _ current pinned manifest verified parsed_second hadmits
  have hmissing : ∀ layer, second.manifest.layers[0]? = some layer →
      ¬ Obtained lib src (.ofRegistry (serve second []))
        ((Environment.ofRegistry (serve second [])).servedSpec lib) 0 layer := by
    intro layer hlayer hobtained
    rw [servedSpec_serve, obtained_ofRegistry_iff] at hobtained
    rcases layer_cases second 0 layer hlayer with ⟨-, hrole, -⟩ | ⟨hzero, -⟩
    · cases hobtained _ _ hrole
    · cases hzero
  refine ⟨fun _ i layer role asset bytes hlayer hbefore hserved _ hbytes => ?_, fun hall => ?_⟩
  · rcases layer_cases second i layer hlayer with ⟨rfl, hrole, -⟩ | ⟨rfl, -, -⟩
    · rw [servedSpec_serve] at hbytes
      cases hbytes
    · exact absurd (hbefore 0 Nat.one_pos _ rfl) (hmissing _ rfl)
  · exact absurd (.inl ⟨0, _, rfl, hmissing _ rfl⟩) hall

/-- In this run the second pallet's kernel cannot be had either, so its pass stops before it has
replaced anything. -/
def keptRun : RefreshRun lib src where
  cache := emptyCache
  found := []
  startup := serve first [0, 1]
  rounds := [serve second []]
  cached h := by cases h .kernel rfl

end TwoPallets

/-- A run that stays with its pallet is atomic, as the general result says. -/
theorem atomic_keptRun : TwoPallets.keptRun.Atomic :=
  RefreshRun.atomic_of_clean _ _ TwoPallets.keptRun
    ⟨TwoPallets.cleanPass_first _ _, TwoPallets.cleanPass_second _ _, trivial⟩

/-- After the pass that stopped, the published digest is the first pallet's and the kernel is the
second's. -/
theorem not_atomic_tornRun : ¬ TwoPallets.tornRun.Atomic := by
  rintro ⟨-, -, -, hcoherent, -⟩
  obtain ⟨manifestBytes, manifest, hdigest, hparsed, hmembers⟩ :=
    hcoherent (sha256Of TwoPallets.first.manifestHex) (by decide)
  rw [TwoPallets.eq_of_digest_first manifestBytes hdigest, TwoPallets.parsed_first] at hparsed
  cases hparsed
  obtain ⟨bytes, hbytes, hvouched⟩ := hmembers .kernel rfl
  have hkernel : bytes = utf8Encode TwoPallets.second.kernel := by
    refine Option.some.inj (hbytes.symm.trans ?_)
    decide
  rw [hkernel] at hvouched
  exact TwoPallets.not_vouched TwoPallets.first .kernel _ (by decide) hvouched

end Stormnetboot.Server

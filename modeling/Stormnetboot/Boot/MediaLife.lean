import Stormnetboot.Init.MediaReturns

/-!
# The life of boot media

Media is written once, by the build, and from then on only by the boots it starts: each may carry
another golden, and each may be interrupted, by a step that fails or by a power cut in the middle of
a write. What is on the media stays an image of some build, whole, beside a stamp; so it starts the
next boot, and a boot that nothing interrupts brings it to its golden's build.
-/

namespace Stormnetboot.Boot

open Stormnetboot.Common Stormnetboot.Init

/-! ## What a build leaves -/

/-- The image that a run of `build-boot-media.sh` assembled, and what else it writes into
`media.conf`. -/
structure MediaBuild where
  uki : Bytes
  kver : Text
  built : Text

/-- The first line of `media.conf`. -/
def mediaComment : Text :=
  "# stormnetboot boot media. The digest is of the UKI in EFI/BOOT/BOOTX64.EFI.".toList

section Build

variable (sha256 : Bytes → Bytes)

/-- `DIGEST`. -/
def ukiDigest (uki : Bytes) : Text :=
  "sha256:".toList ++ hexEncode (sha256 uki)

namespace MediaBuild

/-- `media.conf`. -/
def conf (build : MediaBuild) : Text :=
  mediaComment ++ "\n".toList ++
    "pallet=".toList ++ ukiDigest sha256 build.uki ++ "\n".toList ++
    "kver=".toList ++ build.kver ++ "\n".toList ++
    "built=".toList ++ build.built ++ "\n".toList

/-- The ESP of media that was just written. -/
def esp (build : MediaBuild) : EspFiles :=
  ⟨build.uki, none, some (utf8Encode (build.conf sha256))⟩

/-- A golden that the build was published in. -/
def golden (build : MediaBuild) : Golden :=
  ⟨some build.uki, some (build.conf sha256)⟩

end MediaBuild

end Build

/-- One boot of the media: the golden carries a build or none, and nothing may interrupt it or
anything. -/
structure MediaBoot where
  golden : Option MediaBuild
  params : BootParams
  interrupted : Bool

section Life

variable (sha256 : Bytes → Bytes)

/-- The boot, with steps that fail. -/
def MediaBoot.attempt (boot : MediaBoot) (fault : SysOp → Option Text) : BootAttempt where
  params := boot.params
  golden := (boot.golden.map (MediaBuild.golden sha256)).getD ⟨none, none⟩
  fault := fault

/-- What the boot can leave of an ESP: if it is interrupted, anything it can be cut off in, with
any of its steps failing. -/
def MediaBoot.Leaves (boot : MediaBoot) (esp t : EspFiles) : Prop :=
  if boot.interrupted then
    ∃ fault, Program.CutOff (boot.attempt sha256 fault).handleFiles
      (boot.attempt sha256 fault).torn (refresh boot.params sysroot) esp t
  else
    t = (Program.exec (boot.attempt sha256 fun _ => none).handleFiles
      (refresh boot.params sysroot) esp).2

/-- What media of a build can have become, after these boots. -/
inductive Lived (first : MediaBuild) : List MediaBoot → EspFiles → Prop where
  | written : Lived first [] (first.esp sha256)
  | booted {past : List MediaBoot} {esp t : EspFiles} (boot : MediaBoot)
    (hlived : Lived first past esp) (hleaves : boot.Leaves sha256 esp t) :
    Lived first (past ++ [boot]) t

/-- What an uninterrupted boot makes of the media: nothing, if the stamp names its golden's build,
and that build otherwise. -/
def Serves (next : MediaBuild) (esp : EspFiles) : Prop :=
  ∀ params device, let b := BootAttempt.complete params device (next.golden sha256)
    Program.exec b.handleFiles (refresh b.params sysroot) esp =
      if esp.installed = ukiDigest sha256 next.uki then
        (.ok (.current (ukiDigest sha256 next.uki)), esp)
      else
        (.ok (.updated esp.installed (ukiDigest sha256 next.uki)),
          ⟨next.uki, none, some (utf8Encode (stampText (ukiDigest sha256 next.uki)))⟩)

/-- The image is one build's, whole; the stamp is there; any boot that nothing interrupts does not
panic and installs its golden's build, unless the stamp names it already. Without interruptions the
stamp names the image. -/
structure Keeps (first : MediaBuild) (past : List MediaBoot) (esp : EspFiles) : Prop where
  whole : esp.image = first.uki ∨
    ∃ boot ∈ past, ∃ build, boot.golden = some build ∧ esp.image = build.uki
  stamped : esp.stamp.isSome
  serves : ∀ next : MediaBuild, Serves sha256 next esp
  named : (∀ boot ∈ past, boot.interrupted = false) →
    esp.digest = some (ukiDigest sha256 esp.image)

end Life

/-! ## Digests of images -/

/-- A digest of one-byte characters can be abbreviated. -/
theorem abbreviable_of_narrow {digest : Text} (h : Narrow digest) : Abbreviable digest := by
  intro hlong
  refine Narrow.isSome_takeBytes (h.mono ?_) hlong.le
  cases hprefix : stripPrefix "sha256:".toList digest with
  | none => exact List.Subset.refl _
  | some rest =>
    rw [(stripPrefix_eq_some_iff ..).mp hprefix]
    exact List.subset_append_right ..

/-- A hex digit is one byte and no blank. -/
theorem hexDigit_narrow : ∀ n < 16, (Nat.digitChar n).utf8Size = 1 ∧
    isWhitespace (Nat.digitChar n) = false := by
  decide

/-- The characters of a hex text are hex digits. -/
theorem mem_hexEncode {bytes : Bytes} {c : Char} (h : c ∈ hexEncode bytes) :
    ∃ n < 16, c = Nat.digitChar n := by
  obtain ⟨b, -, hc⟩ := List.mem_flatMap.mp h
  have hb := b.toNat_lt
  rcases List.mem_cons.mp hc with rfl | hc
  · exact ⟨_, by omega, rfl⟩
  · exact ⟨_, Nat.mod_lt _ (by decide), List.mem_singleton.mp hc⟩

section Build

variable (sha256 : Bytes → Bytes)

/-- The digest of an image has one-byte characters. -/
theorem ukiDigest_narrow (uki : Bytes) : Narrow (ukiDigest sha256 uki) := by
  refine Narrow.append (by decide) fun c hc => ?_
  obtain ⟨n, hn, rfl⟩ := mem_hexEncode hc
  exact (hexDigit_narrow n hn).1

/-- It has no blanks. -/
theorem ukiDigest_solid (uki : Bytes) : ∀ c ∈ ukiDigest sha256 uki, isWhitespace c = false := by
  intro c hc
  rcases List.mem_append.mp hc with hc | hc
  · exact (by decide : ∀ c ∈ "sha256:".toList, isWhitespace c = false) c hc
  · obtain ⟨n, hn, rfl⟩ := mem_hexEncode hc
    exact (hexDigit_narrow n hn).2

/-- It has the form that the build checks for. -/
theorem isDigest_ukiDigest (uki : Bytes) : IsDigest (ukiDigest sha256 uki) where
  ne_nil := List.cons_ne_nil _ _
  newline hmem := absurd (ukiDigest_solid sha256 uki _ hmem) (by decide)
  head c hc := ukiDigest_solid sha256 uki c (List.mem_of_mem_head? hc)
  last c hc := ukiDigest_solid sha256 uki c (List.mem_of_getLast? hc)

/-- A line that gives a digest is read as it. -/
theorem palletOfLine_pallet {digest : Text} (h : IsDigest digest) :
    palletOfLine ("pallet=".toList ++ digest) = some digest := by
  have htrim : trim ("pallet=".toList ++ digest) = "pallet=".toList ++ digest := by
    refine trim_eq_self (fun c hc => ?_) fun c hc => ?_
    · cases hc
      decide
    · rw [List.getLast?_append_of_ne_nil _ h.ne_nil] at hc
      exact h.last c hc
  have hsplit : splitOnce '=' ("pallet=".toList ++ digest) = some ("pallet".toList, digest) := rfl
  have hdigest : digest.isEmpty = false := by
    rw [Bool.eq_false_iff]
    exact fun hempty => h.ne_nil (List.isEmpty_iff.mp hempty)
  unfold palletOfLine
  simp only [htrim, hsplit, trim_eq_self h.head h.last, hdigest]
  rfl

/-- The first line of a text that begins with one. -/
theorem lines_cons (line rest : Text) (hnewline : '\n' ∉ line) (hreturn : line.getLast? ≠ some '\r') :
    lines (line ++ '\n' :: rest) = line :: lines rest := by
  have hsplit : line ++ '\n' :: rest = (line ++ ['\n']) ++ rest := by
    rw [List.append_assoc]
    rfl
  rw [lines, hsplit, splitInclusive_append _ _ _ (.inr List.getLast?_concat),
    splitInclusive_singleton _ _ hnewline, List.singleton_append, List.map_cons,
    stripLineEnd_append_newline _ hreturn]
  rfl

/-- `media.conf` names the digest of the image. -/
theorem palletOfText_conf (build : MediaBuild) :
    palletOfText (build.conf sha256) = some (ukiDigest sha256 build.uki) := by
  have hdigest := isDigest_ukiDigest sha256 build.uki
  have hconf : build.conf sha256 = mediaComment ++ '\n' :: (("pallet=".toList ++
      ukiDigest sha256 build.uki) ++ '\n' :: ("kver=".toList ++ build.kver ++ "\n".toList ++
        "built=".toList ++ build.built ++ "\n".toList)) := by
    simp only [MediaBuild.conf, List.append_assoc]
    rfl
  have hlast : ("pallet=".toList ++ ukiDigest sha256 build.uki).getLast? ≠ some '\r' := by
    rw [List.getLast?_append_of_ne_nil _ hdigest.ne_nil]
    exact fun hr => absurd (hdigest.last _ hr) (by decide)
  have hpallet : '\n' ∉ "pallet=".toList ++ ukiDigest sha256 build.uki := by
    rw [List.mem_append, not_or]
    exact ⟨by decide, hdigest.newline⟩
  rw [palletOfText, hconf, lines_cons _ _ (by decide) (by decide), lines_cons _ _ hpallet hlast,
    List.findSome?_cons, List.findSome?_cons, palletOfLine_pallet hdigest]
  rfl

end Build

/-! ## What is read from a stamp -/

/-- The pieces of a text have only its characters. -/
theorem subset_of_mem_splitInclusive {separator : Char} {s part : Text}
    (h : part ∈ splitInclusive separator s) : part ⊆ s := by
  induction s generalizing part with
  | nil => cases h
  | cons c cs ih =>
    rw [splitInclusive] at h
    split_ifs at h with hc
    · rcases List.mem_cons.mp h with rfl | hmem
      · exact List.cons_subset_cons c (List.nil_subset _)
      · exact List.Subset.trans (ih hmem) (List.subset_cons_self ..)
    · cases hsplit : splitInclusive separator cs with
      | nil =>
        rw [hsplit] at h
        obtain rfl := List.mem_singleton.mp h
        exact List.cons_subset_cons c (List.nil_subset _)
      | cons first rest =>
        rw [hsplit] at h
        rcases List.mem_cons.mp h with rfl | hmem
        · exact List.cons_subset_cons c (ih (hsplit ▸ List.mem_cons_self))
        · exact List.Subset.trans (ih (hsplit ▸ List.mem_cons_of_mem _ hmem))
            (List.subset_cons_self ..)

/-- A line without its ending has only the line's characters. -/
theorem stripLineEnd_subset (line : Text) : stripLineEnd line ⊆ line := by
  unfold stripLineEnd
  split
  · simp only
    split_ifs
    · exact List.Subset.trans (List.dropLast_subset _) (List.dropLast_subset _)
    · exact List.dropLast_subset _
  · exact List.Subset.refl _

/-- A digest that is read has its characters from the text. -/
theorem subset_of_palletOfText {text digest : Text} (h : palletOfText text = some digest) :
    digest ⊆ text := by
  obtain ⟨line, hline, hread⟩ := List.exists_of_findSome?_eq_some h
  obtain ⟨part, hpart, rfl⟩ := List.mem_map.mp hline
  have htext : stripLineEnd part ⊆ text :=
    List.Subset.trans (stripLineEnd_subset part) (subset_of_mem_splitInclusive hpart)
  unfold palletOfLine at hread
  simp only at hread
  split_ifs at hread
  split at hread
  · rename_i key value hsplit
    split_ifs at hread
    cases hread
    have hvalue : value ⊆ trim (stripLineEnd part) := by
      unfold splitOnce at hsplit
      split at hsplit
      · cases hsplit
      · rename_i rest hrest
        cases hsplit
        exact fun c hc => (List.dropWhile_suffix _).subset (hrest ▸ List.mem_cons_of_mem _ hc)
    exact fun c hc => htext (mem_of_mem_trim (hvalue (mem_of_mem_trim hc)))
  · cases hread

/-! ## What a boot can leave as the stamp -/

/-- The operation writes no stamp but that of an install. -/
def StampsOnly (wanted : Text) (op : SysOp) : Prop :=
  ∀ content, op = .writeFile stampPath content → content = stampText wanted

/-- An install writes no other stamp than that of what it installs. -/
theorem install_stampsOnly (payloadUkiPath wanted : Text) :
    (install payloadUkiPath wanted).Only (StampsOnly wanted) := by
  have hchecked (op : SysOp) (f : SysOp.Ans op → Boot Unit) (next : Unit → Boot Unit)
      (hop : StampsOnly wanted op) (hf : ∀ answer, (f answer).Only (StampsOnly wanted))
      (hnext : ∀ r, (next r).Only (StampsOnly wanted)) :
      (Program.perform op >>= fun answer => f answer >>= next).Only (StampsOnly wanted) :=
    Program.only_bind (Program.only_perform op hop) fun answer =>
      Program.only_bind (hf answer) hnext
  have horFail (answer : Except Text Unit) : (orFail answer : Boot Unit).Only (StampsOnly wanted) := by
    cases answer <;> trivial
  have hother {op : SysOp} (h : ∀ path content, op ≠ .writeFile path content) :
      StampsOnly wanted op := fun content heq => absurd heq (h _ _)
  refine hchecked _ _ _ (hother nofun) horFail fun _ => ?_
  refine hchecked _ _ _ (hother nofun) horFail fun _ => ?_
  refine hchecked _ _ _ (hother nofun) horFail fun _ => ?_
  refine hchecked _ _ _ (hother nofun) horFail fun _ => ?_
  refine hchecked _ _ _ (hother nofun) horFail fun _ => ?_
  refine hchecked _ _ _ (fun content heq => ?_) horFail fun _ => ?_
  · cases heq
    rfl
  refine hchecked _ _ _ (hother nofun) horFail fun _ => ?_
  exact Program.only_bind (Program.only_perform _ (hother nofun)) fun _ => trivial

/-- The stamp is the old one, or as much as was written of the one an install writes. -/
def StampLeft (wanted : Text) (stamp left : Option Bytes) : Prop :=
  left = stamp ∨ ∃ part, part <+: utf8Encode (stampText wanted) ∧ left = some part

/-- A step that fails changes no stamp. -/
theorem stamp_unlessFault (b : BootAttempt) (op : SysOp) (esp : EspFiles)
    (next : Except Text Unit × EspFiles) :
    (b.unlessFault op esp next).2 = esp ∨ (b.unlessFault op esp next).2 = next.2 := by
  unfold BootAttempt.unlessFault
  cases b.fault op with
  | some err => exact .inl rfl
  | none => exact .inr rfl

/-- Only a write to its path changes the stamp. -/
theorem stamp_handleFiles (b : BootAttempt) (op : SysOp) (esp : EspFiles) :
    (b.handleFiles op esp).2.stamp = esp.stamp ∨
      ∃ content, op = .writeFile stampPath content ∧
        (b.handleFiles op esp).2.stamp = some (utf8Encode content) := by
  have hstays (next : Except Text Unit × EspFiles) (hnext : next.2.stamp = esp.stamp) :
      (b.unlessFault op esp next).2.stamp = esp.stamp := by
    rcases stamp_unlessFault b op esp next with heq | heq
    · rw [heq]
    · rw [heq, hnext]
  cases op with
  | copyFile source target =>
    refine .inl (hstays _ ?_)
    split_ifs
    · cases b.golden.bootEfi <;> rfl
    · rfl
  | rename source target =>
    refine .inl (hstays _ ?_)
    split_ifs
    · cases esp.staged <;> rfl
    · rfl
  | writeFile path content =>
    by_cases hpath : path = stampPath
    · subst hpath
      rcases stamp_unlessFault b (.writeFile stampPath content) esp
        (.ok (), if stampPath = stampPath then { esp with stamp := some (utf8Encode content) }
          else esp) with heq | heq
      · exact .inl (congrArg EspWith.stamp heq)
      · refine .inr ⟨content, rfl, (congrArg EspWith.stamp heq).trans ?_⟩
        rw [if_pos rfl]
    · refine .inl (hstays _ ?_)
      rw [if_neg hpath]
  | createDirAll path => exact .inl (hstays _ rfl)
  | syncFile path => exact .inl (hstays _ rfl)
  | spawnEngine argv env => exact .inl (hstays _ rfl)
  | _ => exact .inl rfl

/-- An install leaves such a stamp wherever it is cut off. -/
theorem stampLeft_install {b : BootAttempt} {wanted : Text} {esp t : EspFiles}
    (hcut : Program.CutOff b.handleFiles b.torn (install ukiPath wanted) esp t) :
    StampLeft wanted esp.stamp t.stamp := by
  refine (install_stampsOnly ukiPath wanted).cutOff_keeps
    (I := fun s => StampLeft wanted esp.stamp s.stamp) (fun op s hop hs => ⟨?_, fun u htorn => ?_⟩)
    (.inl rfl) hcut
  · rcases stamp_handleFiles b op s with hstays | ⟨content, rfl, hwritten⟩
    · rwa [hstays]
    · rw [hwritten, hop content rfl]
      exact .inr ⟨_, List.prefix_rfl, rfl⟩
  · cases op with
    | copyFile source target =>
      obtain ⟨-, -, image, part, -, -, rfl⟩ := htorn
      exact hs
    | writeFile path content =>
      obtain ⟨rfl, part, hpart, rfl⟩ := htorn
      rw [hop content rfl] at hpart
      exact .inr ⟨part, hpart, rfl⟩
    | _ => cases htorn

/-- A boot leaves the stamp it found, or such a stamp of the digest its golden declares. -/
theorem stampLeft_refresh {b : BootAttempt} {esp t : EspFiles}
    (hcut : Program.CutOff b.handleFiles b.torn (refresh b.params sysroot) esp t) :
    t.stamp = esp.stamp ∨ ∃ wanted, b.golden.conf.bind palletOfText = some wanted ∧
      StampLeft wanted esp.stamp t.stamp := by
  have hpass := cutOff_refresh hcut
  rw [mediaRun_eq] at hpass
  rcases (examining_quiet.examine _ _).cutOff_bind (still_of_quiet b) hpass with
    rfl | ⟨verdict, hexec, hpass⟩
  · exact .inl rfl
  have hexamined : Examined b.handleFiles (fun _ => True) b.params sysroot verdict :=
    examined_of_exec examining_quiet (fun _ _ _ _ => trivial) trivial hexec
  cases hexamined with
  | disabled hdevice => exact .inl (congrArg _ ((Program.cutOff_done_iff ..).mp hpass))
  | skipped why => exact .inl (congrArg _ ((Program.cutOff_done_iff ..).mp hpass))
  | compared device wanted declared hdevice huki hconf hstamp =>
    unfold Verdict.compare at hpass
    split_ifs at hpass
    · exact .inl (congrArg _ ((Program.cutOff_done_iff ..).mp hpass))
    · refine .inr ⟨wanted, ?_, stampLeft_install hpass.of_bind_done.of_mapError⟩
      obtain ⟨s, -, hread⟩ := hconf
      have hexecRead : (Program.exec b.handleFiles (readPallet confPath) s).1 =
          .ok (b.golden.conf.bind palletOfText) :=
        congrArg Prod.fst (exec_readPallet_confWith .bytes b s)
      exact Except.ok.inj (hexecRead.symm.trans hread)

/-! ## Media that can be refreshed -/

/-- There is a stamp, and whatever digest it names can be abbreviated. -/
def Readable (esp : EspFiles) : Prop :=
  esp.stamp.isSome ∧ ∀ digest, esp.digest = some digest → Abbreviable digest

section Life

variable {sha256 : Bytes → Bytes}

/-- The stamp of an image has one-byte characters. -/
theorem stampText_narrow (uki : Bytes) : Narrow (stampText (ukiDigest sha256 uki)) := by
  have hcomment : Narrow "# written by stormnetboot-init; the digest of the UKI in ".toList := by
    decide
  have hfile : Narrow espUki := by decide
  have hkey : Narrow "\npallet=".toList := by decide
  have hend : Narrow "\n".toList := by decide
  unfold stampText
  exact (((hcomment.append hfile).append hkey).append (ukiDigest_narrow sha256 uki)).append hend

/-- The stamp of new media names its image. -/
theorem digest_esp (first : MediaBuild) :
    (first.esp sha256).digest = some (ukiDigest sha256 first.uki) := by
  rw [EspFiles.digest, MediaBuild.esp, Option.bind_some, utf8Decode_utf8Encode, Option.bind_some,
    palletOfText_conf]

/-- A stick as it is written first has a stamp that can be read. -/
theorem readable_fresh (first : MediaBuild) : Readable (first.esp sha256) := by
  refine ⟨rfl, fun digest hdigest => ?_⟩
  rw [digest_esp] at hdigest
  cases hdigest
  exact abbreviable_of_narrow (ukiDigest_narrow sha256 _)

/-- A stamp that was only partly written still names what can be abbreviated, if anything. -/
theorem readable_of_stampLeft {uki : Bytes} {esp t : EspFiles} (hesp : Readable esp)
    (hleft : StampLeft (ukiDigest sha256 uki) esp.stamp t.stamp) : Readable t := by
  rcases hleft with hsame | ⟨part, hpart, hstamp⟩
  · rw [Readable, EspFiles.digest, hsame]
    exact hesp
  · obtain ⟨start, hstart, rfl⟩ := (stampText_narrow uki).exists_start hpart
    refine ⟨hstamp ▸ rfl, fun digest hdigest => abbreviable_of_narrow ?_⟩
    rw [EspFiles.digest, hstamp, Option.bind_some, utf8Decode_utf8Encode,
      Option.bind_some] at hdigest
    exact ((stampText_narrow uki).mono hstart.subset).mono (subset_of_palletOfText hdigest)

/-- What a golden wants installed is the digest of an image. -/
theorem conf_attempt (boot : MediaBoot) (fault : SysOp → Option Text) {wanted : Text}
    (hwanted : (boot.attempt sha256 fault).golden.conf.bind palletOfText = some wanted) :
    ∃ uki, wanted = ukiDigest sha256 uki := by
  cases hgolden : boot.golden with
  | none =>
    rw [MediaBoot.attempt, hgolden] at hwanted
    cases hwanted
  | some build =>
    have hconf : (boot.attempt sha256 fault).golden.conf = some (build.conf sha256) := by
      rw [MediaBoot.attempt, hgolden]
      rfl
    rw [hconf, Option.bind_some, palletOfText_conf] at hwanted
    exact ⟨build.uki, (Option.some.inj hwanted).symm⟩

/-- Whatever happens in a boot, it can be cut off in what it leaves. -/
theorem exists_cutOff_of_leaves {boot : MediaBoot} {esp t : EspFiles}
    (hleaves : boot.Leaves sha256 esp t) :
    ∃ fault, Program.CutOff (boot.attempt sha256 fault).handleFiles
      (boot.attempt sha256 fault).torn (refresh (boot.attempt sha256 fault).params sysroot) esp t := by
  unfold MediaBoot.Leaves at hleaves
  split_ifs at hleaves
  · exact hleaves
  · exact ⟨_, hleaves ▸ Program.cutOff_exec _ _⟩

/-- A boot leaves a stamp that can be read. -/
theorem readable_of_leaves {boot : MediaBoot} {esp t : EspFiles} (hesp : Readable esp)
    (hleaves : boot.Leaves sha256 esp t) : Readable t := by
  obtain ⟨fault, hcut⟩ := exists_cutOff_of_leaves hleaves
  rcases stampLeft_refresh hcut with hsame | ⟨wanted, hwanted, hleft⟩
  · rw [Readable, EspFiles.digest, hsame]
    exact hesp
  · obtain ⟨uki, rfl⟩ := conf_attempt boot fault hwanted
    exact readable_of_stampLeft hesp hleft

/-- Readable media is brought to the golden's build by a boot that nothing interrupts. -/
theorem serves_of_readable {esp : EspFiles} (hesp : Readable esp) (next : MediaBuild) :
    Serves sha256 next esp := by
  intro params device b
  have hdigest : Abbreviable (ukiDigest sha256 next.uki) :=
    abbreviable_of_narrow (ukiDigest_narrow sha256 _)
  have hinstalled : Abbreviable esp.installed := by
    rw [EspFiles.installed]
    cases hread : esp.digest with
    | none => exact abbreviable_unknown
    | some digest => exact hesp.2 digest hread
  have hconclude (outcome : Outcome) (hloggable : Loggable outcome) (t : EspFiles) :
      Program.exec b.handleFiles (concludeRefresh outcome) t = (.ok outcome, t) := by
    obtain ⟨result, hresult⟩ := (concludeRefresh_succeeds hloggable).exec b.handleFiles t
    have hsame := (concludeRefresh_ends outcome).exec b.handleFiles t result
      (congrArg Prod.fst hresult)
    have hfiles := (concludeRefresh_quiet outcome).exec_eq (handleFiles_quiet b) t
    exact Prod.ext ((congrArg Prod.fst hresult).trans (congrArg Except.ok hsame)) hfiles
  let published : MediaGolden fun _ => next.uki :=
    ⟨next.uki, next.conf sha256, ukiDigest sha256 next.uki, palletOfText_conf sha256 next, rfl⟩
  have hpass : Program.exec b.handleFiles (mediaRun b.params sysroot) esp = _ :=
    exec_mediaRun_complete published params device hesp.1
  rw [refresh, Program.exec_bind, Program.exec_attempt, hpass]
  have hsame : published.digest = ukiDigest sha256 next.uki := rfl
  rw [hsame]
  split_ifs
  · exact hconclude (.current _) hdigest esp
  · exact hconclude (.updated _ _) ⟨hinstalled, hdigest⟩ _

/-! ## Over a life -/

/-- An uninterrupted boot that has a device and a build makes of the media what it should. -/
theorem leaves_complete_iff {boot : MediaBoot} {build : MediaBuild} {device : Text}
    {esp t : EspFiles} (hinterrupted : boot.interrupted = false)
    (hgolden : boot.golden = some build) (hdevice : boot.params.mediaDev = some device)
    (hesp : Readable esp) :
    boot.Leaves sha256 esp t ↔
      t = if esp.installed = ukiDigest sha256 build.uki then esp
        else ⟨build.uki, none, some (utf8Encode (stampText (ukiDigest sha256 build.uki)))⟩ := by
  have hattempt : (boot.attempt sha256 fun _ => none) =
      .complete boot.params device (build.golden sha256) := by
    rw [MediaBoot.attempt, BootAttempt.complete, hgolden, ← hdevice]
    rfl
  have hparams : (BootAttempt.complete boot.params device (build.golden sha256)).params =
      boot.params := by
    rw [BootAttempt.complete, ← hdevice]
  have hserves : Serves sha256 build esp := serves_of_readable hesp build
  have hexec : Program.exec
      (BootAttempt.complete boot.params device (build.golden sha256)).handleFiles
      (refresh (BootAttempt.complete boot.params device (build.golden sha256)).params sysroot) esp =
        _ := hserves boot.params device
  rw [hparams] at hexec
  rw [MediaBoot.Leaves, hinterrupted, if_neg Bool.false_ne_true, hattempt, hexec]
  split_ifs <;> rfl

/-- A boot without a device for its media leaves it alone. -/
theorem leaves_disabled {boot : MediaBoot} {esp t : EspFiles}
    (hinterrupted : boot.interrupted = false) (hdevice : boot.params.mediaDev = none)
    (hleaves : boot.Leaves sha256 esp t) : t = esp := by
  rw [MediaBoot.Leaves, hinterrupted, if_neg Bool.false_ne_true] at hleaves
  have hparams : (boot.attempt sha256 fun _ => none).params = boot.params := rfl
  rw [hleaves, ← hparams, snd_exec_refresh, hparams, mediaRun, hdevice]
  rfl

/-- A boot whose golden carries no build leaves image and stamp alone. -/
theorem leaves_unpublished {boot : MediaBoot} {esp t : EspFiles} (hgolden : boot.golden = none)
    (hesp : Readable esp) (hleaves : boot.Leaves sha256 esp t) :
    t.image = esp.image ∧ t.stamp = esp.stamp := by
  obtain ⟨fault, hcut⟩ := exists_cutOff_of_leaves hleaves
  rcases leftBy_refresh hesp.1 hcut with hsame | ⟨himage, -⟩
  · exact hsame
  · rw [MediaBoot.attempt, hgolden] at himage
    cases himage

/-- An image that is named stays named in a boot that nothing interrupts. -/
theorem named_of_leaves {boot : MediaBoot} {esp t : EspFiles}
    (hinterrupted : boot.interrupted = false) (hesp : Readable esp)
    (hleaves : boot.Leaves sha256 esp t)
    (hnamed : esp.digest = some (ukiDigest sha256 esp.image)) :
    t.digest = some (ukiDigest sha256 t.image) := by
  cases hgolden : boot.golden with
  | none =>
    obtain ⟨himage, hstamp⟩ := leaves_unpublished hgolden hesp hleaves
    rw [EspFiles.digest, hstamp, himage]
    exact hnamed
  | some build =>
    cases hdevice : boot.params.mediaDev with
    | none => exact leaves_disabled hinterrupted hdevice hleaves ▸ hnamed
    | some device =>
      rw [(leaves_complete_iff hinterrupted hgolden hdevice hesp).mp hleaves]
      split_ifs
      · exact hnamed
      · rw [EspFiles.digest, Option.bind_some, utf8Decode_utf8Encode, Option.bind_some,
          palletOfText_stampText _ (isDigest_ukiDigest sha256 build.uki)]

/-- The invariant holds of the stick as it is written first. -/
theorem keeps_written (first : MediaBuild) : Keeps sha256 first [] (first.esp sha256) := by
  exact ⟨.inl rfl, rfl, serves_of_readable (readable_fresh first), fun _ => digest_esp first⟩

/-- One more boot. -/
theorem Keeps.booted {first : MediaBuild} {past : List MediaBoot} {esp t : EspFiles}
    (h : Keeps sha256 first past esp) (hesp : Readable esp) (boot : MediaBoot)
    (hleaves : boot.Leaves sha256 esp t) : Keeps sha256 first (past ++ [boot]) t := by
  have hreadable := readable_of_leaves hesp hleaves
  refine ⟨?_, hreadable.1, serves_of_readable hreadable, fun hpast => ?_⟩
  · obtain ⟨fault, hcut⟩ := exists_cutOff_of_leaves hleaves
    rcases leftBy_refresh hesp.1 hcut with ⟨himage, -⟩ | ⟨himage, -⟩
    · rw [himage]
      exact h.whole.imp_right fun ⟨other, hother, hbuild⟩ =>
        ⟨other, List.mem_append_left _ hother, hbuild⟩
    · cases hgolden : boot.golden with
      | none =>
        rw [MediaBoot.attempt, hgolden] at himage
        cases himage
      | some build =>
        rw [MediaBoot.attempt, hgolden] at himage
        exact .inr ⟨boot, List.mem_append_right _ (List.mem_singleton_self boot), build, hgolden,
          (Option.some.inj himage).symm⟩
  · rw [List.forall_mem_append] at hpast
    exact named_of_leaves (hpast.2 boot (List.mem_singleton_self boot)) hesp hleaves
      (h.named hpast.1)

/-- Media keeps a whole image of some build and can be refreshed, whatever happens to its boots. -/
theorem keeps_of_lived {first : MediaBuild} {past : List MediaBoot} {esp : EspFiles}
    (hlived : Lived sha256 first past esp) : Keeps sha256 first past esp := by
  suffices h : Keeps sha256 first past esp ∧ Readable esp from h.1
  induction hlived with
  | written => exact ⟨keeps_written first, readable_fresh first⟩
  | booted boot _ hleaves ih =>
    exact ⟨ih.1.booted ih.2 boot hleaves, readable_of_leaves ih.2 hleaves⟩

end Life

namespace Rollback

/-- The hashes of two images, of no byte and of the letter `a`. -/
def sha256 (bytes : Bytes) : Bytes :=
  (hexDecode (if bytes = [] then
    "e3b0c44298fc1c149afbf4c8996fb92427ae41e4649b934ca495991b7852b855".toList
  else "ca978112ca1bbdcafac231b39a23dc4da786eff8147c4e72b9807785afee48bb".toList)).getD []

/-- A build with an empty image. -/
def first : MediaBuild := ⟨[], "6.12".toList, "2026-01-01T00:00:00Z".toList⟩

/-- The build after it. -/
def second : MediaBuild := ⟨[97], "6.13".toList, "2026-02-01T00:00:00Z".toList⟩

/-- A boot of the second build's golden. -/
def update : MediaBoot := ⟨some second, { mediaDev := some "/dev/sda1".toList }, false⟩

/-- A boot of the first build's golden, without power before it does anything. -/
def lost : MediaBoot := ⟨some first, { mediaDev := some "/dev/sda1".toList }, true⟩

/-- The media after the update. -/
def updated : EspFiles :=
  ⟨[97], none, some (utf8Encode (stampText (ukiDigest sha256 [97])))⟩

/-- The update leaves the stick with the second image and its stamp. -/
theorem leaves_update : update.Leaves sha256 (first.esp sha256) updated := by
  have hdigests : ukiDigest sha256 first.uki ≠ ukiDigest sha256 second.uki := by decide
  have hleaves : update.Leaves sha256 (first.esp sha256) updated ↔ _ :=
    leaves_complete_iff rfl rfl rfl (readable_fresh first)
  rw [hleaves, EspFiles.installed, digest_esp, Option.getD_some, if_neg hdigests]
  rfl

end Rollback

/-- The rollback that loses power keeps the invariant, as the general result says. -/
theorem keeps_rollback :
    Keeps Rollback.sha256 Rollback.first [Rollback.update, Rollback.lost] Rollback.updated := by
  have hupdated : Lived Rollback.sha256 Rollback.first ([] ++ [Rollback.update])
      Rollback.updated := .booted Rollback.update .written Rollback.leaves_update
  have hlost : Lived Rollback.sha256 Rollback.first ([] ++ [Rollback.update] ++ [Rollback.lost])
      Rollback.updated := .booted Rollback.lost hupdated ⟨fun _ => none, .here _ _⟩
  exact keeps_of_lived hlost

end Stormnetboot.Boot

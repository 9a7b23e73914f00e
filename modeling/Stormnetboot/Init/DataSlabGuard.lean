import Stormnetboot.Init.Steps
import Mathlib.Data.Set.Defs
import Mathlib.Tactic.SplitIfs

/-!
# The data slab guard and the kernel's partition names

The kernel names a partition by appending its number to the disk's name, with a `p` between
them when the disk's name ends in a digit. The guard undoes this by looking at the last `p`,
at the digits around it and at three name prefixes. On the names below it recovers the disk
of every device; on any other name it takes the disk and some partition of it for two
different devices, and the guard is silent.
-/

namespace Stormnetboot.Init

open Stormnetboot.Common

/-- A whole disk under `/dev`: a directory and a name in it. -/
structure Disk where
  dir : Text
  name : Text
  under_dev : "/dev/".toList <+: dir
  dir_slash : dir.getLast? = some '/'
  name_ne_nil : name ≠ []
  name_slash : '/' ∉ name

namespace Disk

/-- The disk's device path. -/
def path (d : Disk) : Text :=
  d.dir ++ d.name

/-- What the kernel puts between the disk's name and the partition number. -/
def separator (d : Disk) : Text :=
  if endsWithDigit d.name then ['p'] else []

/-- The device path of a partition. -/
def partition (d : Disk) (n : ℕ) : Text :=
  d.dir ++ (d.name ++ d.separator ++ natText n)

/-- The path is the disk or one of its partitions. -/
def Holds (d : Disk) (path : Text) : Prop :=
  path = d.path ∨ ∃ n, 1 ≤ n ∧ path = d.partition n

/-- A partition's name has no slash in it. -/
theorem partition_slash (d : Disk) (n : ℕ) : '/' ∉ d.name ++ d.separator ++ natText n := by
  have hsep : '/' ∉ d.separator := by
    unfold separator
    split_ifs <;> simp
  have hnum : '/' ∉ natText n := fun h => absurd (natText_isDigit n '/' h) (by decide)
  simp only [List.mem_append, not_or]
  exact ⟨⟨d.name_slash, hsep⟩, hnum⟩

/-- The names the guard recovers. A name that ends in a digit has to start with one of the
three prefixes and must not itself read as a partition; any other name must not start with
one of them, nor end in a digit and a `p`. -/
def Recognised (d : Disk) : Prop :=
  if endsWithDigit d.name then hasDevicePrefix d.name = true ∧ partitionHead d.name = none
  else hasDevicePrefix d.name = false ∧ ∀ head, d.name = head ++ ['p'] → endsWithDigit head = false

end Disk

/-! ## Splitting names -/

/-- A tail of matching elements is dropped whole. -/
theorem rdropWhile_append_of_all {α : Type} (p : α → Bool) (front tail : List α)
    (h : ∀ x ∈ tail, p x = true) : (front ++ tail).rdropWhile p = front.rdropWhile p := by
  induction tail using List.reverseRecOn with
  | nil => rw [List.append_nil]
  | append_singleton rest x ih =>
    rw [← List.append_assoc, List.rdropWhile_concat_pos _ _ _ (h x (by simp))]
    exact ih fun y hy => h y (by simp [hy])

/-- The matching tail starts after a character that does not match. -/
theorem rtakeWhile_append_of_all {α : Type} (p : α → Bool) (front tail : List α) (x : α)
    (hx : p x = false) (h : ∀ y ∈ tail, p y = true) :
    (front ++ x :: tail).rtakeWhile p = tail := by
  induction tail using List.reverseRecOn with
  | nil => rw [List.rtakeWhile_concat_neg _ _ _ (by simp [hx])]
  | append_singleton rest y ih =>
    have hassoc : front ++ x :: (rest ++ [y]) = (front ++ x :: rest) ++ [y] := by simp
    rw [hassoc, List.rtakeWhile_concat_pos _ _ _ (h y (by simp)),
      ih fun z hz => h z (by simp [hz])]

/-- Splitting at the last occurrence returns the text before it and the text after it. -/
theorem splitLast_eq_some_iff (c : Char) (s head tail : Text) :
    splitLast c s = some (head, tail) ↔ s = head ++ c :: tail ∧ c ∉ tail := by
  constructor
  · intro h
    unfold splitLast at h
    split at h
    · cases h
    rename_i front hfront
    simp only [Option.some.injEq, Prod.mk.injEq] at h
    obtain ⟨rfl, rfl⟩ := h
    have hlast := List.rdropWhile_last_not (fun x => decide (x ≠ c)) s (by simpa using hfront)
    have hc : (s.rdropWhile (· ≠ c)).getLast (by simpa using hfront) = c := by simpa using hlast
    have hdrop := List.dropLast_append_getLast (by simpa using hfront : s.rdropWhile (· ≠ c) ≠ [])
    rw [hc] at hdrop
    constructor
    · calc
        s = s.rdropWhile (· ≠ c) ++ s.rtakeWhile (· ≠ c) := List.rdropWhile_append_rtakeWhile.symm
        _ = ((s.rdropWhile (· ≠ c)).dropLast ++ [c]) ++ s.rtakeWhile (· ≠ c) := by
          rw [hdrop]
        _ = _ := by simp
    · intro hmem
      simpa using List.mem_rtakeWhile_imp hmem
  · rintro ⟨rfl, htail⟩
    have hall : ∀ y ∈ tail, decide (y ≠ c) = true := by
      intro y hy
      simp only [ne_eq, decide_not, Bool.not_eq_eq_eq_not, Bool.not_true, decide_eq_false_iff_not]
      rintro rfl
      exact htail hy
    have htake : (head ++ c :: tail).rtakeWhile (· ≠ c) = tail :=
      rtakeWhile_append_of_all _ head tail c (by simp) hall
    have hdrop : (head ++ c :: tail).rdropWhile (· ≠ c) = head ++ [c] := by
      have hassoc : head ++ c :: tail = (head ++ [c]) ++ tail := by simp
      rw [hassoc, rdropWhile_append_of_all _ _ _ hall, List.rdropWhile_concat_neg _ _ _ (by simp)]
    unfold splitLast
    rw [hdrop, htake]
    split
    · rename_i hnil
      simp at hnil
    · simp

/-- A name reads as a partition exactly when a digit, a `p` and a number end it. -/
theorem partitionHead_eq_some_iff (name head : Text) :
    partitionHead name = some head ↔
      ∃ digits, name = head ++ 'p' :: digits ∧ digits ≠ [] ∧ (∀ c ∈ digits, c.isDigit = true) ∧
        endsWithDigit head = true := by
  unfold partitionHead
  constructor
  · intro h
    split at h
    · rename_i front digits hsplit
      obtain ⟨rfl, -⟩ := (splitLast_eq_some_iff ..).mp hsplit
      split at h
      · rename_i hcond
        cases h
        simp only [Bool.and_eq_true, Bool.not_eq_true', List.isEmpty_eq_false_iff,
          List.all_eq_true] at hcond
        exact ⟨digits, rfl, hcond.1.1, hcond.1.2, hcond.2⟩
      · cases h
    · cases h
  · rintro ⟨digits, rfl, hne, hdigits, hhead⟩
    have hp : 'p' ∉ digits := fun hmem => by simpa using hdigits 'p' hmem
    rw [(splitLast_eq_some_iff ..).mpr ⟨rfl, hp⟩]
    simp [hne, hhead]
    exact hdigits

/-- A name ends in a digit exactly when trimming digits from its end shortens it. -/
theorem rdropWhile_isDigit_eq_self_iff (name : Text) :
    name.rdropWhile Char.isDigit = name ↔ endsWithDigit name = false := by
  rw [List.rdropWhile_eq_self_iff]
  rcases List.eq_nil_or_concat name with rfl | ⟨front, c, rfl⟩
  · simp [endsWithDigit]
  · simp [endsWithDigit]

/-! ## What the guard takes a device for -/

/-- The whole-device name the guard reads out of a name. -/
def nameBase (name : Text) : Text :=
  match partitionHead name with
  | some head => head
  | none => if hasDevicePrefix name then name else name.rdropWhile Char.isDigit

/-- The directory of a device path is kept, and its name reduced. -/
theorem deviceBase_append (dir name : Text) (hdir : dir.getLast? = some '/') (hname : '/' ∉ name) :
    deviceBase (dir ++ name) = dir ++ nameBase name := by
  obtain ⟨front, rfl⟩ := List.getLast?_eq_some_iff.mp hdir
  have hall : ∀ c ∈ name, decide (c ≠ '/') = true := by
    intro c hc
    simp only [ne_eq, decide_not, Bool.not_eq_eq_eq_not, Bool.not_true, decide_eq_false_iff_not]
    rintro rfl
    exact hname hc
  have htake : ((front ++ ['/']) ++ name).rtakeWhile (· ≠ '/') = name := by
    rw [List.append_assoc]
    exact rtakeWhile_append_of_all _ front name '/' (by simp) hall
  have hdrop : ((front ++ ['/']) ++ name).rdropWhile (· ≠ '/') = front ++ ['/'] := by
    rw [rdropWhile_append_of_all _ _ _ hall, List.rdropWhile_concat_neg _ _ _ (by simp)]
  unfold deviceBase nameBase
  simp only [htake, hdrop]
  cases hp : partitionHead name with
  | some head => simp only
  | none =>
    simp only
    split_ifs <;> rfl

/-- A device prefix, which holds no digit, cannot end inside a partition number. -/
theorem isPrefixOf_append_digits (pre name digits : Text) (hpre : ∀ c ∈ pre, c.isDigit = false)
    (hdigits : ∀ c ∈ digits, c.isDigit = true) :
    pre.isPrefixOf (name ++ digits) = pre.isPrefixOf name := by
  rw [Bool.eq_iff_iff, List.isPrefixOf_iff_prefix, List.isPrefixOf_iff_prefix]
  constructor
  · intro h
    rcases List.prefix_or_prefix_of_prefix h (List.prefix_append name digits) with hle | hge
    · exact hle
    · obtain ⟨rest, rfl⟩ := hge
      rw [List.prefix_append_right_inj] at h
      cases rest with
      | nil => simp
      | cons c rest =>
        have hc := hdigits c (h.subset (by simp))
        rw [hpre c (by simp)] at hc
        cases hc
  · exact fun h => h.trans (List.prefix_append _ _)

/-- A partition number after a name does not change whether it starts with a device prefix. -/
theorem hasDevicePrefix_append_natText (name : Text) (n : ℕ) :
    hasDevicePrefix (name ++ natText n) = hasDevicePrefix name := by
  have hd := natText_isDigit n
  unfold hasDevicePrefix
  rw [isPrefixOf_append_digits _ name _ (by decide) hd,
    isPrefixOf_append_digits _ name _ (by decide) hd,
    isPrefixOf_append_digits _ name _ (by decide) hd]

/-- A disk whose name ends in a digit is recovered from every partition. -/
theorem nameBase_partition_of_digit (name : Text) (n : ℕ) (h : endsWithDigit name = true) :
    nameBase (name ++ ['p'] ++ natText n) = name := by
  have hhead : partitionHead (name ++ ['p'] ++ natText n) = some name :=
    (partitionHead_eq_some_iff ..).mpr
      ⟨natText n, by simp, natText_ne_nil n, natText_isDigit n, h⟩
  rw [nameBase, hhead]

/-- It is recovered from itself exactly under a device prefix, and if it does not read as a
partition. -/
theorem nameBase_self_of_digit_iff (name : Text) (h : endsWithDigit name = true) :
    nameBase name = name ↔ hasDevicePrefix name = true ∧ partitionHead name = none := by
  unfold nameBase
  cases hp : partitionHead name with
  | some head =>
    obtain ⟨digits, rfl, -⟩ := (partitionHead_eq_some_iff ..).mp hp
    simp
  | none =>
    cases hasDevicePrefix name with
    | true => simp
    | false =>
      simp only [Bool.false_eq_true, if_false, rdropWhile_isDigit_eq_self_iff, h, false_and,
        Bool.true_eq_false]

/-- A name that does not end in a digit does not read as a partition. -/
theorem partitionHead_of_not_digit (name : Text) (h : endsWithDigit name = false) :
    partitionHead name = none := by
  rw [Option.eq_none_iff_forall_ne_some]
  intro head hp
  obtain ⟨digits, rfl, hne, hdigits, -⟩ := (partitionHead_eq_some_iff ..).mp hp
  obtain ⟨front, c, rfl⟩ := (List.eq_nil_or_concat' digits).resolve_left hne
  have hc := hdigits c (by simp)
  have hassoc : head ++ 'p' :: (front ++ [c]) = (head ++ 'p' :: front) ++ [c] := by simp
  rw [hassoc, endsWithDigit, List.getLast?_concat, Option.any_some, hc] at h
  cases h

/-- A disk whose name does not end in a digit is recovered from itself. -/
theorem nameBase_self_of_not_digit (name : Text) (h : endsWithDigit name = false) :
    nameBase name = name := by
  rw [nameBase, partitionHead_of_not_digit name h]
  simp only
  split_ifs
  · rfl
  · exact (rdropWhile_isDigit_eq_self_iff name).mpr h

/-- It is recovered from a partition exactly when it has no device prefix and does not end in
a digit and a `p`. -/
theorem nameBase_partition_of_not_digit_iff (name : Text) (n : ℕ) (h : endsWithDigit name = false) :
    nameBase (name ++ natText n) = name ↔
      hasDevicePrefix name = false ∧ ∀ head, name = head ++ ['p'] → endsWithDigit head = false := by
  have htrim : (name ++ natText n).rdropWhile Char.isDigit = name := by
    rw [rdropWhile_append_of_all _ _ _ (natText_isDigit n)]
    exact (rdropWhile_isDigit_eq_self_iff name).mpr h
  unfold nameBase
  cases hp : partitionHead (name ++ natText n) with
  | some head =>
    obtain ⟨digits, heq, -, hdigits, hhead⟩ := (partitionHead_eq_some_iff ..).mp hp
    -- Both sides end in digits only; what stands before them is the name on one side.
    have hname : name = head ++ ['p'] := by
      have hassoc : head ++ 'p' :: digits = (head ++ ['p']) ++ digits := by simp
      rw [heq, hassoc, rdropWhile_append_of_all _ _ _ hdigits,
        List.rdropWhile_concat_neg _ _ _ (by decide)] at htrim
      exact htrim.symm
    constructor
    · intro hself
      simp only at hself
      have hlen := congrArg List.length hname
      rw [hself, List.length_append, List.length_singleton] at hlen
      omega
    · rintro ⟨-, hno⟩
      rw [hno head hname] at hhead
      cases hhead
  | none =>
    rw [hasDevicePrefix_append_natText]
    have hno : ∀ head, name = head ++ ['p'] → endsWithDigit head = false := by
      rintro head rfl
      by_contra hdigit
      have hsome : partitionHead (head ++ ['p'] ++ natText n) = some head :=
        (partitionHead_eq_some_iff ..).mpr
          ⟨natText n, by simp, natText_ne_nil n, natText_isDigit n, by simpa using hdigit⟩
      rw [hp] at hsome
      cases hsome
    cases hasDevicePrefix name with
    | true => simp [natText_ne_nil]
    | false => simpa [htrim] using hno

namespace Disk

/-- A recognised disk is what the guard takes its every path for. -/
theorem deviceBase_of_holds (d : Disk) (hrec : d.Recognised) (a : Text) (ha : d.Holds a) :
    deviceBase a = d.path := by
  unfold Recognised at hrec
  rcases ha with rfl | ⟨n, _, rfl⟩
  · rw [path, deviceBase_append d.dir d.name d.dir_slash d.name_slash]
    cases hdigit : endsWithDigit d.name with
    | true =>
      rw [if_pos hdigit] at hrec
      rw [(nameBase_self_of_digit_iff d.name hdigit).mpr hrec]
    | false => rw [nameBase_self_of_not_digit d.name hdigit]
  · rw [partition, deviceBase_append _ _ d.dir_slash (d.partition_slash n), path, separator]
    cases hdigit : endsWithDigit d.name with
    | true => rw [if_pos rfl, nameBase_partition_of_digit d.name n hdigit]
    | false =>
      rw [if_neg (by simp [hdigit])] at hrec
      rw [if_neg Bool.false_ne_true, List.append_nil,
        (nameBase_partition_of_not_digit_iff d.name n hdigit).mpr hrec]

/-- A disk that the guard takes for the same device as its first partition is recognised. -/
theorem recognised_of_deviceBase_eq (d : Disk)
    (h : deviceBase d.path = deviceBase (d.partition 1)) : d.Recognised := by
  rw [path, partition, deviceBase_append d.dir d.name d.dir_slash d.name_slash,
    deviceBase_append _ _ d.dir_slash (d.partition_slash 1), List.append_cancel_left_eq,
    separator] at h
  unfold Recognised
  cases hdigit : endsWithDigit d.name with
  | true =>
    rw [hdigit, if_pos rfl, nameBase_partition_of_digit d.name 1 hdigit] at h
    rw [if_pos rfl]
    exact (nameBase_self_of_digit_iff d.name hdigit).mp h
  | false =>
    rw [hdigit, if_neg Bool.false_ne_true, List.append_nil,
      nameBase_self_of_not_digit d.name hdigit] at h
    rw [if_neg Bool.false_ne_true]
    exact (nameBase_partition_of_not_digit_iff d.name 1 hdigit).mp h.symm

end Disk

/-! ## The guard in the boot sequence -/

/-- The operation does not start the engine. -/
def NotEngine : SysOp → Prop
  | .spawnEngine _ _ => False
  | _ => True

/-- The program ends in an error and never starts the engine, whatever the system answers. -/
def FailsBeforeEngine (p : Boot Unit) : Prop :=
  p.Only NotEngine ∧
    ∀ (σ : Type) (h : Handler SysOp SysOp.Ans σ) (s : σ), ∃ e, (Program.exec h p s).1 = .error e

/-- Making a directory does not start the engine. -/
theorem createDirAllOk_notEngine (path : Text) : (createDirAllOk path).Only NotEngine :=
  ⟨trivial, fun _ => trivial⟩

/-- Asking for a mount does not. -/
theorem isMounted_notEngine (target : Text) : (isMounted target).Only NotEngine := by
  refine Program.only_bind (Program.only_perform _ trivial) fun answer => ?_
  cases answer with
  | ok mounts => trivial
  | error err => trivial

/-- Mounting a pseudo filesystem does not. -/
theorem mountPseudoFilesystem_notEngine (source target fstype : Text) :
    (mountPseudoFilesystem source target fstype).Only NotEngine := by
  refine Program.only_bind (createDirAllOk_notEngine target) fun _ => ?_
  refine Program.only_bind (isMounted_notEngine target) fun mounted => ?_
  split_ifs
  · trivial
  refine Program.only_bind (Program.only_perform _ trivial) fun result => ?_
  match result with
  | .exited true _ _ => trivial
  | .exited false _ _ => exact Program.only_perform _ trivial
  | .notStarted _ => exact Program.only_perform _ trivial

/-- Loading the modules does not. -/
theorem loadModules_notEngine : loadModules.Only NotEngine := by
  refine Program.only_bind (Program.only_forEach fun module => ?_) fun _ => ?_
  · exact Program.only_bind (Program.only_perform _ trivial) fun _ => trivial
  refine Program.only_bind (Program.only_perform _ trivial) fun sysctl => ?_
  -- What follows the optional write to the sysctl.
  extract_lets rest
  have hrest : ∀ r, (rest r).Only NotEngine := by
    intro r
    refine Program.only_bind (Program.only_perform _ trivial) fun control => ?_
    split_ifs
    · exact Program.only_perform _ trivial
    · trivial
  split_ifs
  · exact Program.only_bind (Program.only_perform _ trivial) fun _ => hrest ()
  · exact hrest ()

/-- The boot sequence fails before it starts the engine when the guard refuses. -/
theorem run_failsBeforeEngine (params : BootParams) (err : Text)
    (h : params.checkLocalDisk = .error err) : FailsBeforeEngine (run params) := by
  unfold run
  rw [h]
  constructor
  · refine Program.only_bind (Program.only_perform _ trivial) fun _ => ?_
    refine Program.only_bind (Program.only_forEach fun _ => ?_) fun _ => ?_
    · exact mountPseudoFilesystem_notEngine _ _ _
    · exact Program.only_bind loadModules_notEngine fun _ => trivial
  · intro σ handler s
    refine Program.exec_bind_fails handler _ _ (fun _ s => ?_) s
    refine Program.exec_bind_fails handler _ _ (fun _ s => ?_) s
    exact Program.exec_bind_fails handler _ _ (fun _ s => ⟨_, rfl⟩) s

/-- What the guard is for, on a machine with the given disks: a flow-over onto the disk that
holds the data slab fails before the engine starts, and a flow-over onto another disk is let
through. -/
def GuardProtects (disks : Set Disk) : Prop :=
  ∀ (params : BootParams) (localDisk dataSlab : Text),
    params.localDisk = some localDisk → params.dataSlab = some dataSlab →
      (∀ d ∈ disks, d.Holds localDisk → d.Holds dataSlab →
        (∃ err, params.checkLocalDisk = .error err) ∧ FailsBeforeEngine (run params)) ∧
      (∀ d ∈ disks, ∀ d' ∈ disks, d.path ≠ d'.path → d.Holds localDisk → d'.Holds dataSlab →
        params.checkLocalDisk = .ok ())

/-- The guard's answer for two given devices. -/
theorem checkLocalDisk_of_some (params : BootParams) (localDisk dataSlab : Text)
    (hlocal : params.localDisk = some localDisk) (hdata : params.dataSlab = some dataSlab) :
    (deviceBase localDisk ≠ deviceBase dataSlab → params.checkLocalDisk = .ok ()) ∧
      (deviceBase localDisk = deviceBase dataSlab → ∃ err, params.checkLocalDisk = .error err) := by
  unfold BootParams.checkLocalDisk
  rw [hlocal, hdata]
  constructor
  · intro hne
    simp only [if_neg hne]
  · intro heq
    simp only [if_pos heq]
    exact ⟨_, rfl⟩

/-- The guard protects the data slab exactly on machines whose every disk has a name it
recognises. -/
theorem guardProtects_iff (disks : Set Disk) :
    GuardProtects disks ↔ ∀ d ∈ disks, d.Recognised := by
  constructor
  · intro hprotects d hd
    let params : BootParams := { localDisk := some d.path, dataSlab := some (d.partition 1) }
    obtain ⟨⟨err, herr⟩, -⟩ := (hprotects params d.path (d.partition 1) rfl rfl).1 d hd
      (.inl rfl) (.inr ⟨1, le_refl 1, rfl⟩)
    refine d.recognised_of_deviceBase_eq ?_
    by_contra hne
    rw [(checkLocalDisk_of_some params _ _ rfl rfl).1 hne] at herr
    cases herr
  · intro hrec params localDisk dataSlab hlocal hdata
    have hcheck := checkLocalDisk_of_some params localDisk dataSlab hlocal hdata
    constructor
    · intro d hd hheld hheld'
      have heq : deviceBase localDisk = deviceBase dataSlab := by
        rw [d.deviceBase_of_holds (hrec d hd) _ hheld, d.deviceBase_of_holds (hrec d hd) _ hheld']
      obtain ⟨err, herr⟩ := hcheck.2 heq
      exact ⟨⟨err, herr⟩, run_failsBeforeEngine params err herr⟩
    · intro d hd d' hd' hne hheld hheld'
      refine hcheck.1 ?_
      rwa [d.deviceBase_of_holds (hrec d hd) _ hheld, d'.deviceBase_of_holds (hrec d' hd') _ hheld']

/-- A software RAID array, a whole disk whose name ends in a digit. -/
def raidArray : Disk where
  dir := "/dev/".toList
  name := "md0".toList
  under_dev := by decide
  dir_slash := by decide
  name_ne_nil := by decide
  name_slash := by decide

/-- The guard lets a flow-over onto an array through whose first partition is the data slab. -/
theorem not_guardProtects_raidArray :
    (∃ params : BootParams,
      params.localDisk = some raidArray.path ∧ params.dataSlab = some (raidArray.partition 1) ∧
        params.checkLocalDisk = .ok ()) ∧
      ¬GuardProtects {raidArray} := by
  have hlet : ∀ params : BootParams, params.localDisk = some raidArray.path →
      params.dataSlab = some (raidArray.partition 1) → params.checkLocalDisk = .ok () :=
    fun params hlocal hdata =>
      (checkLocalDisk_of_some params _ _ hlocal hdata).1 (by decide)
  let params : BootParams :=
    { localDisk := some raidArray.path, dataSlab := some (raidArray.partition 1) }
  refine ⟨⟨params, rfl, rfl, hlet params rfl rfl⟩, fun hprotects => ?_⟩
  obtain ⟨⟨err, herr⟩, -⟩ := (hprotects params _ _ rfl rfl).1 raidArray rfl (.inl rfl)
    (.inr ⟨1, le_refl 1, rfl⟩)
  rw [hlet params rfl rfl] at herr
  cases herr

end Stormnetboot.Init

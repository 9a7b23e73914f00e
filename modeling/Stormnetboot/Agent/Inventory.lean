import Mathlib.Data.Char
import Mathlib.Data.List.Lex
import Mathlib.Data.List.Sort
import Stormnetboot.Common.Words

/-!
# What a node says it is made of

A node reads its hardware out of files that the kernel writes, and every reader falls back where
its file says nothing. What is collected is specified here without the readers: the processors and
the memory by the lines of their files, a firmware field by its text without the blanks around it,
and the disks by which devices there are, in whatever order the directory lists them.
-/

namespace Stormnetboot.Agent

open Stormnetboot.Common

/-- What the kernel shows of a node's hardware. -/
structure HardwareFiles where
  /-- `/proc/cpuinfo`, if it can be read. -/
  cpuinfo : Option Text
  /-- `/proc/meminfo`, if it can be read. -/
  meminfo : Option Text
  /-- A file of `/sys/class/dmi/id`, if there is such a file and it can be read. -/
  dmiFile : Text → Option Text
  /-- The entries of `/sys/block` in the order of the directory, if it can be read. -/
  block : Option (List Text)

/-- What the agent reports about its machine. -/
structure Inventory where
  cpus : UInt64
  memoryKb : UInt64
  product : Option Text
  serial : Option Text
  disks : List Text
  deriving DecidableEq, Repr

/-- What firmware that was never programmed reports. -/
def placeholders : List Text :=
  ["To Be Filled By O.E.M.", "System Serial Number", "Default string", "Not Specified",
    "None"].map String.toList

/-- `eq_ignore_ascii_case`. -/
def eqIgnoreAsciiCase (a b : Text) : Bool :=
  toAsciiLowercase a = toAsciiLowercase b

/-- No loop, RAM or ublk device, and no mapping. -/
def isRealDisk (name : Text) : Bool :=
  !"loop".toList.isPrefixOf name && !"ram".toList.isPrefixOf name &&
    !"zram".toList.isPrefixOf name && !"ublk".toList.isPrefixOf name &&
    !"dm-".toList.isPrefixOf name

namespace HardwareFiles

/-- A processor is counted for each line that starts with its word. -/
def countCpus (files : HardwareFiles) : UInt64 :=
  match files.cpuinfo with
  | none => 0
  | some text => UInt64.ofNat ((lines text).countP fun line => "processor".toList.isPrefixOf line)

/-- The word behind the name in the first line of the total memory. -/
def memTotalWord (text : Text) : Option Text :=
  ((lines text).find? fun line => "MemTotal:".toList.isPrefixOf line).bind fun line =>
    (splitWhitespace line)[1]?

/-- The total memory, or 0 where there is none to read. -/
def totalMemoryKb (files : HardwareFiles) : UInt64 :=
  let kb := files.meminfo.bind fun text => (memTotalWord text).bind (parseUnsigned 64)
  UInt64.ofNat (kb.getD 0)

/-- A field of the board's description, without the placeholders vendors leave in it. -/
def dmi (files : HardwareFiles) (field : Text) : Option Text :=
  match files.dmiFile field with
  | none => none
  | some content =>
    let value := trim content
    if value.isEmpty || placeholders.any (eqIgnoreAsciiCase · value) then none else some value

/-- The names of the disks, in order. -/
def blockDevices (files : HardwareFiles) : List Text :=
  match files.block with
  | none => []
  | some entries => (entries.filter isRealDisk).mergeSort fun a b => decide (a ≤ b)

/-- `inventory::collect`. -/
def collect (files : HardwareFiles) : Inventory where
  cpus := files.countCpus
  memoryKb := files.totalMemoryKb
  product := files.dmi "product_name".toList
  serial := files.dmi "product_serial".toList
  disks := files.blockDevices

end HardwareFiles

/-! ## What it should say -/

/-- A text with no blank at either end. -/
def Tight (s : Text) : Prop :=
  (∀ c, s.head? = some c → isWhitespace c = false) ∧ ∀ c, s.getLast? = some c → isWhitespace c = false

/-- A text with nothing but blanks around it. -/
def Padded (s content : Text) : Prop :=
  ∃ before after, content = before ++ s ++ after ∧ (∀ c ∈ before, isWhitespace c = true) ∧
    ∀ c ∈ after, isWhitespace c = true

/-- A text that tells one machine from another. -/
def Telling (s : Text) : Prop :=
  s ≠ [] ∧ ∀ p ∈ placeholders, toAsciiLowercase p ≠ toAsciiLowercase s

/-- A firmware field: what its file holds between blanks, unless that tells nothing. -/
inductive Field (content : Option Text) : Option Text → Prop where
  | told {text s : Text} (hcontent : content = some text) (hpadded : Padded s text)
      (htight : Tight s) (htelling : Telling s) : Field content (some s)
  | untold (h : ∀ text s, content = some text → Padded s text → Tight s → ¬Telling s) :
      Field content none

/-- The memory a file states: a number of 64 bits behind the name, in the first line that starts
with it. -/
def States (meminfo : Option Text) (kb : ℕ) : Prop :=
  ∃ text before line after name number rest, meminfo = some text ∧
    lines text = before ++ line :: after ∧ "MemTotal:".toList <+: line ∧
    (∀ earlier ∈ before, ¬"MemTotal:".toList <+: earlier) ∧
    splitWhitespace line = name :: number :: rest ∧ parseUnsigned 64 number = some kb

/-- The inventory of a node. -/
structure Describes (files : HardwareFiles) (inv : Inventory) : Prop where
  cpus : inv.cpus = UInt64.ofNat (((files.cpuinfo.map lines).getD []).countP
    fun line => "processor".toList.isPrefixOf line)
  memory : ∀ kb, States files.meminfo kb → inv.memoryKb.toNat = kb
  noMemory : (∀ kb, ¬States files.meminfo kb) → inv.memoryKb = 0
  product : Field (files.dmiFile "product_name".toList) inv.product
  serial : Field (files.dmiFile "product_serial".toList) inv.serial
  disks : ∀ name, name ∈ inv.disks ↔
    (∃ entries, files.block = some entries ∧ name ∈ entries) ∧ isRealDisk name = true
  sorted : inv.disks.Pairwise (· < ·)

/-- A directory lists no name twice. -/
def HardwareFiles.NoneTwice (files : HardwareFiles) : Prop :=
  ∀ entries, files.block = some entries → entries.Nodup

/-! ## Firmware fields -/

/-- What stands between blanks is what trimming leaves. -/
theorem trim_of_padded {s content : Text} (hpadded : Padded s content) (htight : Tight s)
    (hne : s ≠ []) : trim content = s := by
  obtain ⟨before, after, rfl, hbefore, hafter⟩ := hpadded
  have hfront : ((before ++ s ++ after).dropWhile isWhitespace) = s ++ after := by
    rw [List.append_assoc, List.dropWhile_append_of_pos hbefore]
    obtain ⟨c, rest, rfl⟩ := List.exists_cons_of_ne_nil hne
    exact List.dropWhile_cons_of_neg (by simp [htight.1 c rfl])
  have hback : (s ++ after).rdropWhile isWhitespace = s.rdropWhile isWhitespace := by
    rw [List.rdropWhile, List.rdropWhile, List.reverse_append, List.dropWhile_append_of_pos]
    exact fun c hc => hafter c (List.mem_reverse.mp hc)
  rw [trim, hfront, hback, List.rdropWhile_eq_self_iff]
  intro hne
  simp [htight.2 _ (List.getLast?_eq_some_getLast hne)]

/-- What trimming leaves stands between blanks. -/
theorem padded_trim (content : Text) : Padded (trim content) content := by
  refine ⟨content.takeWhile isWhitespace,
    (content.dropWhile isWhitespace).rtakeWhile isWhitespace, ?_, ?_, ?_⟩
  · rw [trim, List.append_assoc, List.rdropWhile_append_rtakeWhile, List.takeWhile_append_dropWhile]
  · exact fun c hc => List.mem_takeWhile_imp hc
  · exact fun c hc => List.mem_rtakeWhile_imp hc

/-- A trimmed text has no blanks at its ends. -/
theorem tight_trim (content : Text) : Tight (trim content) :=
  ⟨fun _ h => isWhitespace_of_head?_trim h, fun _ h => isWhitespace_of_getLast?_trim h⟩

/-- A field is read exactly as it should be. -/
theorem field_iff (files : HardwareFiles) (name : Text) (value : Option Text) :
    Field (files.dmiFile name) value ↔ files.dmi name = value := by
  have htelling (s : Text) :
      (s.isEmpty || placeholders.any (eqIgnoreAsciiCase · s)) = false ↔ Telling s := by
    simp [Telling, eqIgnoreAsciiCase]
  have hread (content : Text) (hcontent : files.dmiFile name = some content) :
      files.dmi name = if (trim content).isEmpty || placeholders.any
        (eqIgnoreAsciiCase · (trim content)) then none else some (trim content) := by
    rw [HardwareFiles.dmi, hcontent]
  constructor
  · intro h
    cases h with
    | told hcontent hpadded htight htold =>
      have htrim := trim_of_padded hpadded htight htold.1
      rw [hread _ hcontent, htrim, (htelling _).mpr htold]
      rfl
    | untold hno =>
      cases hcontent : files.dmiFile name with
      | none => rw [HardwareFiles.dmi, hcontent]
      | some content =>
        rw [hread content hcontent, if_pos]
        by_contra htold
        rw [Bool.not_eq_true, htelling] at htold
        exact hno content _ hcontent (padded_trim content) (tight_trim content) htold
  · rintro rfl
    cases hcontent : files.dmiFile name with
    | none =>
      rw [HardwareFiles.dmi, hcontent]
      exact .untold fun text s h => nomatch h
    | some content =>
      rw [hread content hcontent]
      cases htold : (trim content).isEmpty || placeholders.any (eqIgnoreAsciiCase · (trim content))
      · exact .told rfl (padded_trim content) (tight_trim content) ((htelling _).mp htold)
      · refine .untold fun text s htext hpadded htight htells => ?_
        cases htext
        rw [trim_of_padded hpadded htight htells.1, (htelling s).mpr htells] at htold
        cases htold

/-! ## Memory -/

/-- The memory is read exactly where a file states it. -/
theorem states_iff (meminfo : Option Text) (kb : ℕ) : States meminfo kb ↔
    (meminfo.bind fun text => (HardwareFiles.memTotalWord text).bind (parseUnsigned 64)) =
      some kb := by
  have hword (line : Text) (number : Text) : (splitWhitespace line)[1]? = some number ↔
      ∃ name rest, splitWhitespace line = name :: number :: rest := by
    rcases splitWhitespace line with _ | ⟨first, _ | ⟨second, rest⟩⟩ <;> simp
  simp only [States, Option.bind_eq_some_iff, HardwareFiles.memTotalWord, List.find?_eq_some_iff_append,
    List.isPrefixOf_iff_prefix, Bool.not_eq_true', hword]
  constructor
  · rintro ⟨text, before, line, after, name, number, rest, htext, hlines, hline, hbefore, hwords,
      hnumber⟩
    refine ⟨text, htext, number, ⟨line, ⟨hline, before, after, hlines, fun e he => ?_⟩, name, rest,
      hwords⟩, hnumber⟩
    simpa [← List.isPrefixOf_iff_prefix] using hbefore e he
  · rintro ⟨text, htext, number, ⟨line, ⟨hline, before, after, hlines, hbefore⟩, name, rest, hwords⟩,
      hnumber⟩
    refine ⟨text, before, line, after, name, number, rest, htext, hlines, hline, fun e he => ?_,
      hwords, hnumber⟩
    simpa [← List.isPrefixOf_iff_prefix] using hbefore e he

/-- There is one number it states. -/
theorem toNat_totalMemoryKb {files : HardwareFiles} {kb : ℕ} (h : States files.meminfo kb) :
    files.totalMemoryKb.toNat = kb := by
  have hkb := (states_iff files.meminfo kb).mp h
  have hlt : kb < 2 ^ 64 := by
    obtain ⟨text, -, hnumber⟩ := Option.bind_eq_some_iff.mp hkb
    obtain ⟨number, -, hparse⟩ := Option.bind_eq_some_iff.mp hnumber
    exact of_decide_eq_true (Option.filter_eq_some_iff.mp hparse).2
  rw [HardwareFiles.totalMemoryKb, hkb]
  exact UInt64.toNat_ofNat_of_lt' hlt

/-- Where no total is stated the memory is 0. -/
theorem totalMemoryKb_of_none {files : HardwareFiles} (h : ∀ kb, ¬States files.meminfo kb) :
    files.totalMemoryKb = 0 := by
  have hnone : (files.meminfo.bind fun text =>
      (HardwareFiles.memTotalWord text).bind (parseUnsigned 64)) = none :=
    Option.eq_none_iff_forall_ne_some.mpr fun kb hkb => h kb ((states_iff _ _).mpr hkb)
  rw [HardwareFiles.totalMemoryKb, hnone]
  rfl

/-! ## Disks -/

/-- The disks are the entries that name a real one. -/
theorem mem_blockDevices_iff (files : HardwareFiles) (name : Text) : name ∈ files.blockDevices ↔
    (∃ entries, files.block = some entries ∧ name ∈ entries) ∧ isRealDisk name = true := by
  rw [HardwareFiles.blockDevices]
  cases files.block with
  | none => simp
  | some entries => simp

/-- They are listed in order and none twice. -/
theorem pairwise_blockDevices {files : HardwareFiles} (h : files.NoneTwice) :
    files.blockDevices.Pairwise (· < ·) := by
  rw [HardwareFiles.blockDevices]
  cases hblock : files.block with
  | none => exact .nil
  | some entries =>
    have hsorted : ((entries.filter isRealDisk).mergeSort fun a b => decide (a ≤ b)).Pairwise
        fun a b => decide (a ≤ b) = true := by
      refine List.pairwise_mergeSort (fun a b c hab hbc => ?_) (fun a b => ?_) _
      · exact decide_eq_true ((of_decide_eq_true hab).trans (of_decide_eq_true hbc))
      · simpa using le_total a b
    have hnodup : ((entries.filter isRealDisk).mergeSort fun a b => decide (a ≤ b)).Nodup :=
      List.nodup_mergeSort.mpr ((h entries hblock).filter _)
    exact (hsorted.and hnodup).imp fun {a b} ⟨hle, hne⟩ => lt_of_le_of_ne (of_decide_eq_true hle) hne

/-! ## The whole -/

/-- What a node collects is the one inventory that describes it. -/
theorem describes_iff {files : HardwareFiles} (h : files.NoneTwice) (inv : Inventory) :
    Describes files inv ↔ files.collect = inv := by
  constructor
  · intro hdescribes
    have hcpus : files.countCpus = inv.cpus := by
      rw [hdescribes.cpus, HardwareFiles.countCpus]
      cases files.cpuinfo <;> rfl
    have hmemory : files.totalMemoryKb = inv.memoryKb := by
      by_cases hstates : ∃ kb, States files.meminfo kb
      · obtain ⟨kb, hkb⟩ := hstates
        exact UInt64.toNat_inj.mp ((toNat_totalMemoryKb hkb).trans (hdescribes.memory kb hkb).symm)
      · have hnone := not_exists.mp hstates
        rw [totalMemoryKb_of_none hnone, hdescribes.noMemory hnone]
    have hdisks : files.blockDevices = inv.disks := by
      refine (List.Perm.eq_of_pairwise' ((pairwise_blockDevices h).imp le_of_lt)
        (hdescribes.sorted.imp le_of_lt)) ?_
      refine (List.perm_ext_iff_of_nodup ((pairwise_blockDevices h).imp ne_of_lt)
        (hdescribes.sorted.imp ne_of_lt)).mpr fun name => ?_
      rw [mem_blockDevices_iff, hdescribes.disks]
    obtain ⟨cpus, memoryKb, product, serial, disks⟩ := inv
    simp only [HardwareFiles.collect, Inventory.mk.injEq]
    exact ⟨hcpus, hmemory, (field_iff ..).mp hdescribes.product, (field_iff ..).mp hdescribes.serial,
      hdisks⟩
  · rintro rfl
    refine ⟨?_, fun kb => toNat_totalMemoryKb, totalMemoryKb_of_none, (field_iff ..).mpr rfl,
      (field_iff ..).mpr rfl, mem_blockDevices_iff files, pairwise_blockDevices h⟩
    rw [HardwareFiles.collect, HardwareFiles.countCpus]
    cases files.cpuinfo <;> rfl

/-- A node with a placeholder for a serial number, and its devices out of order. -/
def unnumbered : HardwareFiles where
  cpuinfo := some "processor\t: 0\nprocessor\t: 1\n".toList
  meminfo := some "MemTotal:       16384 kB\n".toList
  dmiFile field :=
    if field = "product_name".toList then some "Board 7\n".toList
    else if field = "product_serial".toList then some " DEFAULT STRING\n".toList
    else none
  block := some (["sdb", "loop0", "sda", "ublkb0"].map String.toList)

/-- A machine whose processors are not numbered and whose serial is a placeholder. -/
theorem describes_unnumbered : Describes unnumbered unnumbered.collect ∧
    unnumbered.collect.serial = none ∧ unnumbered.collect.cpus = 2 ∧
      unnumbered.collect.memoryKb = 16384 := by
  refine ⟨(describes_iff (fun entries h => ?_) _).mpr rfl, by decide, by decide,
    by decide⟩
  cases h
  decide

end Stormnetboot.Agent

import Stormnetboot.Common.Placement
import Stormnetboot.Common.Text

/-!
# Where the sections of the boot image stand

The build script adds four sections to the EFI stub: it finds the highest address that a section
of the stub ends at, and stacks the new ones above it at the section alignment. The shell computes
in 64-bit signed numbers, which wrap around. As long as nothing on the way reaches the sign bit
the addresses are those of an ideal placement, so no section overlaps another.
-/

namespace Stormnetboot.Boot

open Stormnetboot.Common

/-- What `objdump` says of the stub: the size and address of each section, and the alignment. -/
structure EfiStub where
  path : Text
  sections : List (ℕ × ℕ)
  sectionAlignment : ℕ
  deriving DecidableEq, Repr

/-- The sizes of the files that become sections. -/
structure SectionFiles where
  osRelease : ℕ
  cmdline : ℕ
  linux : ℕ
  initrd : ℕ
  deriving DecidableEq, Repr

/-- The addresses handed to `objcopy`. -/
structure SectionAddresses where
  osrelVma : Int64
  cmdlineVma : Int64
  linuxVma : Int64
  initrdVma : Int64
  deriving DecidableEq

/-- An address rounded up as the script does it. -/
def align (v a : Int64) : Int64 :=
  (v + a - 1) / a * a

/-- The alignment the script goes by. -/
def sectAlign (stub : EfiStub) : Int64 :=
  let read := Int64.ofNat stub.sectionAlignment
  if read > 0 then read else 0x1000

/-- The highest end of a section, one row after the other. -/
def stubEnd (stub : EfiStub) : Int64 :=
  stub.sections.foldl (fun stubEnd row =>
    let sectionEnd := Int64.ofNat row.1 + Int64.ofNat row.2
    if sectionEnd > stubEnd then sectionEnd else stubEnd) 0

/-- The addresses of the new sections, if the stub's section table could be read. -/
def sectionAddresses (stub : EfiStub) (files : SectionFiles) : Except Text SectionAddresses :=
  if stubEnd stub > 0 then
    let osrelVma := align (stubEnd stub) (sectAlign stub)
    let cmdlineVma := align (osrelVma + Int64.ofNat files.osRelease) (sectAlign stub)
    let linuxVma := align (cmdlineVma + Int64.ofNat files.cmdline) (sectAlign stub)
    let initrdVma := align (linuxVma + Int64.ofNat files.linux) (sectAlign stub)
    .ok {
      osrelVma := osrelVma
      cmdlineVma := cmdlineVma
      linuxVma := linuxVma
      initrdVma := initrdVma }
  else .error ("could not read the section table of ".toList ++ stub.path)

/-! ## The addresses without a bound -/

namespace EfiStub

/-- The highest end of a section. -/
def highest (stub : EfiStub) : ℕ :=
  stub.sections.foldl (fun highest row => max highest (row.1 + row.2)) 0

/-- No sum reaches the sign bit: no end of a section of the stub, and nothing that is rounded up. -/
structure SumsFit (stub : EfiStub) (files : SectionFiles) : Prop where
  sections : ∀ row ∈ stub.sections, row.1 + row.2 < 2 ^ 63
  placed : PlacedBelow (2 ^ 63) stub.sectionAlignment stub.highest
    [files.osRelease, files.cmdline, files.linux, files.initrd]

end EfiStub

/-- The sections of the stub, as addresses and sizes. -/
def EfiStub.blocks (stub : EfiStub) : List (ℤ × ℤ) :=
  stub.sections.map fun row => ((row.2 : ℤ), (row.1 : ℤ))

/-- The new sections, as addresses and sizes. -/
def SectionAddresses.blocks (addresses : SectionAddresses) (files : SectionFiles) : List (ℤ × ℤ) :=
  [(addresses.osrelVma.toInt, files.osRelease), (addresses.cmdlineVma.toInt, files.cmdline),
    (addresses.linuxVma.toInt, files.linux), (addresses.initrdVma.toInt, files.initrd)]

/-- The address is one of the section's. -/
def Covers (block : ℤ × ℤ) (address : ℤ) : Prop :=
  block.1 ≤ address ∧ address < block.1 + block.2

/-- No address is one of both sections. -/
def Clear (x y : ℤ × ℤ) : Prop :=
  ∀ address, ¬(Covers x address ∧ Covers y address)

/-- The new sections are aligned, and none of them overlaps any other section: each starts where
every section of the stub and every new one before it has ended. -/
structure Apart (stub : EfiStub) (files : SectionFiles) (addresses : SectionAddresses) : Prop where
  aligned : ∀ new ∈ addresses.blocks files, (stub.sectionAlignment : ℤ) ∣ new.1
  aboveStub : ∀ new ∈ addresses.blocks files, ∀ old ∈ stub.blocks, old.1 + old.2 ≤ new.1
  stacked : (addresses.blocks files).Pairwise fun x y => x.1 + x.2 ≤ y.1
  clearOfStub : ∀ new ∈ addresses.blocks files, ∀ old ∈ stub.blocks, Clear old new
  clearOfEachOther : (addresses.blocks files).Pairwise Clear

/-- A section that ends where another starts does not overlap it. -/
theorem clear_of_le {x y : ℤ × ℤ} (h : x.1 + x.2 ≤ y.1) : Clear x y := by
  rintro address ⟨⟨-, hbefore⟩, ⟨hafter, -⟩⟩
  omega

/-- Rounding up in the shell is rounding up, where the sum does not wrap. -/
theorem align_ofNat {v a : ℕ} (hpos : 0 < a) (ha : a < 2 ^ 63) (hsum : v + a - 1 < 2 ^ 63) :
    align (Int64.ofNat v) (Int64.ofNat a) = Int64.ofNat (roundUp a v) := by
  have hadd : Int64.ofNat v + Int64.ofNat a - 1 = Int64.ofNat (v + a - 1) := by
    rw [Int64.ofNat_sub _ _ (by omega), Int64.ofNat_add]
    rfl
  rw [align, hadd, ← Int64.ofNat_div hsum ha, ← Int64.ofNat_mul, roundUp]

/-- The highest end is reached by going on from where some rows have left it. -/
theorem le_foldl_highest (rows : List (ℕ × ℕ)) (start : ℕ) :
    start ≤ rows.foldl (fun highest row => max highest (row.1 + row.2)) start ∧
      ∀ row ∈ rows, row.1 + row.2 ≤
        rows.foldl (fun highest row => max highest (row.1 + row.2)) start := by
  induction rows generalizing start with
  | nil => exact ⟨le_rfl, nofun⟩
  | cons row rest ih =>
    obtain ⟨hstart, hrows⟩ := ih (max start (row.1 + row.2))
    rw [List.foldl_cons]
    refine ⟨(le_max_left ..).trans hstart, fun row' hrow' => ?_⟩
    rcases List.mem_cons.mp hrow' with rfl | hrow'
    · exact (le_max_right ..).trans hstart
    · exact hrows row' hrow'

/-- If no row ends above a bound, neither does the highest. -/
theorem foldl_highest_le {rows : List (ℕ × ℕ)} {start bound : ℕ} (hstart : start ≤ bound)
    (hrows : ∀ row ∈ rows, row.1 + row.2 ≤ bound) :
    rows.foldl (fun highest row => max highest (row.1 + row.2)) start ≤ bound := by
  induction rows generalizing start with
  | nil => exact hstart
  | cons row rest ih =>
    rw [List.foldl_cons]
    exact ih (max_le hstart (hrows row List.mem_cons_self))
      fun row hrow => hrows row (List.mem_cons_of_mem _ hrow)

/-- Row by row the shell has the highest end so far. -/
theorem foldl_stubEnd (rows : List (ℕ × ℕ)) (hrows : ∀ row ∈ rows, row.1 + row.2 < 2 ^ 63)
    {start : ℕ} (hstart : start < 2 ^ 63) :
    rows.foldl (fun stubEnd row =>
      let sectionEnd := Int64.ofNat row.1 + Int64.ofNat row.2
      if sectionEnd > stubEnd then sectionEnd else stubEnd) (Int64.ofNat start) =
        Int64.ofNat (rows.foldl (fun highest row => max highest (row.1 + row.2)) start) ∧
      rows.foldl (fun highest row => max highest (row.1 + row.2)) start < 2 ^ 63 := by
  induction rows generalizing start with
  | nil => exact ⟨rfl, hstart⟩
  | cons row rest ih =>
    have hrow := hrows row List.mem_cons_self
    have hstep : (if Int64.ofNat row.1 + Int64.ofNat row.2 > Int64.ofNat start then
        Int64.ofNat row.1 + Int64.ofNat row.2 else Int64.ofNat start) =
          Int64.ofNat (max start (row.1 + row.2)) := by
      have hlt := Int64.ofNat_lt_iff_lt hstart hrow
      rw [← Int64.ofNat_add]
      split_ifs with hgt
      · rw [max_eq_right (hlt.mp hgt).le]
      · rw [max_eq_left (not_lt.mp fun h => hgt (hlt.mpr h))]
    rw [List.foldl_cons, List.foldl_cons]
    simp only [hstep]
    exact ih (fun row hrow => hrows row (List.mem_cons_of_mem _ hrow)) (max_lt hstart hrow)

section Ideal

variable {stub : EfiStub} {files : SectionFiles}

/-- Where nothing overflows the script computes the end of the stub. -/
theorem stubEnd_eq (h : stub.SumsFit files) :
    stubEnd stub = Int64.ofNat stub.highest ∧ stub.highest < 2 ^ 63 :=
  foldl_stubEnd stub.sections h.sections (by decide)

/-- The script goes on exactly where some section of the stub ends above zero. -/
theorem stubEnd_pos_iff (h : stub.SumsFit files) : stubEnd stub > 0 ↔ 0 < stub.highest := by
  obtain ⟨hend, hlt⟩ := stubEnd_eq h
  rw [hend]
  exact Int64.ofNat_lt_iff_lt (by decide) hlt

/-- An alignment that fits is the one the script goes by. -/
theorem sectAlign_eq (hpos : 0 < stub.sectionAlignment) (hlt : stub.sectionAlignment < 2 ^ 63) :
    sectAlign stub = Int64.ofNat stub.sectionAlignment := by
  have hgt : Int64.ofNat stub.sectionAlignment > 0 :=
    (Int64.ofNat_lt_iff_lt (by decide) hlt).mpr hpos
  simp only [sectAlign, if_pos hgt]

/-- What the script rounds up after it has placed a section. -/
theorem align_add_ofNat {v size a : ℕ} (hpos : 0 < a) (ha : a < 2 ^ 63)
    (hsum : v + size + a - 1 < 2 ^ 63) :
    align (Int64.ofNat v + Int64.ofNat size) (Int64.ofNat a) = Int64.ofNat (roundUp a (v + size)) := by
  rw [← Int64.ofNat_add, align_ofNat hpos ha hsum]

/-- The addresses are those of the ideal placement. -/
theorem blocks_eq_placed (hpos : 0 < stub.sectionAlignment) (h : stub.SumsFit files)
    {addresses : SectionAddresses} (haddresses : sectionAddresses stub files = .ok addresses) :
    addresses.blocks files = (placed stub.sectionAlignment stub.highest
      [files.osRelease, files.cmdline, files.linux, files.initrd]).map
        fun block => ((block.1 : ℤ), (block.2 : ℤ)) := by
  obtain ⟨hosrel, hcmdline, hlinux, hinitrd, -⟩ := h.placed
  unfold sectionAddresses at haddresses
  split_ifs at haddresses with hend
  have hstart := (stubEnd_pos_iff h).mp hend
  have ha : stub.sectionAlignment < 2 ^ 63 := by omega
  obtain rfl := Except.ok.inj haddresses
  have htoInt (v : ℕ) (hsum : v + stub.sectionAlignment - 1 < 2 ^ 63) :
      (Int64.ofNat (roundUp stub.sectionAlignment v)).toInt = roundUp stub.sectionAlignment v :=
    Int64.toInt_ofNat_of_lt ((roundUp_le ..).trans_lt hsum)
  simp only [SectionAddresses.blocks, (stubEnd_eq h).1, sectAlign_eq hpos ha,
    align_ofNat hpos ha hosrel, align_add_ofNat hpos ha hcmdline, align_add_ofNat hpos ha hlinux,
    align_add_ofNat hpos ha hinitrd, htoInt _ hosrel, htoInt _ hcmdline, htoInt _ hlinux,
    htoInt _ hinitrd]
  rfl

/-- The highest end is above zero where a section ends above it. -/
theorem highest_pos_iff : 0 < stub.highest ↔ ∃ row ∈ stub.sections, 0 < row.1 + row.2 := by
  constructor
  · intro hpos
    by_contra hnone
    have hzero : stub.highest ≤ 0 :=
      foldl_highest_le le_rfl fun row hrow => not_lt.mp fun hlt => hnone ⟨row, hrow, hlt⟩
    omega
  · rintro ⟨row, hrow, hlt⟩
    exact hlt.trans_le ((le_foldl_highest stub.sections 0).2 row hrow)

/-- There are addresses exactly for a stub some section of which ends above zero. -/
theorem exists_sectionAddresses_iff (h : stub.SumsFit files) :
    (∃ addresses, sectionAddresses stub files = .ok addresses) ↔
      ∃ row ∈ stub.sections, 0 < row.1 + row.2 := by
  rw [← highest_pos_iff, ← stubEnd_pos_iff h]
  unfold sectionAddresses
  split_ifs with hend
  · exact iff_of_true ⟨_, rfl⟩ hend
  · exact iff_of_false nofun hend

/-- Every new section starts where the stub has ended. -/
theorem blocks_aboveStub (hpos : 0 < stub.sectionAlignment) (h : stub.SumsFit files)
    {addresses : SectionAddresses} (haddresses : sectionAddresses stub files = .ok addresses) :
    ∀ new ∈ addresses.blocks files, ∀ old ∈ stub.blocks, old.1 + old.2 ≤ new.1 := by
  intro new hnew old hold
  rw [blocks_eq_placed hpos h haddresses] at hnew
  obtain ⟨block, hblock, rfl⟩ := List.mem_map.mp hnew
  obtain ⟨row, hrow, rfl⟩ := List.mem_map.mp hold
  have hle : row.2 + row.1 ≤ block.1 := calc
    row.2 + row.1 = row.1 + row.2 := Nat.add_comm ..
    _ ≤ stub.highest := (le_foldl_highest stub.sections 0).2 row hrow
    _ ≤ block.1 := le_of_mem_placed hpos hblock
  show (row.2 : ℤ) + row.1 ≤ block.1
  exact_mod_cast hle

/-- And where the new section before it has. -/
theorem blocks_stacked (hpos : 0 < stub.sectionAlignment) (h : stub.SumsFit files)
    {addresses : SectionAddresses} (haddresses : sectionAddresses stub files = .ok addresses) :
    (addresses.blocks files).Pairwise fun x y => x.1 + x.2 ≤ y.1 := by
  rw [blocks_eq_placed hpos h haddresses]
  refine List.pairwise_map.mpr ((pairwise_placed hpos ..).imp fun {x y} hle => ?_)
  show (x.1 : ℤ) + x.2 ≤ y.1
  exact_mod_cast hle

end Ideal

/-- The script has addresses exactly for a stub some section of which ends above zero, and the new
sections then stand apart from each other and from every section of the stub. -/
theorem sections_apart (stub : EfiStub) (files : SectionFiles) (hpos : 0 < stub.sectionAlignment)
    (h : stub.SumsFit files) :
    ((∃ addresses, sectionAddresses stub files = .ok addresses) ↔
        ∃ row ∈ stub.sections, 0 < row.1 + row.2) ∧
      ∀ addresses, sectionAddresses stub files = .ok addresses → Apart stub files addresses := by
  refine ⟨exists_sectionAddresses_iff h, fun addresses haddresses => ?_⟩
  have habove := blocks_aboveStub hpos h haddresses
  have hstacked := blocks_stacked hpos h haddresses
  refine ⟨fun new hnew => ?_, habove, hstacked, ?_, hstacked.imp clear_of_le⟩
  · rw [blocks_eq_placed hpos h haddresses] at hnew
    obtain ⟨block, hblock, rfl⟩ := List.mem_map.mp hnew
    exact Int.natCast_dvd_natCast.mpr (dvd_of_mem_placed hblock)
  · exact fun new hnew old hold => clear_of_le (habove new hnew old hold)

/-- A stub like the one of systemd, whose image base is far from zero. -/
def systemdStub : EfiStub where
  path := "/usr/lib/systemd/boot/efi/linuxx64.efi.stub".toList
  sections := [(0x11a96, 0x14df91000), (0x8, 0x14dfb0000), (0x32f0, 0x14dfa3000)]
  sectionAlignment := 0x1000

/-- A kernel of 15 MiB and an initramfs of 60 MiB. -/
def someFiles : SectionFiles where
  osRelease := 120
  cmdline := 400
  linux := 0xf00000
  initrd := 0x3c00000

/-- Its new sections have addresses, and stand apart. -/
theorem sections_apart_systemd : ∃ addresses,
    sectionAddresses systemdStub someFiles = .ok addresses ∧
      Apart systemdStub someFiles addresses := by
  obtain ⟨hread, hapart⟩ := sections_apart systemdStub someFiles (by decide)
    ⟨by decide, by decide, by decide, by decide, by decide, trivial⟩
  obtain ⟨addresses, haddresses⟩ := hread.mpr ⟨_, List.mem_cons_self, by decide⟩
  exact ⟨addresses, haddresses, hapart addresses haddresses⟩

end Stormnetboot.Boot

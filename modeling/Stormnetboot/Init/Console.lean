import Mathlib.Data.List.Nodup
import Stormnetboot.Init.BootOps
import Stormnetboot.Init.StepEnds

/-!
# The operator's console

The failure path opens `/dev/console`, writes `/dev/kmsg` and hands out a shell that needs
`/proc` and `/run`. The mounts are followed through a run next to whatever else the system does,
by what each successful `mount` and `umount` does to them. Nothing before the handover takes a
mount of the console away; the handover moves them before it can fail.
-/

namespace Stormnetboot.Init

open Stormnetboot.Common

/-! ## Mounts -/

/-- The mount points. A place that is mounted on twice is listed twice. -/
abbrev MountTable := List Text

/-- What a command does to the mounts when it succeeds. -/
def mountEffect (argv : List Text) (table : MountTable) : MountTable :=
  if argv.take 2 = words ["/bin/mount", "--move"] then
    match argv.drop 2 with
    | [source, target] => target :: table.erase source
    | _ => table
  else if argv.head? = some "/bin/mount".toList then argv.getLast?.toList ++ table
  else if argv.head? = some "/bin/umount".toList then
    match argv.tail with
    | [target] => table.erase target
    | _ => table
  else table

/-- The mounts after an operation and its answer. -/
def mountsAfter : (op : SysOp) → op.Ans → MountTable → MountTable
  | .command argv _, result, table =>
    if CommandResult.succeeded result then mountEffect argv table else table
  | _, _, table => table

section

variable {σ : Type} (h : Handler SysOp SysOp.Ans σ)

/-- Any system, with its mounts beside it. -/
def withMounts : Handler SysOp SysOp.Ans (σ × MountTable) :=
  fun op state => ((h op state.1).1, (h op state.1).2, mountsAfter op (h op state.1).1 state.2)

/-- The mounts after the pseudo-filesystems have been mounted as far as they can be. -/
def mountedAtStart (s : σ) (table : MountTable) : MountTable :=
  (Program.exec (withMounts h) (do
    stamp "stormnetboot-init starting".toList
    mountPseudoFilesystems : Boot Unit) (s, table)).2.2

/-- A run that returns an error leaves the console's mounts where they were. -/
def KeepsConsole (params : BootParams) (s : σ) (table : MountTable) : Prop :=
  ∀ message, (Program.exec (withMounts h) (run params) (s, table)).1 = .error (.error message) →
    ∀ point ∈ consolePoints, point ∈ mountedAtStart h s table →
      point ∈ (Program.exec (withMounts h) (run params) (s, table)).2.2

/-- The places the handover moves, in its order. -/
def handoverPoints : List Text :=
  words ["/proc", "/sys", "/dev", "/run"]

/-- The places whose move succeeds. -/
def movedPoints : List Text → σ → List Text
  | [], _ => []
  | point :: rest, s =>
    let (result, t) := h (.command (words ["/bin/mount", "--move"] ++ [point, sysroot ++ point]) [])
      (h (.createDirAll (sysroot ++ point)) s).2
    if CommandResult.succeeded result then point :: movedPoints rest t else movedPoints rest t

/-- A command that takes nothing away from the console leaves its mounts. -/
theorem mem_mountEffect {argv : List Text} {table : MountTable} {point : Text}
    (hargv : LeavesConsole argv) (hpoint : point ∈ consolePoints) (hmem : point ∈ table) :
    point ∈ mountEffect argv table := by
  obtain ⟨hmove, humount⟩ := hargv point hpoint
  unfold mountEffect
  split_ifs with hisMove hisMount hisUmount
  · split
    · rename_i source target hdrop
      have hne : point ≠ source := by
        rintro rfl
        refine hmove target ?_
        rw [← hisMove, ← hdrop, List.take_append_drop]
      exact List.mem_cons_of_mem _ ((List.mem_erase_of_ne hne).mpr hmem)
    · exact hmem
  · exact List.mem_append_right _ hmem
  · split
    · rename_i target htail
      have hne : point ≠ target := by
        rintro rfl
        refine humount ?_
        rw [List.head?_eq_some_iff] at hisUmount
        obtain ⟨rest, rfl⟩ := hisUmount
        exact congrArg _ htail
      exact (List.mem_erase_of_ne hne).mpr hmem
    · exact hmem
  · exact hmem

/-- So does any operation before the handover. -/
theorem mem_mountsAfter {op : SysOp} (hop : BootOp op) (answer : op.Ans) {table : MountTable}
    {point : Text} (hpoint : point ∈ consolePoints) (hmem : point ∈ table) :
    point ∈ mountsAfter op answer table := by
  cases op with
  | command argv env =>
    show point ∈ if CommandResult.succeeded answer then mountEffect argv table else table
    split_ifs
    · exact mem_mountEffect hop hpoint hmem
    · exact hmem
  | _ => exact hmem

/-- And any number of them. -/
theorem mem_of_bootOps {α : Type} {p : Boot α} (hp : p.Only BootOp) (state : σ × MountTable)
    {point : Text} (hpoint : point ∈ consolePoints) (hmem : point ∈ state.2) :
    point ∈ (Program.exec (withMounts h) p state).2.2 :=
  hp.exec_keeps (fun state : σ × MountTable => point ∈ state.2)
    (fun _ _ hop hmem => mem_mountsAfter hop _ hpoint hmem) hmem

/-! ## The handover -/

/-- One mount of the handover. -/
def moveMount (point : Text) : Boot Unit := do
  createDirAllOk (sysroot ++ point)
  let _ ← runCommand (words ["/bin/mount", "--move"] ++ [point, sysroot ++ point])
  .done ()

/-- What is left of the handover once the mounts are moved. -/
def enterRoot : Boot Unit := do
  match ← findInit (words ["/sbin/init", "/usr/lib/systemd/systemd"]) with
  | none => bail "no init found in the new root".toList
  | some init =>
    stamp ("switch_root into ".toList ++ init)
    let err : Text ← Program.perform (SysOp.execReplace ["/sbin/switch_root".toList, sysroot, init])
    bail ("switch_root failed: ".toList ++ err)

/-- A move that fails is not looked at. -/
theorem moveMount_succeeds (point : Text) : (moveMount point).Succeeds :=
  (createDirAllOk_succeeds _).ends_bind fun _ =>
    (runCommand_succeeds _).ends_bind fun _ => ⟨(), rfl⟩

/-- The handover moves the mounts and enters the root. -/
theorem switchRoot_eq :
    switchRoot = Program.forEach handoverPoints moveMount >>= fun _ => enterRoot :=
  rfl

/-- Moving the mounts takes one mount off each place whose move succeeds, and off no other. -/
theorem count_moveMount (point : Text) (hpoint : ∀ other, sysroot ++ other ≠ point)
    (points : List Text) (s : σ) (table : MountTable) :
    (Program.exec (withMounts h) (Program.forEach points moveMount) (s, table)).2.2.count point =
      table.count point - (movedPoints h points s).count point := by
  induction points generalizing s table with
  | nil => rfl
  | cons first rest ih =>
    have hfirst : Program.exec (withMounts h) (Program.forEach (first :: rest) moveMount) (s, table) =
        Program.exec (withMounts h) (Program.forEach rest moveMount)
          ((h (.command (words ["/bin/mount", "--move"] ++ [first, sysroot ++ first]) [])
            (h (.createDirAll (sysroot ++ first)) s).2).2,
          if CommandResult.succeeded
              (h (.command (words ["/bin/mount", "--move"] ++ [first, sysroot ++ first]) [])
                (h (.createDirAll (sysroot ++ first)) s).2).1 then
            (sysroot ++ first) :: table.erase first else table) :=
      rfl
    rw [hfirst, ih, movedPoints]
    simp only
    split_ifs
    · rw [List.count_cons_of_ne (hpoint first), List.count_erase, List.count_cons, Nat.sub_sub,
        Nat.add_comm]
    · rfl

/-- Only listed mounts are moved, each once and in order. -/
theorem movedPoints_sublist (points : List Text) (s : σ) :
    (movedPoints h points s).Sublist points := by
  induction points generalizing s with
  | nil => exact .slnil
  | cons point rest ih =>
    rw [movedPoints]
    simp only
    split_ifs
    · exact (ih _).cons_cons point
    · exact (ih _).cons point

/-- The rest of the handover runs no command. -/
theorem findInit_only (candidates : List Text) :
    (findInit candidates).Only fun op => ∀ argv env, op ≠ .command argv env := by
  induction candidates with
  | nil => trivial
  | cons candidate rest ih =>
    refine Program.only_bind (Program.only_perform _ fun _ _ heq => by cases heq) fun present => ?_
    split_ifs
    · trivial
    · exact ih

/-- Entering the root takes no command. -/
theorem enterRoot_only : enterRoot.Only fun op => ∀ argv env, op ≠ .command argv env := by
  refine Program.only_bind (findInit_only _) fun init => ?_
  cases init with
  | none => trivial
  | some init =>
    refine Program.only_bind (Program.only_perform _ fun _ _ heq => by cases heq) fun _ => ?_
    exact Program.only_bind (Program.only_perform _ fun _ _ heq => by cases heq) fun _ => trivial

/-- So it moves no mount. -/
theorem mounts_enterRoot (state : σ × MountTable) :
    (Program.exec (withMounts h) enterRoot state).2.2 = state.2 := by
  refine enterRoot_only.exec_keeps (fun state' : σ × MountTable => state'.2 = state.2)
    (fun op state' hop hsame => ?_) rfl
  cases op with
  | command argv env => exact absurd rfl (hop argv env)
  | _ => exact hsame

/-- It returns only with an error. -/
theorem enterRoot_fails : enterRoot.Ends fun r => ∃ message, r = .error (.error message) := by
  refine (findInit_succeeds _).ends_bind fun init => ?_
  cases init with
  | none => exact ⟨_, rfl⟩
  | some init => exact fun _ err => ⟨_, rfl⟩

/-- The handover returns only with an error. -/
theorem switchRoot_fails : switchRoot.Ends fun r => ∃ message, r = .error (.error message) := by
  rw [switchRoot_eq]
  exact (forEach_succeeds _ moveMount_succeeds).ends_bind fun _ => enterRoot_fails

/-- A place of the console stays mounted through the handover unless its only mount is moved. -/
theorem mem_switchRoot_iff {point : Text} (hpoint : point ∈ consolePoints) (t : σ)
    {table : MountTable} (hmem : point ∈ table) :
    point ∈ (Program.exec (withMounts h) switchRoot (t, table)).2.2 ↔
      (point ∈ movedPoints h handoverPoints t → 2 ≤ table.count point) := by
  have htarget : ∀ other, sysroot ++ other ≠ point := by
    have hprefix : ∀ point ∈ consolePoints, ¬sysroot <+: point := by decide
    exact fun other heq => hprefix point hpoint ⟨other, heq⟩
  obtain ⟨_, hmoves⟩ :=
    (forEach_succeeds handoverPoints moveMount_succeeds).exec (withMounts h) (t, table)
  have hcount := count_moveMount h point htarget handoverPoints t table
  have honce : (movedPoints h handoverPoints t).count point ≤ 1 :=
    List.nodup_iff_count_le_one.mp
      ((movedPoints_sublist h handoverPoints t).nodup (by decide)) point
  rw [switchRoot_eq, Program.exec_bind, hmoves]
  simp only
  rw [mounts_enterRoot, ← List.count_pos_iff, hcount]
  rw [← List.count_pos_iff] at hmem
  rw [← List.count_pos_iff (l := movedPoints h handoverPoints t)]
  omega

/-- What is mounted at the start is mounted when the handover begins, or the run ends before. -/
theorem mem_beforeHandover (params : BootParams) (s : σ) (table : MountTable) {point : Text}
    (hpoint : point ∈ consolePoints) (hmounted : point ∈ mountedAtStart h s table) :
    point ∈ (Program.exec (withMounts h) (beforeHandover params) (s, table)).2.2 := by
  have hsplit : beforeHandover params = (stamp "stormnetboot-init starting".toList >>= fun _ =>
      mountPseudoFilesystems) >>= fun _ => loadModules >>= fun _ =>
        orFail params.checkLocalDisk >>= fun _ => rootSource params (bringUpNetwork params) >>=
          fun _ => attachRoot params >>= fun _ => prepareRoot params := by
    rw [beforeHandover, earlySteps_eq]
    simp only [Program.bind_assoc]
  have hsucceeds : (stamp "stormnetboot-init starting".toList >>= fun _ =>
      mountPseudoFilesystems).Succeeds :=
    (stamp_succeeds _).ends_bind fun _ => mountPseudoFilesystems_succeeds
  obtain ⟨_, hstart⟩ := hsucceeds.exec (withMounts h) (s, table)
  rw [hsplit, Program.exec_bind, hstart]
  refine mem_of_bootOps h (Program.only_bind loadModules_bootOp fun _ => ?_) _ hpoint hmounted
  refine Program.only_bind ?_ fun _ => Program.only_bind (rootSource_bootOp params) fun _ =>
    Program.only_bind (attachRoot_bootOp params) fun _ => prepareRoot_bootOp params
  cases params.checkLocalDisk with
  | error err => trivial
  | ok _ => trivial

/-- A run keeps the console's mounts exactly when it fails before the handover, or each of them
that was mounted is not moved or has another mount under it. -/
theorem keepsConsole_iff (params : BootParams) (s : σ) (table : MountTable) :
    KeepsConsole h params s table ↔
      ∀ t mounts,
        Program.exec (withMounts h) (beforeHandover params) (s, table) = (.ok (), (t, mounts)) →
          ∀ point ∈ consolePoints, point ∈ mountedAtStart h s table →
            point ∈ movedPoints h handoverPoints t → 2 ≤ mounts.count point := by
  have hkept : ∀ point ∈ consolePoints, point ∈ mountedAtStart h s table →
      point ∈ (Program.exec (withMounts h) (beforeHandover params) (s, table)).2.2 :=
    fun point => mem_beforeHandover h params s table
  unfold KeepsConsole
  rw [run_eq_beforeHandover, Program.exec_bind]
  rcases hbefore : Program.exec (withMounts h) (beforeHandover params) (s, table) with
    ⟨e | _, t, mounts⟩
  · rw [hbefore] at hkept
    constructor
    · intro _ t' mounts' heq
      cases heq
    · exact fun _ _ _ => hkept
  · rw [hbefore] at hkept
    constructor
    · intro hconsole t' mounts' heq point hpoint hmounted
      cases heq
      obtain ⟨message, hmessage⟩ := switchRoot_fails.exec (withMounts h) (t, mounts)
      exact (mem_switchRoot_iff h hpoint t (hkept point hpoint hmounted)).mp
        (hconsole message hmessage point hpoint hmounted)
    · intro hmoves message _ point hpoint hmounted
      exact (mem_switchRoot_iff h hpoint t (hkept point hpoint hmounted)).mpr
        (hmoves t mounts rfl point hpoint hmounted)

end

/-! ## A root without an init -/

/-- A local boot. -/
def localNode : BootParams where
  slabs := ["/dev/sda".toList]

/-- A system on which every step succeeds, up to a new root that holds no init. -/
def rootWithoutInit : Handler SysOp SysOp.Ans Unit
  | .pathExists _, _ => (false, ())
  | .readDir _, _ => (none, ())
  | .command _ _, _ => (.exited true "exit status: 0".toList [], ())
  | .readFile _, _ => (.error "No such file or directory".toList, ())
  | .createDirAll _, _ => (.ok (), ())
  | .writeFile _ _, _ => (.ok (), ())
  | .appendLine _ _, _ => (.appended, ())
  | .copyFile _ _, _ => (.ok (), ())
  | .rename _ _, _ => (.ok (), ())
  | .syncFile _, _ => (.ok (), ())
  | .spawnEngine _ _, _ => (.ok (), ())
  | .waitFor _ _, _ => (true, ())
  | .execReplace _, _ => ([], ())
  | .stamp _, _ => ((), ())
  | .warn _, _ => ((), ())
  | .report _ _, _ => ((), ())
  | .killEngine, _ => ((), ())

/-- The run returns an error with the console's mounts gone from their places. -/
theorem not_keepsConsole_rootWithoutInit :
    (Program.exec (withMounts rootWithoutInit) (run localNode) ((), [])).1 =
        .error (.error "no init found in the new root".toList) ∧
      (∀ point ∈ consolePoints, point ∈ mountedAtStart rootWithoutInit () []) ∧
      ¬KeepsConsole rootWithoutInit localNode () [] := by
  have hstart : mountedAtStart rootWithoutInit () [] = words ["/run", "/dev", "/sys", "/proc"] := rfl
  have hend : (Program.exec (withMounts rootWithoutInit) (run localNode) ((), [])).2.2 =
      words ["/sysroot/run", "/sysroot/dev", "/sysroot/sys", "/sysroot/proc", "/sysroot"] := rfl
  refine ⟨rfl, by rw [hstart]; decide, fun hkeeps => ?_⟩
  have hdev := hkeeps _ rfl "/dev".toList (by decide) (by rw [hstart]; decide)
  rw [hend] at hdev
  exact absurd hdev (by decide)

end Stormnetboot.Init

import Stormnetboot.Boot.KernelLine
import Stormnetboot.Common.Lines
import Stormnetboot.Server.BootScript

/-!
# What the identity of a host can change

A host's name and role go into the script as they are, into its greeting and onto its kernel
line. Whatever stands behind whitespace in them is read as words of its own, by iPXE and by the
initramfs, and may be a command, a setting or a target for the flow-over. Two identities boot
the same way when they are one line each and bring the same stray words.
-/

namespace Stormnetboot.Boot

open Stormnetboot.Common Stormnetboot.Init Stormnetboot.Server

/-- What a record says of who the machine is. -/
structure Identity where
  name : Text
  role : Option Text
  deriving DecidableEq

namespace Identity

/-- A record with this identity. -/
def give (who : Identity) (record : HostRecord) : HostRecord :=
  { record with name := who.name, role := who.role }

/-- The identity breaks no line. -/
def OneLine (who : Identity) : Prop :=
  '\n' ∉ who.name ∧ ∀ role ∈ who.role, '\n' ∉ role

/-- Whether an identity keeps to one line is decided on its values. -/
instance (who : Identity) : Decidable who.OneLine :=
  inferInstanceAs (Decidable ('\n' ∉ who.name ∧ ∀ role ∈ who.role, '\n' ∉ role))

/-- Its two settings. -/
def pieces (who : Identity) : List Piece :=
  setting "storm.hostname" who.name :: optional "storm.role" who.role

/-- The words behind the first in its name and in its role. -/
def strays (space : Char → Bool) (who : Identity) : List Text :=
  who.pieces.flatMap (Piece.strays space)

end Identity

/-- The plan of a host with this identity. -/
def identified (plan : BootPlan) (record : HostRecord) (who : Identity) : BootPlan :=
  { plan with record := some (who.give record) }

/-! ## What is read of a script -/

/-- `isspace`, which splits the words of an iPXE command. -/
def isAsciiSpace (c : Char) : Bool :=
  (0x09 ≤ c.toNat && c.toNat ≤ 0x0D) || c.toNat == 0x20

/-- The line says something and is no comment. -/
def isCommand : List Text → Bool
  | [] => false
  | word :: _ => word.head? ≠ some '#'

/-- The commands of an iPXE script, as the words of its lines, with variables as they stand. -/
def commands (script : Text) : List (List Text) :=
  ((script.splitOn '\n').map (wordsBy isAsciiSpace)).filter isCommand

/-- The two tokens of the identity. -/
def isIdentity (word : Text) : Bool :=
  "storm.hostname=".toList.isPrefixOf word || "storm.role=".toList.isPrefixOf word

/-- The words without the tokens of the identity. -/
def anonymous (words : List Text) : List Text :=
  words.filter fun word => !isIdentity word

/-- The parameters without the identity. -/
def forget (p : BootParams) : BootParams :=
  { p with hostname := none, role := none }

/-- The two scripts have the same commands and give the same parameters, up to the identity; in
particular the flow-over target is the same. -/
structure SameBoot (cfg : Config) (plan plan' : BootPlan) : Prop where
  commands : (commands (render cfg plan)).map anonymous =
    (commands (render cfg plan')).map anonymous
  params : forget (BootParams.parse (kernelArgs cfg plan)) =
    forget (BootParams.parse (kernelArgs cfg plan'))
  flowOver : (BootParams.parse (kernelArgs cfg plan)).localDisk =
    (BootParams.parse (kernelArgs cfg plan')).localDisk

/-- The identities bring the same stray words, as iPXE splits them and as the initramfs does. -/
def SameStrays (who who' : Identity) : Prop :=
  ∀ space ∈ [isAsciiSpace, isWhitespace],
    anonymous (who.strays space) = anonymous (who'.strays space)

/-- Whether two identities have the same stray words is decided on them. -/
instance (who who' : Identity) : Decidable (SameStrays who who') :=
  inferInstanceAs (Decidable (∀ space ∈ [isAsciiSpace, isWhitespace],
    anonymous (who.strays space) = anonymous (who'.strays space)))

/-! ## The words of the identity -/

/-- The words without the identity, part by part. -/
theorem anonymous_append (first rest : List Text) :
    anonymous (first ++ rest) = anonymous first ++ anonymous rest :=
  List.filter_append ..

/-- The identity's keys, which are words to either reader. -/
theorem solid_identityKey {space : Char → Bool} (hspace : space ∈ [isAsciiSpace, isWhitespace]) :
    space '=' = false ∧ ∀ key ∈ ["storm.hostname", "storm.role"],
      Solid space key.toList ∧ '=' ∉ key.toList := by
  rcases List.mem_cons.mp hspace with rfl | hspace
  · exact ⟨by decide, by decide⟩
  · rw [List.mem_singleton.mp hspace]
    exact ⟨by decide, by decide⟩

/-- A token of the identity, whatever it says. -/
theorem isIdentity_token {key : String} (hkey : key ∈ ["storm.hostname", "storm.role"])
    (value : Text) : isIdentity (key.toList ++ '=' :: value) = true := by
  have hstarts : ∀ name : String, (name ++ "=").toList.isPrefixOf (name.toList ++ '=' :: value) = true := by
    intro name
    rw [List.isPrefixOf_iff_prefix, String.toList_append]
    exact ⟨value, by rw [List.append_assoc]; rfl⟩
  unfold isIdentity
  rw [Bool.or_eq_true]
  rcases List.mem_cons.mp hkey with rfl | hkey
  · exact .inl (hstarts "storm.hostname")
  · rw [List.mem_singleton.mp hkey]
    exact .inr (hstarts "storm.role")

/-- Without the tokens of the identity, its stray words are left. -/
theorem anonymous_pieces {space : Char → Bool} (hspace : space ∈ [isAsciiSpace, isWhitespace])
    (who : Identity) :
    anonymous (who.pieces.flatMap fun piece => wordsBy space piece.text) =
      anonymous (who.strays space) := by
  obtain ⟨heq, hkeys⟩ := solid_identityKey hspace
  have hsetting : ∀ key ∈ ["storm.hostname", "storm.role"], ∀ value,
      anonymous (wordsBy space (setting key value).text) = anonymous (strayWords space value) := by
    intro key hkey value
    obtain ⟨hsolid, -⟩ := hkeys key hkey
    rw [setting, Piece.words_setting _ _ hsolid heq, anonymous, List.filter_cons,
      isIdentity_token hkey]
    rfl
  unfold Identity.strays Identity.pieces
  rw [List.flatMap_cons, List.flatMap_cons, anonymous_append, anonymous_append,
    hsetting _ (by decide)]
  congr 1
  cases who.role with
  | none => rfl
  | some role =>
    simp only [optional, Option.map_some, Option.toList_some, List.flatMap_singleton,
      hsetting _ (by decide : "storm.role" ∈ ["storm.hostname", "storm.role"])]
    rfl

/-- An identity on one line has no newline in its settings. -/
theorem newline_notMem_pieces {who : Identity} (h : who.OneLine) :
    ∀ piece ∈ who.pieces, '\n' ∉ piece.text := by
  have htext : ∀ key ∈ ["storm.hostname", "storm.role"], ∀ value : Text, '\n' ∉ value →
      '\n' ∉ (setting key value).text := by
    have hkeys : ∀ key ∈ ["storm.hostname", "storm.role"], '\n' ∉ key.toList := by decide
    intro key hkey value hvalue hmem
    rcases List.mem_append.mp hmem with hname | hrest
    · exact hkeys key hkey hname
    · exact (List.mem_cons.mp hrest).elim (by decide) hvalue
  intro piece hpiece
  rcases List.mem_cons.mp hpiece with rfl | hrole
  · exact htext _ (by decide) _ h.1
  · obtain ⟨role, hmem, rfl⟩ := Option.map_eq_some_iff.mp (Option.mem_toList.mp hrole)
    exact htext _ (by decide) _ (h.2 role hmem)

/-! ## The parameters -/

/-- The flow-over target is no part of the identity. -/
theorem localDisk_eq_of_forget {p q : BootParams} (h : forget p = forget q) :
    p.localDisk = q.localDisk := by
  have hlocal := congrArg BootParams.localDisk h
  exact hlocal

/-- Whatever sets the identity sets nothing else. -/
theorem forget_assign_identity (p : BootParams) {key : String}
    (hkey : key ∈ ["storm.hostname", "storm.role"]) (value : Text) :
    forget (p.assign key.toList value) = forget p := by
  rcases List.mem_cons.mp hkey with rfl | hkey
  · simp only [BootParams.assign, String.toList_inj, String.reduceEq, if_false, if_true]
    rfl
  · rw [List.mem_singleton.mp hkey]
    simp only [BootParams.assign, String.toList_inj, String.reduceEq, if_false, if_true]
    rfl

/-- What a word sets besides does not depend on the identity so far. -/
theorem forget_assign (p : BootParams) (key value : Text) :
    forget (p.assign key value) = forget ((forget p).assign key value) := by
  simp only [BootParams.assign, apply_ite forget]
  rfl

/-- A token of the identity is one of its keys with a value. -/
theorem exists_of_isIdentity {word : Text} (h : isIdentity word = true) :
    ∃ key ∈ ["storm.hostname", "storm.role"], ∃ value, word = key.toList ++ '=' :: value := by
  have htoken : ∀ name : String, (name ++ "=").toList.isPrefixOf word = true →
      ∃ value, word = name.toList ++ '=' :: value := by
    intro name hstarts
    obtain ⟨value, hvalue⟩ := List.isPrefixOf_iff_prefix.mp hstarts
    refine ⟨value, ?_⟩
    rw [← hvalue, String.toList_append, List.append_assoc]
    rfl
  unfold isIdentity at h
  rcases (Bool.or_eq_true _ _).mp h with hname | hrole
  · exact ⟨"storm.hostname", by decide, htoken "storm.hostname" hname⟩
  · exact ⟨"storm.role", by decide, htoken "storm.role" hrole⟩

/-- A token of the identity changes nothing but the identity. -/
theorem forget_parseToken_identity (p : BootParams) {word : Text} (h : isIdentity word = true) :
    forget (p.parseToken word) = forget p := by
  have hclean : ∀ key ∈ ["storm.hostname", "storm.role"], '=' ∉ key.toList := by decide
  obtain ⟨key, hkey, value, rfl⟩ := exists_of_isIdentity h
  unfold BootParams.parseToken
  rw [splitOnce_append _ _ (hclean key hkey)]
  simp only
  split_ifs
  · rfl
  · exact forget_assign_identity p hkey value

/-- What a word does to the other fields does not depend on the identity. -/
theorem forget_parseToken (p : BootParams) (word : Text) :
    forget (p.parseToken word) = forget ((forget p).parseToken word) := by
  unfold BootParams.parseToken
  cases splitOnce '=' word with
  | none => rfl
  | some pair =>
    obtain ⟨key, value⟩ := pair
    simp only
    split_ifs
    · rfl
    · exact forget_assign p key value

/-- The words set, besides the identity, what they set without its tokens. -/
theorem forget_foldl_parseToken (words : List Text) {p q : BootParams} (h : forget p = forget q) :
    forget (words.foldl BootParams.parseToken p) =
      forget ((anonymous words).foldl BootParams.parseToken q) := by
  induction words generalizing p q with
  | nil => exact h
  | cons word rest ih =>
    by_cases hidentity : isIdentity word = true
    · have hskip : anonymous (word :: rest) = anonymous rest := by
        rw [anonymous, List.filter_cons, hidentity]
        rfl
      rw [List.foldl_cons, hskip]
      exact ih ((forget_parseToken_identity p hidentity).trans h)
    · have hkeep : anonymous (word :: rest) = word :: anonymous rest := by
        rw [anonymous, List.filter_cons, Bool.eq_false_iff.mpr hidentity]
        rfl
      rw [List.foldl_cons, hkeep, List.foldl_cons]
      exact ih (by rw [forget_parseToken, h, ← forget_parseToken])

/-- The pieces in front of the identity. -/
def frontPieces (cfg : Config) (plan : BootPlan) : List Piece :=
  rootPieces plan ++ optional "rd.stormblock.local-disk" cfg.localDisk

/-- The pieces of a plan with an identity. -/
theorem pieces_identified (cfg : Config) (plan : BootPlan) (record : HostRecord) (who : Identity) :
    pieces cfg (identified plan record who) =
      frontPieces cfg plan ++
        (who.pieces ++ extraPieces cfg { plan with record := some record }) := by
  have hshape : ∀ root disk identity extra : List Piece,
      root ++ (disk ++ identity ++ extra) = root ++ disk ++ (identity ++ extra) := by
    intro root disk identity extra
    simp only [List.append_assoc]
  exact hshape _ _ _ _

/-- Apart from the tokens of the identity, the words of the kernel line depend on its stray
words alone. -/
theorem anonymous_kernelArgs (cfg : Config) (plan : BootPlan) (record : HostRecord)
    {who who' : Identity} (hwho : who.OneLine) (hwho' : who'.OneLine)
    (hstrays : anonymous (who.strays isWhitespace) = anonymous (who'.strays isWhitespace)) :
    anonymous (splitWhitespace (kernelArgs cfg (identified plan record who))) =
      anonymous (splitWhitespace (kernelArgs cfg (identified plan record who'))) := by
  rw [splitWhitespace_kernelArgs, splitWhitespace_kernelArgs, linePieces, linePieces,
    pieces_identified, pieces_identified]
  by_cases hfront : ∃ piece ∈ frontPieces cfg plan, '\n' ∈ piece.text
  · obtain ⟨piece, hpiece, hnewline⟩ := hfront
    rw [firstLine_append_of_mem _ hpiece hnewline, firstLine_append_of_mem _ hpiece hnewline]
  · have hclean : ∀ piece ∈ frontPieces cfg plan, '\n' ∉ piece.text :=
      fun piece hpiece hnewline => hfront ⟨piece, hpiece, hnewline⟩
    have hmem : isWhitespace ∈ [isAsciiSpace, isWhitespace] :=
      List.mem_cons_of_mem _ List.mem_cons_self
    rw [firstLine_append hclean, firstLine_append hclean,
      firstLine_append (newline_notMem_pieces hwho), firstLine_append (newline_notMem_pieces hwho')]
    simp only [List.flatMap_append, anonymous_append, ← List.cons_append]
    rw [anonymous_pieces hmem, anonymous_pieces hmem, hstrays]

/-- Two identities with the same stray words give the same parameters, up to themselves. -/
theorem forget_parse_kernelArgs (cfg : Config) (plan : BootPlan) (record : HostRecord)
    {who who' : Identity} (hwho : who.OneLine) (hwho' : who'.OneLine)
    (hstrays : anonymous (who.strays isWhitespace) = anonymous (who'.strays isWhitespace)) :
    forget (BootParams.parse (kernelArgs cfg (identified plan record who))) =
      forget (BootParams.parse (kernelArgs cfg (identified plan record who'))) := by
  rw [BootParams.parse, BootParams.parse, forget_foldl_parseToken _ rfl,
    anonymous_kernelArgs cfg plan record hwho hwho' hstrays, ← forget_foldl_parseToken _ rfl]

/-! ## The commands -/

/-- A newline ends one command and starts another. -/
theorem commands_append_newline (first rest : Text) :
    commands (first ++ '\n' :: rest) = commands first ++ commands rest := by
  unfold commands
  rw [List.splitOn_append_cons_self, List.map_append, List.filter_append]

/-- A comment is no command. -/
theorem commands_comment {text : Text} (htext : '\n' ∉ text) :
    commands ("# ".toList ++ text) = [] := by
  have hclean : '\n' ∉ "# ".toList ++ text := by
    intro hmem
    rcases List.mem_append.mp hmem with hmem | hmem
    · exact absurd hmem (by decide)
    · exact htext hmem
  have hwords : wordsBy isAsciiSpace ("# ".toList ++ text) =
      "#".toList :: wordsBy isAsciiSpace text :=
    wordsBy_append_cons "#".toList text (by decide)
  rw [commands, List.splitOn_eq_singleton hclean, List.map_singleton, hwords]
  rfl

/-- A displayed MAC is on one line. -/
theorem newline_notMem_display (mac : Mac) : '\n' ∉ mac.display := by
  have hdigit : ∀ n < 16, Nat.digitChar n ≠ '\n' := by decide
  intro hmem
  rcases mem_joinWith hmem with hmem | ⟨part, hpart, hmem⟩
  · exact absurd hmem (by decide)
  · obtain ⟨octet, -, rfl⟩ := List.mem_map.mp hpart
    obtain ⟨n, hlt, heq⟩ := exists_of_mem_hexEncode hmem
    exact hdigit n hlt heq.symm

/-- The greeting of a host is one comment. -/
theorem exists_greeting (plan : BootPlan) (record : HostRecord) {who : Identity}
    (hwho : who.OneLine) : ∃ line,
      greeting (identified plan record who) = line ++ ['\n'] ∧ commands line = [] := by
  have hnewline : ['\n'] = "\n".toList := rfl
  have harrow : '\n' ∉ " -> ".toList := by decide
  unfold greeting identified
  cases plan.mac with
  | none =>
    refine ⟨"# ".toList ++ "no MAC supplied; serving the default boot".toList, ?_,
      commands_comment (by decide)⟩
    rw [hnewline, ← String.toList_append, ← String.toList_append]
    rfl
  | some mac =>
    refine ⟨"# ".toList ++ (mac.display ++ (" -> ".toList ++ who.name)), ?_,
      commands_comment ?_⟩
    · have hshape : ∀ a b c d e : Text, a ++ b ++ c ++ d ++ e = a ++ (b ++ (c ++ d)) ++ e := by
        intro a b c d e
        simp only [List.append_assoc]
      exact hshape _ _ _ _ _
    · rw [List.mem_append, List.mem_append]
      rintro (hmem | hmem | hmem)
      · exact newline_notMem_display mac hmem
      · exact harrow hmem
      · exact hwho.1 hmem

/-- What stands on the kernel line in front of the identity. -/
def kernelFront (cfg : Config) (plan : BootPlan) : Text :=
  "kernel $\x7bbase\x7d/boot/vmlinuz initrd=initramfs.img".toList ++
    Piece.spaced (frontPieces cfg plan)

/-- The kernel line up to the end of the command line. -/
theorem kernel_eq (cfg : Config) (plan : BootPlan) (record : HostRecord) (who : Identity) :
    "kernel $\x7bbase\x7d/boot/vmlinuz initrd=initramfs.img ".toList ++
        (identified plan record who).cmdline cfg =
      kernelFront cfg plan ++ (Piece.spaced who.pieces ++
        Piece.spaced (extraPieces cfg { plan with record := some record })) := by
  have hstart : "kernel $\x7bbase\x7d/boot/vmlinuz initrd=initramfs.img ".toList =
      "kernel $\x7bbase\x7d/boot/vmlinuz initrd=initramfs.img".toList ++ [' '] := by
    have hspace : [' '] = " ".toList := rfl
    rw [hspace, ← String.toList_append]
    rfl
  have hne : (pieces cfg (identified plan record who)).map Piece.text ≠ [] := by
    rw [pieces_identified, Identity.pieces, List.map_append, List.map_append, List.map_cons]
    exact List.append_ne_nil_of_right_ne_nil _ (List.cons_ne_nil _ _)
  have hspaced : ' ' :: (identified plan record who).cmdline cfg =
      Piece.spaced (pieces cfg (identified plan record who)) := by
    rw [BootPlan.cmdline, parts_eq, cons_joinWith hne, List.flatMap_map]
    rfl
  have hfront : ∀ start : Text, start ++ [' '] ++ (identified plan record who).cmdline cfg =
      start ++ Piece.spaced (frontPieces cfg plan) ++ (Piece.spaced who.pieces ++
        Piece.spaced (extraPieces cfg { plan with record := some record })) := by
    intro start
    rw [List.append_assoc, List.append_assoc, List.cons_append, List.nil_append, hspaced,
      pieces_identified]
    simp only [Piece.spaced_append]
  rw [hstart]
  exact hfront _

/-- The lines of a script. -/
theorem commands_lines {top greet front kernel rest : Text} :
    commands (top ++ '\n' :: (greet ++ '\n' :: (front ++ '\n' :: (kernel ++ '\n' :: rest)))) =
      commands top ++ (commands greet ++ (commands front ++ (commands kernel ++ commands rest))) := by
  rw [commands_append_newline, commands_append_newline, commands_append_newline,
    commands_append_newline]

/-- The script line by line. -/
theorem render_eq (cfg : Config) (plan : BootPlan) {greet : Text}
    (hgreet : greeting plan = greet ++ ['\n']) :
    render cfg plan = "#!ipxe\n".toList ++ '\n' :: (greet ++ '\n' ::
      ((if plan.portal.isNone then portalWarning else []) ++ "\nset base ".toList ++ cfg.base ++
        '\n' :: ("kernel $\x7bbase\x7d/boot/vmlinuz initrd=initramfs.img ".toList ++
          plan.cmdline cfg ++ '\n' ::
            ("initrd $\x7bbase\x7d/boot/initramfs.img\n".toList ++ "boot\n".toList)))) := by
  have hnewline : "\n".toList = ['\n'] := rfl
  have htop : "#!ipxe\n\n".toList = "#!ipxe\n".toList ++ ['\n'] := by
    rw [← hnewline, ← String.toList_append]
    rfl
  have hshape : ∀ top warn set base kernel args next last : Text,
      top ++ ['\n'] ++ (greet ++ ['\n']) ++ warn ++ set ++ base ++ ['\n'] ++ kernel ++ args ++
          ['\n'] ++ next ++ last =
        top ++ '\n' :: (greet ++ '\n' :: (warn ++ set ++ base ++ '\n' :: (kernel ++ args ++
          '\n' :: (next ++ last)))) := by
    intro top warn set base kernel args next last
    simp only [List.append_assoc, List.cons_append, List.nil_append]
  unfold render
  rw [hgreet, htop, hnewline]
  exact hshape _ _ _ _ _ _ _ _

/-- The commands of a script are those of its kernel line, between others that the identity has
no part in. -/
theorem exists_commands_render (cfg : Config) (plan : BootPlan) (record : HostRecord) :
    ∃ above below, ∀ who : Identity, who.OneLine →
      commands (render cfg (identified plan record who)) =
        above ++ (commands (kernelFront cfg plan ++ (Piece.spaced who.pieces ++
          Piece.spaced (extraPieces cfg { plan with record := some record }))) ++ below) := by
  refine ⟨commands "#!ipxe\n".toList ++ commands ((if plan.portal.isNone then portalWarning else []) ++
    "\nset base ".toList ++ cfg.base),
    commands ("initrd $\x7bbase\x7d/boot/initramfs.img\n".toList ++ "boot\n".toList),
    fun who hwho => ?_⟩
  obtain ⟨line, hgreet, hcomment⟩ := exists_greeting plan record hwho
  rw [render_eq cfg (identified plan record who) hgreet, commands_lines, hcomment,
    kernel_eq, List.nil_append, ← List.append_assoc]
  rfl

/-- Spaced pieces are on one line if each of them is. -/
theorem newline_notMem_spaced {ps : List Piece} (h : ∀ piece ∈ ps, '\n' ∉ piece.text) :
    '\n' ∉ Piece.spaced ps := by
  intro hmem
  obtain ⟨piece, hpiece, hchar⟩ := List.mem_flatMap.mp hmem
  exact (List.mem_cons.mp hchar).elim (by decide) (h piece hpiece)

/-- Pieces behind spaces start with whitespace, if they are not empty. -/
theorem head?_of_prefix_spaced {ps : List Piece} {text : Text} (h : text <+: Piece.spaced ps) :
    ∀ c ∈ text.head?, isAsciiSpace c = true := by
  intro c hc
  obtain ⟨rest, hrest⟩ := h
  cases text with
  | nil => cases hc
  | cons d text =>
    cases hc
    cases ps with
    | nil => cases hrest
    | cons piece ps =>
      cases (List.cons.inj hrest).1
      decide

/-- One line of the kernel text has the words of the identity, unless it is a comment. -/
theorem exists_kernel_line (cfg : Config) (plan : BootPlan) (later : List Piece) :
    ∃ above start stop below,
      ((∀ piece ∈ frontPieces cfg plan, '\n' ∉ piece.text) → isCommand start = true) ∧
        ∀ who : Identity, who.OneLine →
          commands (kernelFront cfg plan ++ (Piece.spaced who.pieces ++ Piece.spaced later)) =
            above ++ ([start ++ (who.pieces.flatMap (fun piece => wordsBy isAsciiSpace piece.text) ++
              stop)].filter isCommand ++ below) := by
  obtain ⟨above, start, stop, below, hstart, hstop, hsplit⟩ :=
    exists_line_around (c := '\n') (kernelFront cfg plan) (Piece.spaced later)
  refine ⟨(above.map (wordsBy isAsciiSpace)).filter isCommand, wordsBy isAsciiSpace start,
    wordsBy isAsciiSpace stop, (below.map (wordsBy isAsciiSpace)).filter isCommand, fun hclean => ?_,
    fun who hwho => ?_⟩
  · have hkernel : '\n' ∉ "kernel $\x7bbase\x7d/boot/vmlinuz initrd=initramfs.img".toList := by
      decide
    have hfirst : kernelFront cfg plan = "kernel".toList ++ ' ' ::
        ("$\x7bbase\x7d/boot/vmlinuz initrd=initramfs.img".toList ++
          Piece.spaced (frontPieces cfg plan)) := rfl
    rw [hstart fun hmem => (List.mem_append.mp hmem).elim hkernel (newline_notMem_spaced hclean),
      hfirst, wordsBy_append_cons _ _ (by decide), wordsBy_of_solid (by decide) (by decide)]
    rfl
  · have hhead : ∀ c ∈ (Piece.spaced who.pieces ++ stop).head?, isAsciiSpace c = true :=
      fun c hc => Option.some.inj hc ▸ rfl
    have hwords : wordsBy isAsciiSpace (start ++ (Piece.spaced who.pieces ++ stop)) =
        wordsBy isAsciiSpace start ++ (who.pieces.flatMap (fun piece =>
          wordsBy isAsciiSpace piece.text) ++ wordsBy isAsciiSpace stop) := by
      rw [wordsBy_append_of_head _ hhead, wordsBy_append_of_head _ (head?_of_prefix_spaced hstop),
        Piece.wordsBy_spaced (by decide)]
    rw [commands, hsplit _ (newline_notMem_spaced (newline_notMem_pieces hwho)), List.map_append,
      List.map_cons, hwords, List.filter_append, ← List.singleton_append (l := List.map _ below),
      List.filter_append]

/-- Whether the line is a command does not depend on the identity. -/
theorem isCommand_line (start stop : List Text) (who : Identity) :
    isCommand (start ++ (who.pieces.flatMap (fun piece => wordsBy isAsciiSpace piece.text) ++
      stop)) = (start.isEmpty || isCommand start) := by
  cases start with
  | cons word start => rfl
  | nil =>
    have hspace : isAsciiSpace ∈ [isAsciiSpace, isWhitespace] := List.mem_cons_self
    obtain ⟨heq, hkeys⟩ := solid_identityKey hspace
    have hfirst : wordsBy isAsciiSpace (setting "storm.hostname" who.name).text =
        ("storm.hostname".toList ++ '=' :: firstWord isAsciiSpace who.name) ::
          strayWords isAsciiSpace who.name :=
      Piece.words_setting _ _ (hkeys _ (by decide)).1 heq
    rw [Identity.pieces, List.flatMap_cons, hfirst]
    rfl

/-- The commands are the same, up to the identity, if the stray words are; and only then, unless
a value in front of the identity breaks the kernel line. -/
theorem commands_identified (cfg : Config) (plan : BootPlan) (record : HostRecord)
    {who who' : Identity} (hwho : who.OneLine) (hwho' : who'.OneLine) :
    (anonymous (who.strays isAsciiSpace) = anonymous (who'.strays isAsciiSpace) →
      (commands (render cfg (identified plan record who))).map anonymous =
        (commands (render cfg (identified plan record who'))).map anonymous) ∧
    ((∀ piece ∈ frontPieces cfg plan, '\n' ∉ piece.text) →
      (commands (render cfg (identified plan record who))).map anonymous =
        (commands (render cfg (identified plan record who'))).map anonymous →
      anonymous (who.strays isAsciiSpace) = anonymous (who'.strays isAsciiSpace)) := by
  obtain ⟨above, below, hrender⟩ := exists_commands_render cfg plan record
  obtain ⟨above', start, stop, below', hclean, hline⟩ :=
    exists_kernel_line cfg plan (extraPieces cfg { plan with record := some record })
  have hspace : isAsciiSpace ∈ [isAsciiSpace, isWhitespace] := List.mem_cons_self
  rw [hrender who hwho, hrender who' hwho', hline who hwho, hline who' hwho']
  simp only [List.filter_cons, List.filter_nil, isCommand_line, List.map_append]
  constructor
  · intro hstrays
    split_ifs
    · simp only [List.map_cons, List.map_nil, anonymous_append, anonymous_pieces hspace, hstrays]
    · rfl
  · intro hfront heq
    rw [hclean hfront, Bool.or_true, if_pos rfl, if_pos rfl] at heq
    simpa only [List.map_cons, List.map_nil, anonymous_append, anonymous_pieces hspace,
      List.append_cancel_left_eq, List.append_cancel_right_eq, List.cons.injEq, and_true]
      using heq

/-! ## Two identities under one record -/

/-- A host's identity enters its plan through the record only. -/
theorem bootPlan_give (cfg : Config) (mac : Option Mac) (record : HostRecord) (who : Identity)
    (claim : Option ClaimResponse) :
    bootPlan cfg ⟨mac, some (who.give record)⟩ claim =
      identified (bootPlan cfg ⟨mac, some record⟩ claim) record who := by
  unfold bootPlan identified
  cases claim with
  | none => rfl
  | some claim => cases hattach : claim.attach <;> simp [BootPlan.resolve, hattach, Identity.give]

/-- Two identities of one line each boot the same way if they bring the same stray words. They
do so only if iPXE finds the same stray words in them, unless a value in front of the identity
breaks the kernel line. -/
theorem sameBoot_of_sameStrays (cfg : Config) (mac : Option Mac) (record : HostRecord)
    (claim : Option ClaimResponse) (who who' : Identity) (hwho : who.OneLine)
    (hwho' : who'.OneLine) :
    (SameStrays who who' →
      SameBoot cfg (bootPlan cfg ⟨mac, some (who.give record)⟩ claim)
        (bootPlan cfg ⟨mac, some (who'.give record)⟩ claim)) ∧
    ((∀ piece ∈ frontPieces cfg (bootPlan cfg ⟨mac, some record⟩ claim), '\n' ∉ piece.text) →
      SameBoot cfg (bootPlan cfg ⟨mac, some (who.give record)⟩ claim)
        (bootPlan cfg ⟨mac, some (who'.give record)⟩ claim) →
      anonymous (who.strays isAsciiSpace) = anonymous (who'.strays isAsciiSpace)) := by
  rw [bootPlan_give, bootPlan_give]
  obtain ⟨hsame, honly⟩ := commands_identified cfg (bootPlan cfg ⟨mac, some record⟩ claim) record
    hwho hwho'
  constructor
  · intro hstrays
    have hparams := forget_parse_kernelArgs cfg (bootPlan cfg ⟨mac, some record⟩ claim) record
      hwho hwho' (hstrays isWhitespace (by simp))
    exact ⟨hsame (hstrays isAsciiSpace List.mem_cons_self), hparams,
      localDisk_eq_of_forget hparams⟩
  · intro hfront h
    exact honly hfront h.commands

namespace Renamed

/-- A host that has nothing but its MAC. -/
def record : HostRecord where
  mac := .ofOctets 0xaa 0xbb 0xcc 0xdd 0xee 0xff
  name := []
  role := none
  stack := none
  portal := none
  extraCmdline := none
  online := true
  object := none

/-- A worker by name. -/
def plain : Identity where
  name := "node-1".toList
  role := some "worker".toList

/-- The same machine under a name that a shell would take apart, without its role. -/
def renamed : Identity where
  name := "node-2;shell".toList
  role := none

/-- A role that goes on after its first word. -/
def steering : Identity where
  name := "node-1".toList
  role := some "worker rd.stormblock.local-disk=/dev/sda".toList

end Renamed

/-- A new name and no role: the same boot. -/
theorem sameBoot_renamed :
    SameBoot Config.default
      (bootPlan Config.default ⟨some Renamed.record.mac, some (Renamed.plain.give Renamed.record)⟩ none)
      (bootPlan Config.default ⟨some Renamed.record.mac, some (Renamed.renamed.give Renamed.record)⟩
        none) :=
  (sameBoot_of_sameStrays Config.default (some Renamed.record.mac) Renamed.record none Renamed.plain
    Renamed.renamed (by decide) (by decide)).1 (by decide)

/-- A role with a space in it: a disk that nobody configured is given over to the flow-over. -/
theorem not_sameBoot_steering :
    (BootParams.parse (kernelArgs Config.default (bootPlan Config.default
      ⟨some Renamed.record.mac, some (Renamed.steering.give Renamed.record)⟩ none))).localDisk =
        some "/dev/sda".toList ∧
    Config.default.localDisk = none ∧
    ¬ SameBoot Config.default
      (bootPlan Config.default ⟨some Renamed.record.mac, some (Renamed.plain.give Renamed.record)⟩ none)
      (bootPlan Config.default
        ⟨some Renamed.record.mac, some (Renamed.steering.give Renamed.record)⟩ none) := by
  have hplain : (BootParams.parse (kernelArgs Config.default (bootPlan Config.default
      ⟨some Renamed.record.mac, some (Renamed.plain.give Renamed.record)⟩ none))).localDisk =
        none := by decide
  have hsteering : (BootParams.parse (kernelArgs Config.default (bootPlan Config.default
      ⟨some Renamed.record.mac, some (Renamed.steering.give Renamed.record)⟩ none))).localDisk =
        some "/dev/sda".toList := by decide
  refine ⟨hsteering, rfl, fun h => ?_⟩
  have hsame := h.flowOver
  rw [hplain, hsteering] at hsame
  cases hsame

end Stormnetboot.Boot

import RiscAsm.Proofs.Assemble.Branch
import RiscAsm.Proofs.Operand.Origin

/-!
# Programs without labels

The second pass hands texts without labels to the encoder (`Assembly.resolved`).  Such a text can
stand as a line of a program, and it has no colon (`IsBare`); patching keeps this
(`IsBare.of_patch`), and a text that was patched and encoded has no label left
(`labelAt?_of_patch`).  So the texts, joined with line feeds, are a program of their own, which has
no labels and the same words (`assemble_resolved`).
-/

namespace RiscAsm

/-- The texts of the instructions with their labels replaced by numbers. -/
def Assembly.resolved (settings : Settings) (a : Assembly) : Except Failure (List Text) :=
  (a.instructions.zipIdx 1).mapM fun entry => patch settings a.labels entry.1 entry.2

/-! ## Bare lines -/

/-- A text that can stand as a normalized line and defines no label. -/
structure IsBare (keepComments : Bool) (s : Text) : Prop extends Source.IsLine keepComments s where
  no_colon : ':' ∉ s

/-- Instructions are bare lines. -/
theorem isBare_of_mem_instructions {settings : Settings} {text : Text} {line : SourceLine}
    (h : line ∈ instructionsOf (programLines settings text)) :
    IsBare (!settings.stripComments) line.text := by
  obtain ⟨whole, hwhole, hline⟩ := List.mem_filterMap.mp h
  obtain ⟨hpiece, hne, htrim, hcolon⟩ := SourceLine.of_instruction? hline
  obtain ⟨-, -, ⟨hfeed, hreturn⟩, hcomments⟩ := Source.isLine_of_mem_normalize hwhole
  exact ⟨⟨hne, htrim, ⟨fun hmem => hfeed (hpiece.mem hmem), fun hmem => hreturn (hpiece.mem hmem)⟩,
    fun hkeep => (hcomments hkeep).of_piece hpiece⟩, hcolon⟩

/-! ## Characters of patched lines -/

/-- The pseudo-instructions for jumps, and the branches and jumps, are written with letters. -/
theorem isAlpha_of_takesLabel {m : Text} {count : Nat} (hm : ∀ c ∈ m, IsLowered c)
    (h : Encode.takesLabel m count = true) : ∀ c ∈ m, c.isAlpha = true := by
  have hjumps : ∀ jump ∈ Pseudo.jumps, jump.1.all Char.isAlpha = true := by decide +kernel
  have hrows : ∀ row ∈ Instruction.table, row.2.Branches → row.1.all Char.isAlpha = true := by
    decide +kernel
  rw [← List.all_eq_true]
  obtain ⟨-, -, hjump | ⟨instr, hrow, hbranches⟩⟩ := Encode.takesLabel_cases hm h
  · exact hjumps _ hjump
  · exact hrows _ (mem_of_lookup hrow) hbranches

/-- The characters that end a line, a label or the text before a comment. -/
def marks : List Char := [':', '\n', '\r', '#', '/']

/-- Marks are not among the characters that patching writes. -/
theorem of_mem_marks {c : Char} (hc : c ∈ marks) :
    c.isAlpha = false ∧ c.isDigit = false ∧ c ≠ '-' ∧ c ≠ ',' ∧ c ≠ ' ' := by
  have hall : marks.all (fun c => decide (c.isAlpha = false ∧ c.isDigit = false ∧ c ≠ '-' ∧
      c ≠ ',' ∧ c ≠ ' ')) = true := by decide
  exact of_decide_eq_true (List.all_eq_true.mp hall c hc)

theorem not_mem_ofInt_of_mem_marks {c : Char} (hc : c ∈ marks) (number : Int) :
    c ∉ Numeral.ofInt number := by
  obtain ⟨-, hdigit, hminus, -, -⟩ := of_mem_marks hc
  intro hmem
  rcases Numeral.mem_ofInt hmem with rfl | hisDigit
  · exact hminus rfl
  · simp [hdigit] at hisDigit

namespace Statement

variable {line name : Text} {s : Statement}

/-- A line with a number in place of its label, as it is written. -/
theorem render_retarget (number : Int) :
    (s.retarget number).render =
      s.mnemonic ++ ' ' :: Text.joinComma (s.operands.dropLast ++ [Numeral.ofInt number]) := by
  simp [render, retarget]

/-- The operands that patching keeps are drawn from the line. -/
theorem drawn_of_mem_dropLast (h : parse line = .ok s) {t : Text} (ht : t ∈ s.operands.dropLast) :
    Operand.Drawn line t := by
  obtain ⟨-, rest, hrest, hoperands⟩ := parse_eq_ok h
  rw [hoperands] at ht
  exact (Operand.drawn_of_mem_tokenize (List.dropLast_subset _ ht)).trans hrest

/-- Patching adds no mark to a line. -/
theorem not_mem_render_retarget (hparse : parse line = .ok s) (hlabel : labelOperand? s = some name)
    (number : Int) {c : Char} (hc : c ∈ marks) (hline : c ∉ line) :
    c ∉ (s.retarget number).render := by
  obtain ⟨halpha, -, -, hcomma, hspace⟩ := of_mem_marks hc
  rw [render_retarget, List.mem_append, List.mem_cons]
  rintro (hmnemonic | rfl | hoperands)
  · have hletter := isAlpha_of_takesLabel (parse_eq_ok hparse).1
      (labelOperand?_eq_some.mp hlabel).1 c hmnemonic
    simp [halpha] at hletter
  · exact hspace rfl
  · rcases Text.mem_join hoperands with hseparator | ⟨t, ht, hmem⟩
    · simp [hcomma, hspace] at hseparator
    · rcases List.mem_append.mp ht with hold | hnew
      · exact hline ((drawn_of_mem_dropLast hparse hold).mem c hmem)
      · rw [List.mem_singleton.mp hnew] at hmem
        exact not_mem_ofInt_of_mem_marks hc number hmem

end Statement

namespace Source

/-- No comment starts in a text without hashes and slashes. -/
theorem uncommented_of_not_mem {s : Text} (hhash : '#' ∉ s) (hslash : '/' ∉ s) : Uncommented s :=
  ⟨hhash, fun hpair => hslash (hpair.mem List.mem_cons_self)⟩

/-- No comment starts in operands that are joined, unless one starts in one of them. -/
theorem uncommented_joinComma {parts : List Text} (h : ∀ t ∈ parts, Uncommented t) :
    Uncommented (Text.joinComma parts) := by
  induction parts with
  | nil => exact uncommented_nil
  | cons first parts ih =>
      cases parts with
      | nil =>
          rw [Operand.joinComma_singleton]
          exact h first List.mem_cons_self
      | cons second parts =>
          have hrest := ih fun t ht => h t (List.mem_cons_of_mem first ht)
          have hspace := uncommented_nil.append_cons hrest (c := ' ') (by decide) (by decide)
          rw [Operand.joinComma_cons_cons]
          exact (h first List.mem_cons_self).append_cons hspace (by decide) (by decide)

/-- Patching starts no comment. -/
theorem Uncommented.render_retarget {line name : Text} {s : Statement} (h : Uncommented line)
    (hparse : Statement.parse line = .ok s) (hlabel : labelOperand? s = some name)
    (number : Int) : Uncommented (s.retarget number).render := by
  have hletters := isAlpha_of_takesLabel (Statement.parse_eq_ok hparse).1
    (labelOperand?_eq_some.mp hlabel).1
  have hmnemonic : Uncommented s.mnemonic := by
    apply uncommented_of_not_mem
    · intro hmem
      exact absurd (hletters _ hmem) (by decide)
    · intro hmem
      exact absurd (hletters _ hmem) (by decide)
  rw [Statement.render_retarget]
  refine hmnemonic.append_cons (uncommented_joinComma ?_) (by decide) (by decide)
  intro t ht
  rcases List.mem_append.mp ht with hold | hnew
  · have hdrawn := Statement.drawn_of_mem_dropLast hparse hold
    exact ⟨fun hmem => h.1 (hdrawn.mem _ hmem),
      fun hpair => h.2 (hdrawn.pair _ _ (by decide) hpair)⟩
  · rw [List.mem_singleton.mp hnew]
    exact uncommented_of_not_mem (not_mem_ofInt_of_mem_marks (by decide) number)
      (not_mem_ofInt_of_mem_marks (by decide) number)

end Source

/-! ## Patched lines -/

/-- A patched line is a bare line again. -/
theorem IsBare.of_patch {keepComments : Bool} {settings : Settings} {labels : LabelTable}
    {line : SourceLine} {index : Nat} {text : Text} (h : IsBare keepComments line.text)
    (hpatch : patch settings labels line index = .ok text) : IsBare keepComments text := by
  rcases patch_eq_ok_iff.mp hpatch with ⟨-, rfl⟩ | ⟨s, name, offset, hparse, hlabel, -, rfl⟩
  · exact h
  · have htakes := (labelOperand?_eq_some.mp hlabel).1
    obtain ⟨-, hmnemonic, -⟩ := Encode.takesLabel_cases (Statement.parse_eq_ok hparse).1 htakes
    obtain ⟨hoperands, -⟩ := Statement.operands_number hparse
      (branchTarget settings.branches (offsetOf index) offset)
    have hmark : ∀ c ∈ marks, c ∉ line.text → c ∉ _ := fun c =>
      Statement.not_mem_render_retarget hparse hlabel
        (branchTarget settings.branches (offsetOf index) offset)
    refine ⟨⟨?_, ?_, ⟨?_, ?_⟩, ?_⟩, ?_⟩
    · rw [Statement.render_retarget]
      simp
    · exact Statement.trim_render hmnemonic.1 (fun c hc => (hmnemonic.2 c hc).2) hoperands
    · exact hmark _ (by decide) h.no_break.1
    · exact hmark _ (by decide) h.no_break.2
    · exact fun hkeep => (h.uncommented hkeep).render_retarget hparse hlabel _
    · exact hmark _ (by decide) h.no_colon

/-- A line that was patched and encoded has no label left: the number in place of the label is
accepted as one. -/
theorem labelAt?_of_patch {settings : Settings} {labels : LabelTable} {line : SourceLine}
    {index w : Nat} {text : Text} (hpatch : patch settings labels line index = .ok text)
    (hword : encode settings.profile text = .ok w) : labelAt? text = none := by
  rcases patch_eq_ok_iff.mp hpatch with ⟨hnone, rfl⟩ | ⟨s, name, offset, hparse, hlabel, -, rfl⟩
  · exact hnone
  · obtain ⟨htakes, -, -⟩ := labelOperand?_eq_some.mp hlabel
    obtain ⟨hnumber, -⟩ := target?_of_encode_retarget hparse hlabel hword
    have hread := Statement.parse_render_retarget hparse
      (branchTarget settings.branches (offsetOf index) offset)
    rw [labelAt?, hread, Option.eq_none_iff_forall_ne_some]
    intro other hother
    obtain ⟨-, hlast, hrefused⟩ := labelOperand?_eq_some.mp hother
    obtain rfl := Option.some.inj (List.getLast?_concat.symm.trans hlast)
    simp [Immediate.accepts, hnumber, Except.isOk, Except.toBool] at hrefused

/-! ## Programs of bare lines -/

/-- The lines of bare texts, numbered from one. -/
def linesOf (texts : List Text) : List SourceLine :=
  (texts.zipIdx 1).map fun line => ⟨line.2, line.1⟩

theorem getElem?_linesOf (texts : List Text) (i : Nat) :
    (linesOf texts)[i]? = texts[i]?.map fun text => ⟨(i + 1 : Nat), text⟩ := by
  rw [linesOf, List.getElem?_map, List.getElem?_zipIdx, Option.map_map, Nat.add_comm]
  rfl

/-- Bare texts, joined with line feeds, are a program whose lines are all instructions, without
labels. -/
theorem programLines_joinLines {settings : Settings} {texts : List Text}
    (h : ∀ t ∈ texts, IsBare (!settings.stripComments) t) :
    programLines settings (Text.joinLines texts) = linesOf texts ∧ Clean (linesOf texts) ∧
      instructionsOf (linesOf texts) = linesOf texts ∧ labelsOf (linesOf texts) = {} := by
  have hparts : ∀ line ∈ linesOf texts, line.labels = [] ∧ line.instruction? = some line := by
    intro line hline
    obtain ⟨entry, hentry, rfl⟩ := List.mem_map.mp hline
    obtain ⟨⟨hne, htrim, -, -⟩, hcolon⟩ := h entry.1 (List.fst_mem_of_mem_zipIdx hentry)
    obtain ⟨hlabels, hinstruction⟩ := SourceLine.parts_of_not_mem ⟨entry.2, entry.1⟩ hcolon htrim
    exact ⟨hlabels, by rw [hinstruction, if_neg (by simpa using hne)]⟩
  have hnone : (linesOf texts).flatMap SourceLine.labels = [] := by
    rw [List.flatMap_eq_nil_iff]
    exact fun line hline => (hparts line hline).1
  refine ⟨?_, ?_, ?_, ?_⟩
  · exact Source.normalize_joinLines fun t ht => (h t ht).toIsLine
  · rw [Clean, hnone]
    simp
  · rw [instructionsOf, List.filterMap_congr fun line hline => (hparts line hline).2,
      List.filterMap_some]
  · have hnames : (labelsOf (linesOf texts)).entries.map Prod.fst = [] :=
      (names_labelsOf _).trans hnone
    exact congrArg LabelTable.mk (List.map_eq_nil_iff.mp hnames)

/-- An assembled program has a text for each instruction, which has the word of the instruction. -/
theorem exists_resolved {settings : Settings} {text : Text} {a : Assembly}
    (h : assembleText settings text = .ok a) :
    ∃ texts, a.resolved settings = .ok texts ∧ texts.length = a.words.length ∧
      ∀ (i : Nat) (t : Text), texts[i]? = some t →
        IsBare (!settings.stripComments) t ∧ labelAt? t = none ∧
          ∃ w, a.words[i]? = some w ∧ encode settings.profile t = .ok w := by
  obtain ⟨-, -, hinstructions, hlength, hget⟩ := assembleText_eq_ok h
  cases hresolved : a.resolved settings with
  | error failure =>
      -- the second pass would have failed too
      obtain ⟨i, entry, hentry, hfault, -⟩ := Result.mapM_eq_error hresolved
      rw [List.getElem?_zipIdx, Option.map_eq_some_iff] at hentry
      obtain ⟨line, hline, rfl⟩ := hentry
      obtain ⟨w, -, t, hpatch, -⟩ := hget i line hline
      rw [Nat.add_comm, hpatch] at hfault
      cases hfault
  | ok texts =>
      obtain ⟨hcount, htexts⟩ := Result.mapM_eq_ok hresolved
      rw [List.length_zipIdx] at hcount
      refine ⟨texts, rfl, hcount.trans hlength.symm, ?_⟩
      intro i t ht
      have hi : i < a.instructions.length := hcount ▸ (List.getElem?_eq_some_iff.mp ht).1
      have hline := List.getElem?_eq_getElem hi
      obtain ⟨t', hpatch, ht'⟩ := htexts i _ (getElem?_zipIdx_one hline)
      obtain rfl := Option.some.inj (ht.symm.trans ht')
      obtain ⟨w, hw, t', hpatch', hword⟩ := hget i _ hline
      obtain rfl := Except.ok.inj (hpatch.symm.trans hpatch')
      have hmem : a.instructions[i] ∈ instructionsOf (programLines settings text) :=
        hinstructions ▸ List.getElem_mem hi
      exact ⟨(isBare_of_mem_instructions hmem).of_patch hpatch, labelAt?_of_patch hpatch hword, w,
        hw, hword⟩

/-- **Resolving labels keeps the meaning of a program**: the texts that the second pass hands to the
encoder, joined with line feeds, are assembled under the same settings; they define no label, are
left as they are by patching, and have the same words. -/
theorem assemble_resolved {settings : Settings} {source : Source} {a : Assembly}
    (h : assemble settings source = .ok a) :
    ∃ texts b, a.resolved settings = .ok texts ∧
      assemble settings (.text (Text.joinLines texts)) = .ok b ∧ b.labels = {} ∧
      b.instructions.map SourceLine.text = texts ∧ b.resolved settings = .ok texts ∧
      b.words = a.words := by
  obtain ⟨text, -, h⟩ := assemble_eq_ok h
  obtain ⟨texts, hresolved, hlength, htexts⟩ := exists_resolved h
  have hbare : ∀ t ∈ texts, IsBare (!settings.stripComments) t := by
    intro t ht
    obtain ⟨i, hi⟩ := List.mem_iff_getElem?.mp ht
    exact (htexts i t hi).1
  obtain ⟨hlines, hclean, hinstructions, hlabels⟩ := programLines_joinLines hbare
  have hcount : (linesOf texts).length = texts.length := by simp [linesOf]
  -- the patched texts have no label, so patching them again changes nothing
  have hpatch : ∀ (i : Nat) (t : Text), texts[i]? = some t →
      ∀ number index, patch settings {} ⟨number, t⟩ index = .ok t := by
    intro i t ht number index
    exact patch_eq_ok_iff.mpr (.inl ⟨(htexts i t ht).2.1, rfl⟩)
  have hwords : ∀ i w, a.words[i]? = some w →
      HasWord settings (programLines settings (Text.joinLines texts)) i w := by
    intro i w hw
    have hi : i < texts.length := hlength ▸ (List.getElem?_eq_some_iff.mp hw).1
    have ht := List.getElem?_eq_getElem hi
    obtain ⟨-, -, w', hw', hword⟩ := htexts i _ ht
    obtain rfl := Option.some.inj (hw.symm.trans hw')
    rw [hlines, HasWord, hinstructions, hlabels, getElem?_linesOf, ht]
    exact ⟨_, rfl, _, hpatch i _ ht _ _, hword⟩
  have hb := assembleText_of_hasWord (hlines ▸ hclean)
    (by rw [hlines, hinstructions, hcount, hlength]) hwords
  rw [hlines, hinstructions, hlabels] at hb
  refine ⟨texts, _, hresolved, hb, rfl, ?_, ?_, rfl⟩
  · simp only [linesOf, List.map_map, Function.comp_def]
    exact List.zipIdx_map_fst ..
  · refine Result.mapM_of_getElem? (by rw [List.length_zipIdx, hcount]) ?_
    intro i entry hentry
    rw [List.getElem?_zipIdx, getElem?_linesOf, Option.map_map, Option.map_eq_some_iff] at hentry
    obtain ⟨t, ht, rfl⟩ := hentry
    exact ⟨t, hpatch i t ht _ _, ht⟩

/-- A branch in upper case with odd blanks, and two labels at one place. -/
theorem assemble_resolved_loop :
    ∃ a texts b, assemble { branches := .relative }
        (.text "top: BNE x1,x2 , end # (t0)\n\nend: back: J\ttop".toList) = .ok a ∧
      a.resolved { branches := .relative } = .ok texts ∧
      texts = ["bne x1, x2, 4".toList, "j -4".toList] ∧
      assemble { branches := .relative } (.text (Text.joinLines texts)) = .ok b ∧
      b.labels = {} ∧ b.words = a.words := by
  have h : assemble { branches := .relative }
      (.text "top: BNE x1,x2 , end # (t0)\n\nend: back: J\ttop".toList) =
      .ok { labels := ⟨[("top".toList, 0), ("end".toList, 4), ("back".toList, 4)]⟩
            instructions := [⟨1, "BNE x1,x2 , end".toList⟩, ⟨3, "J\ttop".toList⟩]
            words := [0x00209263, 0xFFDFF06F] } := by decide +kernel
  obtain ⟨texts, b, hresolved, hb, hlabels, -, -, hwords⟩ := assemble_resolved h
  have htexts : Except.ok texts = (.ok ["bne x1, x2, 4".toList, "j -4".toList] :
      Except Failure (List Text)) := hresolved.symm.trans (by decide +kernel)
  exact ⟨_, texts, b, h, hresolved, Except.ok.inj htexts, hb, hlabels, hwords⟩

end RiscAsm

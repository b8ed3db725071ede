import RiscAsm.Proofs.Assemble.Passes
import RiscAsm.Proofs.Encode.Branch
import RiscAsm.Proofs.Operand

/-!
# Branch targets

A branch to a label is rewritten with a number and parsed once more.  The line that is written so is
read back as the same statement with the number in place of the label
(`Statement.parse_render_retarget`), so the word that is emitted branches to exactly that number.
In an assembled program every label at the end of a branch or a jump is therefore defined, and the
word leads to its offset (`target?_of_assembleText`).
-/

namespace RiscAsm

/-- The mnemonic of a line is in lower case, and its operands come from dividing a piece of it. -/
theorem Statement.parse_eq_ok {line : Text} {s : Statement} (h : Statement.parse line = .ok s) :
    (∀ c ∈ s.mnemonic, IsLowered c) ∧
      ∃ rest, rest <:+: line ∧ s.operands = Operand.tokenize rest := by
  refine ⟨(Statement.parse_yields line).ok h, ?_⟩
  unfold Statement.parse at h
  split at h
  · simp at h
  · obtain rfl := Except.ok.inj h
    refine ⟨_, ?_, rfl⟩
    have hsuffix : Text.afterFirstWord (Text.trim line) <:+ Text.trim line :=
      (List.dropWhile_suffix _).trans (List.dropWhile_suffix _)
    exact hsuffix.isInfix.trans (Text.trim_piece line)

/-- The label of a statement is its last operand, where a place in the program is expected and no
number is written. -/
theorem labelOperand?_eq_some {s : Statement} {name : Text} :
    labelOperand? s = some name ↔
      Encode.takesLabel s.mnemonic s.operands.length = true ∧
        s.operands.getLast? = some name ∧ Immediate.accepts name = false := by
  unfold labelOperand?
  split
  · rename_i htakes
    simp [htakes, Option.filter_eq_some_iff]
  · rename_i htakes
    simp [htakes]

namespace Statement

/-- A number in place of the last operand keeps the number of operands. -/
theorem length_retarget {s : Statement} {name : Text} (h : s.operands.getLast? = some name)
    (number : Int) : (s.retarget number).operands.length = s.operands.length := by
  have hpos : 0 < s.operands.length := by
    rw [List.length_pos_iff]
    rintro hnil
    simp [hnil] at h
  rw [retarget, List.length_append, List.length_dropLast, List.length_singleton]
  omega

/-- A statement with a number in place of its last operand is read back. -/
theorem parse_render_retarget {line : Text} {s : Statement} (h : parse line = .ok s)
    (number : Int) : parse (s.retarget number).render = .ok (s.retarget number) := by
  obtain ⟨hoperands, hclosed⟩ := operands_number h number
  exact parse_render_of_parse h hoperands hclosed

end Statement

/-- A number in place of a label is read as that number when its line is encoded, and the word
branches to it. -/
theorem target?_of_encode_retarget {p : Profile} {line name : Text} {s : Statement} {number : Int}
    {w : Nat} (hparse : Statement.parse line = .ok s) (hlabel : labelOperand? s = some name)
    (hword : encode p (s.retarget number).render = .ok w) :
    Immediate.parse (Numeral.ofInt number) = .ok number ∧ Word.target? w = some number := by
  obtain ⟨htakes, hlast, -⟩ := labelOperand?_eq_some.mp hlabel
  have htakes' : Encode.takesLabel (s.retarget number).mnemonic
      (s.retarget number).operands.length = true := by
    rwa [Statement.length_retarget hlast]
  obtain ⟨v, hv, htarget⟩ := Encode.target?_of_encodeWord
    (Statement.parse_render_retarget hparse number) htakes' List.getLast?_concat
    (encode_eq_ok.mp hword)
  obtain rfl := Immediate.eq_of_parse_ofInt hv
  exact ⟨hv, htarget⟩

/-- The word of an instruction that ends with a label branches to the number that the label stands
for. -/
theorem target?_of_encodesTo {settings : Settings} {labels : LabelTable} {line : SourceLine}
    {index w : Nat} {s : Statement} {name : Text} (h : EncodesTo settings labels line index w)
    (hparse : Statement.parse line.text = .ok s)
    (htakes : Encode.takesLabel s.mnemonic s.operands.length = true)
    (hlast : s.operands.getLast? = some name) (hname : Immediate.accepts name = false) :
    ∃ offset, labels.get? name = some offset ∧
      Word.target? w = some (branchTarget settings.branches (offsetOf index) offset) := by
  obtain ⟨text, hpatch, hword⟩ := h
  have hlabel : labelOperand? s = some name := labelOperand?_eq_some.mpr ⟨htakes, hlast, hname⟩
  rcases patch_eq_ok_iff.mp hpatch with ⟨hnone, -⟩ | ⟨s', name', offset, hs, hlabel', hget, rfl⟩
  · rw [labelAt?, hparse] at hnone
    exact absurd (hlabel.symm.trans hnone) (Option.some_ne_none name)
  · obtain rfl := Except.ok.inj (hparse.symm.trans hs)
    obtain rfl := Option.some.inj (hlabel.symm.trans hlabel')
    exact ⟨offset, hget, (target?_of_encode_retarget hparse hlabel hword).2⟩

/-- **Branches reach their labels**: in an assembled program, a final operand that is a place in the
program and no number is a defined label; its offset is four bytes for each instruction on the lines
before its own; and the word holds exactly this offset, or its distance from the branch. -/
theorem target?_of_assembleText {settings : Settings} {text : Text} {a : Assembly}
    (h : assembleText settings text = .ok a) {i : Nat} {line : SourceLine} {s : Statement}
    {name : Text} (hline : a.instructions[i]? = some line)
    (hparse : Statement.parse line.text = .ok s)
    (htakes : Encode.takesLabel s.mnemonic s.operands.length = true)
    (hlast : s.operands.getLast? = some name) (hname : Immediate.accepts name = false) :
    ∃ (offset : Int) (w : Nat) (before : List SourceLine) (defining : SourceLine)
      (after : List SourceLine),
      a.labels.get? name = some offset ∧
      programLines settings text = before ++ defining :: after ∧ name ∈ defining.labels ∧
      instructionsOf before <+: a.instructions ∧ offset = 4 * (instructionsOf before).length ∧
      a.words[i]? = some w ∧
      Word.target? w = some (match settings.branches with
        | .absolute => offset
        | .relative => offset - 4 * i) := by
  obtain ⟨-, hlabels, hinstructions, -, hwords⟩ := assembleText_eq_ok h
  obtain ⟨w, hw, hencodes⟩ := hwords i line hline
  obtain ⟨offset, hget, htarget⟩ := target?_of_encodesTo hencodes hparse htakes hlast hname
  -- the label was placed with the line that defines it
  have hentry : (name, offset) ∈ (labelsOf (programLines settings text)).entries := by
    rw [← hlabels]
    exact mem_of_lookup hget
  obtain ⟨before, defining, after, hlines, hmem, hoffset⟩ := Layout.mem_entries_ofLines.mp hentry
  have hprefix : instructionsOf before <+: a.instructions := by
    rw [hinstructions, hlines, instructionsOf, instructionsOf, List.filterMap_append]
    exact List.prefix_append ..
  refine ⟨offset, w, before, defining, after, hget, hlines, hmem, hprefix, ?_, hw, ?_⟩
  · rw [hoffset, instructionWidth]
    omega
  · rw [htarget]
    unfold branchTarget offsetOf instructionWidth
    cases settings.branches with
    | absolute => rfl
    | relative =>
        simp only [Option.some.injEq]
        omega

/-- A loop whose branch goes back over one instruction, in a program with relative branches. -/
theorem target?_of_assembleText_loop :
    ∃ a, assembleText { branches := .relative }
        "start:\nloop: addi x1, x1, -1 # count down\n  bnez x1, loop\n".toList = .ok a ∧
      a.words[1]? = some 0xFE009EE3 ∧ Word.target? 0xFE009EE3 = some (-4) ∧
      ∃ (offset : Int) (w : Nat) (before : List SourceLine) (defining : SourceLine)
        (after : List SourceLine),
        a.labels.get? "loop".toList = some offset ∧
        programLines { branches := .relative }
            "start:\nloop: addi x1, x1, -1 # count down\n  bnez x1, loop\n".toList =
          before ++ defining :: after ∧ "loop".toList ∈ defining.labels ∧
        instructionsOf before <+: a.instructions ∧ offset = 4 * (instructionsOf before).length ∧
        a.words[1]? = some w ∧ Word.target? w = some (offset - 4 * (1 : Nat)) := by
  have h : assembleText { branches := .relative }
      "start:\nloop: addi x1, x1, -1 # count down\n  bnez x1, loop\n".toList =
      .ok { labels := ⟨[("start".toList, 0), ("loop".toList, 0)]⟩
            instructions := [⟨2, "addi x1, x1, -1".toList⟩, ⟨3, "bnez x1, loop".toList⟩]
            words := [0xFFF08093, 0xFE009EE3] } := by decide +kernel
  have hparse : Statement.parse "bnez x1, loop".toList =
      .ok ⟨"bnez".toList, ["x1".toList, "loop".toList]⟩ := by decide +kernel
  exact ⟨_, h, rfl, by decide, target?_of_assembleText h (i := 1) rfl hparse (by decide +kernel) rfl
    (by decide +kernel)⟩

end RiscAsm

import RiscAsm.Program
import RiscAsm.Proofs.Encode.Denotation
import RiscAsm.Proofs.Layout
import RiscAsm.Proofs.Source

/-!
# Theory of the two passes

The first pass over a program succeeds when its lines are clean, and the second when every
instruction has a word (`EncodesTo`).  Together they say when a program is assembled
(`assembleText_eq_ok`); a pass that fails blames the position of an instruction
(`assembleText_of_first_not_clean`, `assembleText_eq_error`).
-/

namespace RiscAsm

/-! ## Source lines -/

/-- The lines of a program that are left when it is normalized. -/
def programLines (settings : Settings) (text : Text) : List SourceLine :=
  Source.normalize (!settings.stripComments) text

/-- Normalized lines are trimmed. -/
theorem trim_of_mem_programLines {settings : Settings} {text : Text} {line : SourceLine}
    (h : line ∈ programLines settings text) : Text.trim line.text = line.text :=
  (Source.isLine_of_mem_normalize h).trimmed

theorem length_splitOn (mark : Char) (s : Text) : (s.splitOn mark).length = s.count mark + 1 := by
  induction s with
  | nil => rfl
  | cons c s ih =>
      rw [List.splitOn_cons_eq_if_modifyHead, List.count_cons]
      split
      · rw [List.length_cons, ih]
      · rw [List.length_modifyHead, ih]

/-- A text has at most one line more than it has characters. -/
theorem length_rawLines_le (text : Text) : (Source.rawLines text).length ≤ text.length + 1 := by
  rw [Source.rawLines, length_splitOn]
  exact Nat.succ_le_succ (List.count_le_length.trans (Source.length_unifyBreaks_le text))

theorem length_programLines_le (settings : Settings) (text : Text) :
    (programLines settings text).length ≤ text.length + 1 := by
  have hkept := List.length_filterMap_le (Source.keepLine (!settings.stripComments))
    ((Source.rawLines text).zipIdx 1)
  rw [List.length_zipIdx] at hkept
  exact hkept.trans (length_rawLines_le text)

/-- Lines are numbered from one to the number of raw lines. -/
theorem number_of_mem_programLines {settings : Settings} {text : Text} {line : SourceLine}
    (h : line ∈ programLines settings text) :
    1 ≤ line.number ∧ line.number ≤ (Source.rawLines text).length := by
  obtain ⟨⟨raw, i⟩, hraw, hkeep⟩ := List.mem_filterMap.mp h
  have hlast := List.snd_lt_of_mem_zipIdx hraw
  have hfirst := List.le_snd_of_mem_zipIdx hraw
  rw [(Source.keepLine_eq_some hkeep).1]
  simp only at hlast hfirst
  omega

/-- The numbers of few lines can be written. -/
theorem tooLong_number {settings : Settings} {text : Text} {line : SourceLine}
    (hline : line ∈ programLines settings text)
    (hcount : Numeral.tooLong (Source.rawLines text).length = false) :
    Numeral.tooLong line.number = false := by
  obtain ⟨hfirst, hlast⟩ := number_of_mem_programLines hline
  exact Numeral.tooLong_of_le (by omega) hlast hcount

/-- The lines of a short text are few. -/
theorem tooLong_length_rawLines {text : Text} (hsize : Numeral.tooLong (4 * text.length) = false) :
    Numeral.tooLong (Source.rawLines text).length = false := by
  have hle := length_rawLines_le text
  by_cases hone : (Source.rawLines text).length ≤ 1
  · exact Numeral.tooLong_of_le (by omega) (Int.ofNat_le.mpr hone) (by decide +kernel)
  · exact Numeral.tooLong_of_le (by omega) (by omega) hsize

/-! ## Instructions -/

/-- The instruction at a position has the machine word `w`: its text, with the label at its end
replaced by a number, encodes to `w`. -/
def EncodesTo (settings : Settings) (labels : LabelTable) (line : SourceLine) (index w : Nat) :
    Prop :=
  ∃ text, patch settings labels line index = .ok text ∧ encode settings.profile text = .ok w

/-- The machine word of an instruction is below `2 ^ 32`. -/
theorem EncodesTo.lt {settings : Settings} {labels : LabelTable} {line : SourceLine}
    {index w : Nat} (h : EncodesTo settings labels line index w) : w < 4294967296 := by
  obtain ⟨text, -, hword⟩ := h
  exact ((Encode.encodeWord_yields settings.profile text).ok (encode_eq_ok.mp hword)).1

/-- An instruction has at most one machine word. -/
theorem EncodesTo.unique {settings : Settings} {labels : LabelTable} {line : SourceLine}
    {index w w' : Nat} (h : EncodesTo settings labels line index w)
    (h' : EncodesTo settings labels line index w') : w = w' := by
  obtain ⟨text, hpatch, hword⟩ := h
  obtain ⟨text', hpatch', hword'⟩ := h'
  obtain rfl := Except.ok.inj (hpatch.symm.trans hpatch')
  exact Except.ok.inj (hword.symm.trans hword')

/-- A name is resolved when it is defined, to its offset. -/
theorem LabelTable.resolve_eq_ok {labels : LabelTable} {name : Text} {line : Option SourceLine}
    {index : Option Int} {offset : Int} :
    labels.resolve name line index = .ok offset ↔ labels.get? name = some offset := by
  unfold LabelTable.resolve
  cases labels.get? name with
  | none => simp
  | some found => simp

/-- The label at the end of a line, if it has one. -/
def labelAt? (text : Text) : Option Text :=
  match Statement.parse text with
  | .ok s => labelOperand? s
  | .error _ => none

/-- The statement with a number in place of its last operand. -/
def Statement.retarget (s : Statement) (number : Int) : Statement :=
  { s with operands := s.operands.dropLast ++ [Numeral.ofInt number] }

/-- A line without a label stays as it is; otherwise the number that the label stands for takes its
place. -/
theorem patch_eq_ok_iff {settings : Settings} {labels : LabelTable} {line : SourceLine}
    {index : Nat} {text : Text} :
    patch settings labels line index = .ok text ↔
      (labelAt? line.text = none ∧ text = line.text) ∨
      ∃ s name offset, Statement.parse line.text = .ok s ∧ labelOperand? s = some name ∧
        labels.get? name = some offset ∧
        text = (s.retarget (branchTarget settings.branches (offsetOf index) offset)).render := by
  unfold patch labelAt?
  cases hparse : Statement.parse line.text with
  | error fault => simp [eq_comm]
  | ok s =>
      cases hlabel : labelOperand? s with
      | none => simp [hlabel, eq_comm]
      | some name =>
          simp only [reduceCtorEq, false_and, false_or, hlabel]
          rw [Result.bind_eq_ok]
          constructor
          · rintro ⟨offset, hresolve, htext⟩
            exact ⟨s, name, offset, rfl, hlabel, LabelTable.resolve_eq_ok.mp hresolve,
              (Result.pure_eq_ok.mp htext).symm⟩
          · rintro ⟨s', name', offset, hs, hlabel', hget, rfl⟩
            obtain rfl := Except.ok.inj hs
            obtain rfl := Option.some.inj (hlabel.symm.trans hlabel')
            exact ⟨offset, LabelTable.resolve_eq_ok.mpr hget, rfl⟩

/-- A failure reports a diagnostic about the program that shows a line, at the position `index`
among the instructions. -/
def Failure.Shows (failure : Failure) (line : SourceLine) (index : Int) : Prop :=
  ∃ d : Diagnostic, failure = d.failure ∧ d.kind ≠ .input ∧ d.line = some line.number ∧
    d.text = some line.text ∧ d.index = some index

theorem Failure.Shows.blames {failure : Failure} {line : SourceLine} {index : Int}
    (h : failure.Shows line index) (hnumber : Numeral.tooLong line.number = false) :
    failure.Blames index := by
  obtain ⟨d, rfl, hkind, hline, -, hindex⟩ := h
  exact ⟨d, d.failure_of_written hline hnumber, hkind, hindex⟩

/-- A line is patched unless its label is not found, which is reported with the line at its
position. -/
theorem patch_eq_error {settings : Settings} {labels : LabelTable} {line : SourceLine}
    {index : Nat} {failure : Failure} (h : patch settings labels line index = .error failure) :
    ∃ name, labels.get? name = none ∧ failure = LabelTable.diagnose .undefinedLabel
      ("Undefined label: ".toList ++ name) (some line) (some index) := by
  unfold patch at h
  split at h
  · cases h
  · split at h
    · cases h
    · rename_i name _
      rcases Result.bind_eq_error.mp h with hresolve | ⟨target, -, hpure⟩
      · unfold LabelTable.resolve at hresolve
        split at hresolve
        · cases hresolve
        · rename_i hnone
          exact ⟨name, hnone, (Except.error.inj hresolve).symm⟩
      · exact absurd hpure Result.pure_ne_error

/-- An instruction is emitted with its word. -/
theorem encodesTo_of_emit {settings : Settings} {labels : LabelTable} {line : SourceLine}
    {index : Nat} {e : Emitted} (h : emit settings labels (line, index) = .ok e) :
    EncodesTo settings labels line index e.word := by
  obtain ⟨text, hpatch, h⟩ := Result.bind_eq_ok.mp h
  split at h
  · rename_i w hword
    rw [Result.pure_eq_ok] at h
    subst h
    exact ⟨text, hpatch, hword⟩
  · simp at h

/-- An instruction without a word is reported with its line, at its position. -/
theorem emit_eq_error {settings : Settings} {labels : LabelTable} {line : SourceLine}
    {index : Nat} {failure : Failure} (h : emit settings labels (line, index) = .error failure) :
    failure.Shows line index ∧ ¬ ∃ w, EncodesTo settings labels line index w := by
  rcases Result.bind_eq_error.mp h with hpatch | ⟨text, hpatch, h⟩
  · obtain ⟨name, -, hfailure⟩ := patch_eq_error hpatch
    refine ⟨⟨⟨.undefinedLabel, "Undefined label: ".toList ++ name, some line.number,
      some line.text, some index⟩, hfailure, DiagnosticKind.noConfusion, rfl, rfl, rfl⟩, ?_⟩
    rintro ⟨w, text, hok, -⟩
    rw [hpatch] at hok
    cases hok
  · split at h
    · exact absurd h Result.pure_ne_error
    · rename_i cause hcause
      obtain ⟨reason, rfl⟩ := encode_eq_error hcause
      obtain rfl := Except.error.inj h
      refine ⟨⟨⟨.encoding, reason, some line.number, some line.text, some index⟩, rfl,
        DiagnosticKind.noConfusion, rfl, rfl, rfl⟩, ?_⟩
      rintro ⟨w, text', hok, hword⟩
      obtain rfl := Except.ok.inj (hpatch.symm.trans hok)
      rw [hcause] at hword
      cases hword

/-! ## Both passes -/

/-- The labels of a program. -/
def labelsOf (lines : List SourceLine) : LabelTable :=
  (Layout.ofLines instructionWidth lines).labels

theorem names_labelsOf (lines : List SourceLine) :
    (labelsOf lines).names = lines.flatMap SourceLine.labels :=
  Layout.names_ofLines ..

/-- The first pass succeeds on a program with clean lines. -/
theorem firstPass_eq_none_iff {settings : Settings} {text : Text} {l : Layout} :
    firstPass settings text = (l, none) ↔
      Clean (programLines settings text) ∧
        l = Layout.ofLines instructionWidth (programLines settings text) :=
  discover_eq_none_iff fun _ => trim_of_mem_programLines

/-- The first pass stops at the first line with a bad label. -/
theorem firstPass_of_first_not_clean {settings : Settings} {text : Text}
    {before after : List SourceLine} {line : SourceLine}
    (hlines : programLines settings text = before ++ line :: after) (hbefore : Clean before)
    (h : ¬ Clean (before ++ [line])) :
    ∃ l failure, firstPass settings text = (l, some failure) ∧
      (Layout.ofLines instructionWidth before).Stops instructionWidth line line.labels failure := by
  have htrim : ∀ other ∈ before ++ line :: after, Text.trim other.text = other.text := by
    intro other hother
    rw [← hlines] at hother
    exact trim_of_mem_programLines hother
  obtain ⟨l, failure, hdiscover, hstops⟩ :=
    discover_of_first_not_clean instructionWidth htrim hbefore h
  rw [← hlines] at hdiscover
  exact ⟨l, failure, hdiscover, hstops⟩

/-- Assembling ends with the failure of the first pass, or goes on with its layout. -/
theorem assembleText_eq (settings : Settings) (text : Text) :
    assembleText settings text =
      match firstPass settings text with
      | (_, some failure) => .error failure
      | (layout, none) => do
        let emitted ← secondPass settings layout
        return ⟨layout.labels, layout.instructions, emitted.map Emitted.word⟩ := by
  unfold assembleText layOut
  rcases firstPass settings text with ⟨layout, _ | failure⟩
  · rfl
  · rfl

/-- A line with a bad label is reported at the position of the next instruction. -/
theorem assembleText_of_first_not_clean {settings : Settings} {text : Text}
    {before after : List SourceLine} {line : SourceLine}
    (hlines : programLines settings text = before ++ line :: after) (hbefore : Clean before)
    (h : ¬ Clean (before ++ [line])) (hsize : Numeral.tooLong (4 * text.length) = false) :
    ∃ failure, assembleText settings text = .error failure ∧
      failure.Blames ((instructionsOf before).length + 1) := by
  obtain ⟨l, failure, hfirst, hstops⟩ := firstPass_of_first_not_clean hlines hbefore h
  have hshort : (Layout.ofLines instructionWidth before).Short instructionWidth := by
    have hlength := length_programLines_le settings text
    rw [hlines, List.length_append, List.length_cons] at hlength
    refine Layout.short_ofLines (by decide) (Numeral.tooLong_of_le ?_ ?_ hsize)
    · exact Int.mul_nonneg (by omega) (by decide)
    · rw [instructionWidth]
      omega
  have hline : line ∈ programLines settings text := by simp [hlines]
  refine ⟨failure, ?_, ?_⟩
  · rw [assembleText_eq, hfirst]
  · have hblames := hstops.blames hshort (tooLong_number hline (tooLong_length_rawLines hsize))
    rwa [Layout.nextIndex, (Layout.instructions_ofLines instructionWidth before).2] at hblames

/-- The entry at a position from zero on is numbered from one on. -/
theorem getElem?_zipIdx_one {lines : List SourceLine} {i : Nat} {line : SourceLine}
    (h : lines[i]? = some line) : (lines.zipIdx 1)[i]? = some (line, i + 1) := by
  rw [List.getElem?_zipIdx, h, Option.map_some, Nat.add_comm]

/-- A program that is assembled has clean lines, and a word for each of its instructions. -/
theorem assembleText_eq_ok {settings : Settings} {text : Text} {a : Assembly}
    (h : assembleText settings text = .ok a) :
    Clean (programLines settings text) ∧ a.labels = labelsOf (programLines settings text) ∧
      a.instructions = instructionsOf (programLines settings text) ∧
      a.words.length = a.instructions.length ∧
      ∀ (i : Nat) (line : SourceLine), a.instructions[i]? = some line →
        ∃ w, a.words[i]? = some w ∧ EncodesTo settings a.labels line (i + 1) w := by
  rw [assembleText_eq] at h
  split at h
  · simp at h
  · rename_i layout hfirst
    obtain ⟨hclean, rfl⟩ := firstPass_eq_none_iff.mp hfirst
    obtain ⟨emitted, hsecond, h⟩ := Result.bind_eq_ok.mp h
    rw [Result.pure_eq_ok] at h
    subst h
    obtain ⟨hlength, hget⟩ := Result.mapM_eq_ok hsecond
    refine ⟨hclean, rfl, (Layout.instructions_ofLines _ _).1, by simpa using hlength, ?_⟩
    intro i line hline
    obtain ⟨e, hemit, he⟩ := hget i (line, i + 1) (getElem?_zipIdx_one hline)
    exact ⟨e.word, by rw [List.getElem?_map, he, Option.map_some], encodesTo_of_emit hemit⟩

/-- A source that is assembled holds a text that is assembled. -/
theorem assemble_eq_ok {settings : Settings} {source : Source} {a : Assembly}
    (h : assemble settings source = .ok a) :
    ∃ text, source.decode = .ok text ∧ assembleText settings text = .ok a := by
  unfold assemble at h
  split at h
  · simp at h
  · rename_i text hdecode
    exact ⟨text, hdecode, h⟩

/-- The second pass fails at the first instruction that has no word. -/
theorem secondPass_eq_error {settings : Settings} {layout : Layout} {failure : Failure}
    (h : secondPass settings layout = .error failure) :
    ∃ (i : Nat) (line : SourceLine), layout.instructions[i]? = some line ∧
      failure.Shows line (i + 1) ∧ (¬ ∃ w, EncodesTo settings layout.labels line (i + 1) w) ∧
      ∀ j < i, ∀ other, layout.instructions[j]? = some other →
        ∃ w, EncodesTo settings layout.labels other (j + 1) w := by
  obtain ⟨i, ⟨line, index⟩, hentry, hemit, hbefore⟩ := Result.mapM_eq_error h
  rw [List.getElem?_zipIdx, Option.map_eq_some_iff] at hentry
  obtain ⟨line', hline, heq⟩ := hentry
  obtain ⟨rfl, rfl⟩ := Prod.mk.inj heq
  obtain ⟨hshows, hnone⟩ := emit_eq_error hemit
  rw [Nat.add_comm 1 i] at hshows hnone
  refine ⟨i, line', hline, hshows, hnone, ?_⟩
  intro j hj other hother
  obtain ⟨e, he⟩ := hbefore j hj (other, j + 1) (getElem?_zipIdx_one hother)
  exact ⟨e.word, encodesTo_of_emit he⟩

/-! ## Words of a program -/

/-- The instruction at a position, from zero on, of a program has the machine word `w`. -/
def HasWord (settings : Settings) (lines : List SourceLine) (i w : Nat) : Prop :=
  ∃ line, (instructionsOf lines)[i]? = some line ∧
    EncodesTo settings (labelsOf lines) line (i + 1) w

theorem HasWord.lt {settings : Settings} {lines : List SourceLine} {i w : Nat}
    (h : HasWord settings lines i w) : w < 4294967296 := by
  obtain ⟨line, -, hencodes⟩ := h
  exact hencodes.lt

theorem HasWord.unique {settings : Settings} {lines : List SourceLine} {i w w' : Nat}
    (h : HasWord settings lines i w) (h' : HasWord settings lines i w') : w = w' := by
  obtain ⟨line, hline, hencodes⟩ := h
  obtain ⟨line', hline', hencodes'⟩ := h'
  obtain rfl := Option.some.inj (hline.symm.trans hline')
  exact hencodes.unique hencodes'

/-- The words of an assembled program are those of its instructions. -/
theorem hasWord_of_assembleText {settings : Settings} {text : Text} {a : Assembly}
    (h : assembleText settings text = .ok a) {i w : Nat} (hw : a.words[i]? = some w) :
    HasWord settings (programLines settings text) i w := by
  obtain ⟨-, hlabels, hinstructions, hlength, hget⟩ := assembleText_eq_ok h
  rw [hlabels, hinstructions] at hget
  rw [hinstructions] at hlength
  have hi : i < (instructionsOf (programLines settings text)).length :=
    hlength ▸ (List.getElem?_eq_some_iff.mp hw).1
  have hline := List.getElem?_eq_getElem hi
  obtain ⟨w', hw', hencodes⟩ := hget i _ hline
  obtain rfl := Option.some.inj (hw.symm.trans hw')
  exact ⟨_, hline, hencodes⟩

/-- Every word of an instruction of an assembled program is found among its words. -/
theorem getElem?_words_of_hasWord {settings : Settings} {text : Text} {a : Assembly}
    (h : assembleText settings text = .ok a) {i w : Nat}
    (hw : HasWord settings (programLines settings text) i w) : a.words[i]? = some w := by
  obtain ⟨-, -, hinstructions, -, hget⟩ := assembleText_eq_ok h
  obtain ⟨line, hline, hencodes⟩ := hw
  obtain ⟨w', hw', -⟩ := hget i line (hinstructions ▸ hline)
  have hword := hasWord_of_assembleText h hw'
  rwa [HasWord.unique ⟨line, hline, hencodes⟩ hword]

/-- The words of an assembled program are machine words, so they fit into a buffer. -/
theorem lt_of_mem_words {settings : Settings} {text : Text} {a : Assembly}
    (h : assembleText settings text = .ok a) {w : Nat} (hw : w ∈ a.words) : w < 4294967296 := by
  obtain ⟨i, hi⟩ := List.mem_iff_getElem?.mp hw
  exact (hasWord_of_assembleText h hi).lt

/-- A program with clean lines fails at the first instruction that has no word. -/
theorem assembleText_eq_error {settings : Settings} {text : Text} {failure : Failure}
    (hclean : Clean (programLines settings text))
    (h : assembleText settings text = .error failure) :
    ∃ (i : Nat) (line : SourceLine),
      (instructionsOf (programLines settings text))[i]? = some line ∧ failure.Shows line (i + 1) ∧
      (¬ ∃ w, HasWord settings (programLines settings text) i w) ∧
      ∀ j < i, ∃ w, HasWord settings (programLines settings text) j w := by
  have hfirst := firstPass_eq_none_iff.mpr ⟨hclean, rfl⟩
  rw [assembleText_eq, hfirst] at h
  rcases Result.bind_eq_error.mp h with hsecond | ⟨emitted, -, hpure⟩
  · obtain ⟨i, line, hline, hshows, hnone, hbefore⟩ := secondPass_eq_error hsecond
    rw [(Layout.instructions_ofLines instructionWidth (programLines settings text)).1]
      at hline hbefore
    have hi := (List.getElem?_eq_some_iff.mp hline).1
    refine ⟨i, line, hline, hshows, ?_, ?_⟩
    · rintro ⟨w, line', hline', hencodes⟩
      obtain rfl := Option.some.inj (hline.symm.trans hline')
      exact hnone ⟨w, hencodes⟩
    · intro j hj
      have hother := List.getElem?_eq_getElem (Nat.lt_trans hj hi)
      obtain ⟨w, hencodes⟩ := hbefore j hj _ hother
      exact ⟨w, _, hother, hencodes⟩
  · exact absurd hpure Result.pure_ne_error

/-- A program with clean lines and a word for each instruction is assembled. -/
theorem assembleText_of_hasWord {settings : Settings} {text : Text} {words : List Nat}
    (hclean : Clean (programLines settings text))
    (hlength : words.length = (instructionsOf (programLines settings text)).length)
    (hwords : ∀ i w, words[i]? = some w → HasWord settings (programLines settings text) i w) :
    assembleText settings text =
      .ok { labels := labelsOf (programLines settings text)
            instructions := instructionsOf (programLines settings text)
            words } := by
  cases h : assembleText settings text with
  | error failure =>
      obtain ⟨i, line, hline, -, hnone, -⟩ := assembleText_eq_error hclean h
      have hi := (List.getElem?_eq_some_iff.mp hline).1
      exact absurd ⟨_, hwords i _ (List.getElem?_eq_getElem (hlength ▸ hi))⟩ hnone
  | ok a =>
      obtain ⟨-, hlabels, hinstructions, hcount, -⟩ := assembleText_eq_ok h
      have hsame : a.words = words := by
        apply List.ext_getElem?
        intro i
        by_cases hi : i < words.length
        · have hw := List.getElem?_eq_getElem hi
          rw [hw, getElem?_words_of_hasWord h (hwords i _ hw)]
        · rw [hinstructions, ← hlength] at hcount
          rw [List.getElem?_eq_none (by omega), List.getElem?_eq_none (by omega)]
      rw [← hlabels, ← hinstructions, ← hsame]

end RiscAsm

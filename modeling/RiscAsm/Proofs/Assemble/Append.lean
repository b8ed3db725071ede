import RiscAsm.Proofs.Assemble.Outcome

/-!
# Programs after one another

A program is put after another one with a line feed in between.  Its labels move on by the bytes of
the first program, and so do its instructions; labels and instructions of the first program stay
where they are (`labelsOf_append`, `HasWord.append_left`).  Two consequences:

* `assembleText_append_relative` : with relative branches, both programs are assembled to the bytes
  that they have on their own;
* `assembleText_append_keeps` : in both modes, what follows a program changes neither its bytes nor
  its labels, nor the report of a label that spoils it.
-/

namespace RiscAsm

/-! ## Lines further down -/

namespace SourceLine

theorem labels_moveDown (n : Nat) (line : SourceLine) :
    (line.moveDown n).labels = line.labels := rfl

theorem instruction?_moveDown (n : Nat) (line : SourceLine) :
    (line.moveDown n).instruction? = line.instruction?.map (moveDown n) := by
  unfold instruction? moveDown
  simp only
  split <;> rfl

end SourceLine

theorem instructionsOf_moveDown (n : Nat) (lines : List SourceLine) :
    instructionsOf (lines.map (SourceLine.moveDown n)) =
      (instructionsOf lines).map (SourceLine.moveDown n) := by
  rw [instructionsOf, instructionsOf, List.filterMap_map, List.map_filterMap]
  exact List.filterMap_congr fun line _ => SourceLine.instruction?_moveDown n line

/-- Labels do not depend on the numbers of the lines. -/
theorem labelsOf_moveDown (n : Nat) (lines : List SourceLine) :
    labelsOf (lines.map (SourceLine.moveDown n)) = labelsOf lines := by
  have hentries : ∀ lines : List SourceLine,
      (labelsOf (lines.map (SourceLine.moveDown n))).entries = (labelsOf lines).entries := by
    intro lines
    -- from the last line back, since its offset counts the instructions before it
    induction lines using List.reverseRecOn with
    | nil => rfl
    | append_singleton lines line ih =>
        unfold labelsOf at ih ⊢
        rw [List.map_append, List.map_singleton, Layout.entries_ofLines_concat, ih,
          Layout.entries_ofLines_concat, instructionsOf_moveDown, List.length_map,
          SourceLine.labels_moveDown]
  exact congrArg LabelTable.mk (hentries lines)

/-! ## Labels of both programs -/

/-- The number of bytes that the instructions of lines take up. -/
def byteCount (lines : List SourceLine) : Int := 4 * (instructionsOf lines).length

/-- The labels of the second program are further on by the size of the first. -/
theorem labelsOf_append (first rest : List SourceLine) (n : Nat) :
    (labelsOf (first ++ rest.map (SourceLine.moveDown n))).entries =
      (labelsOf first).entries ++
        (labelsOf rest).entries.map fun entry => (entry.1, entry.2 + byteCount first) := by
  have hsize : byteCount first = (instructionsOf first).length * instructionWidth := by
    rw [byteCount, instructionWidth]
    omega
  rw [hsize, ← labelsOf_moveDown n rest]
  exact Layout.entries_ofLines_append ..

/-- A label of the first program keeps its offset. -/
theorem get?_labelsOf_append_left {first rest : List SourceLine} {n : Nat} {name : Text}
    {offset : Int} (h : (labelsOf first).get? name = some offset) :
    (labelsOf (first ++ rest.map (SourceLine.moveDown n))).get? name = some offset := by
  rw [LabelTable.get?] at h ⊢
  rw [labelsOf_append, List.lookup_append, h, Option.some_or]

theorem lookup_map_add (k : Int) (l : List (Text × Int)) (name : Text) :
    (l.map fun entry => (entry.1, entry.2 + k)).lookup name =
      (l.lookup name).map fun offset => offset + k := by
  induction l with
  | nil => rfl
  | cons entry l ih =>
      rw [List.map_cons, List.lookup_cons, List.lookup_cons, ih]
      split <;> rfl

/-- A label of the second program that the first does not define moves on. -/
theorem get?_labelsOf_append_right {first rest : List SourceLine} {n : Nat} {name : Text}
    {offset : Int} (hnew : name ∉ (labelsOf first).names)
    (h : (labelsOf rest).get? name = some offset) :
    (labelsOf (first ++ rest.map (SourceLine.moveDown n))).get? name =
      some (offset + byteCount first) := by
  have hnone : (labelsOf first).entries.lookup name = none := lookup_eq_none_iff_not_mem.mpr hnew
  rw [LabelTable.get?] at h ⊢
  rw [labelsOf_append, List.lookup_append, hnone, Option.none_or, lookup_map_add, h,
    Option.map_some]

/-- Two programs are clean together when each of them is and no name is defined in both. -/
theorem Clean.append_moveDown {first rest : List SourceLine} (hfirst : Clean first)
    (hrest : Clean rest)
    (hdisjoint : ∀ name ∈ (labelsOf first).names, name ∉ (labelsOf rest).names) (n : Nat) :
    Clean (first ++ rest.map (SourceLine.moveDown n)) := by
  have hlabels : (rest.map (SourceLine.moveDown n)).flatMap SourceLine.labels =
      rest.flatMap SourceLine.labels := List.flatMap_map ..
  rw [names_labelsOf, names_labelsOf] at hdisjoint
  rw [Clean, List.flatMap_append, hlabels, List.forall_mem_append, List.nodup_append]
  refine ⟨⟨hfirst.1, hrest.1⟩, hfirst.2, hrest.2, ?_⟩
  rintro name hname _ hother rfl
  exact hdisjoint name hname hother

/-! ## Words of both programs -/

/-- The word of an instruction depends on its text and on the numbers that its label stands for, not
on its line, its position or its label table. -/
theorem EncodesTo.of_same_target {settings : Settings} {labels labels' : LabelTable}
    {line line' : SourceLine} {index index' w : Nat} (h : EncodesTo settings labels line index w)
    (htext : line'.text = line.text)
    (htarget : ∀ name offset, labels.get? name = some offset →
      ∃ offset', labels'.get? name = some offset' ∧
        branchTarget settings.branches (offsetOf index') offset' =
          branchTarget settings.branches (offsetOf index) offset) :
    EncodesTo settings labels' line' index' w := by
  obtain ⟨text, hpatch, hword⟩ := h
  refine ⟨text, ?_, hword⟩
  rw [patch_eq_ok_iff] at hpatch ⊢
  rw [htext]
  rcases hpatch with hplain | ⟨s, name, offset, hparse, hlabel, hget, rfl⟩
  · exact .inl hplain
  · obtain ⟨offset', hget', hsame⟩ := htarget name offset hget
    exact .inr ⟨s, name, offset', hparse, hlabel, hget', by rw [hsame]⟩

/-- The words of a program are not changed by what follows it. -/
theorem HasWord.append_left {settings : Settings} {first : List SourceLine} {i w : Nat}
    (h : HasWord settings first i w) (rest : List SourceLine) (n : Nat) :
    HasWord settings (first ++ rest.map (SourceLine.moveDown n)) i w := by
  obtain ⟨line, hline, hencodes⟩ := h
  refine ⟨line, ?_, ?_⟩
  · rw [instructionsOf_append, List.getElem?_append_left (List.getElem?_eq_some_iff.mp hline).1]
    exact hline
  · refine hencodes.of_same_target rfl ?_
    intro name offset hget
    exact ⟨offset, get?_labelsOf_append_left hget, rfl⟩

/-- With relative branches, the words of a program are not changed by what stands before it: labels
and instructions move on together. -/
theorem HasWord.append_right {settings : Settings} (hmode : settings.branches = .relative)
    {first rest : List SourceLine}
    (hdisjoint : ∀ name ∈ (labelsOf first).names, name ∉ (labelsOf rest).names) {i w : Nat}
    (h : HasWord settings rest i w) (n : Nat) :
    HasWord settings (first ++ rest.map (SourceLine.moveDown n))
      ((instructionsOf first).length + i) w := by
  obtain ⟨line, hline, hencodes⟩ := h
  refine ⟨line.moveDown n, ?_, ?_⟩
  · rw [instructionsOf_append, List.getElem?_append_right (Nat.le_add_right ..),
      Nat.add_sub_cancel_left, instructionsOf_moveDown, List.getElem?_map, hline, Option.map_some]
  · refine hencodes.of_same_target rfl ?_
    intro name offset hget
    have hnew : name ∉ (labelsOf first).names := by
      intro hold
      exact hdisjoint name hold (List.mem_map_of_mem (mem_of_lookup hget))
    refine ⟨offset + byteCount first, get?_labelsOf_append_right hnew hget, ?_⟩
    -- the branch moves on by as much as the label, so their distance stays
    simp only [hmode, branchTarget, offsetOf, byteCount, instructionWidth]
    omega

/-! ## Programs -/

theorem programLines_append (settings : Settings) (p q : Text) :
    ∃ n, programLines settings (p ++ '\n' :: q) =
      programLines settings p ++ (programLines settings q).map (SourceLine.moveDown n) :=
  Source.normalize_append ..

/-- The bytes of an assembled program are four for each of its instructions. -/
theorem length_bytes_of_assembleText {settings : Settings} {text : Text} {a : Assembly}
    (h : assembleText settings text = .ok a) :
    (a.bytes.length : Int) = byteCount (programLines settings text) := by
  obtain ⟨-, -, hinstructions, hlength, -⟩ := assembleText_eq_ok h
  rw [Assembly.bytes, Bytes.length_ofWords, hlength, hinstructions, byteCount]
  omega

/-- **Code with relative branches does not depend on its place**: two programs that define no name
both are assembled, one after the other, to the bytes of the first and the bytes of the second; the
labels are those of the first, and those of the second further on by the bytes of the first. -/
theorem assembleText_append_relative {settings : Settings} (hmode : settings.branches = .relative)
    {p q : Text} {a b : Assembly} (hp : assembleText settings p = .ok a)
    (hq : assembleText settings q = .ok b)
    (hdisjoint : ∀ name ∈ a.labels.names, name ∉ b.labels.names) :
    ∃ c, assembleText settings (p ++ '\n' :: q) = .ok c ∧
      c.toBuffer = .ok (Buffer.ofBytes c.bytes) ∧ c.bytes = a.bytes ++ b.bytes ∧
      c.labels.entries = a.labels.entries ++
        b.labels.entries.map fun entry => (entry.1, entry.2 + (a.bytes.length : Int)) := by
  obtain ⟨n, hlines⟩ := programLines_append settings p q
  obtain ⟨hcleanp, hlabelsp, hinstructionsp, hlengthp, -⟩ := assembleText_eq_ok hp
  obtain ⟨hcleanq, hlabelsq, hinstructionsq, hlengthq, -⟩ := assembleText_eq_ok hq
  rw [hlabelsp, hlabelsq] at hdisjoint
  have hclean : Clean (programLines settings (p ++ '\n' :: q)) := by
    rw [hlines]
    exact hcleanp.append_moveDown hcleanq hdisjoint n
  have hlength : (a.words ++ b.words).length =
      (instructionsOf (programLines settings (p ++ '\n' :: q))).length := by
    rw [hlines, instructionsOf_append, instructionsOf_moveDown, List.length_append,
      List.length_append, List.length_map, hlengthp, hlengthq, hinstructionsp, hinstructionsq]
  have hwords : ∀ i w, (a.words ++ b.words)[i]? = some w →
      HasWord settings (programLines settings (p ++ '\n' :: q)) i w := by
    intro i w hw
    rw [hlines]
    -- positions up to the size of the first program are its own, the others those of the second
    by_cases hi : i < a.words.length
    · rw [List.getElem?_append_left hi] at hw
      exact (hasWord_of_assembleText hp hw).append_left ..
    · rw [List.getElem?_append_right (Nat.le_of_not_lt hi)] at hw
      have hword := (hasWord_of_assembleText hq hw).append_right hmode hdisjoint n
      rw [hlengthp, hinstructionsp] at hi hword
      rwa [Nat.add_sub_cancel' (Nat.le_of_not_lt hi)] at hword
  have h := assembleText_of_hasWord hclean hlength hwords
  refine ⟨_, h, toBuffer_of_assembleText h, List.flatMap_append, ?_⟩
  rw [hlabelsp, hlabelsq, length_bytes_of_assembleText hp]
  simp only [hlines]
  exact labelsOf_append ..

/-- A loop with a label after it, and a jump over an instruction. -/
theorem assembleText_append_relative_loop :
    ∃ a b c, assembleText { branches := .relative }
        "loop: addi x1, x1, -1\nbnez x1, loop // again\nend:\r".toList = .ok a ∧
      assembleText { branches := .relative } "j next # skip\nnop\nnext: ret".toList = .ok b ∧
      assembleText { branches := .relative }
        ("loop: addi x1, x1, -1\nbnez x1, loop // again\nend:\r".toList ++
          '\n' :: "j next # skip\nnop\nnext: ret".toList) = .ok c ∧
      c.bytes = a.bytes ++ b.bytes ∧
      c.labels.entries = [("loop".toList, 0), ("end".toList, 8), ("next".toList, 16)] := by
  have hp : assembleText { branches := .relative }
      "loop: addi x1, x1, -1\nbnez x1, loop // again\nend:\r".toList =
      .ok { labels := ⟨[("loop".toList, 0), ("end".toList, 8)]⟩
            instructions := [⟨1, "addi x1, x1, -1".toList⟩, ⟨2, "bnez x1, loop".toList⟩]
            words := [0xFFF08093, 0xFE009EE3] } := by decide +kernel
  have hq : assembleText { branches := .relative } "j next # skip\nnop\nnext: ret".toList =
      .ok { labels := ⟨[("next".toList, 8)]⟩
            instructions := [⟨1, "j next".toList⟩, ⟨2, "nop".toList⟩, ⟨3, "ret".toList⟩]
            words := [0x0080006F, 0x13, 0x8067] } := by decide +kernel
  obtain ⟨c, hc, -, hbytes, hlabels⟩ := assembleText_append_relative rfl hp hq (by decide)
  exact ⟨_, _, c, hp, hq, hc, hbytes, hlabels⟩

/-- **What follows a program does not disturb it**: in both modes, if a program is assembled alone
and with a text after it, its bytes come first and its labels keep their offsets; and if its first
pass fails, that failure is reported whatever the text after it is. -/
theorem assembleText_append_keeps (settings : Settings) (p q : Text) :
    (∀ a c, assembleText settings p = .ok a → assembleText settings (p ++ '\n' :: q) = .ok c →
      a.bytes <+: c.bytes ∧
        ∀ name offset, a.labels.get? name = some offset → c.labels.get? name = some offset) ∧
    ∀ l failure, firstPass settings p = (l, some failure) →
      assembleText settings p = .error failure ∧
        assembleText settings (p ++ '\n' :: q) = .error failure ∧
        assembleBuffer settings (.text (p ++ '\n' :: q)) =
          assembleBuffer settings (.text p) := by
  obtain ⟨n, hlines⟩ := programLines_append settings p q
  constructor
  · intro a c hp hpq
    constructor
    · have hwords : a.words <+: c.words := by
        rw [List.prefix_iff_getElem?]
        intro i hi
        have hword := hasWord_of_assembleText hp (List.getElem?_eq_getElem hi)
        refine getElem?_words_of_hasWord hpq ?_
        rw [hlines]
        exact hword.append_left ..
      obtain ⟨rest, hrest⟩ := hwords
      exact ⟨Bytes.ofWords rest, by rw [Assembly.bytes, Assembly.bytes, ← hrest, Bytes.ofWords,
        Bytes.ofWords, Bytes.ofWords, List.flatMap_append]⟩
    · intro name offset hget
      rw [(assembleText_eq_ok hp).2.1] at hget
      rw [(assembleText_eq_ok hpq).2.1, hlines]
      exact get?_labelsOf_append_left hget
  · intro l failure hfirst
    -- the pass has stopped before it reads a line of the second text
    have hboth : firstPass settings (p ++ '\n' :: q) = (l, some failure) := by
      unfold firstPass discover at hfirst ⊢
      rw [← programLines] at hfirst ⊢
      rw [hlines]
      exact Layout.readAll_append_of_failure hfirst _
    have hp : assembleText settings p = .error failure := by
      rw [assembleText_eq, hfirst]
    have hpq : assembleText settings (p ++ '\n' :: q) = .error failure := by
      rw [assembleText_eq, hboth]
    refine ⟨hp, hpq, ?_⟩
    simp only [assembleBuffer, assemble, Source.decode, hp, hpq]

/-- A loop and a text that jumps to the end of it and forward; and a label that is defined twice,
before a text that is no program. -/
theorem assembleText_append_keeps_loop :
    (∃ a c, assembleText {} "loop: addi x1, x1, -1\nbnez x1, loop\nend:".toList = .ok a ∧
      assembleText {} ("loop: addi x1, x1, -1\nbnez x1, loop\nend:".toList ++
        '\n' :: "j end\nj later\nlater: nop".toList) = .ok c ∧
      a.bytes <+: c.bytes ∧ c.labels.get? "end".toList = some 8) ∧
    ∃ d : Diagnostic, d.kind = .duplicateLabel ∧ d.index = some 2 ∧
      assembleText {} ("x: bogus\nx: nop".toList ++ '\n' :: "1y: nop".toList) =
        .error (.diagnostic d) := by
  have hp : assembleText {} "loop: addi x1, x1, -1\nbnez x1, loop\nend:".toList =
      .ok { labels := ⟨[("loop".toList, 0), ("end".toList, 8)]⟩
            instructions := [⟨1, "addi x1, x1, -1".toList⟩, ⟨2, "bnez x1, loop".toList⟩]
            words := [0xFFF08093, 0x9063] } := by decide +kernel
  have hpq : assembleText {} ("loop: addi x1, x1, -1\nbnez x1, loop\nend:".toList ++
      '\n' :: "j end\nj later\nlater: nop".toList) =
      .ok { labels := ⟨[("loop".toList, 0), ("end".toList, 8), ("later".toList, 16)]⟩
            instructions := [⟨1, "addi x1, x1, -1".toList⟩, ⟨2, "bnez x1, loop".toList⟩,
              ⟨4, "j end".toList⟩, ⟨5, "j later".toList⟩, ⟨6, "nop".toList⟩]
            words := [0xFFF08093, 0x9063, 0x80006F, 0x100006F, 0x13] } := by decide +kernel
  have hfirst : firstPass {} "x: bogus\nx: nop".toList =
      (⟨⟨[("x".toList, 0)]⟩, [⟨1, "bogus".toList⟩], 1⟩, some (.diagnostic
        ⟨.duplicateLabel, "Duplicate label: x (already at offset 0)".toList, some 2,
          some "x: nop".toList, some 2⟩)) := by decide +kernel
  obtain ⟨hbytes, hlabels⟩ := (assembleText_append_keeps {} _ _).1 _ _ hp hpq
  obtain ⟨-, hfails, -⟩ := (assembleText_append_keeps {} _ "1y: nop".toList).2 _ _ hfirst
  exact ⟨⟨_, _, hp, hpq, hbytes, hlabels "end".toList 8 (by decide)⟩, _, rfl, rfl, hfails⟩

end RiscAsm

import RiscAsm.Proofs.Layout

/-!
# Label definitions in source order

`definitions` lists the label definitions of lines in the order in which they are written, each with
the number of instructions on the lines before its own.  The first pass takes them one by one: the
label table holds exactly these names at these places, and a failure comes from the first definition
that is not a name or repeats one (`discover_outcome`).  The report of a failure shows a line number
and an offset, which have to be short enough to be written.
-/

namespace RiscAsm

/-! ## Definitions -/

/-- A label definition: its line, its name and the number of instructions on the lines before. -/
structure Definition where
  line : SourceLine
  name : Text
  before : Nat
  deriving DecidableEq, Repr

/-- The definition of a name on a line, with the lines before it. -/
def Definition.after (earlier : List SourceLine) (line : SourceLine) (name : Text) : Definition :=
  ⟨line, name, (instructionsOf earlier).length⟩

/-- The label definitions of lines, in source order. -/
def definitions (lines : List SourceLine) : List Definition :=
  lines.zipIdx.flatMap fun entry =>
    entry.1.labels.map (Definition.after (lines.take entry.2) entry.1)

/-- All definitions are names, and no name is defined twice. -/
def Definition.Distinct (defs : List Definition) : Prop :=
  (∀ d ∈ defs, Label.isName d.name = true) ∧ (defs.map Definition.name).Nodup

/-- The failure that a definition causes after earlier ones: it is not a name, or it repeats one of
them.  The diagnostic is about its line, at the position after the instructions before that. -/
def Definition.Fails (earlier : List Definition) (d : Definition) (failure : Failure) : Prop :=
  (Label.isName d.name = false ∧ failure.Points .labelSyntax d.line (d.before + 1)) ∨
    Label.isName d.name = true ∧ d.name ∈ earlier.map Definition.name ∧
      failure.Points .duplicateLabel d.line (d.before + 1)

/-- The numbers that the report of a failure may have to show can be written: those of the lines,
and the offsets of the labels. -/
structure Written (width : Int) (lines : List SourceLine) : Prop where
  numbers : ∀ line ∈ lines, Numeral.tooLong line.number = false
  offsets : ∀ d ∈ definitions lines, Numeral.tooLong (d.before * width) = false

/-- The definitions on the first lines do not depend on the lines after them. -/
theorem definitions_append (first rest : List SourceLine) :
    definitions (first ++ rest) = definitions first ++
      (rest.zipIdx first.length).flatMap fun entry =>
        entry.1.labels.map (Definition.after ((first ++ rest).take entry.2) entry.1) := by
  rw [definitions, List.zipIdx_append, List.flatMap_append, Nat.zero_add]
  refine congrArg (· ++ _) ?_
  apply List.flatMap_congr
  rintro ⟨line, i⟩ hmem
  have hi : i < first.length := by
    have hlt := List.snd_lt_of_mem_zipIdx hmem
    omega
  rw [List.take_append_of_le_length (Nat.le_of_lt hi)]

/-- One more line adds the definitions of its labels. -/
theorem definitions_concat (lines : List SourceLine) (line : SourceLine) :
    definitions (lines ++ [line]) =
      definitions lines ++ line.labels.map (Definition.after lines line) := by
  rw [definitions_append, List.zipIdx_singleton, List.flatMap_singleton, List.take_left]

/-- The names that are defined are the labels of the lines. -/
theorem map_name_definitions (lines : List SourceLine) :
    (definitions lines).map Definition.name = lines.flatMap SourceLine.labels := by
  induction lines using List.reverseRecOn with
  | nil => rfl
  | append_singleton lines line ih =>
      rw [definitions_concat, List.map_append, ih, List.flatMap_append, List.flatMap_singleton,
        List.map_map]
      simp [Function.comp_def, Definition.after]

/-- The label table has every definition at the offset of the next instruction. -/
theorem entries_ofLines (width : Int) (lines : List SourceLine) :
    (Layout.ofLines width lines).labels.entries =
      (definitions lines).map fun d => (d.name, d.before * width) := by
  induction lines using List.reverseRecOn with
  | nil => rfl
  | append_singleton lines line ih =>
      rw [Layout.entries_ofLines_concat, ih, definitions_concat, List.map_append, List.map_map]
      rfl

namespace Definition

/-! ## Refused definitions -/

/-- Lines are clean when their definitions are distinct. -/
theorem distinct_definitions_iff {lines : List SourceLine} :
    Distinct (definitions lines) ↔ Clean lines := by
  rw [Distinct, Clean, ← map_name_definitions, List.forall_mem_map]

/-- A layout that refuses a label of a line, after others of it, fails with its definition. -/
theorem fails_of_refuses {width : Int} {lines : List SourceLine} {line : SourceLine}
    {good : List Text} {bad : Text} {failure : Failure}
    (hnumber : Numeral.tooLong line.number = false)
    (hoffsets : ∀ d ∈ definitions lines ++ good.map (after lines line),
      Numeral.tooLong (d.before * width) = false)
    (h : ((Layout.ofLines width lines).label width good).Refuses line bad failure) :
    Fails (definitions lines ++ good.map (after lines line)) (after lines line bad) failure := by
  have hindex : ((Layout.ofLines width lines).label width good).nextIndex =
      (instructionsOf lines).length + 1 := by
    rw [Layout.nextIndex, Layout.label, (Layout.instructions_ofLines width lines).2]
  have hentries : ((Layout.ofLines width lines).label width good).labels.entries =
      (definitions lines ++ good.map (after lines line)).map fun d =>
        (d.name, d.before * width) := by
    rw [Layout.label, entries_ofLines, (Layout.instructions_ofLines width lines).2,
      List.map_append, List.map_map]
    rfl
  rw [Layout.Refuses, hindex] at h
  rcases h with ⟨hname, hreports⟩ | ⟨hname, offset, hget, hreports, -⟩
  · exact .inl ⟨hname, hreports.points hnumber⟩
  · -- the name is that of an earlier definition, on a line before or on the same line
    have hmem := mem_of_lookup hget
    rw [hentries] at hmem
    obtain ⟨first, hfirst, heq⟩ := List.mem_map.mp hmem
    obtain ⟨hfirstName, rfl⟩ := Prod.mk.inj heq
    refine .inr ⟨hname, ?_, (hreports (hoffsets first hfirst)).points hnumber⟩
    exact List.mem_map.mpr ⟨first, hfirst, hfirstName⟩

/-- A layout that stops on a line fails with the first of all definitions that is refused. -/
theorem exists_fails_of_stops {width : Int} {before after : List SourceLine} {line : SourceLine}
    {failure : Failure} (hwritten : Written width (before ++ line :: after))
    (hbefore : Clean before)
    (h : (Layout.ofLines width before).Stops width line line.labels failure) :
    ∃ good bad rest, definitions (before ++ line :: after) = good ++ bad :: rest ∧
      Distinct good ∧ Fails good bad failure := by
  obtain ⟨good, bad, rest, hlabels, hadmits, hrefuses⟩ := h
  obtain ⟨later, hlater⟩ : ∃ later, definitions (before ++ line :: after) =
      definitions (before ++ [line]) ++ later := by
    rw [List.append_cons]
    exact ⟨_, definitions_append _ after⟩
  rw [definitions_concat, hlabels, List.map_append, List.map_cons, ← List.append_assoc,
    List.append_assoc, List.cons_append] at hlater
  have hoffsets := hwritten.offsets
  rw [hlater, List.forall_mem_append] at hoffsets
  refine ⟨_, _, _, hlater, ?_,
    fails_of_refuses (hwritten.numbers line (by simp)) hoffsets.1 hrefuses⟩
  obtain ⟨hnames, hnodup⟩ := hadmits
  rw [Layout.names_ofLines, ← map_name_definitions] at hnodup
  constructor
  · intro d hd
    rcases List.mem_append.mp hd with hd | hd
    · exact (distinct_definitions_iff.mpr hbefore).1 d hd
    · obtain ⟨name, hname, rfl⟩ := List.mem_map.mp hd
      exact hnames name hname
  · rw [List.map_append, List.map_map]
    simpa [Function.comp_def, Definition.after] using hnodup

end Definition

/-! ## The outcome of the first pass -/

/-- **The first pass takes labels in source order**: it succeeds exactly if all labels of all lines
are names and no name is defined twice.  Then the instructions are those of the lines, none of them
has a colon, and the label table has the definitions in source order, each at the offset of the
instructions before its line.  Otherwise the first definition that is not a name, or repeats one,
gives the failure: a diagnostic about its line at the position after those instructions. -/
theorem discover_outcome (width : Int) {lines : List SourceLine}
    (htrim : ∀ line ∈ lines, Text.trim line.text = line.text) (hwritten : Written width lines) :
    ((discover width lines).2 = none ↔ Clean lines) ∧
      ((discover width lines).2 = none →
        (discover width lines).1.instructions = instructionsOf lines ∧
        (∀ line ∈ (discover width lines).1.instructions, ':' ∉ line.text) ∧
        (discover width lines).1.labels.entries =
          (definitions lines).map fun d => (d.name, d.before * width)) ∧
      ∀ failure, (discover width lines).2 = some failure →
        ∃ good bad rest, definitions lines = good ++ bad :: rest ∧ Definition.Distinct good ∧
          Definition.Fails good bad failure := by
  by_cases hclean : Clean lines
  -- clean lines are placed, and the first line that spoils them stops the pass
  · rw [discover_of_clean hclean htrim]
    refine ⟨by simp [hclean], fun _ => ?_, by simp⟩
    have hinstructions := (Layout.instructions_ofLines width lines).1
    refine ⟨hinstructions, ?_, entries_ofLines width lines⟩
    intro instruction hmem
    rw [hinstructions] at hmem
    obtain ⟨line, -, hline⟩ := List.mem_filterMap.mp hmem
    exact (SourceLine.of_instruction? hline).2.2.2
  · obtain ⟨before, line, after, rfl, hbefore, hfirst⟩ := exists_first_not clean_nil hclean
    obtain ⟨l, failure, hdiscover, hstops⟩ :=
      discover_of_first_not_clean width htrim hbefore hfirst
    rw [hdiscover]
    refine ⟨by simp [hclean], by simp, ?_⟩
    rintro _ ⟨⟩
    exact Definition.exists_fails_of_stops hwritten hbefore hstops

/-- Stacked labels stand for the same instruction, and one of them may not repeat a label of the
line before. -/
theorem discover_outcome_stacked :
    (discover 4 [⟨1, "a: nop".toList⟩, ⟨3, "b: c :ret".toList⟩]).1.labels.entries =
        [("a".toList, 0), ("b".toList, 4), ("c".toList, 4)] ∧
      ∃ failure, ∃ bad ∈ definitions [⟨1, "a: nop".toList⟩, ⟨3, "b: a :ret".toList⟩],
        (discover 4 [⟨1, "a: nop".toList⟩, ⟨3, "b: a :ret".toList⟩]).2 = some failure ∧
        failure.Points .duplicateLabel bad.line (bad.before + 1) := by
  constructor
  · obtain ⟨hclean, hparts, -⟩ := @discover_outcome 4
      [⟨1, "a: nop".toList⟩, ⟨3, "b: c :ret".toList⟩] (by decide +kernel)
      ⟨by decide +kernel, by decide +kernel⟩
    obtain ⟨-, -, hentries⟩ := hparts (hclean.mpr (by decide +kernel))
    rw [hentries]
    decide +kernel
  · obtain ⟨hclean, -, hfails⟩ := @discover_outcome 4
      [⟨1, "a: nop".toList⟩, ⟨3, "b: a :ret".toList⟩] (by decide +kernel)
      ⟨by decide +kernel, by decide +kernel⟩
    have hnames : ∀ d ∈ definitions [⟨1, "a: nop".toList⟩, ⟨3, "b: a :ret".toList⟩],
        Label.isName d.name = true := by decide +kernel
    obtain ⟨failure, hfailure⟩ := Option.ne_none_iff_exists'.mp
      (mt hclean.mp (by decide +kernel))
    obtain ⟨good, bad, rest, hdefinitions, -, hbad⟩ := hfails failure hfailure
    rw [hdefinitions] at hnames ⊢
    have hmem : bad ∈ good ++ bad :: rest := List.mem_append_right good List.mem_cons_self
    refine ⟨failure, bad, hmem, hfailure, ?_⟩
    rcases hbad with ⟨hname, -⟩ | ⟨-, -, hpoints⟩
    · rw [hnames bad hmem] at hname
      cases hname
    · exact hpoints

end RiscAsm

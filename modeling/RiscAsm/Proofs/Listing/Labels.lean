import RiscAsm.Proofs.Session

/-!
# Labels in listings

The lines of a listing that show a label show the labels that stand before an instruction, in the
order of their definitions (`Assembly.Placed.filter_isLabelLine`).  Each of them is shown once,
after the lines of the instructions before it and in front of the line of the instruction at its
offset (`Assembly.ShownAt`, `Assembly.Placed.shownAt`).  A label after the last instruction is not
shown (`Assembly.Placed.labelLine_mem_iff`).
-/

namespace RiscAsm

/-! ## Offsets in the order of definition -/

/-- Labels that are defined later stand at the same offset or further down. -/
theorem Layout.pairwise_entries_ofLines {width : Int} (hwidth : 0 ≤ width)
    (lines : List SourceLine) :
    (ofLines width lines).labels.entries.Pairwise fun first second => first.2 ≤ second.2 := by
  induction lines using List.reverseRecOn with
  | nil => exact List.Pairwise.nil
  | append_singleton lines line ih =>
      rw [entries_ofLines_concat, List.pairwise_append]
      refine ⟨ih, ?_, ?_⟩
      · rw [List.pairwise_map]
        exact List.pairwise_of_forall fun _ _ => Int.le_refl _
      · rintro ⟨name, offset⟩ hfirst second hsecond
        obtain ⟨before, earlier, after, rfl, -, rfl⟩ := mem_entries_ofLines.mp hfirst
        obtain ⟨later, -, rfl⟩ := List.mem_map.mp hsecond
        apply Int.mul_le_mul_of_nonneg_right _ hwidth
        rw [instructionsOf_append, List.length_append]
        omega

namespace Assembly

/-- The labels of a program have different names, stand before an instruction or at the end, and
follow in the order of their definitions. -/
structure Placed (a : Assembly) : Prop where
  length_words : a.words.length = a.instructions.length
  nodup : a.labels.names.Nodup
  offset : ∀ label ∈ a.labels.entries, ∃ i : Nat, i ≤ a.words.length ∧ label.2 = 4 * i
  ordered : a.labels.entries.Pairwise fun first second => first.2 ≤ second.2

/-- The labels of an assembled program are placed in this way. -/
theorem placed_of_assembleText {settings : Settings} {text : Text} {a : Assembly}
    (h : assembleText settings text = .ok a) : a.Placed := by
  obtain ⟨hclean, hlabels, -, hlength, -⟩ := assembleText_eq_ok h
  constructor
  · exact hlength
  · rw [hlabels, names_labelsOf]
    exact hclean.2
  · exact fun label hlabel => label_offset_of_assembleText h hlabel
  · rw [hlabels]
    exact Layout.pairwise_entries_ofLines (by decide) _

/-! ## Lines of labels -/

/-- A line of a listing that shows a label. -/
def isLabelLine (line : Text) : Bool := (List.replicate 26 ' ').isPrefixOf line

theorem isLabelLine_labelLine (name : Text) : isLabelLine (labelLine name) = true := by
  rw [isLabelLine, List.isPrefixOf_iff_prefix, labelLine, List.append_assoc]
  exact List.prefix_append ..

theorem isLabelLine_codeLine (baseAddress offset word : Nat) (line : SourceLine) :
    isLabelLine (codeLine baseAddress offset word line) = false := rfl

theorem labelLine_injective {name other : Text} (h : labelLine name = labelLine other) :
    name = other := by
  rw [labelLine, labelLine, List.append_assoc, List.append_assoc] at h
  exact List.append_cancel_right (List.append_cancel_left h)

/-- The labels before an offset, in the order of their definitions. -/
def labelsBefore (labels : LabelTable) (offset : Nat) : List (Text × Int) :=
  labels.entries.filter fun label => label.2 < (offset : Int)

/-- Of the lines of an entry, all but the last show its labels. -/
theorem filter_isLabelLine_listingEntry (baseAddress : Nat) (labels : LabelTable)
    (entry : (SourceLine × Nat) × Nat) :
    (listingEntry baseAddress (groupLabels labels) entry).filter isLabelLine =
      (labelsAt labels (offsetOf entry.2)).map fun label => labelLine label.1 := by
  have hnames : ∀ names : List Text, (names.map labelLine).filter isLabelLine =
      names.map labelLine := by
    intro names
    rw [List.filter_eq_self]
    intro shown hshown
    obtain ⟨name, -, rfl⟩ := List.mem_map.mp hshown
    exact isLabelLine_labelLine name
  simp only [listingEntry]
  rw [List.filter_append, hnames, List.filter_cons_of_neg (by simp [isLabelLine_codeLine]),
    List.filter_nil, List.append_nil, namesAt_groupLabels, List.map_map]
  rfl

/-- In the order of definition, the labels before the offset of the next instruction are those
before an instruction, then those at it. -/
theorem filter_lt_succ {entries : List (Text × Int)}
    (hoffset : ∀ label ∈ entries, ∃ i : Nat, label.2 = 4 * i)
    (hordered : entries.Pairwise fun first second => first.2 ≤ second.2) (n : Nat) :
    (entries.filter fun label : Text × Int => label.2 < ((4 * (n + 1) : Nat) : Int)) =
      (entries.filter fun label : Text × Int => label.2 < ((4 * n : Nat) : Int)) ++
        entries.filter fun label : Text × Int => label.2 == ((4 * n : Nat) : Int) := by
  induction entries with
  | nil => rfl
  | cons label entries ih =>
      obtain ⟨⟨i, hi⟩, hoffset⟩ := List.forall_mem_cons.mp hoffset
      obtain ⟨hfirst, hordered⟩ := List.pairwise_cons.mp hordered
      have hrest := ih hoffset hordered
      rcases Nat.lt_trichotomy i n with hlt | rfl | hgt
      · rw [List.filter_cons_of_pos, List.filter_cons_of_pos, List.filter_cons_of_neg, hrest]
        · rfl
        all_goals simp only [decide_eq_true_eq, beq_iff_eq]; omega
      · -- no label before the offset follows
        have hnone : (entries.filter fun label : Text × Int => label.2 < ((4 * i : Nat) : Int)) =
            [] := by
          rw [List.filter_eq_nil_iff]
          intro later hlater
          have hle := hfirst later hlater
          rw [decide_eq_true_eq]
          omega
        rw [hnone] at hrest
        rw [List.filter_cons_of_pos, List.filter_cons_of_neg, List.filter_cons_of_pos, hrest, hnone]
        · rfl
        all_goals simp only [decide_eq_true_eq, beq_iff_eq]; omega
      · rw [List.filter_cons_of_neg, List.filter_cons_of_neg, List.filter_cons_of_neg, hrest]
        all_goals simp only [decide_eq_true_eq, beq_iff_eq]; omega

/-- The labels at the offsets of the first instructions are those before the offset of the next
one. -/
theorem flatMap_labelsAt {labels : LabelTable}
    (hoffset : ∀ label ∈ labels.entries, ∃ i : Nat, label.2 = 4 * i)
    (hordered : labels.entries.Pairwise fun first second => first.2 ≤ second.2) (n : Nat) :
    (List.range n).flatMap (fun i => labelsAt labels (4 * i)) = labelsBefore labels (4 * n) := by
  induction n with
  | zero =>
      symm
      rw [List.range_zero, List.flatMap_nil, labelsBefore, List.filter_eq_nil_iff]
      intro label hlabel
      obtain ⟨i, hi⟩ := hoffset label hlabel
      rw [decide_eq_true_eq]
      omega
  | succ n ih =>
      rw [List.range_succ, List.flatMap_append, List.flatMap_singleton, ih, labelsBefore,
        labelsBefore, filter_lt_succ hoffset hordered]
      rfl

/-- **The lines of labels**: a listing shows the labels before its end, in the order of their
definitions. -/
theorem Placed.filter_isLabelLine {a : Assembly} (h : a.Placed) (settings : Settings) :
    (a.listingLines settings).filter isLabelLine =
      (labelsBefore a.labels (4 * a.words.length)).map fun label => labelLine label.1 := by
  have hhead : listingHead.filter isLabelLine = [] := by decide
  have hoffset : ∀ label ∈ a.labels.entries, ∃ i : Nat, label.2 = 4 * i := by
    intro label hlabel
    obtain ⟨i, -, hi⟩ := h.offset label hlabel
    exact ⟨i, hi⟩
  have hindices : ((a.instructions.zip a.words).zipIdx 1).map Prod.snd =
      (List.range a.words.length).map (1 + ·) := by
    rw [List.zipIdx_map_snd, List.length_zip, ← h.length_words, Nat.min_self,
      List.range'_eq_map_range]
  -- the entries are taken by their positions alone
  have hentries : ((a.instructions.zip a.words).zipIdx 1).flatMap
      (fun entry => (labelsAt a.labels (offsetOf entry.2)).map fun label => labelLine label.1) =
        (List.range a.words.length).flatMap fun i =>
          (labelsAt a.labels (4 * i)).map fun label => labelLine label.1 := by
    rw [← List.flatMap_map Prod.snd fun index =>
      (labelsAt a.labels (offsetOf index)).map fun label => labelLine label.1, hindices,
      List.flatMap_map]
    simp only [offsetOf_one_add]
  rw [listingLines, List.filter_append, hhead, List.nil_append, List.filter_flatMap]
  simp only [filter_isLabelLine_listingEntry]
  rw [hentries, ← List.map_flatMap, flatMap_labelsAt hoffset h.ordered]

/-! ## Places of labels -/

/-- A label is shown once, after the lines of the first `i` instructions and before those of the
others. -/
structure ShownAt (settings : Settings) (a : Assembly) (lines : List Text) (name : Text) (i : Nat) :
    Prop where
  once : lines.count (labelLine name) = 1
  place : ∃ before after, lines = before ++ labelLine name :: after ∧
    before.filter isCodeLine = (a.codeLines settings).take i ∧
    after.filter isCodeLine = (a.codeLines settings).drop i

/-- A listing at an instruction: the lines before it, its labels, its own line, and the lines after
it. -/
theorem exists_listing_at (settings : Settings) {a : Assembly} {i : Nat}
    (hi : i < (a.instructions.zip a.words).length) :
    ∃ before code after,
      a.listingLines settings = before ++
        (((labelsAt a.labels (4 * i)).map fun label => labelLine label.1) ++ code :: after) ∧
      before.filter isCodeLine = (a.codeLines settings).take i ∧
      (code :: after).filter isCodeLine = (a.codeLines settings).drop i := by
  have hhead : listingHead.filter isCodeLine = [] := by decide
  have hdrop : ((a.instructions.zip a.words).zipIdx 1).drop i =
      ((a.instructions.zip a.words)[i], 1 + i) ::
        ((a.instructions.zip a.words).zipIdx 1).drop (i + 1) := by
    rw [List.drop_eq_getElem_cons (by simpa using hi), List.getElem_zipIdx]
  refine ⟨listingHead ++ (((a.instructions.zip a.words).zipIdx 1).take i).flatMap
      (listingEntry settings.baseAddress (groupLabels a.labels)),
    codeLine settings.baseAddress (offsetOf (1 + i)) (a.instructions.zip a.words)[i].2
      (a.instructions.zip a.words)[i].1,
    (((a.instructions.zip a.words).zipIdx 1).drop (i + 1)).flatMap
      (listingEntry settings.baseAddress (groupLabels a.labels)), ?_, ?_, ?_⟩
  · rw [listingLines, ← List.take_append_drop i ((a.instructions.zip a.words).zipIdx 1),
      List.flatMap_append, List.take_append_drop, hdrop, List.flatMap_cons, ← offsetOf_one_add,
      List.append_assoc]
    simp only [listingEntry, namesAt_groupLabels, List.map_map, Function.comp_def,
      List.append_assoc, List.singleton_append]
  · rw [List.filter_append, hhead, List.nil_append, filter_isCodeLine_flatMap, codeLines_eq_map,
      List.map_take]
  · rw [List.filter_cons_of_pos (isCodeLine_codeLine ..), filter_isCodeLine_flatMap,
      codeLines_eq_map, ← List.map_drop, hdrop, List.map_cons]

/-- The line of a label at the offset of an instruction stands between the lines of the instructions
before it and those of the others. -/
theorem exists_place (settings : Settings) {a : Assembly} {label : Text × Int}
    (hlabel : label ∈ a.labels.entries) {i : Nat} (hoffset : label.2 = 4 * i)
    (hi : i < (a.instructions.zip a.words).length) :
    ∃ before after, a.listingLines settings = before ++ labelLine label.1 :: after ∧
      before.filter isCodeLine = (a.codeLines settings).take i ∧
      after.filter isCodeLine = (a.codeLines settings).drop i := by
  obtain ⟨before, code, after, hlines, hbefore, hafter⟩ := exists_listing_at settings hi
  have hmem : label ∈ labelsAt a.labels (4 * i) := by
    rw [labelsAt, List.mem_filter, beq_iff_eq]
    exact ⟨hlabel, by omega⟩
  obtain ⟨first, later, hhere⟩ := List.append_of_mem hmem
  refine ⟨before ++ (first.map Prod.fst).map labelLine,
    (later.map Prod.fst).map labelLine ++ code :: after, ?_, ?_, ?_⟩
  · rw [hlines, hhere, List.map_append, List.map_cons]
    simp only [List.map_map, Function.comp_def, List.append_assoc, List.cons_append]
  · rw [List.filter_append, filter_isCodeLine_labels, List.append_nil, hbefore]
  · rw [List.filter_append, filter_isCodeLine_labels, List.nil_append, hafter]

/-- A label with a given name is shown if it stands before the end. -/
theorem Placed.labelLine_mem_iff {a : Assembly} (h : a.Placed) (settings : Settings)
    {label : Text × Int} (hlabel : label ∈ a.labels.entries) :
    labelLine label.1 ∈ a.listingLines settings ↔ label.2 < ((4 * a.words.length : Nat) : Int) := by
  have hfilter : labelLine label.1 ∈ a.listingLines settings ↔
      labelLine label.1 ∈ (a.listingLines settings).filter isLabelLine := by
    rw [List.mem_filter, isLabelLine_labelLine, and_iff_left rfl]
  rw [hfilter, h.filter_isLabelLine, List.mem_map, labelsBefore]
  constructor
  · rintro ⟨other, hother, hline⟩
    obtain ⟨hother, hlt⟩ := List.mem_filter.mp hother
    -- no other label has the name
    obtain rfl := List.inj_on_of_nodup_map h.nodup hother hlabel (labelLine_injective hline)
    exact of_decide_eq_true hlt
  · intro hlt
    exact ⟨label, List.mem_filter.mpr ⟨hlabel, decide_eq_true hlt⟩, rfl⟩

/-- No label is shown twice. -/
theorem Placed.count_labelLine_le {a : Assembly} (h : a.Placed) (settings : Settings)
    (name : Text) : (a.listingLines settings).count (labelLine name) ≤ 1 := by
  have hnodup : ((a.listingLines settings).filter isLabelLine).Nodup := by
    rw [h.filter_isLabelLine, ← Function.comp_def labelLine Prod.fst, ← List.map_map]
    have hnames : ((labelsBefore a.labels (4 * a.words.length)).map Prod.fst).Nodup :=
      h.nodup.sublist (List.filter_sublist.map Prod.fst)
    exact hnames.map fun _ _ => labelLine_injective
  rw [← List.count_filter (isLabelLine_labelLine name)]
  exact List.nodup_iff_count_le_one.mp hnodup _

/-- A label before an instruction is shown there. -/
theorem Placed.shownAt {a : Assembly} (h : a.Placed) (settings : Settings) {label : Text × Int}
    (hlabel : label ∈ a.labels.entries) {i : Nat} (hoffset : label.2 = 4 * i)
    (hi : i < a.words.length) : a.ShownAt settings (a.listingLines settings) label.1 i := by
  constructor
  · have hmem : labelLine label.1 ∈ a.listingLines settings := by
      rw [h.labelLine_mem_iff settings hlabel]
      omega
    exact Nat.le_antisymm (h.count_labelLine_le settings label.1) (List.count_pos_iff.mpr hmem)
  · apply exists_place settings hlabel hoffset
    rwa [List.length_zip, ← h.length_words, Nat.min_self]

/-- **Labels in a listing**: the lines that show a label show those before the end of the program,
in the order of their definitions.  A label at the offset of an instruction is shown once, after the
lines of the instructions before it and in front of that of the instruction; a label after the last
instruction is not shown. -/
theorem listing_shows_labels {settings : Settings} {source : Source} {a : Assembly}
    (h : assemble settings source = .ok a) :
    ((a.listing settings).splitOn '\n').filter isLabelLine =
        (labelsBefore a.labels (4 * a.words.length)).map (fun label => labelLine label.1) ∧
      ∀ label ∈ a.labels.entries, ∃ i : Nat, i ≤ a.words.length ∧ label.2 = 4 * i ∧
        (i < a.words.length → a.ShownAt settings ((a.listing settings).splitOn '\n') label.1 i) ∧
        (i = a.words.length → labelLine label.1 ∉ (a.listing settings).splitOn '\n') := by
  obtain ⟨text, -, htext⟩ := assemble_eq_ok h
  have hplaced := placed_of_assembleText htext
  rw [(onLines_of_assembleText htext).splitOn_listing]
  refine ⟨hplaced.filter_isLabelLine settings, ?_⟩
  intro label hlabel
  obtain ⟨i, hle, hoffset⟩ := hplaced.offset label hlabel
  refine ⟨i, hle, hoffset, hplaced.shownAt settings hlabel hoffset, ?_⟩
  rintro rfl
  rw [hplaced.labelLine_mem_iff settings hlabel]
  omega

/-- Of three labels after an instruction, two are shown in front of the next one, and the last, at
the end, is not. -/
theorem listing_shows_labels_stacked :
    ∃ a, assemble {} (.text "nop\nb: c:\n j b\nend:".toList) = .ok a ∧
      a.labels.entries = [("b".toList, 4), ("c".toList, 4), ("end".toList, 8)] ∧
      a.ShownAt {} ((a.listing {}).splitOn '\n') "c".toList 1 ∧
      labelLine "end".toList ∉ (a.listing {}).splitOn '\n' := by
  have h : assemble {} (.text "nop\nb: c:\n j b\nend:".toList) =
      .ok { labels := ⟨[("b".toList, 4), ("c".toList, 4), ("end".toList, 8)]⟩
            instructions := [⟨1, "nop".toList⟩, ⟨3, "j b".toList⟩]
            words := [0x00000013, 0x0040006F] } := by decide +kernel
  refine ⟨_, h, rfl, ?_, ?_⟩
  · obtain ⟨i, -, hoffset, hshown, -⟩ := (listing_shows_labels h).2 ("c".toList, 4) (by decide)
    obtain rfl : i = 1 := by
      change (4 : Int) = 4 * i at hoffset
      omega
    exact hshown (by decide)
  · obtain ⟨i, -, hoffset, -, hhidden⟩ := (listing_shows_labels h).2 ("end".toList, 8) (by decide)
    apply hhidden
    change (8 : Int) = 4 * i at hoffset
    show i = 2
    omega

/-- A label at the end of a program is in its label table, but not in its listing. -/
theorem listing_of_trailing_label :
    ∃ a, assemble {} (.text "nop\nend:".toList) = .ok a ∧
      ("end".toList, 4) ∈ a.labels.entries ∧
      labelLine "end".toList ∉ (a.listing {}).splitOn '\n' := by
  have h : assemble {} (.text "nop\nend:".toList) =
      .ok { labels := ⟨[("end".toList, 4)]⟩
            instructions := [⟨1, "nop".toList⟩]
            words := [0x00000013] } := by decide +kernel
  exact ⟨_, h, by decide, by decide +kernel⟩

end Assembly

end RiscAsm

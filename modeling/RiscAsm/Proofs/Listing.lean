import RiscAsm.Listing
import RiscAsm.Proofs.Numeral
import RiscAsm.Proofs.Result
import RiscAsm.Proofs.Text.Pieces

/-!
# Theory of listings

A listing shows the instructions of a program in order, each on a line that starts with its address.
The labels that are grouped at an offset are those of the table with that offset
(`namesAt_groupLabels`), and the word of an instruction can be looked up by the offset in the source
map (`Session.listing_eq_ok`).  The lines of the listing that start with an address are those of the
instructions (`filter_isCodeLine_listing`), and their second column is read as the words
(`mapM_readGroups_codeColumn`).
-/

namespace RiscAsm

namespace Assembly

/-! ## Groups of labels -/

/-- The labels at an offset, in the order of their definitions. -/
def labelsAt (labels : LabelTable) (offset : Nat) : List (Text × Int) :=
  labels.entries.filter fun label => label.2 == (offset : Int)

/-- A label is added at the end of the group at its offset, and to no other. -/
theorem lookup_addLabel (label : Text × Int) (groups : Groups) (offset : Int) :
    ((addLabel label groups).lookup offset).getD [] =
      (groups.lookup offset).getD [] ++ if label.2 == offset then [label.1] else [] := by
  induction groups with
  | nil =>
      rw [addLabel, List.lookup_cons, List.lookup_nil, BEq.comm]
      cases label.2 == offset with
      | false => rfl
      | true => rfl
  | cons group groups ih =>
      rw [addLabel]
      split
      · rename_i hgroup
        rw [List.lookup_cons, List.lookup_cons, ← hgroup, BEq.comm]
        cases group.1 == offset with
        | false => exact (List.append_nil _).symm
        | true => rfl
      · rename_i hgroup
        rw [List.lookup_cons, List.lookup_cons]
        cases hoffset : offset == group.1 with
        | false => exact ih
        | true =>
            -- the group is at the offset, so the label is not
            have hother : (label.2 == offset) = false := by
              rw [eq_of_beq hoffset]
              exact beq_false_of_ne (Ne.symm hgroup)
            rw [hother]
            exact (List.append_nil _).symm

/-- Of several labels that are added, those at an offset come to the group there, in order. -/
theorem lookup_foldl_addLabel (entries : List (Text × Int)) (groups : Groups) (offset : Int) :
    ((entries.foldl (fun groups label => addLabel label groups) groups).lookup offset).getD [] =
      (groups.lookup offset).getD [] ++
        (entries.filter fun label => label.2 == offset).map Prod.fst := by
  induction entries generalizing groups with
  | nil => exact (List.append_nil _).symm
  | cons label entries ih =>
      rw [List.foldl_cons, ih, lookup_addLabel, List.append_assoc, List.filter_cons]
      cases label.2 == offset with
      | false => rfl
      | true => rfl

/-- The group at an offset has the labels of the table with that offset. -/
theorem namesAt_groupLabels (labels : LabelTable) (offset : Nat) :
    namesAt (groupLabels labels) offset = (labelsAt labels offset).map Prod.fst := by
  rw [namesAt, groupLabels, lookup_foldl_addLabel, labelsAt, List.lookup_nil]
  rfl

/-! ## Source maps -/

/-- The offset of the instruction at a position from zero on. -/
theorem offsetOf_one_add (i : Nat) : offsetOf (1 + i) = 4 * i := by
  rw [offsetOf, instructionWidth]
  omega

end Assembly

theorem getElem?_sourceMapOf (instructions : List SourceLine) (i : Nat) :
    (sourceMapOf instructions)[i]? =
      instructions[i]?.map fun line => (4 * i, line.text, line.number) := by
  rw [sourceMapOf, List.getElem?_map, List.getElem?_zipIdx, Option.map_map]
  cases instructions[i]? with
  | none => rfl
  | some line => simp [Assembly.offsetOf_one_add]

theorem length_sourceMapOf (instructions : List SourceLine) :
    (sourceMapOf instructions).length = instructions.length := by
  simp [sourceMapOf]

/-- When there is a word for each instruction, every word is found by the source map. -/
theorem Session.listing_eq_ok {s : Session} (hmap : s.sourceMap = sourceMapOf s.instructions)
    (h : s.words.length = s.instructions.length) :
    s.listing = .ok (s.program.listing s.settings) := by
  have hentries : s.sourceMap.mapM (s.mapEntry (Assembly.groupLabels s.labels)) =
      .ok (((s.instructions.zip s.words).zipIdx 1).map
        (Assembly.listingEntry s.settings.baseAddress (Assembly.groupLabels s.labels))) := by
    -- at each position, the offset of the entry leads back to the word at that position
    refine Result.mapM_of_getElem? (by simp [hmap, length_sourceMapOf, h]) ?_
    intro i entry hentry
    rw [hmap, getElem?_sourceMapOf, Option.map_eq_some_iff] at hentry
    obtain ⟨line, hline, rfl⟩ := hentry
    have hi : i < s.words.length := h ▸ (List.getElem?_eq_some_iff.mp hline).1
    have hword := List.getElem?_eq_getElem hi
    have hzip : (s.instructions.zip s.words)[i]? = some (line, s.words[i]) :=
      List.getElem?_zip_eq_some.mpr ⟨hline, hword⟩
    have hat : s.wordAt (4 * i) = .ok s.words[i] := by
      rw [wordAt, instructionWidth, Nat.mul_div_cancel_left i (by decide), hword]
    refine ⟨Assembly.listingEntry s.settings.baseAddress (Assembly.groupLabels s.labels)
      ((line, s.words[i]), 1 + i), ?_, ?_⟩
    · rw [mapEntry, Assembly.listingEntry, Assembly.offsetOf_one_add]
      exact Result.bind_eq_ok.mpr ⟨_, hat, rfl⟩
    · rw [List.getElem?_map, List.getElem?_zipIdx, hzip]
      rfl
  rw [Assembly.listing, Assembly.listingLines, List.flatMap_def]
  exact Result.bind_eq_ok.mpr ⟨_, hentries, rfl⟩

namespace Assembly

/-! ## Lines of instructions -/

/-- A line of a listing that shows an instruction. -/
def isCodeLine (line : Text) : Bool := "0x".toList.isPrefixOf line

/-- The lines of the instructions, each with its address and its word. -/
def codeLines (settings : Settings) (a : Assembly) : List Text :=
  (a.instructions.zip a.words).mapIdx fun i entry =>
    codeLine settings.baseAddress (4 * i) entry.2 entry.1

theorem isCodeLine_codeLine (baseAddress offset word : Nat) (line : SourceLine) :
    isCodeLine (codeLine baseAddress offset word line) = true := rfl

theorem isCodeLine_labelLine (name : Text) : isCodeLine (labelLine name) = false := rfl

/-- The lines of labels are no lines of instructions. -/
theorem filter_isCodeLine_labels (names : List Text) :
    (names.map labelLine).filter isCodeLine = [] := by
  rw [List.filter_eq_nil_iff]
  intro shown hshown
  obtain ⟨name, -, rfl⟩ := List.mem_map.mp hshown
  simp [isCodeLine_labelLine]

/-- Of the lines of an entry, the last one shows the instruction. -/
theorem filter_isCodeLine_listingEntry (baseAddress : Nat) (groups : Groups)
    (entry : (SourceLine × Nat) × Nat) :
    (listingEntry baseAddress groups entry).filter isCodeLine =
      [codeLine baseAddress (offsetOf entry.2) entry.1.2 entry.1.1] := by
  simp only [listingEntry]
  rw [List.filter_append, filter_isCodeLine_labels, List.nil_append,
    List.filter_cons_of_pos (isCodeLine_codeLine ..), List.filter_nil]

/-- The lines of entries that show an instruction are those of their instructions. -/
theorem filter_isCodeLine_flatMap (baseAddress : Nat) (groups : Groups)
    (entries : List ((SourceLine × Nat) × Nat)) :
    (entries.flatMap (listingEntry baseAddress groups)).filter isCodeLine =
      entries.map fun entry => codeLine baseAddress (offsetOf entry.2) entry.1.2 entry.1.1 := by
  rw [List.filter_flatMap]
  simp only [filter_isCodeLine_listingEntry]
  rw [← List.map_eq_flatMap]

/-- The lines of the instructions are those of the entries of the listing. -/
theorem codeLines_eq_map (settings : Settings) (a : Assembly) :
    a.codeLines settings = ((a.instructions.zip a.words).zipIdx 1).map fun entry =>
      codeLine settings.baseAddress (offsetOf entry.2) entry.1.2 entry.1.1 := by
  apply List.ext_getElem?
  intro i
  rw [codeLines, List.getElem?_mapIdx, List.getElem?_map, List.getElem?_zipIdx, Option.map_map]
  cases (a.instructions.zip a.words)[i]? with
  | none => rw [Option.map_none, Option.map_none]
  | some entry => rw [Option.map_some, Option.map_some, Function.comp_apply, offsetOf_one_add]

/-- The lines of a listing that show an instruction are those of the instructions, in order. -/
theorem filter_isCodeLine_listingLines (settings : Settings) (a : Assembly) :
    (a.listingLines settings).filter isCodeLine = a.codeLines settings := by
  have hhead : listingHead.filter isCodeLine = [] := by decide
  rw [listingLines, List.filter_append, hhead, List.nil_append, filter_isCodeLine_flatMap,
    codeLines_eq_map]

/-! ## The column of the words -/

/-- The second field of a line, fields being parted by spaces. -/
def codeColumn (line : Text) : Text :=
  ((line.splitOn ' ').filter fun field => !field.isEmpty)[1]?.getD []

/-- The second field of the line of an instruction is its word. -/
theorem codeColumn_codeLine (baseAddress offset word : Nat) (line : SourceLine) :
    codeColumn (codeLine baseAddress offset word line) = Numeral.hexUpper 8 word := by
  have hhex : ∀ width n, ' ' ∉ Numeral.hexUpper width n := Numeral.not_mem_hexUpper (by decide)
  have hne : Numeral.hexUpper 8 word ≠ [] := by
    rw [Numeral.hexUpper, ne_eq, List.map_eq_nil_iff]
    exact Numeral.hex_ne_nil 8 word
  -- the address with its marks is the first field, and two empty ones stand before the word
  obtain ⟨rest, hline⟩ : ∃ rest, codeLine baseAddress offset word line =
      ("0x".toList ++ Numeral.hexUpper 8 (baseAddress + offset) ++ [':']) ++
        ' ' :: ([] ++ ' ' :: ([] ++ ' ' :: (Numeral.hexUpper 8 word ++ ' ' :: rest))) := by
    refine ⟨"  ".toList ++
      ((Numeral.ofInt line.number).leftpad 4 ' ' ++ ("  ".toList ++ line.text)), ?_⟩
    unfold codeLine
    simp only [List.append_assoc]
    rfl
  have haddress : ' ' ∉ "0x".toList ++ Numeral.hexUpper 8 (baseAddress + offset) ++ [':'] := by
    simp only [List.mem_append, hhex, or_false]
    decide
  rw [codeColumn, hline, List.splitOn_append_cons_self_of_not_mem haddress,
    List.splitOn_append_cons_self_of_not_mem List.not_mem_nil,
    List.splitOn_append_cons_self_of_not_mem List.not_mem_nil,
    List.splitOn_append_cons_self_of_not_mem (hhex 8 word)]
  simp [hne]

/-- The second fields of the lines of the instructions are read as the words. -/
theorem mapM_readGroups_codeColumn {a : Assembly} (h : a.words.length = a.instructions.length)
    (settings : Settings) :
    ((a.codeLines settings).map codeColumn).mapM (Numeral.readGroups 16) = some a.words := by
  have hcolumns : (a.codeLines settings).map codeColumn = a.words.map (Numeral.hexUpper 8) := by
    apply List.ext_getElem?
    intro i
    rw [codeLines, List.getElem?_map, List.getElem?_map, List.getElem?_mapIdx]
    cases hword : a.words[i]? with
    | none =>
        have hnone : (a.instructions.zip a.words)[i]? = none := by
          rw [List.getElem?_eq_none_iff, List.length_zip] at *
          omega
        rw [hnone]
        rfl
    | some word =>
        have hi : i < a.instructions.length := h ▸ (List.getElem?_eq_some_iff.mp hword).1
        have hzip : (a.instructions.zip a.words)[i]? = some (a.instructions[i], word) :=
          List.getElem?_zip_eq_some.mpr ⟨List.getElem?_eq_getElem hi, hword⟩
        rw [hzip]
        exact congrArg some (codeColumn_codeLine ..)
  rw [hcolumns]
  exact Numeral.mapM_readGroups (Numeral.readGroups_hexUpper 8) a.words

/-! ## Lines of the text -/

/-- The labels and the instructions of a program are each written on one line. -/
structure OnLines (a : Assembly) : Prop where
  labels : ∀ name ∈ a.labels.names, '\n' ∉ name
  instructions : ∀ line ∈ a.instructions, '\n' ∉ line.text

theorem not_mem_codeLine {line : SourceLine} (h : '\n' ∉ line.text)
    (baseAddress offset word : Nat) : '\n' ∉ codeLine baseAddress offset word line := by
  have hnumber : '\n' ∉ (Numeral.ofInt line.number).leftpad 4 ' ' := by
    rw [List.leftpad, List.mem_append]
    rintro (hpad | hmem)
    · exact absurd (List.eq_of_mem_replicate hpad) (by decide)
    · rcases Numeral.mem_ofInt hmem with hminus | hdigit
      · exact absurd hminus (by decide)
      · exact absurd hdigit (by decide)
  have hhex : ∀ width n, '\n' ∉ Numeral.hexUpper width n := Numeral.not_mem_hexUpper (by decide)
  unfold codeLine
  simp only [List.mem_append, hhex, hnumber, h, or_false]
  decide

/-- No line of a listing is broken. -/
theorem OnLines.not_mem {a : Assembly} (h : a.OnLines) (settings : Settings) {shown : Text}
    (hshown : shown ∈ a.listingLines settings) : '\n' ∉ shown := by
  have hhead : ∀ shown ∈ listingHead, '\n' ∉ shown := by decide
  rcases List.mem_append.mp hshown with hhere | hbody
  · exact hhead shown hhere
  · obtain ⟨⟨⟨line, word⟩, index⟩, hentry, hlines⟩ := List.mem_flatMap.mp hbody
    have hline : line ∈ a.instructions :=
      (List.of_mem_zip (List.fst_mem_of_mem_zipIdx hentry)).1
    simp only [listingEntry, namesAt_groupLabels, List.map_map] at hlines
    rcases List.mem_append.mp hlines with hlabel | hcode
    · obtain ⟨label, hmem, rfl⟩ := List.mem_map.mp hlabel
      have hname := h.labels label.1 (List.mem_map_of_mem (List.mem_of_mem_filter hmem))
      simp only [Function.comp_apply, labelLine, List.mem_append, hname, or_false]
      decide
    · rw [List.mem_singleton.mp hcode]
      exact not_mem_codeLine (h.instructions line hline) _ _ _

/-- The lines of the text of a listing are the lines of the listing. -/
theorem OnLines.splitOn_listing {a : Assembly} (h : a.OnLines) (settings : Settings) :
    (a.listing settings).splitOn '\n' = a.listingLines settings :=
  Text.splitOn_joinLines (List.append_ne_nil_of_left_ne_nil (List.cons_ne_nil _ _) _)
    fun _ hshown => h.not_mem settings hshown

/-- The lines of the text of a listing that show an instruction are those of the instructions, in
order. -/
theorem filter_isCodeLine_listing {a : Assembly} (h : a.OnLines) (settings : Settings) :
    ((a.listing settings).splitOn '\n').filter isCodeLine = a.codeLines settings := by
  rw [h.splitOn_listing, filter_isCodeLine_listingLines]

end Assembly

end RiscAsm

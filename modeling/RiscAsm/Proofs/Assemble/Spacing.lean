import Mathlib.Logic.Relation
import RiscAsm.Proofs.Assemble.Alike
import RiscAsm.Proofs.Source.Lines

/-!
# Spacing and comments

Where comments are cut off, the spacing of a program has no meaning: blank lines and lines with only
a comment, blanks around a line, comments after it, and the kind of line breaks (`Respaced`,
`Break`).  None of them changes the texts of the lines that are left when a source is normalized
(`kept_of_respaced`, `rawLines_join`), and so callers are told the same of a program however it is
spaced (`assembleBuffer_respaced`).
-/

namespace RiscAsm

/-- Blanks within a line. -/
def IsSpace (s : Text) : Prop := IsOneLine s ∧ ∀ c ∈ s, isBlank c = true

/-- A comment that goes to the end of a line. -/
def IsComment (s : Text) : Prop := IsOneLine s ∧ (['#'] <+: s ∨ ['/', '/'] <+: s)

namespace Source

/-! ## Texts that are kept -/

/-- What is left of a raw line when its comment is cut off, unless nothing is. -/
def kept? (raw : Text) : Option Text :=
  if (Text.trim (stripComment raw)).isEmpty then none else some (Text.trim (stripComment raw))

theorem kept?_eq_none {raw : Text} (h : ∀ c ∈ stripComment raw, isBlank c = true) :
    kept? raw = none := by
  rw [kept?, Text.trim_eq_nil_iff.mpr h]
  rfl

theorem kept?_congr {raw raw' : Text}
    (h : Text.trim (stripComment raw') = Text.trim (stripComment raw)) :
    kept? raw' = kept? raw := by
  rw [kept?, kept?, h]

/-- The texts of normalized lines are what is left of the raw lines. -/
theorem map_text_normalize (s : Text) :
    (normalize false s).map SourceLine.text = (rawLines s).filterMap kept? := by
  have hkeep : ∀ raw ∈ (rawLines s).zipIdx 1,
      (keepLine false raw).map SourceLine.text = kept? raw.1 := by
    intro raw _
    unfold keepLine kept?
    simp only [Bool.false_eq_true, if_false]
    split <;> rfl
  calc (normalize false s).map SourceLine.text
      = ((rawLines s).zipIdx 1).filterMap fun raw => kept? raw.1 := by
        rw [normalize, List.map_filterMap, List.filterMap_congr hkeep]
    _ = (((rawLines s).zipIdx 1).map Prod.fst).filterMap kept? := by
        rw [List.filterMap_map]
        rfl
    _ = (rawLines s).filterMap kept? := by
        rw [List.zipIdx_map_fst]

end Source

/-! ## Changes of spacing -/

open Source

/-- One change to the spacing of lines. -/
inductive Respaced : List Text → List Text → Prop
  /-- A line of blanks is put in, with or without a comment after them. -/
  | insert {before after : List Text} {space comment : Text} (hspace : IsSpace space)
      (hcomment : comment = [] ∨ IsComment comment) :
      Respaced (before ++ after) (before ++ (space ++ comment) :: after)
  /-- Blanks are put in front of a line. -/
  | indent {before after : List Text} {line space : Text} (hspace : IsSpace space) :
      Respaced (before ++ line :: after) (before ++ (space ++ line) :: after)
  /-- Blanks are put after a line. -/
  | trail {before after : List Text} {line space : Text} (hspace : IsSpace space) :
      Respaced (before ++ line :: after) (before ++ (line ++ space) :: after)
  /-- A comment is put after a line, at a distance. -/
  | comment {before after : List Text} {line space comment : Text} (hspace : IsSpace space)
      (hne : space ≠ []) (hcomment : IsComment comment) :
      Respaced (before ++ line :: after) (before ++ (line ++ (space ++ comment)) :: after)

/-- No comment starts in blanks, and they end with none of its marks. -/
theorem IsSpace.uncommented {s : Text} (h : IsSpace s) :
    Uncommented s ∧ s.head? ≠ some '/' ∧ s.getLast? ≠ some '/' := by
  have hmark : ∀ c, isBlank c = false → c ∉ s := by
    intro c hc hmem
    rw [h.2 c hmem] at hc
    cases hc
  have hslash : '/' ∉ s := hmark '/' (by decide)
  refine ⟨⟨hmark '#' (by decide), ?_⟩, ?_, ?_⟩
  · exact fun hpair => hslash (hpair.mem List.mem_cons_self)
  · exact fun hhead => hslash (List.mem_of_head? hhead)
  · exact fun hlast => hslash (List.mem_of_getLast? hlast)

/-- Nothing is kept of a comment. -/
theorem IsComment.stripComment_eq {s : Text} (h : IsComment s) : stripComment s = [] := by
  obtain ⟨-, ⟨rest, rfl⟩ | ⟨rest, rfl⟩⟩ := h
  · exact stripComment_of_mark List.mem_cons_self rest
  · exact stripComment_of_mark (List.mem_cons_of_mem _ List.mem_cons_self) rest

/-- Of blanks and a comment after them the blanks are kept. -/
theorem stripComment_space {space comment : Text} (hspace : IsSpace space)
    (hcomment : comment = [] ∨ IsComment comment) : stripComment (space ++ comment) = space := by
  obtain ⟨huncommented, -, hlast⟩ := hspace.uncommented
  have hnone : stripComment comment = [] := by
    rcases hcomment with rfl | hcomment
    · rfl
    · exact hcomment.stripComment_eq
  rw [stripComment_append huncommented fun h => absurd h hlast, hnone, List.append_nil]

/-- Blanks after a line, with or without a comment after them, do not change what is kept of it. -/
theorem trim_stripComment_trail (line : Text) {space comment : Text} (hspace : IsSpace space)
    (hcomment : comment = [] ∨ space ≠ [] ∧ IsComment comment) :
    Text.trim (stripComment (line ++ (space ++ comment))) = Text.trim (stripComment line) := by
  by_cases hline : Uncommented line
  · -- the line goes on with a blank, or ends, so its last slash starts no comment
    have hseam : line.getLast? = some '/' → (space ++ comment).head? ≠ some '/' := by
      intro _
      rcases hcomment with rfl | ⟨hne, -⟩
      · rw [List.append_nil]
        exact hspace.uncommented.2.1
      · rw [List.head?_append_of_ne_nil space hne]
        exact hspace.uncommented.2.1
    rw [stripComment_append hline hseam, stripComment_space hspace (hcomment.imp_right And.right),
      stripComment_eq_self hline]
    exact Text.trim_append_of_blank_right line hspace.2
  · rw [stripComment_append_of_commented hline]

/-- Spacing does not change what is kept of the lines. -/
theorem kept_of_respaced {lines lines' : List Text} (h : Respaced lines lines') :
    lines'.filterMap kept? = lines.filterMap kept? := by
  cases h with
  | insert hspace hcomment =>
      have hnone : kept? _ = none :=
        kept?_eq_none (by rw [stripComment_space hspace hcomment]; exact hspace.2)
      rw [List.filterMap_append, List.filterMap_append, List.filterMap_cons_none hnone]
  | indent hspace =>
      obtain ⟨huncommented, -, hlast⟩ := hspace.uncommented
      rw [List.filterMap_append, List.filterMap_append, List.filterMap_cons, List.filterMap_cons,
        kept?_congr]
      rw [stripComment_append huncommented fun h => absurd h hlast]
      exact Text.trim_append_of_blank_left hspace.2 _
  | trail hspace =>
      rename_i line space
      rw [List.filterMap_append, List.filterMap_append, List.filterMap_cons, List.filterMap_cons,
        kept?_congr]
      rw [← List.append_nil space]
      exact trim_stripComment_trail line hspace (.inl rfl)
  | comment hspace hne hcomment =>
      rename_i line space comment
      rw [List.filterMap_append, List.filterMap_append, List.filterMap_cons, List.filterMap_cons,
        kept?_congr]
      exact trim_stripComment_trail line hspace (.inr ⟨hne, hcomment⟩)

/-- Spacing breaks no line. -/
theorem isOneLine_of_respaced {lines lines' : List Text} (h : Respaced lines lines')
    (hlines : ∀ line ∈ lines, IsOneLine line) : ∀ line ∈ lines', IsOneLine line := by
  cases h with
  | insert hspace hcomment =>
      rw [List.forall_mem_append] at hlines
      rw [List.forall_mem_append, List.forall_mem_cons]
      refine ⟨hlines.1, hspace.1.append ?_, hlines.2⟩
      rcases hcomment with rfl | hcomment
      · exact isOneLine_nil
      · exact hcomment.1
  | indent hspace =>
      rw [List.forall_mem_append, List.forall_mem_cons] at hlines ⊢
      exact ⟨hlines.1, hspace.1.append hlines.2.1, hlines.2.2⟩
  | trail hspace =>
      rw [List.forall_mem_append, List.forall_mem_cons] at hlines ⊢
      exact ⟨hlines.1, hlines.2.1.append hspace.1, hlines.2.2⟩
  | comment hspace hne hcomment =>
      rw [List.forall_mem_append, List.forall_mem_cons] at hlines ⊢
      exact ⟨hlines.1, hlines.2.1.append (hspace.1.append hcomment.1), hlines.2.2⟩

/-- Spacing takes no line away. -/
theorem length_le_of_respaced {lines lines' : List Text} (h : Respaced lines lines') :
    lines.length ≤ lines'.length := by
  cases h <;> simp

/-- Spacing, however often it is changed, breaks no line, takes none away and keeps what is left of
the lines. -/
theorem kept_of_respacings {lines lines' : List Text}
    (h : Relation.ReflTransGen Respaced lines lines')
    (hlines : ∀ line ∈ lines, IsOneLine line) :
    (∀ line ∈ lines', IsOneLine line) ∧ lines.length ≤ lines'.length ∧
      lines'.filterMap kept? = lines.filterMap kept? := by
  induction h with
  | refl => exact ⟨hlines, Nat.le_refl _, rfl⟩
  | tail _ hstep ih =>
      obtain ⟨hone, hlength, hkept⟩ := ih
      exact ⟨isOneLine_of_respaced hstep hone, hlength.trans (length_le_of_respaced hstep),
        (kept_of_respaced hstep).trans hkept⟩

/-! ## Programs -/

/-- The texts of the lines of a program are what is left of its raw lines, whatever its line breaks
are. -/
theorem map_text_programLines_join {settings : Settings} (hstrip : settings.stripComments = true)
    (b : Break) {lines : List Text} (h : ∀ line ∈ lines, IsOneLine line) :
    (programLines settings (b.join lines)).map SourceLine.text = lines.filterMap kept? := by
  rw [programLines, hstrip, Bool.not_true, map_text_normalize]
  by_cases hne : lines = []
  · subst hne
    rfl
  · rw [rawLines_join b hne h]

/-- Labels may be left as they are. -/
theorem Label.isRenaming_id : Label.IsRenaming id where
  injective := Function.injective_id
  isName_eq := fun _ => rfl
  accepts_eq := fun _ h => h

/-- Lines with the same text correspond, whatever their numbers are, if these can be written. -/
theorem SourceLine.alike_of_text_eq {line line' : SourceLine}
    (hnumber : Numeral.tooLong line.number = false)
    (hnumber' : Numeral.tooLong line'.number = false) (h : line.text = line'.text) :
    SourceLine.Alike id line line' := by
  obtain ⟨number, text⟩ := line
  obtain ⟨number', text'⟩ := line'
  obtain rfl : text = text' := h
  refine ⟨hnumber'.trans hnumber.symm, (List.map_id _).symm, ?_⟩
  unfold instruction?
  rcases text.segments.getLast? with _ | (_ | ⟨c, rest⟩)
  · exact .none
  · exact .none
  · exact .some ⟨hnumber'.trans hnumber.symm, .of_fixed fun _ _ => rfl⟩

/-- The numbers of the lines of a program can be written if the number of all of them can. -/
theorem tooLong_number_join {settings : Settings} {b : Break} {lines : List Text}
    {line : SourceLine} (hlines : ∀ line ∈ lines, IsOneLine line)
    (hcount : Numeral.tooLong lines.length = false)
    (hline : line ∈ programLines settings (b.join lines)) :
    Numeral.tooLong line.number = false := by
  apply tooLong_number hline
  by_cases hne : lines = []
  · subst hne
    exact tooLong_length_rawLines (by cases b <;> decide +kernel)
  · rwa [rawLines_join b hne hlines]

/-- **Spacing has no meaning**: where comments are cut off, blank lines and lines with only a
comment may be put in anywhere, blanks around any line, comments at a distance after any line, and
the lines may be joined with any kind of line break; callers are told the same.  The report of a
failure shows the number of a line, so the number of lines has to be short enough to be written: one
of at most 4300 digits. -/
theorem assembleBuffer_respaced {settings : Settings} (hstrip : settings.stripComments = true)
    {lines lines' : List Text} (hlines : ∀ line ∈ lines, IsOneLine line)
    (h : Relation.ReflTransGen Respaced lines lines')
    (hcount : Numeral.tooLong lines'.length = false) (b : Break) {source source' : Source}
    (hsource : source.Holds (Break.feed.join lines)) (hsource' : source'.Holds (b.join lines')) :
    assembleBuffer settings source' = assembleBuffer settings source := by
  obtain ⟨hlines', hlength, hkept⟩ := kept_of_respacings h hlines
  refine assembleBuffer_of_alike Label.isRenaming_id hsource hsource' ?_
  have htexts : (programLines settings (Break.feed.join lines)).map SourceLine.text =
      (programLines settings (b.join lines')).map SourceLine.text := by
    rw [map_text_programLines_join hstrip .feed hlines,
      map_text_programLines_join hstrip b hlines', hkept]
  rw [← List.forall₂_eq_eq_eq, List.forall₂_map_left_iff, List.forall₂_map_right_iff] at htexts
  have hfew : Numeral.tooLong lines.length = false :=
    Numeral.tooLong_of_le (by omega) (Int.ofNat_le.mpr hlength) hcount
  obtain ⟨hcounts, hpairs⟩ := List.forall₂_iff_zip.mp htexts
  refine List.forall₂_iff_zip.mpr ⟨hcounts, fun {line line'} hpair => ?_⟩
  obtain ⟨hline, hline'⟩ := List.of_mem_zip hpair
  exact SourceLine.alike_of_text_eq (tooLong_number_join hlines hfew hline)
    (tooLong_number_join hlines' hcount hline') (hpairs hpair)

/-- A program that fails, with a slash before a comment that is put in, a comment with colons on a
line of its own, and carriage returns. -/
theorem assembleBuffer_respaced_slash :
    assembleBuffer {} (.text "top: nop\nj top /\nj top".toList) = .ok (Buffer.empty, 2) ∧
      assembleBuffer {} (.bytes (Utf8.encode
        "top: nop\r\t# a: b: //\r j top / // done\rj top".toList)) = .ok (Buffer.empty, 2) := by
  have hfails : assembleBuffer {} (.text "top: nop\nj top /\nj top".toList) =
      .ok (Buffer.empty, 2) := by decide +kernel
  have hspace : IsSpace [' '] := by
    refine ⟨?_, List.forall_mem_singleton.mpr (by decide)⟩
    unfold IsOneLine
    decide
  have htab : IsSpace ['\t'] := by
    refine ⟨?_, List.forall_mem_singleton.mpr (by decide)⟩
    unfold IsOneLine
    decide
  have hnote : IsComment "# a: b: //".toList := by
    unfold IsComment IsOneLine
    decide
  have hdone : IsComment "// done".toList := by
    unfold IsComment IsOneLine
    decide
  have hlines : ∀ line ∈ ["top: nop".toList, "j top /".toList, "j top".toList],
      IsOneLine line := by
    unfold IsOneLine
    decide
  have hnoted : Respaced ["top: nop".toList, "j top /".toList, "j top".toList]
      ["top: nop".toList, "\t# a: b: //".toList, "j top /".toList, "j top".toList] :=
    @Respaced.insert ["top: nop".toList] _ _ _ htab (.inr hnote)
  have hindented : Respaced
      ["top: nop".toList, "\t# a: b: //".toList, "j top /".toList, "j top".toList]
      ["top: nop".toList, "\t# a: b: //".toList, " j top /".toList, "j top".toList] :=
    @Respaced.indent ["top: nop".toList, "\t# a: b: //".toList] _ _ _ hspace
  have hended : Respaced
      ["top: nop".toList, "\t# a: b: //".toList, " j top /".toList, "j top".toList]
      ["top: nop".toList, "\t# a: b: //".toList, " j top / // done".toList, "j top".toList] :=
    @Respaced.comment ["top: nop".toList, "\t# a: b: //".toList] _ _ _ _ hspace (by decide) hdone
  have hrespaced := ((Relation.ReflTransGen.single hnoted).tail hindented).tail hended
  refine ⟨hfails, ?_⟩
  rw [← hfails]
  exact assembleBuffer_respaced rfl hlines hrespaced (by decide +kernel) .carriageReturn rfl rfl

end RiscAsm

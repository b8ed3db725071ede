import RiscAsm.Proofs.Layout.Stacked
import RiscAsm.Proofs.Session
import RiscAsm.Proofs.Source.Lines

/-!
# Where diagnostics point

The diagnostic that ends a run has a line number, a text and a position.  They are right whichever
pass it comes from (`Diagnostic.PointsInto`): the line is one of the source, the text is a piece of
it before its comment, and after a first pass without failures the position is that of the
instruction which has the line number and the text (`Session.failure_pointsInto`).

In the first pass the text is what is left of a line, or the whole line, when a label is refused
(`Layout.readAux_eq_failure`, `Layout.readAll_eq_failure`).
-/

namespace RiscAsm

/-! ## Lines of a text -/

namespace Source

/-- The part of a raw line that belongs to the program. -/
def program (settings : Settings) (raw : Text) : Text :=
  if settings.stripComments then stripComment raw else raw

/-- A line of a program is a piece of the raw line that has its number. -/
theorem exists_raw {settings : Settings} {text : Text} {line : SourceLine}
    (h : line ∈ programLines settings text) :
    ∃ number : Nat, line.number = number ∧ 1 ≤ number ∧ number ≤ (breakLines text).length ∧
      ∃ raw, (breakLines text)[number - 1]? = some raw ∧ line.text <:+: program settings raw := by
  obtain ⟨⟨raw, number⟩, hraw, hkeep⟩ := List.mem_filterMap.mp h
  rw [rawLines_eq_breakLines, List.mk_mem_zipIdx_iff_le_and_getElem?_sub] at hraw
  obtain ⟨hone, hget⟩ := hraw
  have hlast := (List.getElem?_eq_some_iff.mp hget).1
  refine ⟨number, (keepLine_eq_some hkeep).1, hone, by omega, raw, hget, ?_⟩
  have htext : line.text = Text.trim (program settings raw) := by
    unfold keepLine at hkeep
    extract_lets kept at hkeep
    split at hkeep
    · cases hkeep
    · obtain rfl := Option.some.inj hkeep
      cases hstrip : settings.stripComments with
      | true => simp [kept, program, hstrip]
      | false => simp [kept, program, hstrip]
  rw [htext]
  exact Text.trim_piece _

end Source

/-! ## Failures of the first pass -/

/-- A part of a line: a piece of it that is not empty. -/
structure SourceLine.PartOf (part line : SourceLine) : Prop where
  number : part.number = line.number
  ne_nil : part.text ≠ []
  piece : part.text <:+: line.text

/-- The instruction of a line is a part of it. -/
theorem SourceLine.partOf_of_instruction? {line i : SourceLine} (h : line.instruction? = some i) :
    i.PartOf line := by
  obtain ⟨hpiece, hne, -, -⟩ := SourceLine.of_instruction? h
  exact ⟨SourceLine.number_of_instruction? h, hne, hpiece⟩

/-- A name that is defined already is reported with its line, unless the earlier offset is too long
to be written. -/
theorem LabelTable.define_eq_error {t : LabelTable} {name : Text} {offset index : Int}
    {line : SourceLine} {failure : Failure}
    (h : t.define name offset (some line) (some index) = .error failure) :
    failure.Shows line index ∨ failure = .value Numeral.tooLongMessage := by
  unfold LabelTable.define at h
  split at h
  · cases h
  · split at h
    · obtain rfl := Except.error.inj h
      exact .inr rfl
    · obtain rfl := Except.error.inj h
      exact .inl ⟨_, rfl, DiagnosticKind.noConfusion, rfl, rfl, rfl⟩

namespace Layout

variable {width : Int} {l next : Layout} {line : SourceLine} {failure : Failure}

/-- A label that stands before a colon is refused, or the rest of the line is read with it. -/
theorem readAux_step {before after : Text} {colons : Nat} (hbefore : ':' ∉ before)
    (h : readAux width line colons l (before ++ ':' :: after) = (next, some failure)) :
    (next = l ∧ (failure.Shows ⟨line.number, before ++ ':' :: after⟩ l.nextIndex ∨
      failure.Shows line l.nextIndex ∨ failure = .value Numeral.tooLongMessage)) ∨
    ∃ fewer labels, colons = fewer + 1 ∧
      readAux width line fewer { l with labels } (Text.trim after) = (next, some failure) := by
  cases hname : Label.isName (Text.trim before) with
  | false =>
      obtain ⟨reason, hsplit⟩ := exists_malformed hname
      unfold readAux at h
      rw [hsplit line.number (some l.nextIndex) before after hbefore rfl] at h
      obtain ⟨rfl, hfailure⟩ := Prod.mk.inj h
      obtain rfl := Option.some.inj hfailure
      exact .inl ⟨rfl, .inl ⟨_, rfl, DiagnosticKind.noConfusion, rfl, rfl, rfl⟩⟩
  | true =>
      unfold readAux at h
      rw [split_of_isName hbefore hname] at h
      simp only at h
      split at h
      · rename_i refusal hdefine
        obtain ⟨rfl, hfailure⟩ := Prod.mk.inj h
        obtain rfl := Option.some.inj hfailure
        exact .inl ⟨rfl, .inr (LabelTable.define_eq_error hdefine)⟩
      · rename_i labels hdefine
        cases colons with
        | zero => cases (Prod.mk.inj h).2
        | succ fewer => exact .inr ⟨fewer, labels, rfl, h⟩

/-- What ends the pass on a line is reported with a part of the line.  The induction is on the
number of colons that are allowed for. -/
theorem readAux_eq_failure {colons : Nat} {current : Text} (hpiece : current <:+: line.text)
    (h : readAux width line colons l current = (next, some failure)) :
    (∃ part : SourceLine, part.PartOf line ∧ failure.Shows part next.nextIndex) ∨
      failure = .value Numeral.tooLongMessage := by
  induction colons using Nat.strongRecOn generalizing l current with
  | ind colons ih =>
      by_cases hmem : ':' ∈ current
      · obtain ⟨before, after, rfl, hbefore⟩ := List.eq_append_cons_of_mem hmem
        have hne : line.text ≠ [] := List.ne_nil_of_mem (hpiece.mem hmem)
        rcases readAux_step hbefore h with
          ⟨rfl, hshows | hshows | hlong⟩ | ⟨fewer, labels, rfl, hrest⟩
        · exact .inl ⟨⟨line.number, before ++ ':' :: after⟩, ⟨rfl, by simp, hpiece⟩, hshows⟩
        · exact .inl ⟨line, ⟨rfl, hne, List.infix_rfl⟩, hshows⟩
        · exact .inr hlong
        · have hafter : after <:+: before ++ ':' :: after :=
            ((List.suffix_cons ':' after).trans (List.suffix_append before _)).isInfix
          exact ih fewer (Nat.lt_succ_self fewer)
            (((Text.trim_piece after).trans hafter).trans hpiece) hrest
      · rw [readAux_of_bare hmem] at h
        cases (Prod.mk.inj h).2

/-- What ends the pass is reported with a part of one of the lines, at the position of the next
instruction. -/
theorem readAll_eq_failure {lines : List SourceLine}
    (h : readAll width l lines = (next, some failure)) :
    (∃ line ∈ lines, ∃ part : SourceLine, part.PartOf line ∧ failure.Shows part next.nextIndex) ∨
      failure = .value Numeral.tooLongMessage := by
  induction lines generalizing l with
  | nil => cases (Prod.mk.inj h).2
  | cons line lines ih =>
      rw [readAll] at h
      split at h
      · rcases ih h with ⟨other, hother, hpart⟩ | hlong
        · exact .inl ⟨other, List.mem_cons_of_mem line hother, hpart⟩
        · exact .inr hlong
      · rename_i reached refusal hread
        obtain ⟨rfl, hfailure⟩ := Prod.mk.inj h
        obtain rfl := Option.some.inj hfailure
        rcases readAux_eq_failure List.infix_rfl hread with hpart | hlong
        · exact .inl ⟨line, List.mem_cons_self, hpart⟩
        · exact .inr hlong

end Layout

/-! ## Both passes -/

/-- A diagnostic points into a source text: at a line, from one on, of which it shows a piece before
the comment, and at a position, from one on.  If the first pass succeeds, that is the position of
the instruction with this line number and this text. -/
structure Diagnostic.PointsInto (d : Diagnostic) (settings : Settings) (source : Text)
    (number index : Nat) (shown : Text) : Prop where
  line_eq : d.line = some (number : Int)
  text_eq : d.text = some shown
  index_eq : d.index = some (index : Int)
  one_le_number : 1 ≤ number
  number_le : number ≤ (Source.breakLines source).length
  ne_nil : shown ≠ []
  piece : ∃ raw, (Source.breakLines source)[number - 1]? = some raw ∧
    shown <:+: Source.program settings raw
  one_le_index : 1 ≤ index
  instruction : ∀ layout, firstPass settings source = (layout, none) →
    index ≤ layout.instructions.length ∧ layout.instructions[index - 1]? = some ⟨number, shown⟩

/-- A diagnostic that shows a part of a line points into the source, as soon as its position is
right. -/
theorem Diagnostic.exists_pointsInto {d : Diagnostic} {settings : Settings} {source : Text}
    {line part : SourceLine} {index : Nat} (hline : line ∈ programLines settings source)
    (hpart : part.PartOf line) (hshows : (Failure.diagnostic d).Shows part index) (hone : 1 ≤ index)
    (hinstruction : ∀ layout, firstPass settings source = (layout, none) →
      layout.instructions[index - 1]? = some part) :
    ∃ number shown, d.PointsInto settings source number index shown := by
  obtain ⟨number, hnumber, hfirst, hlast, raw, hraw, hpiece⟩ := Source.exists_raw hline
  have hpartNumber : part.number = number := hpart.number.trans hnumber
  obtain ⟨d', hd', -, hdline, hdtext, hdindex⟩ := hshows
  obtain rfl := Diagnostic.eq_of_failure_eq hd'.symm
  refine ⟨number, part.text, ?_⟩
  exact
    { line_eq := by rw [hdline, hpartNumber]
      text_eq := hdtext
      index_eq := hdindex
      one_le_number := hfirst
      number_le := hlast
      ne_nil := hpart.ne_nil
      piece := ⟨raw, hraw, hpart.piece.trans hpiece⟩
      one_le_index := hone
      instruction := by
        intro layout hlayout
        have hget := hinstruction layout hlayout
        have hlt := (List.getElem?_eq_some_iff.mp hget).1
        refine ⟨by omega, ?_⟩
        rw [hget, ← hpartNumber] }

/-- The diagnostic that ends a run on a text points into the text. -/
theorem pointsInto_of_assembleText {settings : Settings} {source : Text} {d : Diagnostic}
    (h : assembleText settings source = .error (.diagnostic d)) :
    ∃ number index shown, d.PointsInto settings source number index shown := by
  rw [assembleText_eq] at h
  split at h
  · -- a label was refused
    rename_i layout failure hfirst
    obtain rfl := Except.error.inj h
    rcases Layout.readAll_eq_failure hfirst with ⟨line, hline, part, hpart, hshows⟩ | hlong
    · have hnone : ∀ layout', firstPass settings source = (layout', none) →
          layout'.instructions[layout.count + 1 - 1]? = some part := by
        intro layout' hother
        rw [hfirst] at hother
        cases (Prod.mk.inj hother).2
      obtain ⟨number, shown, hpoints⟩ :=
        Diagnostic.exists_pointsInto hline hpart hshows (Nat.le_add_left 1 _) hnone
      exact ⟨number, _, shown, hpoints⟩
    · cases hlong
  · -- an instruction has no word
    rename_i layout hfirst
    rcases Result.bind_eq_error.mp h with hsecond | ⟨emitted, -, hpure⟩
    · obtain ⟨i, part, hpart, hshows, -, -⟩ := secondPass_eq_error hsecond
      have hmem : part ∈ instructionsOf (programLines settings source) := by
        obtain ⟨-, rfl⟩ := firstPass_eq_none_iff.mp hfirst
        rw [← (Layout.instructions_ofLines instructionWidth (programLines settings source)).1]
        exact List.mem_of_getElem? hpart
      obtain ⟨line, hline, hinstruction⟩ := List.mem_filterMap.mp hmem
      have hsame : ∀ layout', firstPass settings source = (layout', none) →
          layout'.instructions[i + 1 - 1]? = some part := by
        intro layout' hother
        rw [hfirst] at hother
        obtain rfl := (Prod.mk.inj hother).1
        exact hpart
      obtain ⟨number, shown, hpoints⟩ := Diagnostic.exists_pointsInto hline
        (SourceLine.partOf_of_instruction? hinstruction) hshows (Nat.le_add_left 1 i) hsame
      exact ⟨number, _, shown, hpoints⟩
    · exact absurd hpure Result.pure_ne_error

/-- **Diagnostics point into the source**: a run that fails for any other reason than that there is
no source text ends with a diagnostic that points into the text.  The report of a label that is
defined again shows its offset, so it is a diagnostic as long as an offset at the end of the source
is short enough to be written. -/
theorem Session.failure_pointsInto {s s' : Session} {source : Source} {failure : Failure}
    (h : s.assemble source = (s', .error failure)) :
    (∀ d, failure = .diagnostic d → d.kind ≠ .input →
      ∃ text number index shown, source.Holds text ∧
        d.PointsInto s.settings text number index shown) ∧
    (Numeral.tooLong (4 * source.size) = false → ∃ d, failure = .diagnostic d) := by
  have hassemble : RiscAsm.assemble s.settings source = .error failure := by
    rw [Session.assemble_eq] at h
    split at h
    · rename_i a hok
      obtain ⟨text, -, htext⟩ := assemble_eq_ok hok
      have hbuffer := (Prod.mk.inj h).2
      rw [toBuffer_of_assembleText htext] at hbuffer
      cases hbuffer
    · rename_i cause hcause
      rw [hcause, Except.error.inj (Prod.mk.inj h).2]
  refine ⟨?_, exists_diagnostic hassemble⟩
  rintro d rfl hkind
  unfold RiscAsm.assemble at hassemble
  split at hassemble
  · rename_i unreadable hdecode
    obtain rfl := Failure.diagnostic.inj (Except.error.inj hassemble)
    exact absurd (Source.kind_of_decode_eq_error hdecode) hkind
  · rename_i text hdecode
    obtain ⟨number, index, shown, hpoints⟩ := pointsInto_of_assembleText hassemble
    exact ⟨text, number, index, shown, Source.decode_eq_ok_iff.mp hdecode, hpoints⟩

/-- After breaks of two kinds, the second label of a line is malformed; a bad instruction is told by
its own text, without the label before it and the comment after it. -/
theorem Session.failure_pointsInto_mixed :
    (∃ d, ((fresh {}).assemble (.text "x: nop\r\n\r  y: 1z: nop # bad".toList)).2 =
        .error (.diagnostic d) ∧
      d.PointsInto {} "x: nop\r\n\r  y: 1z: nop # bad".toList 3 2 "1z: nop".toList) ∧
    ∃ d, ((fresh {}).assemble (.text "nop\n\n a: bogus // b\rnop".toList)).2 =
        .error (.diagnostic d) ∧
      d.PointsInto {} "nop\n\n a: bogus // b\rnop".toList 3 2 "bogus".toList := by
  have hpoints : ∀ (text : Text) (d : Diagnostic) (number index : Nat) (shown : Text),
      ((fresh {}).assemble (.text text)).2 = .error (.diagnostic d) → d.kind ≠ .input →
      d.line = some (number : Int) → d.index = some (index : Int) → d.text = some shown →
      d.PointsInto {} text number index shown := by
    -- the place that a diagnostic points to is the one that it has
    intro text d number index shown hrun hkind hline hindex htext
    obtain ⟨text', number', index', shown', hholds, hpoints⟩ :=
      (failure_pointsInto (Prod.ext rfl hrun)).1 d rfl hkind
    obtain rfl : text = text' := hholds
    obtain rfl : number' = number := by
      have hsame := Option.some.inj (hpoints.line_eq.symm.trans hline)
      omega
    obtain rfl : index' = index := by
      have hsame := Option.some.inj (hpoints.index_eq.symm.trans hindex)
      omega
    obtain rfl := Option.some.inj (hpoints.text_eq.symm.trans htext)
    exact hpoints
  have hlabel : ((fresh {}).assemble (.text "x: nop\r\n\r  y: 1z: nop # bad".toList)).2 =
      .error (.diagnostic
        { kind := .labelSyntax, reason := "Malformed label definition: '1z'".toList
          line := some 3, text := some "1z: nop".toList, index := some 2 }) := by decide +kernel
  have hword : ((fresh {}).assemble (.text "nop\n\n a: bogus // b\rnop".toList)).2 =
      .error (.diagnostic
        { kind := .encoding, reason := "Invalid mnemonic: bogus".toList
          line := some 3, text := some "bogus".toList, index := some 2 }) := by decide +kernel
  constructor
  · exact ⟨_, hlabel, hpoints _ _ _ _ _ hlabel DiagnosticKind.noConfusion rfl rfl rfl⟩
  · exact ⟨_, hword, hpoints _ _ _ _ _ hword DiagnosticKind.noConfusion rfl rfl rfl⟩

end RiscAsm

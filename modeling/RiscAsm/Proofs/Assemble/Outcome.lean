import RiscAsm.Proofs.Assemble.Passes
import RiscAsm.Proofs.Bytes
import RiscAsm.Proofs.Text.Utf8

/-!
# The outcome of assembling a source

A caller of `assembleBuffer` is told one of four things (`Verdict`): that there is no source text,
that a line has a bad label, that an instruction has no word, or the bytes of the program.  There is
only one verdict on a source (`Verdict.unique`), and it is what the caller is told
(`assembleBuffer_verdict`).
-/

namespace RiscAsm

/-! ## Sources -/

namespace Source

/-- The source is a text, or the bytes that the text is encoded as. -/
def Holds : Source → Text → Prop
  | .text content, held => content = held
  | .bytes content, held => content = Utf8.encode held
  | .other _, _ => False

/-- The number of characters or bytes of a source. -/
def size : Source → Nat
  | .text content => content.length
  | .bytes content => content.length
  | .other _ => 0

theorem decode_eq_ok_iff {source : Source} {text : Text} :
    source.decode = .ok text ↔ source.Holds text := by
  cases source with
  | text content =>
      constructor
      · exact Except.ok.inj
      · exact congrArg Except.ok
  | bytes content =>
      rw [Holds, ← Utf8.decode_eq_ok_iff, decode]
      cases Utf8.decode content with
      | ok decoded => simp
      | error invalid => simp
  | other typeName => simp [decode, Holds]

/-- A source that cannot be read is reported as such. -/
theorem kind_of_decode_eq_error {source : Source} {d : Diagnostic}
    (h : source.decode = .error d) : d.kind = .input := by
  unfold decode at h
  split at h
  · cases h
  · split at h
    · cases h
    · obtain rfl := Except.error.inj h
      rfl
  · obtain rfl := Except.error.inj h
    rfl

theorem Holds.unique {source : Source} {text other : Text} (h : source.Holds text)
    (hother : source.Holds other) : text = other :=
  Except.ok.inj ((decode_eq_ok_iff.mpr h).symm.trans (decode_eq_ok_iff.mpr hother))

/-- A source is no shorter than the text it holds. -/
theorem Holds.length_le {source : Source} {text : Text} (h : source.Holds text) :
    text.length ≤ source.size := by
  cases source with
  | text content =>
      obtain rfl : content = text := h
      exact Nat.le_refl _
  | bytes content =>
      obtain rfl : content = Utf8.encode text := h
      exact Utf8.length_le_encode text
  | other typeName => exact absurd h id

end Source

/-! ## Verdicts -/

/-- What is to be said of the lines of a program: the buffer and the number that callers are
told. -/
inductive LinesVerdict (settings : Settings) (lines : List SourceLine) : Buffer × Int → Prop
  /-- A label is malformed or was defined before: `line` is the first line with such a label, and
  the instruction after those of the lines before it is blamed. -/
  | badLabel {before after : List SourceLine} {line : SourceLine}
      (hlines : lines = before ++ line :: after) (hbefore : Clean before)
      (hline : ¬ Clean (before ++ [line])) :
      LinesVerdict settings lines (Buffer.empty, 1 + (instructionsOf before).length)
  /-- All labels are good, and the instruction at position `i` is the first one without a word. -/
  | badInstruction {i : Nat} (hclean : Clean lines) (hi : i < (instructionsOf lines).length)
      (hnone : ¬ ∃ w, HasWord settings lines i w)
      (hbefore : ∀ j < i, ∃ w, HasWord settings lines j w) :
      LinesVerdict settings lines (Buffer.empty, i + 1)
  /-- All labels are good, and the buffer holds the words of the instructions. -/
  | assembled {bytes : List UInt8} (hclean : Clean lines)
      (hlength : bytes.length = 4 * (instructionsOf lines).length)
      (hwords : ∀ i < (instructionsOf lines).length,
        HasWord settings lines i (Bytes.wordAt bytes i)) :
      LinesVerdict settings lines (Buffer.ofBytes bytes, 0)

/-- What is to be said of a source. -/
inductive Verdict (settings : Settings) (source : Source) : Buffer × Int → Prop
  /-- There is no source text. -/
  | unreadable (hsource : ∀ text, ¬ source.Holds text) :
      Verdict settings source (Buffer.empty, -1)
  /-- There is a source text, and its lines are judged. -/
  | readable {text : Text} {r : Buffer × Int} (hsource : source.Holds text)
      (hlines : LinesVerdict settings (programLines settings text) r) :
      Verdict settings source r

theorem not_clean_of_first {lines before after : List SourceLine} {line : SourceLine}
    (hlines : lines = before ++ line :: after) (hline : ¬ Clean (before ++ [line])) :
    ¬ Clean lines := by
  subst hlines
  rw [List.append_cons]
  exact mt Clean.of_append hline

/-- No line with a bad label stands among clean lines. -/
theorem length_before_le {before after before' after' : List SourceLine} {line line' : SourceLine}
    (heq : before ++ line :: after = before' ++ line' :: after')
    (hline : ¬ Clean (before ++ [line])) (hbefore' : Clean before') :
    before'.length ≤ before.length := by
  by_contra hlt
  have hfirst : before ++ [line] <+: before' ++ line' :: after' := by
    rw [← heq]
    exact ⟨after, (List.append_cons before line after).symm⟩
  have hprefix : before ++ [line] <+: before' := by
    refine List.prefix_of_prefix_length_le hfirst (List.prefix_append ..) ?_
    rw [List.length_append, List.length_singleton]
    omega
  obtain ⟨rest, rfl⟩ := hprefix
  exact hline hbefore'.of_append

/-- There is only one verdict on lines. -/
theorem LinesVerdict.unique {settings : Settings} {lines : List SourceLine} {r r' : Buffer × Int}
    (h : LinesVerdict settings lines r) (h' : LinesVerdict settings lines r') : r = r' := by
  cases h with
  | badLabel hlines hbefore hline =>
      have hbad := not_clean_of_first hlines hline
      cases h' with
      | badLabel hlines' hbefore' hline' =>
          -- neither of the two first bad lines stands before the other
          have heq := hlines.symm.trans hlines'
          have hle := length_before_le heq hline hbefore'
          have hge := length_before_le heq.symm hline' hbefore
          rw [(List.append_inj heq (Nat.le_antisymm hge hle)).1]
      | badInstruction hclean => exact absurd hclean hbad
      | assembled hclean => exact absurd hclean hbad
  | badInstruction hclean hi hnone hbefore =>
      cases h' with
      | badLabel hlines _ hline => exact absurd hclean (not_clean_of_first hlines hline)
      | badInstruction _ _ hnone' hbefore' =>
          have hle := Nat.le_of_not_lt fun hlt => hnone (hbefore' _ hlt)
          have hge := Nat.le_of_not_lt fun hlt => hnone' (hbefore _ hlt)
          rw [Nat.le_antisymm hge hle]
      | assembled _ _ hwords => exact absurd ⟨_, hwords _ hi⟩ hnone
  | assembled hclean hlength hwords =>
      cases h' with
      | badLabel hlines _ hline => exact absurd hclean (not_clean_of_first hlines hline)
      | badInstruction _ hi hnone => exact absurd ⟨_, hwords _ hi⟩ hnone
      | assembled _ hlength' hwords' =>
          rw [Bytes.ext_wordAt hlength hlength' fun i hi => (hwords i hi).unique (hwords' i hi)]

/-- There is only one verdict on a source. -/
theorem Verdict.unique {settings : Settings} {source : Source} {r r' : Buffer × Int}
    (h : Verdict settings source r) (h' : Verdict settings source r') : r = r' := by
  cases h with
  | unreadable hsource =>
      cases h' with
      | unreadable => rfl
      | readable hsource' => exact absurd hsource' (hsource _)
  | readable hsource hlines =>
      cases h' with
      | unreadable hsource' => exact absurd hsource (hsource' _)
      | readable hsource' hlines' =>
          obtain rfl := hsource.unique hsource'
          exact hlines.unique hlines'

/-- Numbers other than minus one are told of lines. -/
theorem LinesVerdict.ne_unreadable {settings : Settings} {lines : List SourceLine}
    {r : Buffer × Int} (h : LinesVerdict settings lines r) : r ≠ (Buffer.empty, -1) := by
  intro heq
  have hnumber := congrArg Prod.snd heq
  cases h with
  | badLabel =>
      simp only at hnumber
      omega
  | badInstruction =>
      simp only at hnumber
      omega
  | assembled => simp at hnumber

/-- Only the verdict that there is no source text is an empty buffer with minus one. -/
theorem Verdict.eq_unreadable_iff {settings : Settings} {source : Source} {r : Buffer × Int}
    (h : Verdict settings source r) :
    r = (Buffer.empty, -1) ↔ ∀ text, ¬ source.Holds text := by
  constructor
  · intro heq
    cases h with
    | unreadable hsource => exact hsource
    | readable _ hlines => exact absurd heq hlines.ne_unreadable
  · intro hnone
    exact h.unique (.unreadable hnone)

/-! ## What callers are told -/

/-- A diagnostic about the program is told by its position. -/
theorem Diagnostic.failingLine_of_index {d : Diagnostic} {n : Nat} (hkind : d.kind ≠ .input)
    (hindex : d.index = some (n + 1 : Int)) : d.failingLine = n + 1 := by
  rw [Diagnostic.failingLine, if_neg hkind, hindex]
  split
  · rename_i hnone
    cases hnone
  · rename_i hzero
    have hnext := Option.some.inj hzero
    omega
  · rename_i hsome
    exact (Option.some.inj hsome).symm

/-- A failure at an instruction is reported by its position. -/
theorem assembleBuffer_of_blames {settings : Settings} {source : Source} {failure : Failure}
    {n : Nat} (h : assemble settings source = .error failure) (hblames : failure.Blames (n + 1)) :
    assembleBuffer settings source = .ok (Buffer.empty, n + 1) := by
  obtain ⟨d, rfl, hkind, hindex⟩ := hblames
  rw [assembleBuffer, h]
  exact congrArg (fun k => Except.ok (Buffer.empty, k)) (d.failingLine_of_index hkind hindex)

theorem assembleBuffer_of_toBuffer {settings : Settings} {source : Source} {a : Assembly}
    {b : Buffer} (h : assemble settings source = .ok a) (hb : a.toBuffer = .ok b) :
    assembleBuffer settings source = .ok (b, 0) := by
  have hresult : (assemble settings source >>= Assembly.toBuffer) = .ok b :=
    Result.bind_eq_ok.mpr ⟨a, h, hb⟩
  rw [assembleBuffer, hresult]

/-- No failing instruction has the number zero. -/
theorem Diagnostic.failingLine_ne_zero (d : Diagnostic) : d.failingLine ≠ 0 := by
  unfold Diagnostic.failingLine
  split
  · decide
  · split
    · decide
    · decide
    · rename_i hne _
      intro hzero
      subst hzero
      exact hne rfl

/-- The number zero is told of programs that are assembled, and of no others. -/
theorem assembleBuffer_eq_ok_zero_iff {settings : Settings} {source : Source} {b : Buffer} :
    assembleBuffer settings source = .ok (b, 0) ↔
      ∃ a, assemble settings source = .ok a ∧ a.toBuffer = .ok b := by
  constructor
  · intro h
    cases hresult : (assemble settings source >>= Assembly.toBuffer) with
    | ok buffer =>
        rw [assembleBuffer, hresult] at h
        obtain ⟨rfl, -⟩ := Prod.mk.inj (Except.ok.inj h)
        exact Result.bind_eq_ok.mp hresult
    | error failure =>
        rw [assembleBuffer, hresult] at h
        cases failure with
        | diagnostic d =>
            exact absurd (Prod.mk.inj (Except.ok.inj h)).2 (Diagnostic.failingLine_ne_zero d)
        | _ => cases h
  · rintro ⟨a, hassemble, hbuffer⟩
    exact assembleBuffer_of_toBuffer hassemble hbuffer

/-- A source without text is reported as such. -/
theorem assembleBuffer_of_unreadable {settings : Settings} {source : Source}
    (h : ∀ text, ¬ source.Holds text) :
    assembleBuffer settings source = .ok (Buffer.empty, -1) := by
  cases hdecode : source.decode with
  | ok text => exact absurd (Source.decode_eq_ok_iff.mp hdecode) (h text)
  | error d =>
      have hline : d.failingLine = -1 := if_pos (Source.kind_of_decode_eq_error hdecode)
      rw [assembleBuffer, assemble, hdecode]
      exact congrArg (fun k => Except.ok (Buffer.empty, k)) hline

/-- An assembled program fits into a buffer. -/
theorem toBuffer_of_assembleText {settings : Settings} {text : Text} {a : Assembly}
    (h : assembleText settings text = .ok a) : a.toBuffer = .ok (Buffer.ofBytes a.bytes) := by
  rw [Assembly.toBuffer, Buffer.ofWords?_of_lt fun w hw => lt_of_mem_words h hw, Assembly.bytes]

/-- An assembled program fits into a buffer, with each word at its place. -/
theorem exists_assembled {settings : Settings} {text : Text} {a : Assembly}
    (h : assembleText settings text = .ok a) :
    ∃ bytes, a.toBuffer = .ok (Buffer.ofBytes bytes) ∧
      LinesVerdict settings (programLines settings text) (Buffer.ofBytes bytes, 0) := by
  obtain ⟨hclean, -, hinstructions, hlength, -⟩ := assembleText_eq_ok h
  rw [hinstructions] at hlength
  refine ⟨a.bytes, toBuffer_of_assembleText h, .assembled hclean ?_ ?_⟩
  · rw [Assembly.bytes, Bytes.length_ofWords, hlength]
  · intro i hi
    have hw := List.getElem?_eq_getElem (hlength.symm ▸ hi)
    have hword := hasWord_of_assembleText h hw
    rwa [Assembly.bytes, Bytes.wordAt_ofWords hw hword.lt]

/-- The number of an instruction of a short text can be written: it is that of its line. -/
theorem tooLong_number_of_mem_instructionsOf {settings : Settings} {text : Text} {i : SourceLine}
    (hi : i ∈ instructionsOf (programLines settings text))
    (hsize : Numeral.tooLong (4 * text.length) = false) : Numeral.tooLong i.number = false := by
  obtain ⟨line, hline, hinstruction⟩ := List.mem_filterMap.mp hi
  rw [SourceLine.number_of_instruction? hinstruction]
  exact tooLong_number hline (tooLong_length_rawLines hsize)

/-- Of a source that holds a text, callers are told the verdict on its lines. -/
theorem exists_linesVerdict (settings : Settings) {source : Source} {text : Text}
    (hsource : source.Holds text) (hsize : Numeral.tooLong (4 * text.length) = false) :
    ∃ r, assembleBuffer settings source = .ok r ∧
      LinesVerdict settings (programLines settings text) r := by
  have hassemble : assemble settings source = assembleText settings text := by
    rw [assemble, Source.decode_eq_ok_iff.mpr hsource]
  by_cases hclean : Clean (programLines settings text)
  -- the first pass succeeds, and the second decides
  · cases htext : assembleText settings text with
    | ok a =>
        obtain ⟨bytes, hbuffer, hverdict⟩ := exists_assembled htext
        exact ⟨_, assembleBuffer_of_toBuffer (hassemble.trans htext) hbuffer, hverdict⟩
    | error failure =>
        obtain ⟨i, line, hline, hshows, hnone, hbefore⟩ := assembleText_eq_error hclean htext
        have hi := (List.getElem?_eq_some_iff.mp hline).1
        have hnumber := tooLong_number_of_mem_instructionsOf (List.mem_of_getElem? hline) hsize
        exact ⟨_, assembleBuffer_of_blames (hassemble.trans htext) (hshows.blames hnumber),
          .badInstruction hclean hi hnone hbefore⟩
  -- the first pass fails, before any instruction is encoded
  · obtain ⟨before, line, after, hlines, hbefore, hline⟩ := exists_first_not clean_nil hclean
    obtain ⟨failure, htext, hblames⟩ :=
      assembleText_of_first_not_clean hlines hbefore hline hsize
    have hverdict : LinesVerdict settings (programLines settings text)
        (Buffer.empty, 1 + (instructionsOf before).length) := .badLabel hlines hbefore hline
    rw [Int.add_comm] at hverdict
    exact ⟨_, assembleBuffer_of_blames (hassemble.trans htext) hblames, hverdict⟩

/-- Callers are told a verdict on their source. -/
theorem exists_verdict (settings : Settings) {source : Source}
    (hsize : Numeral.tooLong (4 * source.size) = false) :
    ∃ r, assembleBuffer settings source = .ok r ∧ Verdict settings source r := by
  by_cases hsource : ∃ text, source.Holds text
  · obtain ⟨text, hsource⟩ := hsource
    have hlength := hsource.length_le
    have hshort : Numeral.tooLong (4 * text.length) = false :=
      Numeral.tooLong_of_le (by omega) (by omega) hsize
    obtain ⟨r, hr, hlines⟩ := exists_linesVerdict settings hsource hshort
    exact ⟨r, hr, .readable hsource hlines⟩
  · have hnone : ∀ text, ¬ source.Holds text := fun text htext => hsource ⟨text, htext⟩
    exact ⟨_, assembleBuffer_of_unreadable hnone, .unreadable hnone⟩

/-- A source that is not assembled gets a diagnostic. -/
theorem exists_diagnostic {settings : Settings} {source : Source} {failure : Failure}
    (h : assemble settings source = .error failure)
    (hsize : Numeral.tooLong (4 * source.size) = false) : ∃ d, failure = .diagnostic d := by
  obtain ⟨r, hr, -⟩ := exists_verdict settings hsize
  rw [assembleBuffer, h] at hr
  cases failure with
  | diagnostic d => exact ⟨d, rfl⟩
  | _ => cases hr

/-- **Callers are told the one verdict on their source**: assembling never fails, whatever the
source and the settings are; the answer is the only verdict on the source; and it is an empty buffer
with minus one exactly when there is no source text.  The report of a failure shows the number of a
line, and that of a label that is defined again its offset, so an offset at the end of the source
has to be short enough to be written: one of at most 4300 digits, as every source of fewer than
`10 ^ 4299` characters has. -/
theorem assembleBuffer_verdict (settings : Settings) (source : Source)
    (hsize : Numeral.tooLong (4 * source.size) = false) :
    ∃ r, assembleBuffer settings source = .ok r ∧
      (∀ r', Verdict settings source r' ↔ r' = r) ∧
      (r = (Buffer.empty, -1) ↔ ∀ text, ¬ source.Holds text) := by
  obtain ⟨r, hr, hverdict⟩ := exists_verdict settings hsize
  refine ⟨r, hr, ?_, hverdict.eq_unreadable_iff⟩
  intro r'
  constructor
  · intro h
    exact h.unique hverdict
  · rintro rfl
    exact hverdict

/-- A label that is defined again is reported before an instruction above it that has no word. -/
theorem assembleBuffer_verdict_again :
    Numeral.tooLong (4 * (Source.text "x: bogus\nnop\n\nx: nop # again\n".toList).size) = false ∧
      assembleBuffer {} (.text "x: bogus\nnop\n\nx: nop # again\n".toList) =
        .ok (Buffer.empty, 3) ∧
      Verdict {} (.text "x: bogus\nnop\n\nx: nop # again\n".toList) (Buffer.empty, 3) := by
  have hsize : Numeral.tooLong
      (4 * (Source.text "x: bogus\nnop\n\nx: nop # again\n".toList).size) = false := by
    decide +kernel
  have hbuffer : assembleBuffer {} (.text "x: bogus\nnop\n\nx: nop # again\n".toList) =
      .ok (Buffer.empty, 3) := by decide +kernel
  obtain ⟨r, hr, hverdict, -⟩ := assembleBuffer_verdict {} _ hsize
  obtain rfl := Except.ok.inj (hbuffer.symm.trans hr)
  exact ⟨hsize, hbuffer, (hverdict _).mpr rfl⟩

end RiscAsm

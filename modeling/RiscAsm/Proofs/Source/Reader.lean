import RiscAsm.Proofs.Source.Lines
import Mathlib.Data.List.Infix

/-!
# Reading lines in one pass

A `Reader` goes through a text once, character by character.  It knows the number of the line it is
in, the characters of that line, and whether a carriage return has just ended a line, in which case
a line feed ends no other.  What is left of a line, without its comment and without the blanks
around it, is kept with the number of the line.

Normalization gives the lines that a reader keeps (`readLines_eq`, `normalize_eq_readLines`).  One
character changes nothing in what the reader will have kept in the end (`Reader.outcome_step`), and
so a whole text does not (`Reader.outcome_foldl`).
-/

namespace RiscAsm

namespace Source

/-! ## The first place where a comment starts -/

/-- Whether a comment starts at the front of a text. -/
def startsComment (s : Text) : Bool := ['#'].isPrefixOf s || ['/', '/'].isPrefixOf s

/-- The part of a line before the first position at which a comment starts. -/
def cutComment (line : Text) : Text := line.take (line.tails.findIdx startsComment)

theorem cutComment_cons (c : Char) (rest : Text) :
    cutComment (c :: rest) = if startsComment (c :: rest) then [] else c :: cutComment rest := by
  rw [cutComment, List.tails_cons, List.findIdx_cons]
  cases startsComment (c :: rest) with
  | true => rfl
  | false => rfl

theorem startsComment_iff {s : Text} :
    startsComment s = true ↔ ∃ mark ∈ commentMarks, mark <+: s := by
  simp [startsComment, commentMarks, List.isPrefixOf_iff_prefix]

/-- A line is cut at the first position at which a comment starts. -/
theorem stripComment_eq_cutComment (line : Text) : stripComment line = cutComment line := by
  induction line with
  | nil => rfl
  | cons c rest ih =>
      rw [cutComment_cons]
      split
      · next hstart =>
          obtain ⟨mark, hmark, after, hafter⟩ := startsComment_iff.mp hstart
          rw [← hafter]
          exact stripComment_of_mark hmark after
      · next hnone =>
          rw [stripComment_cons, ih]
          exact fun mark hmark hprefix => hnone (startsComment_iff.mpr ⟨mark, hmark, hprefix⟩)

/-! ## The reader -/

/-- What is known after a part of a text was read. -/
structure Reader where
  /-- The number of the line at hand. -/
  number : Nat
  /-- Its characters, the latest first. -/
  line : Text
  /-- Whether the last character was a carriage return. -/
  afterReturn : Bool
  /-- The lines that were kept, the latest first. -/
  kept : List SourceLine
  deriving DecidableEq, Repr

namespace Reader

/-- Before the first character. -/
def start : Reader := { number := 1, line := [], afterReturn := false, kept := [] }

/-- At the end of a line: what is left of it is kept, and the next line starts. -/
def endLine (keepComments : Bool) (r : Reader) : Reader :=
  let raw := r.line.reverse
  let text := Text.trim (if keepComments then raw else cutComment raw)
  { number := r.number + 1
    line := []
    afterReturn := false
    kept := if text = [] then r.kept else ⟨r.number, text⟩ :: r.kept }

/-- After one more character. -/
def step (keepComments : Bool) (r : Reader) (c : Char) : Reader :=
  if c = '\n' then
    if r.afterReturn then { r with afterReturn := false } else r.endLine keepComments
  else if c = '\r' then
    { r.endLine keepComments with afterReturn := true }
  else
    { r with line := c :: r.line, afterReturn := false }

end Reader

/-- The lines that a reader keeps of a text; the end of the text ends a line. -/
def readLines (keepComments : Bool) (s : Text) : List SourceLine :=
  ((s.foldl (Reader.step keepComments) Reader.start).endLine keepComments).kept.reverse

namespace Reader

variable {keepComments : Bool}

/-- The text that is left to a reader: without a line feed that belongs to the break before. -/
def ahead (afterReturn : Bool) : Text → Text
  | '\n' :: rest => if afterReturn then rest else '\n' :: rest
  | s => s

theorem ahead_false (s : Text) : ahead false s = s := by
  unfold ahead
  split
  · rfl
  · rfl

theorem ahead_cons {c : Char} (h : c ≠ '\n') (afterReturn : Bool) (rest : Text) :
    ahead afterReturn (c :: rest) = c :: rest := by
  rw [ahead]
  rintro after ⟨⟩
  exact h rfl

/-- The lines that will have been kept when the rest of a text is read: those that are kept already,
and what is left of the lines of the rest, the first of which goes on with the line at hand. -/
def outcome (keepComments : Bool) (r : Reader) (rest : Text) : List SourceLine :=
  let lines := (breakLines (ahead r.afterReturn rest)).modifyHead (r.line.reverse ++ ·)
  r.kept.reverse ++ (lines.zipIdx r.number).filterMap (keepLine keepComments)

/-- At the end of a line the reader keeps what normalization keeps of it. -/
theorem kept_endLine (r : Reader) :
    (r.endLine keepComments).kept.reverse =
      r.kept.reverse ++ [(r.line.reverse, r.number)].filterMap (keepLine keepComments) := by
  rw [endLine, List.filterMap_cons, keepLine]
  simp only [stripComment_eq_cutComment]
  generalize Text.trim (if keepComments then r.line.reverse else cutComment r.line.reverse) = text
  cases text with
  | nil => simp
  | cons c text => simp

/-- A text that ends leaves the line at hand. -/
theorem outcome_nil (r : Reader) :
    outcome keepComments r [] = (r.endLine keepComments).kept.reverse := by
  rw [kept_endLine, outcome]
  show _ ++ (([r.line.reverse ++ []].zipIdx r.number).filterMap (keepLine keepComments)) = _
  rw [List.append_nil, List.zipIdx_singleton]

/-- A break ends the line at hand, and the lines after it are kept after that. -/
theorem outcome_of_break {r : Reader} {rest after : Text}
    (h : breakLines (ahead r.afterReturn rest) = [] :: breakLines after) :
    outcome keepComments r rest = (r.endLine keepComments).kept.reverse ++
      ((breakLines after).zipIdx (r.number + 1)).filterMap (keepLine keepComments) := by
  rw [kept_endLine, outcome, h]
  simp only [List.modifyHead_cons, List.append_nil, List.zipIdx_cons]
  rw [List.append_assoc, ← List.singleton_append, List.filterMap_append]

/-- At the start of a line nothing is in front of the lines that follow. -/
theorem outcome_of_line_nil {r : Reader} (h : r.line = []) (rest : Text) :
    outcome keepComments r rest = r.kept.reverse ++
      ((breakLines (ahead r.afterReturn rest)).zipIdx r.number).filterMap
        (keepLine keepComments) := by
  have hid : ∀ lines : List Text, lines.modifyHead (([] : Text).reverse ++ ·) = lines := by
    intro lines
    cases lines with
    | nil => rfl
    | cons line lines => rfl
  rw [outcome, h]
  simp only [hid]

/-- A carriage return is a break together with the line feed after it, if there is one. -/
theorem breakLines_return (rest : Text) :
    breakLines ('\r' :: rest) = [] :: breakLines (ahead true rest) := by
  unfold ahead
  split
  · rw [breakLines]
    rfl
  · next hfeed =>
      rw [breakLines]
      exact hfeed

/-- **One character** does not change what will have been kept in the end. -/
theorem outcome_step (r : Reader) (c : Char) (rest : Text) :
    outcome keepComments (r.step keepComments c) rest = outcome keepComments r (c :: rest) := by
  by_cases hfeed : c = '\n'
  · subst hfeed
    cases hafter : r.afterReturn with
    | true =>
        -- the line feed belongs to the break before
        rw [step, if_pos rfl, if_pos hafter, outcome, outcome, ahead_false, hafter]
        rfl
    | false =>
        have hbreak : breakLines (ahead r.afterReturn ('\n' :: rest)) = [] :: breakLines rest := by
          rw [hafter, ahead_false, breakLines]
        have hstep : r.step keepComments '\n' = r.endLine keepComments := by
          rw [step, if_pos rfl, if_neg (by simp [hafter])]
        rw [hstep, outcome_of_break hbreak, outcome_of_line_nil rfl, endLine, ahead_false]
  · by_cases hreturn : c = '\r'
    · subst hreturn
      have hbreak : breakLines (ahead r.afterReturn ('\r' :: rest)) =
          [] :: breakLines (ahead true rest) := by
        rw [ahead_cons hfeed, breakLines_return]
      have hstep : r.step keepComments '\r' =
          { r.endLine keepComments with afterReturn := true } := by
        rw [step, if_neg hfeed, if_pos rfl]
      rw [hstep, outcome_of_break hbreak, outcome_of_line_nil rfl]
      rfl
    · have hline : breakLines (ahead r.afterReturn (c :: rest)) =
          (breakLines rest).modifyHead (c :: ·) := by
        rw [ahead_cons hfeed, breakLines]
        · rintro after rfl
          exact absurd rfl hreturn
        · exact hreturn
        · exact hfeed
      have hgrow : (fun s : Text => (c :: r.line).reverse ++ s) =
          (fun s => r.line.reverse ++ s) ∘ (c :: ·) := by
        funext s
        simp
      rw [step, if_neg hfeed, if_neg hreturn, outcome, outcome, hline, List.modifyHead_modifyHead,
        ahead_false, ← hgrow]

/-- **A whole text** does not change it either. -/
theorem outcome_foldl (r : Reader) (s : Text) :
    outcome keepComments (s.foldl (step keepComments) r) [] = outcome keepComments r s := by
  induction s generalizing r with
  | nil => rfl
  | cons c s ih => rw [List.foldl_cons, ih, outcome_step]

end Reader

/-- A reader keeps the lines of the program. -/
theorem readLines_eq (keepComments : Bool) (s : Text) :
    readLines keepComments s = normalize keepComments s := by
  rw [readLines, ← Reader.outcome_nil, Reader.outcome_foldl, Reader.outcome_of_line_nil rfl,
    normalize, rawLines_eq_breakLines]
  show [] ++ ((breakLines (Reader.ahead false s)).zipIdx 1).filterMap (keepLine keepComments) = _
  rw [Reader.ahead_false, List.nil_append]

/-! ## Numbers of lines -/

/-- Line numbers increase. -/
theorem pairwise_normalize (keepComments : Bool) (s : Text) :
    (normalize keepComments s).Pairwise fun first second => first.number < second.number := by
  have hraw : ((rawLines s).zipIdx 1).Pairwise fun first second => first.2 < second.2 := by
    rw [← List.pairwise_map, List.zipIdx_map_snd]
    exact List.pairwise_lt_range'
  refine hraw.filterMap (keepLine keepComments) ?_
  rintro ⟨first, i⟩ ⟨second, k⟩ hlt line hline next hnext
  rw [(keepLine_eq_some hline).1, (keepLine_eq_some hnext).1]
  exact Int.ofNat_lt.mpr hlt

/-- The texts of a program, joined with line feeds, are found again. -/
theorem texts_normalize_joinLines (keepComments : Bool) (s : Text) :
    (normalize keepComments (Text.joinLines ((normalize keepComments s).map SourceLine.text))).map
      SourceLine.text = (normalize keepComments s).map SourceLine.text := by
  have hlines : ∀ t ∈ (normalize keepComments s).map SourceLine.text, IsLine keepComments t := by
    intro t ht
    obtain ⟨line, hline, rfl⟩ := List.mem_map.mp ht
    exact isLine_of_mem_normalize hline
  rw [normalize_joinLines hlines, List.map_map]
  exact List.zipIdx_map_fst 1 _

/-- **Normalization reads a text in one pass**: its lines are those that a reader keeps.  Their
numbers increase, each is trimmed, not empty and without breaks or, where comments are cut off,
comments, and the texts of the lines, joined with line feeds, are found again. -/
theorem normalize_eq_readLines (keepComments : Bool) (s : Text) :
    normalize keepComments s = readLines keepComments s ∧
      ((normalize keepComments s).Pairwise fun first second => first.number < second.number) ∧
        (∀ line ∈ normalize keepComments s, IsLine keepComments line.text) ∧
          (normalize keepComments
            (Text.joinLines ((normalize keepComments s).map SourceLine.text))).map
              SourceLine.text = (normalize keepComments s).map SourceLine.text :=
  ⟨(readLines_eq keepComments s).symm, pairwise_normalize keepComments s,
    fun _ hline => isLine_of_mem_normalize hline, texts_normalize_joinLines keepComments s⟩

/-- Two carriage returns and a line feed are two breaks, a line feed and a carriage return too, and
a single slash starts no comment. -/
theorem normalize_eq_readLines_breaks :
    readLines false " a /# b\r\r\nc/ / // d\n\r#".toList =
      [⟨1, "a /".toList⟩, ⟨3, "c/ /".toList⟩] ∧
        IsLine false "c/ /".toList := by
  obtain ⟨hread, -, hlines, -⟩ :=
    normalize_eq_readLines false " a /# b\r\r\nc/ / // d\n\r#".toList
  have hnormalize : normalize false " a /# b\r\r\nc/ / // d\n\r#".toList =
      [⟨1, "a /".toList⟩, ⟨3, "c/ /".toList⟩] := by decide +kernel
  refine ⟨hread.symm.trans hnormalize, hlines ⟨3, "c/ /".toList⟩ ?_⟩
  rw [hnormalize]
  exact List.mem_cons_of_mem _ List.mem_cons_self

end Source

end RiscAsm

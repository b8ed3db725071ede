import Mathlib.Data.List.Induction
import RiscAsm.Label
import RiscAsm.Proofs.Result
import RiscAsm.Proofs.Text.Pieces

/-!
# Theory of the first pass

A line is divided at its colons: every part before a colon names a label, and what follows the last
colon is the instruction of the line (`SourceLine.labels`, `SourceLine.instruction?`).  Lines are
`Clean` when all their labels are names and no name is defined twice.  The first pass succeeds
exactly on clean lines (`discover_eq_none_iff`), with every label at the offset of the instruction
that follows it (`mem_entries_ofLines`), and otherwise stops on the first line that is not clean
with the lines before it, at the first label that is refused (`discover_of_first_not_clean`).
-/

namespace RiscAsm

/-! ## Parts of a line -/

/-- The parts of a text between colons, trimmed. -/
def Text.segments (s : Text) : List Text := (s.splitOn ':').map Text.trim

namespace SourceLine

/-- The labels of a line: every part that is ended by a colon. -/
def labels (line : SourceLine) : List Text := (Text.segments line.text).dropLast

/-- The instruction of a line: what follows its last colon, unless nothing is left. -/
def instruction? (line : SourceLine) : Option SourceLine :=
  match (Text.segments line.text).getLast? with
  | none | some [] => none
  | some text => some ⟨line.number, text⟩

end SourceLine

/-- The instructions of lines, in order. -/
def instructionsOf (lines : List SourceLine) : List SourceLine :=
  lines.filterMap SourceLine.instruction?

theorem instructionsOf_append (first rest : List SourceLine) :
    instructionsOf (first ++ rest) = instructionsOf first ++ instructionsOf rest :=
  List.filterMap_append

/-- All labels of lines are names, and no name is defined twice. -/
def Clean (lines : List SourceLine) : Prop :=
  (∀ name ∈ lines.flatMap SourceLine.labels, Label.isName name = true) ∧
    (lines.flatMap SourceLine.labels).Nodup

instance (lines : List SourceLine) : Decidable (Clean lines) := inferInstanceAs (Decidable (_ ∧ _))

namespace Text

theorem segments_ne_nil (s : Text) : segments s ≠ [] := by
  unfold segments
  simp [List.splitOn_ne_nil]

/-- Trimming does not change the parts of a text. -/
theorem segments_trim (s : Text) : segments (trim s) = segments s :=
  map_trim_splitOn_trim (by decide) s

theorem segments_of_not_mem {s : Text} (h : ':' ∉ s) : segments s = [trim s] := by
  rw [segments, List.splitOn_eq_singleton h, List.map_singleton]

theorem segments_append {before : Text} (h : ':' ∉ before) (after : Text) :
    segments (before ++ ':' :: after) = trim before :: segments after := by
  rw [segments, List.splitOn_append_cons_self_of_not_mem h, List.map_cons, ← segments]

/-- A text without the mark is not cut. -/
theorem cutAt?_of_not_mem {mark : Char} {s : Text} (h : mark ∉ s) : cutAt? mark s = none := by
  have hdrop : s.dropWhile (· != mark) = [] := by
    rw [List.dropWhile_eq_nil_iff]
    intro c hc
    rw [bne_iff_ne]
    rintro rfl
    exact h hc
  rw [cutAt?, hdrop]

/-- A text is cut at its first mark. -/
theorem cutAt?_append {mark : Char} {before : Text} (h : mark ∉ before) (after : Text) :
    cutAt? mark (before ++ mark :: after) = some (before, after) := by
  have hbefore : ∀ c ∈ before, (c != mark) = true := by
    intro c hc
    rw [bne_iff_ne]
    rintro rfl
    exact h hc
  rw [cutAt?, List.dropWhile_append_of_pos hbefore, List.takeWhile_append_of_pos hbefore,
    List.dropWhile_cons_of_neg (by simp), List.takeWhile_cons_of_neg (by simp), List.append_nil]

/-- Trimming adds no mark. -/
theorem count_trim_le (mark : Char) (s : Text) : (trim s).count mark ≤ s.count mark := by
  obtain ⟨l, r, hs, -, -⟩ := exists_trim s
  have hcount := congrArg (List.count mark) hs
  rw [List.count_append, List.count_append] at hcount
  omega

end Text

/-! ## One line -/

/-- A failure is a diagnostic about the program at the position `index` among its instructions. -/
def Failure.Blames (failure : Failure) (index : Int) : Prop :=
  ∃ d, failure = .diagnostic d ∧ d.kind ≠ .input ∧ d.index = some index

/-- A failure is a diagnostic of a kind about a line, at the position `index` among the instructions
of the program. -/
def Failure.Points (failure : Failure) (kind : DiagnosticKind) (line : SourceLine) (index : Int) :
    Prop :=
  ∃ d, failure = .diagnostic d ∧ d.kind = kind ∧ d.line = some line.number ∧ d.index = some index

/-- A failure reports such a diagnostic, unless the number of the line is too long to be written. -/
def Failure.Reports (failure : Failure) (kind : DiagnosticKind) (line : SourceLine) (index : Int) :
    Prop :=
  ∃ d : Diagnostic, failure = d.failure ∧ d.kind = kind ∧ d.line = some line.number ∧
    d.index = some index

/-- A diagnostic with a line is reported if the number of the line can be written. -/
theorem Diagnostic.failure_eq {d : Diagnostic} {number : Int} (h : d.line = some number) :
    d.failure =
      if Numeral.tooLong number then .value Numeral.tooLongMessage else .diagnostic d := by
  simp only [failure, message?, h]
  cases hnumber : Numeral.tooLong number with
  | true => simp only [if_true]
  | false =>
      simp only [Bool.false_eq_true, if_false]
      cases d.text with
      | none => rfl
      | some text => cases text <;> rfl

theorem Diagnostic.failure_of_written {d : Diagnostic} {number : Int} (h : d.line = some number)
    (hnumber : Numeral.tooLong number = false) : d.failure = .diagnostic d := by
  rw [failure_eq h, hnumber]
  rfl

/-- No other diagnostic is reported in the place of one. -/
theorem Diagnostic.eq_of_failure_eq {d other : Diagnostic} (h : d.failure = .diagnostic other) :
    other = d := by
  unfold failure at h
  split at h
  · exact (Failure.diagnostic.inj h).symm
  · cases h

theorem Failure.Reports.points {failure : Failure} {kind : DiagnosticKind} {line : SourceLine}
    {index : Int} (h : failure.Reports kind line index)
    (hnumber : Numeral.tooLong line.number = false) : failure.Points kind line index := by
  obtain ⟨d, rfl, hkind, hline, hindex⟩ := h
  exact ⟨d, d.failure_of_written hline hnumber, hkind, hline, hindex⟩

theorem Failure.Points.blames {failure : Failure} {kind : DiagnosticKind} {line : SourceLine}
    {index : Int} (h : failure.Points kind line index) (hkind : kind ≠ .input) :
    failure.Blames index := by
  obtain ⟨d, rfl, rfl, -, hindex⟩ := h
  exact ⟨d, rfl, hkind, hindex⟩

namespace Layout

/-- A layout can take names: they are label names, and none is defined twice. -/
def Admits (l : Layout) (names : List Text) : Prop :=
  (∀ name ∈ names, Label.isName name = true) ∧ (l.labels.names ++ names).Nodup

/-- The layout with names added at the offset of the next instruction. -/
def label (width : Int) (l : Layout) (names : List Text) : Layout :=
  { l with labels := ⟨l.labels.entries ++ names.map fun name => (name, l.count * width)⟩ }

/-- The layout with an instruction added, if there is one. -/
def add (l : Layout) : Option SourceLine → Layout
  | none => l
  | some line => l.push line

/-- The layout with a line added: its labels first, then its instruction. -/
def place (width : Int) (l : Layout) (line : SourceLine) : Layout :=
  (l.label width line.labels).add line.instruction?

/-- The layout of lines. -/
def ofLines (width : Int) (lines : List SourceLine) : Layout := lines.foldl (place width) {}

variable {width : Int} {l : Layout}

theorem names_label (width : Int) (l : Layout) (names : List Text) :
    (l.label width names).labels.names = l.labels.names ++ names := by
  simp [label, LabelTable.names, Function.comp_def]

theorem admits_cons (width : Int) {name : Text} {names : List Text}
    (hname : Label.isName name = true) :
    l.Admits (name :: names) ↔ (l.label width [name]).Admits names := by
  rw [Admits, Admits, names_label, List.append_assoc, List.singleton_append, List.forall_mem_cons]
  simp [hname]

theorem label_label (first rest : List Text) :
    (l.label width first).label width rest = l.label width (first ++ rest) := by
  simp [label]

/-- A new name is recorded. -/
theorem define_of_not_mem {name : Text} (h : name ∉ l.labels.names) (line : Option SourceLine)
    (index : Option Int) :
    l.labels.define name (l.count * width) line index = .ok (l.label width [name]).labels := by
  have hnone : l.labels.get? name = none := lookup_eq_none_iff_not_mem.mpr h
  rw [LabelTable.define, hnone]
  rfl

/-- All offsets that a layout has recorded, and the next one, can be written. -/
def Short (width : Int) (l : Layout) : Prop :=
  (∀ entry ∈ l.labels.entries, Numeral.tooLong entry.2 = false) ∧
    Numeral.tooLong (l.count * width) = false

/-- The failure with which a layout refuses a label of a line: it is not a name, or it is defined
already.  The second failure tells the earlier offset, unless that is too long to be written. -/
def Refuses (l : Layout) (line : SourceLine) (name : Text) (failure : Failure) : Prop :=
  (Label.isName name = false ∧ failure.Reports .labelSyntax line l.nextIndex) ∨
    Label.isName name = true ∧ ∃ offset, l.labels.get? name = some offset ∧
      (Numeral.tooLong offset = false → failure.Reports .duplicateLabel line l.nextIndex) ∧
      (Numeral.tooLong offset = true → failure = .value Numeral.tooLongMessage)

/-- A layout takes the first labels of a line and refuses the one after them. -/
def Stops (width : Int) (l : Layout) (line : SourceLine) (names : List Text) (failure : Failure) :
    Prop :=
  ∃ good bad rest, names = good ++ bad :: rest ∧ l.Admits good ∧
    (l.label width good).Refuses line bad failure

/-- A name that is defined already is refused. -/
theorem define_of_mem {name : Text} (h : name ∈ l.labels.names) (hname : Label.isName name = true)
    (offset : Int) (line : SourceLine) :
    ∃ failure, l.labels.define name offset (some line) (some l.nextIndex) = .error failure ∧
      l.Refuses line name failure := by
  rw [LabelTable.define]
  cases hget : l.labels.get? name with
  | none => exact absurd h (lookup_eq_none_iff_not_mem.mp hget)
  | some earlier =>
      simp only
      split
      · rename_i hlong
        refine ⟨_, rfl, .inr ⟨hname, earlier, hget, ?_, fun _ => rfl⟩⟩
        intro hshort
        rw [hlong] at hshort
        cases hshort
      · rename_i hshort
        exact ⟨_, rfl, .inr ⟨hname, earlier, hget, fun _ => ⟨_, rfl, rfl, rfl, rfl⟩,
          fun hlong => absurd hlong hshort⟩⟩

/-- A label that is refused is blamed at the position of the next instruction. -/
theorem Refuses.blames {line : SourceLine} {name : Text} {failure : Failure}
    (h : l.Refuses line name failure) (hshort : l.Short width)
    (hnumber : Numeral.tooLong line.number = false) : failure.Blames l.nextIndex := by
  rcases h with ⟨-, hreports⟩ | ⟨-, offset, hget, hreports, -⟩
  · exact (hreports.points hnumber).blames DiagnosticKind.noConfusion
  · have hoffset := hshort.1 (name, offset) (mem_of_lookup hget)
    exact ((hreports hoffset).points hnumber).blames DiagnosticKind.noConfusion

theorem Short.label {names : List Text} (h : l.Short width) :
    (l.label width names).Short width := by
  refine ⟨?_, h.2⟩
  intro entry hentry
  rcases List.mem_append.mp hentry with hold | hnew
  · exact h.1 entry hold
  · obtain ⟨name, -, rfl⟩ := List.mem_map.mp hnew
    exact h.2

theorem Stops.blames {line : SourceLine} {names : List Text} {failure : Failure}
    (h : l.Stops width line names failure) (hshort : l.Short width)
    (hnumber : Numeral.tooLong line.number = false) : failure.Blames l.nextIndex := by
  obtain ⟨good, bad, rest, -, -, hrefuses⟩ := h
  exact hrefuses.blames hshort.label hnumber

/-- A layout stops at its first label. -/
theorem Refuses.stops (width : Int) {line : SourceLine} {name : Text} {failure : Failure}
    (h : l.Refuses line name failure) (hnodup : l.labels.names.Nodup) (names : List Text) :
    l.Stops width line (name :: names) failure := by
  refine ⟨[], name, names, rfl, ⟨by simp, by simpa using hnodup⟩, ?_⟩
  simpa [label] using h

/-- A layout that takes a label stops where it stops with that label. -/
theorem Stops.cons {line : SourceLine} {name : Text} {names : List Text} {failure : Failure}
    (hname : Label.isName name = true)
    (h : (l.label width [name]).Stops width line names failure) :
    l.Stops width line (name :: names) failure := by
  obtain ⟨good, bad, rest, rfl, hgood, hbad⟩ := h
  refine ⟨name :: good, bad, rest, rfl, (admits_cons width hname).mpr hgood, ?_⟩
  rwa [label_label, List.singleton_append] at hbad

end Layout

namespace SourceLine

/-- A line without a colon is all instruction. -/
theorem parts_of_not_mem (line : SourceLine) (h : ':' ∉ line.text)
    (htrim : Text.trim line.text = line.text) :
    line.labels = [] ∧ line.instruction? = if line.text.isEmpty then none else some line := by
  obtain ⟨number, text⟩ := line
  simp only at h htrim
  rw [labels, instruction?, Text.segments_of_not_mem h, htrim]
  cases text with
  | nil => exact ⟨rfl, rfl⟩
  | cons c text => exact ⟨rfl, rfl⟩

/-- The part of a line before its first colon is its first label. -/
theorem parts_append (number : Int) {before : Text} (h : ':' ∉ before) (after : Text) :
    (mk number (before ++ ':' :: after)).labels =
        Text.trim before :: (mk number (Text.trim after)).labels ∧
      (mk number (before ++ ':' :: after)).instruction? =
        (mk number (Text.trim after)).instruction? := by
  obtain ⟨segment, segments, hsegments⟩ :=
    List.exists_cons_of_ne_nil (Text.segments_ne_nil after)
  rw [labels, labels, instruction?, instruction?, Text.segments_append h, Text.segments_trim,
    hsegments, List.dropLast_cons_cons, List.getLast?_cons_cons]
  exact ⟨rfl, rfl⟩

/-- The instruction of a line is a trimmed piece of it without a colon. -/
theorem of_instruction? {line i : SourceLine} (h : line.instruction? = some i) :
    i.text <:+: line.text ∧ i.text ≠ [] ∧ Text.trim i.text = i.text ∧ ':' ∉ i.text := by
  unfold instruction? at h
  split at h
  · simp at h
  · simp at h
  · rename_i text hne hlast
    obtain rfl := Option.some.inj h
    obtain ⟨segment, hsegment, rfl⟩ := List.mem_map.mp (List.mem_of_getLast? hlast)
    refine ⟨(Text.trim_piece segment).trans (Text.infix_of_mem_splitOn hsegment), ?_,
      Text.trim_trim segment, ?_⟩
    · intro hnil
      exact hne hnil
    · intro hmem
      exact Text.not_mem_of_mem_splitOn hsegment ((Text.trim_piece segment).mem hmem)

/-- The instruction of a line has its number. -/
theorem number_of_instruction? {line i : SourceLine} (h : line.instruction? = some i) :
    i.number = line.number := by
  unfold instruction? at h
  split at h
  · cases h
  · cases h
  · obtain rfl := Option.some.inj h
    rfl

end SourceLine

/-- All characters of a name can stand within a name. -/
theorem Label.isNameRest_of_mem {name : Text} (h : isName name = true) {c : Char} (hc : c ∈ name) :
    isNameRest c = true := by
  have hstart : ∀ {c : Char}, isNameStart c = true → isNameRest c = true := by
    intro c hc
    simp only [isNameStart, isNameRest, Char.isAlphanum, Bool.or_eq_true] at hc ⊢
    tauto
  cases name with
  | nil => simp at hc
  | cons first rest =>
      obtain ⟨hfirst, hrest⟩ := Bool.and_eq_true_iff.mp h
      rcases List.mem_cons.mp hc with rfl | hmem
      · exact hstart hfirst
      · exact List.all_eq_true.mp hrest c hmem

namespace Layout

variable {width : Int} {l : Layout}

/-- A line without a colon is its instruction. -/
theorem readAux_of_not_mem {line : SourceLine} {current : Text} (h : ':' ∉ current)
    (htrim : Text.trim current = current) (colons : Nat) :
    readAux width line colons l current = (l.place width ⟨line.number, current⟩, none) := by
  obtain ⟨hlabels, hinstruction⟩ :=
    SourceLine.parts_of_not_mem ⟨line.number, current⟩ h htrim
  rw [place, hlabels, hinstruction]
  unfold readAux Label.split
  rw [Text.cutAt?_of_not_mem h]
  cases current with
  | nil => simp [label, add]
  | cons c current => simp [label, add]

/-- A part before a colon that is no name ends the pass. -/
theorem readAux_of_malformed {line : SourceLine} {before : Text} (h : ':' ∉ before)
    (hname : Label.isName (Text.trim before) = false) (after : Text) (colons : Nat) :
    ∃ failure, readAux width line colons l (before ++ ':' :: after) = (l, some failure) ∧
      failure.Reports .labelSyntax line l.nextIndex := by
  obtain ⟨d, hsplit, hd⟩ : ∃ d : Diagnostic, Label.split ⟨line.number, before ++ ':' :: after⟩
      (some l.nextIndex) = .error d.failure ∧ d.kind = .labelSyntax ∧
        d.line = some line.number ∧ d.index = some l.nextIndex := by
    unfold Label.split
    rw [Text.cutAt?_append h]
    simp only [hname]
    split
    · exact ⟨_, rfl, rfl, rfl, rfl⟩
    · exact ⟨_, rfl, rfl, rfl, rfl⟩
  refine ⟨d.failure, ?_, d, rfl, hd⟩
  unfold readAux
  rw [hsplit]

/-- A part before a colon that is a name is split off. -/
theorem split_of_isName {before : Text} (h : ':' ∉ before)
    (hname : Label.isName (Text.trim before) = true) (number : Int) (after : Text)
    (index : Option Int) :
    Label.split ⟨number, before ++ ':' :: after⟩ index =
      .ok (some (Text.trim before), Text.trim after) := by
  have hempty : (Text.trim before).isEmpty = false := by
    cases hbefore : Text.trim before with
    | nil => simp [hbefore, Label.isName] at hname
    | cons c name => rfl
  unfold Label.split
  rw [Text.cutAt?_append h]
  simp [hempty, hname]

/-- A new name is recorded, and the rest of the line is read. -/
theorem readAux_of_new {line : SourceLine} {before : Text} (h : ':' ∉ before)
    (hname : Label.isName (Text.trim before) = true)
    (hnew : Text.trim before ∉ l.labels.names) (after : Text) (colons : Nat) :
    readAux width line (colons + 1) l (before ++ ':' :: after) =
      readAux width line colons (l.label width [Text.trim before]) (Text.trim after) := by
  rw [readAux, split_of_isName h hname]
  simp only [define_of_not_mem hnew]
  rfl

/-- A name that is defined already ends the pass. -/
theorem readAux_of_old {line : SourceLine} {before : Text} (h : ':' ∉ before)
    (hname : Label.isName (Text.trim before) = true)
    (hold : Text.trim before ∈ l.labels.names) (after : Text) (colons : Nat) :
    ∃ failure, readAux width line (colons + 1) l (before ++ ':' :: after) = (l, some failure) ∧
      l.Refuses line (Text.trim before) failure := by
  obtain ⟨failure, hdefine, hrefuses⟩ := define_of_mem hold hname (l.count * width) line
  refine ⟨failure, ?_, hrefuses⟩
  rw [readAux, split_of_isName h hname]
  simp only [hdefine]

/-- Labels that can be taken are taken off the line one by one, and the rest is its instruction.
The induction is on the number of colons that are allowed for. -/
theorem readAux_of_admits {line : SourceLine} {colons : Nat} {current : Text}
    (htrim : Text.trim current = current) (hcount : current.count ':' ≤ colons)
    (h : l.Admits (SourceLine.mk line.number current).labels) :
    readAux width line colons l current = (l.place width ⟨line.number, current⟩, none) := by
  induction colons generalizing l current with
  | zero => exact readAux_of_not_mem (List.count_eq_zero.mp (by omega)) htrim 0
  | succ colons ih =>
      by_cases hmem : ':' ∈ current
      · obtain ⟨before, after, rfl, hbefore⟩ := List.eq_append_cons_of_mem hmem
        obtain ⟨hlabels, hinstruction⟩ := SourceLine.parts_append line.number hbefore after
        rw [hlabels] at h
        have hname := h.1 _ List.mem_cons_self
        have hnew : Text.trim before ∉ l.labels.names := by
          intro hold
          exact (List.nodup_append.mp h.2).2.2 _ hold _ List.mem_cons_self rfl
        have hrest : (Text.trim after).count ':' ≤ colons := by
          have hle := Text.count_trim_le ':' after
          rw [List.count_append, List.count_cons_self] at hcount
          omega
        rw [readAux_of_new hbefore hname hnew]
        rw [admits_cons width hname] at h
        have hplace : (l.label width [Text.trim before]).place width
            ⟨line.number, Text.trim after⟩ =
            l.place width ⟨line.number, before ++ ':' :: after⟩ := by
          rw [place, place, hlabels, hinstruction, label_label, List.singleton_append]
        rw [← hplace]
        exact ih (Text.trim_trim after) hrest h
      · exact readAux_of_not_mem hmem htrim (colons + 1)

/-- If a label cannot be taken, the pass ends at the first such label. -/
theorem readAux_of_not_admits {line : SourceLine} {colons : Nat} {current : Text}
    (htrim : Text.trim current = current) (hcount : current.count ':' ≤ colons)
    (hnodup : l.labels.names.Nodup)
    (h : ¬ l.Admits (SourceLine.mk line.number current).labels) :
    ∃ next failure, readAux width line colons l current = (next, some failure) ∧
      l.Stops width line (SourceLine.mk line.number current).labels failure := by
  -- every round takes the text before one colon off: induction on the colons that are left
  induction colons generalizing l current with
  | zero =>
      have hmem : ':' ∉ current := List.count_eq_zero.mp (by omega)
      obtain ⟨hlabels, -⟩ := SourceLine.parts_of_not_mem ⟨line.number, current⟩ hmem htrim
      rw [hlabels] at h
      exact absurd ⟨by simp, by simpa using hnodup⟩ h
  | succ colons ih =>
      by_cases hmem : ':' ∈ current
      · obtain ⟨before, after, rfl, hbefore⟩ := List.eq_append_cons_of_mem hmem
        obtain ⟨hlabels, -⟩ := SourceLine.parts_append line.number hbefore after
        rw [hlabels] at h ⊢
        by_cases hname : Label.isName (Text.trim before) = true
        · by_cases hold : Text.trim before ∈ l.labels.names
          · obtain ⟨failure, hread, hrefuses⟩ := readAux_of_old hbefore hname hold after colons
            exact ⟨l, failure, hread, hrefuses.stops width hnodup _⟩
          · have hrest : (Text.trim after).count ':' ≤ colons := by
              have hle := Text.count_trim_le ':' after
              rw [List.count_append, List.count_cons_self] at hcount
              omega
            rw [readAux_of_new hbefore hname hold]
            rw [admits_cons width hname] at h
            have hnodup' : (l.label width [Text.trim before]).labels.names.Nodup := by
              rw [names_label, List.nodup_append]
              refine ⟨hnodup, by simp, ?_⟩
              rintro name hmem _ (hsame : _ ∈ [_]) rfl
              exact hold (List.mem_singleton.mp hsame ▸ hmem)
            obtain ⟨next, failure, hread, hstops⟩ := ih (Text.trim_trim after) hrest hnodup' h
            exact ⟨next, failure, hread, hstops.cons hname⟩
        · have hmalformed : Label.isName (Text.trim before) = false := by simpa using hname
          obtain ⟨failure, hread, hreports⟩ :=
            readAux_of_malformed hbefore hmalformed after (colons + 1)
          have hrefuses : l.Refuses line (Text.trim before) failure := .inl ⟨hmalformed, hreports⟩
          exact ⟨l, failure, hread, hrefuses.stops width hnodup _⟩
      · obtain ⟨hlabels, -⟩ := SourceLine.parts_of_not_mem ⟨line.number, current⟩ hmem htrim
        rw [hlabels] at h
        exact absurd ⟨by simp, by simpa using hnodup⟩ h

/-- A line whose labels can be taken is placed. -/
theorem read_of_admits {line : SourceLine} (htrim : Text.trim line.text = line.text)
    (h : l.Admits line.labels) : read width l line = (l.place width line, none) :=
  readAux_of_admits htrim (Nat.le_refl _) h

/-- Any other line ends the pass. -/
theorem read_of_not_admits {line : SourceLine} (htrim : Text.trim line.text = line.text)
    (hnodup : l.labels.names.Nodup) (h : ¬ l.Admits line.labels) :
    ∃ next failure, read width l line = (next, some failure) ∧
      l.Stops width line line.labels failure :=
  readAux_of_not_admits htrim (Nat.le_refl _) hnodup h

/-! ## All lines -/

theorem ofLines_concat (lines : List SourceLine) (line : SourceLine) :
    ofLines width (lines ++ [line]) = (ofLines width lines).place width line := by
  rw [ofLines, List.foldl_append, ← ofLines]
  rfl

theorem names_place (line : SourceLine) :
    (l.place width line).labels.names = l.labels.names ++ line.labels := by
  rw [place, ← names_label width]
  cases line.instruction? with
  | none => rfl
  | some i => rfl

/-- The names of a layout are the labels of its lines. -/
theorem names_ofLines (width : Int) (lines : List SourceLine) :
    (ofLines width lines).labels.names = lines.flatMap SourceLine.labels := by
  induction lines using List.reverseRecOn with
  | nil => rfl
  | append_singleton lines line ih =>
      rw [ofLines_concat, names_place, ih, List.flatMap_append, List.flatMap_singleton]

/-- The instructions of a layout are those of its lines. -/
theorem instructions_ofLines (width : Int) (lines : List SourceLine) :
    (ofLines width lines).instructions = instructionsOf lines ∧
      (ofLines width lines).count = (instructionsOf lines).length := by
  induction lines using List.reverseRecOn with
  | nil => exact ⟨rfl, rfl⟩
  | append_singleton lines line ih =>
      obtain ⟨hinstructions, hcount⟩ := ih
      rw [instructions] at hinstructions
      rw [ofLines_concat, place, instructionsOf, List.filterMap_append, ← instructionsOf]
      cases hline : line.instruction? with
      | none => simp [add, label, instructions, hline, hinstructions, hcount]
      | some i => simp [add, push, label, instructions, hline, hinstructions, hcount]

/-- One more line adds its labels at the offset after the instructions of the lines before it. -/
theorem entries_ofLines_concat (width : Int) (lines : List SourceLine) (line : SourceLine) :
    (ofLines width (lines ++ [line])).labels.entries =
      (ofLines width lines).labels.entries ++
        line.labels.map fun name => (name, (instructionsOf lines).length * width) := by
  rw [ofLines_concat, place, ← (instructions_ofLines width lines).2]
  cases line.instruction? with
  | none => rfl
  | some i => rfl

/-- Lines after other lines have their labels further on by the offset that those lines take up. -/
theorem entries_ofLines_append (width : Int) (first rest : List SourceLine) :
    (ofLines width (first ++ rest)).labels.entries =
      (ofLines width first).labels.entries ++ (ofLines width rest).labels.entries.map fun entry =>
        (entry.1, entry.2 + (instructionsOf first).length * width) := by
  induction rest using List.reverseRecOn with
  | nil => simp [ofLines]
  | append_singleton rest line ih =>
      have hlength : (instructionsOf (first ++ rest)).length =
          (instructionsOf first).length + (instructionsOf rest).length := by
        rw [instructionsOf_append, List.length_append]
      rw [← List.append_assoc, entries_ofLines_concat, ih, entries_ofLines_concat, hlength,
        List.map_append, List.map_map, List.append_assoc]
      congr 2
      apply List.map_congr_left
      intro name _
      simp only [Function.comp]
      rw [Nat.add_comm, Int.natCast_add, Int.add_mul]

/-- Each label of a layout stands for as many instructions as there are on the lines before its
own. -/
theorem mem_entries_ofLines {lines : List SourceLine} {name : Text} {offset : Int} :
    (name, offset) ∈ (ofLines width lines).labels.entries ↔
      ∃ before line after, lines = before ++ line :: after ∧ name ∈ line.labels ∧
        offset = (instructionsOf before).length * width := by
  induction lines using List.reverseRecOn with
  | nil => simp [ofLines]
  | append_singleton lines line ih =>
      rw [entries_ofLines_concat, List.mem_append, ih]
      constructor
      · rintro (⟨before, other, after, rfl, hname, hoffset⟩ | hmem)
        · exact ⟨before, other, after ++ [line], by simp, hname, hoffset⟩
        · obtain ⟨name', hname, heq⟩ := List.mem_map.mp hmem
          obtain ⟨rfl, rfl⟩ := Prod.mk.inj heq
          exact ⟨lines, line, [], rfl, hname, rfl⟩
      · rintro ⟨before, other, after, hlines, hname, rfl⟩
        rcases List.eq_nil_or_concat after with rfl | ⟨rest, last, rfl⟩
        · obtain ⟨rfl, hlast⟩ := List.append_inj' hlines rfl
          obtain rfl := List.singleton_inj.mp hlast
          exact .inr (List.mem_map_of_mem hname)
        · refine .inl ⟨before, other, rest, ?_, hname, rfl⟩
          rw [List.concat_eq_append, ← List.cons_append, ← List.append_assoc] at hlines
          exact (List.append_inj' hlines rfl).1

/-- A pass goes on with the layout that it has reached. -/
theorem readAll_append {next : Layout} {first : List SourceLine}
    (h : readAll width l first = (next, none)) (rest : List SourceLine) :
    readAll width l (first ++ rest) = readAll width next rest := by
  induction first generalizing l with
  | nil =>
      obtain ⟨rfl, -⟩ := Prod.mk.inj h
      rfl
  | cons line first ih =>
      rw [List.cons_append, readAll]
      rw [readAll] at h
      split at h
      · exact ih h
      · simp at h

/-- A pass that has failed reads no further. -/
theorem readAll_append_of_failure {next : Layout} {failure : Failure} {first : List SourceLine}
    (h : readAll width l first = (next, some failure)) (rest : List SourceLine) :
    readAll width l (first ++ rest) = (next, some failure) := by
  induction first generalizing l with
  | nil => simp [readAll] at h
  | cons line first ih =>
      rw [List.cons_append, readAll]
      rw [readAll] at h
      split at h
      · exact ih h
      · exact h

end Layout

/-! ## Clean lines -/

theorem Clean.of_append {first rest : List SourceLine} (h : Clean (first ++ rest)) :
    Clean first := by
  obtain ⟨hnames, hnodup⟩ := h
  rw [List.flatMap_append] at hnames hnodup
  exact ⟨fun name hname => hnames name (List.mem_append_left _ hname),
    (List.nodup_append.mp hnodup).1⟩

/-- Lines stay clean with one more line when its labels can be taken. -/
theorem Clean.concat_iff {lines : List SourceLine} (h : Clean lines) (width : Int)
    (line : SourceLine) :
    Clean (lines ++ [line]) ↔ (Layout.ofLines width lines).Admits line.labels := by
  rw [Clean, Layout.Admits, Layout.names_ofLines, List.flatMap_append, List.flatMap_singleton,
    List.forall_mem_append]
  exact ⟨fun hand => ⟨hand.1.2, hand.2⟩, fun hand => ⟨⟨h.1, hand.1⟩, hand.2⟩⟩

/-- Of a list that does not have a property of the empty list, some element is the first to spoil
it. -/
theorem exists_first_not {α : Type} {P : List α → Prop} (hnil : P []) {l : List α} (h : ¬ P l) :
    ∃ before a after, l = before ++ a :: after ∧ P before ∧ ¬ P (before ++ [a]) := by
  induction l using List.reverseRecOn with
  | nil => exact absurd hnil h
  | append_singleton l a ih =>
      by_cases hl : P l
      · exact ⟨l, a, [], rfl, hl, h⟩
      · obtain ⟨before, b, after, rfl, hbefore, hfirst⟩ := ih hl
        exact ⟨before, b, after ++ [a], by simp, hbefore, hfirst⟩

/-- The first pass places clean lines. -/
theorem discover_of_clean {width : Int} {lines : List SourceLine} (h : Clean lines)
    (htrim : ∀ line ∈ lines, Text.trim line.text = line.text) :
    discover width lines = (Layout.ofLines width lines, none) := by
  unfold discover
  induction lines using List.reverseRecOn with
  | nil => rfl
  | append_singleton lines line ih =>
      have hlines := h.of_append
      have hread := ih hlines fun other hother => htrim other (List.mem_append_left _ hother)
      have hlast : Text.trim line.text = line.text := htrim line (by simp)
      rw [Layout.readAll_append hread, Layout.readAll,
        Layout.read_of_admits hlast ((hlines.concat_iff width line).mp h), Layout.ofLines_concat]
      rfl

/-- An offset that is no greater than one that can be written can be written. -/
theorem Numeral.tooLong_of_le {a b : Int} (ha : 0 ≤ a) (hle : a ≤ b)
    (hb : Numeral.tooLong b = false) : Numeral.tooLong a = false := by
  rw [Numeral.tooLong, decide_eq_false_iff_not] at hb ⊢
  omega

/-- The offsets of few lines can be written. -/
theorem Layout.short_ofLines {width : Int} {lines : List SourceLine} (hwidth : 0 ≤ width)
    (h : Numeral.tooLong (lines.length * width) = false) :
    (Layout.ofLines width lines).Short width := by
  have hoffset : ∀ before : List SourceLine, before.length ≤ lines.length →
      Numeral.tooLong ((instructionsOf before).length * width) = false := by
    intro before hbefore
    have hle : (instructionsOf before).length ≤ before.length := List.length_filterMap_le ..
    refine Numeral.tooLong_of_le (Int.mul_nonneg (by omega) hwidth) ?_ h
    exact Int.mul_le_mul_of_nonneg_right (by omega) hwidth
  constructor
  · intro entry hentry
    obtain ⟨before, line, after, rfl, -, hentry⟩ := Layout.mem_entries_ofLines.mp hentry
    rw [hentry]
    exact hoffset before (by simp)
  · rw [(Layout.instructions_ofLines width lines).2]
    exact hoffset lines (Nat.le_refl _)

/-- The first pass stops on the first line that is not clean with those before it, at the first of
its labels that is refused. -/
theorem discover_of_first_not_clean (width : Int) {before after : List SourceLine}
    {line : SourceLine}
    (htrim : ∀ other ∈ before ++ line :: after, Text.trim other.text = other.text)
    (hbefore : Clean before) (h : ¬ Clean (before ++ [line])) :
    ∃ l failure, discover width (before ++ line :: after) = (l, some failure) ∧
      (Layout.ofLines width before).Stops width line line.labels failure := by
  have hread : Layout.readAll width {} before = (Layout.ofLines width before, none) :=
    discover_of_clean hbefore fun other hother => htrim other (List.mem_append_left _ hother)
  have hnodup : (Layout.ofLines width before).labels.names.Nodup := by
    rw [Layout.names_ofLines]
    exact hbefore.2
  obtain ⟨l, failure, hline, hstops⟩ := Layout.read_of_not_admits (htrim line (by simp)) hnodup
    (mt (hbefore.concat_iff width line).mpr h)
  refine ⟨l, failure, ?_, hstops⟩
  rw [discover, Layout.readAll_append hread, Layout.readAll, hline]

theorem clean_nil : Clean [] := by simp [Clean]

/-- The first pass succeeds exactly on clean lines, and then it has placed them all. -/
theorem discover_eq_none_iff {width : Int} {lines : List SourceLine} {l : Layout}
    (htrim : ∀ line ∈ lines, Text.trim line.text = line.text) :
    discover width lines = (l, none) ↔ Clean lines ∧ l = Layout.ofLines width lines := by
  constructor
  · intro h
    by_cases hclean : Clean lines
    · rw [discover_of_clean hclean htrim, Prod.mk.injEq] at h
      exact ⟨hclean, h.1.symm⟩
    · obtain ⟨before, line, after, rfl, hbefore, hfirst⟩ := exists_first_not clean_nil hclean
      obtain ⟨next, failure, hread, -⟩ := discover_of_first_not_clean width htrim hbefore hfirst
      rw [hread] at h
      simp at h
  · rintro ⟨hclean, rfl⟩
    exact discover_of_clean hclean htrim

end RiscAsm

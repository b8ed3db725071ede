import RiscAsm.Proofs.Layout

/-!
# Stacked labels

Several labels may stand on one line in front of an instruction.  The first pass takes them off one
by one with the position and the offset of the line (`Layout.readAux`), while labels on lines of
their own are read each with a position of its own (`Layout.readAll`).  Both ways say the same,
whether they succeed or fail (`discover_stacked`): a label at the front of a line is taken as it is
from a line of its own (`Layout.outcome_readAux_label`), and what is said of a label does not depend
on the rest of its line (`Layout.exists_refusal`).  Only the text that a failure shows is another
one, so outcomes are compared without it (`Layout.outcome`).
-/

namespace RiscAsm

/-! ## Colons and blanks -/

/-- Texts that differ in blanks at their ends have their first colon at the same place. -/
theorem Text.exists_cut_of_trim_eq {current before after : Text} (hbefore : ':' ∉ before)
    (h : trim current = trim (before ++ ':' :: after)) :
    ∃ first rest, current = first ++ ':' :: rest ∧ ':' ∉ first ∧ trim first = trim before ∧
      trim rest = trim after := by
  have hnot : ∀ {blanks : Text}, (∀ c ∈ blanks, isBlank c = true) → ':' ∉ blanks := by
    intro blanks hblanks hmem
    exact absurd (hblanks ':' hmem) (by decide)
  obtain ⟨l, r, hcurrent, hl, hr⟩ := exists_trim current
  obtain ⟨l', r', hwhole, hl', hr'⟩ := exists_trim (before ++ ':' :: after)
  rw [h] at hcurrent
  have hmem : ':' ∈ trim (before ++ ':' :: after) := mem_trim (by simp) (by decide)
  obtain ⟨b, a, hsplit, hb⟩ := List.eq_append_cons_of_mem hmem
  rw [hsplit] at hcurrent hwhole
  -- the blanks on the left are before the first colon, and those on the right after it
  have hcut : before ++ ':' :: after = (l' ++ b) ++ ':' :: (a ++ r') := by
    rw [hwhole]
    simp
  have hfirst : ':' ∉ l' ++ b := by
    rw [List.mem_append]
    exact not_or.mpr ⟨hnot hl', hb⟩
  have hsame := cutAt?_append hbefore after
  rw [hcut, cutAt?_append hfirst, Option.some.injEq, Prod.mk.injEq] at hsame
  obtain ⟨rfl, rfl⟩ := hsame
  refine ⟨l ++ b, a ++ r, ?_, ?_, ?_, ?_⟩
  · rw [hcurrent]
    simp
  · rw [List.mem_append]
    exact not_or.mpr ⟨hnot hl, hb⟩
  · rw [trim_append_of_blank_left hl, trim_append_of_blank_left hl']
  · rw [trim_append_of_blank_right _ hr, trim_append_of_blank_right _ hr']

/-! ## What is said of a line -/

/-- The failure without the text that it shows. -/
def Failure.withoutText : Failure → Failure
  | .diagnostic d => .diagnostic { d with text := none }
  | failure => failure

/-- The text has no influence on whether a diagnostic is reported. -/
theorem Diagnostic.withoutText_failure {d : Diagnostic} {number : Int}
    (h : d.line = some number) : d.failure.withoutText = failure { d with text := none } := by
  have hbare : ({ d with text := none } : Diagnostic).line = some number := h
  rw [failure_eq h, failure_eq hbare]
  split
  · rfl
  · rfl

namespace Layout

/-- The layout that was reached, and the failure that ended the pass, without the text that it
shows. -/
def outcome (result : Layout × Option Failure) : Layout × Option Failure :=
  (result.1, result.2.map Failure.withoutText)

/-- Goes on from the layout that was reached, unless there was a failure. -/
def andThen (result : Layout × Option Failure) (next : Layout → Layout × Option Failure) :
    Layout × Option Failure :=
  match result with
  | (l, none) => next l
  | (l, some failure) => (l, some failure)

variable {width : Int} {l : Layout}

theorem outcome_andThen (result : Layout × Option Failure)
    (next : Layout → Layout × Option Failure) :
    outcome (andThen result next) = andThen (outcome result) fun l => outcome (next l) := by
  obtain ⟨l, failure⟩ := result
  cases failure <;> rfl

theorem readAll_cons (line : SourceLine) (lines : List SourceLine) :
    readAll width l (line :: lines) =
      andThen (read width l line) fun next => readAll width next lines := by
  rw [readAll]
  obtain ⟨next, failure⟩ := read width l line
  cases failure <;> rfl

/-- Lines after others are read from the layout that these have left. -/
theorem readAll_append_eq (first rest : List SourceLine) :
    readAll width l (first ++ rest) =
      andThen (readAll width l first) fun next => readAll width next rest := by
  cases hfirst : readAll width l first with
  | mk next failure =>
      cases failure with
      | none => exact readAll_append hfirst rest
      | some failure => exact readAll_append_of_failure hfirst rest

/-! ## One label -/

/-- The reason that is given for a name that is no label name does not depend on the rest of the
line. -/
theorem exists_malformed {name : Text} (hname : Label.isName name = false) :
    ∃ reason, ∀ number index before after, ':' ∉ before → Text.trim before = name →
      Label.split ⟨number, before ++ ':' :: after⟩ index =
        .error (Diagnostic.failure
          ⟨.labelSyntax, reason, some number, some (before ++ ':' :: after), index⟩) := by
  cases hempty : name.isEmpty with
  | true =>
      refine ⟨"Missing label name before ':'".toList, ?_⟩
      intro number index before after hbefore htrim
      unfold Label.split
      rw [Text.cutAt?_append hbefore]
      simp only [htrim, hempty, if_true]
  | false =>
      refine ⟨"Malformed label definition: ".toList ++ Quoted.quote name, ?_⟩
      intro number index before after hbefore htrim
      unfold Label.split
      rw [Text.cutAt?_append hbefore]
      simp only [htrim, hempty, hname, Bool.false_eq_true, if_false]

/-- What is said of a name that is defined already does not depend on the rest of the line. -/
theorem exists_repeated {labels : LabelTable} {name : Text} {earlier : Int}
    (h : labels.get? name = some earlier) (offset number : Int) (index : Option Int) :
    ∃ failure, ∀ text, ∃ refusal,
      labels.define name offset (some ⟨number, text⟩) index = .error refusal ∧
        refusal.withoutText = failure := by
  unfold LabelTable.define
  rw [h]
  cases hlong : Numeral.tooLong earlier with
  | true =>
      refine ⟨.value Numeral.tooLongMessage, ?_⟩
      intro text
      simp only [hlong, if_true]
      exact ⟨_, rfl, rfl⟩
  | false =>
      refine ⟨Diagnostic.failure ⟨.duplicateLabel, "Duplicate label: ".toList ++ name ++
        " (already at offset ".toList ++ Numeral.ofInt earlier ++ ")".toList, some number, none,
        index⟩, ?_⟩
      intro text
      simp only [hlong, Bool.false_eq_true, if_false]
      exact ⟨_, rfl, Diagnostic.withoutText_failure rfl⟩

/-- A label that cannot be taken is refused in the same way wherever it stands on a line with the
given number. -/
theorem exists_refusal {name : Text}
    (h : ¬ (Label.isName name = true ∧ name ∉ l.labels.names)) (number : Int) :
    ∃ failure, ∀ text before after colons, ':' ∉ before → Text.trim before = name →
      outcome (readAux width ⟨number, text⟩ colons l (before ++ ':' :: after)) =
        (l, some failure) := by
  cases hname : Label.isName name with
  | false =>
      obtain ⟨reason, hsplit⟩ := exists_malformed hname
      refine ⟨Diagnostic.failure ⟨.labelSyntax, reason, some number, none, some l.nextIndex⟩, ?_⟩
      intro text before after colons hbefore htrim
      unfold readAux
      rw [hsplit number (some l.nextIndex) before after hbefore htrim, outcome]
      simp only [Option.map_some]
      rw [Diagnostic.withoutText_failure rfl]
  | true =>
      have hold : l.labels.get? name ≠ none := by
        intro hnone
        exact h ⟨hname, lookup_eq_none_iff_not_mem.mp hnone⟩
      obtain ⟨earlier, hget⟩ := Option.ne_none_iff_exists'.mp hold
      obtain ⟨failure, hfailure⟩ :=
        exists_repeated hget (l.count * width) number (some l.nextIndex)
      refine ⟨failure, ?_⟩
      intro text before after colons hbefore htrim
      subst htrim
      obtain ⟨refusal, hdefine, hrefusal⟩ := hfailure text
      unfold readAux
      rw [split_of_isName hbefore hname]
      simp only [hdefine]
      rw [← hrefusal]
      rfl

/-- A line that is nothing but a new label adds the label. -/
theorem read_label {name : Text} (hcolon : ':' ∉ name)
    (hname : Label.isName (Text.trim name) = true)
    (hnew : Text.trim name ∉ l.labels.names) (number : Int) :
    read width l ⟨number, name ++ [':']⟩ = (l.label width [Text.trim name], none) := by
  have hcount : (name ++ [':']).count ':' = 0 + 1 := by
    rw [List.count_append, List.count_eq_zero.mpr hcolon]
    rfl
  show readAux width ⟨number, name ++ [':']⟩ ((name ++ [':']).count ':') l (name ++ [':']) = _
  rw [hcount, readAux_of_new hcolon hname hnew]
  rfl

/-- A label at the front of what is left of a line is taken as it is from a line of its own,
whatever blanks stand around it. -/
theorem outcome_readAux_label {line : SourceLine} {before name : Text} (hbefore : ':' ∉ before)
    (hname : ':' ∉ name) (htrim : Text.trim before = Text.trim name) (after : Text) (colons : Nat) :
    outcome (readAux width line (colons + 1) l (before ++ ':' :: after)) =
      andThen (outcome (read width l ⟨line.number, name ++ [':']⟩)) fun next =>
        outcome (readAux width line colons next (Text.trim after)) := by
  by_cases hnew : Label.isName (Text.trim name) = true ∧ Text.trim name ∉ l.labels.names
  · obtain ⟨hisName, hfresh⟩ := hnew
    rw [read_label hname hisName hfresh, ← htrim]
    rw [← htrim] at hisName hfresh
    rw [readAux_of_new hbefore hisName hfresh]
    rfl
  · obtain ⟨failure, hfailure⟩ := exists_refusal hnew line.number
    have hline := hfailure line.text before after (colons + 1) hbefore htrim
    have halone := hfailure (name ++ [':']) name [] ((name ++ [':']).count ':') hname rfl
    rw [show read width l ⟨line.number, name ++ [':']⟩ =
      readAux width ⟨line.number, name ++ [':']⟩ ((name ++ [':']).count ':') l (name ++ [':'])
      from rfl, halone]
    exact hline

/-! ## Whole lines -/

/-- What is left of a line without a colon is its instruction, unless it is empty. -/
theorem readAux_of_bare {line : SourceLine} {current : Text} (h : ':' ∉ current) (colons : Nat) :
    readAux width line colons l current =
      (if current.isEmpty then l else l.push ⟨line.number, current⟩, none) := by
  unfold readAux Label.split
  rw [Text.cutAt?_of_not_mem h]

/-- Of a whole line only its number matters to what is left of it.  The induction is on the number
of colons that are allowed for. -/
theorem outcome_readAux_congr {line line' : SourceLine} (hnumber : line'.number = line.number)
    {colons colons' : Nat} {current : Text} (h : current.count ':' ≤ colons)
    (h' : current.count ':' ≤ colons') :
    outcome (readAux width line' colons' l current) =
      outcome (readAux width line colons l current) := by
  induction colons generalizing colons' l current with
  | zero =>
      have hbare : ':' ∉ current := List.count_eq_zero.mp (by omega)
      rw [readAux_of_bare hbare, readAux_of_bare hbare, hnumber]
  | succ colons ih =>
      by_cases hmem : ':' ∈ current
      · obtain ⟨before, after, rfl, hbefore⟩ := List.eq_append_cons_of_mem hmem
        rw [List.count_append, List.count_cons_self] at h h'
        have hle := Text.count_trim_le ':' after
        obtain ⟨fewer, rfl⟩ : ∃ fewer, colons' = fewer + 1 := ⟨colons' - 1, by omega⟩
        rw [outcome_readAux_label hbefore hbefore rfl, outcome_readAux_label hbefore hbefore rfl,
          hnumber]
        congr 1
        funext next
        apply ih
        · omega
        · omega
      · rw [readAux_of_bare hmem, readAux_of_bare hmem, hnumber]

end Layout

/-! ## Labels on lines of their own -/

/-- The text of labels, each ended by a colon, and what follows them. -/
def stackedText (names : List Text) (rest : Text) : Text :=
  names.flatMap (fun name => name ++ [':']) ++ rest

/-- Labels on lines of their own, and what follows them on another line, unless it is empty.  All
lines have the same number. -/
def separateLines (number : Int) (names : List Text) (rest : Text) : List SourceLine :=
  names.map (fun name => ⟨number, name ++ [':']⟩) ++ if rest.isEmpty then [] else [⟨number, rest⟩]

theorem stackedText_cons (name : Text) (names : List Text) (rest : Text) :
    stackedText (name :: names) rest = name ++ ':' :: stackedText names rest := by
  simp [stackedText]

theorem separateLines_cons (number : Int) (name : Text) (names : List Text) (rest : Text) :
    separateLines number (name :: names) rest =
      ⟨number, name ++ [':']⟩ :: separateLines number names rest := rfl

namespace Layout

variable {width : Int} {l : Layout}

/-- What follows the labels is read as on a line of its own. -/
theorem outcome_readAux_rest {line : SourceLine} {colons : Nat} {rest : Text}
    (h : rest.count ':' ≤ colons) :
    outcome (readAux width line colons l rest) =
      outcome (readAll width l (separateLines line.number [] rest)) := by
  rw [separateLines, List.map_nil, List.nil_append]
  split
  · rename_i hempty
    rw [List.isEmpty_iff.mp hempty, readAux_of_bare (by simp)]
    rfl
  · have hread : readAll width l [⟨line.number, rest⟩] = read width l ⟨line.number, rest⟩ := by
      rw [readAll_cons]
      obtain ⟨next, failure⟩ := read width l ⟨line.number, rest⟩
      cases failure <;> rfl
    have hnumber : line.number = (⟨line.number, rest⟩ : SourceLine).number := rfl
    rw [hread]
    exact outcome_readAux_congr hnumber (Nat.le_refl _) h

/-- Stacked labels are read as labels on lines of their own.  The induction is on the labels; the
texts are compared without the blanks at their ends, which are dropped after every label. -/
theorem outcome_readAux_stacked {line : SourceLine} {colons : Nat} {current rest : Text}
    {names spelled : List Text} (hnames : ∀ name ∈ names, ':' ∉ name)
    (hspelled : ∀ name ∈ spelled, ':' ∉ name) (htrim : spelled.map Text.trim = names.map Text.trim)
    (hcurrent : Text.trim current = Text.trim (stackedText names rest))
    (hbare : names = [] → Text.trim current = current) (hcount : current.count ':' ≤ colons) :
    outcome (readAux width line colons l current) =
      outcome (readAll width l (separateLines line.number spelled (Text.trim rest))) := by
  induction names generalizing l colons current spelled with
  | nil =>
      obtain rfl : spelled = [] := List.map_eq_nil_iff.mp htrim
      obtain rfl : current = Text.trim rest := (hbare rfl).symm.trans hcurrent
      exact outcome_readAux_rest hcount
  | cons name names ih =>
      cases spelled with
      | nil => cases htrim
      | cons first spelled =>
          obtain ⟨hfirst, htrim⟩ := List.cons.inj htrim
          rw [List.forall_mem_cons] at hnames hspelled
          rw [stackedText_cons] at hcurrent
          obtain ⟨before, after, rfl, hbefore, hsame, hafter⟩ :=
            Text.exists_cut_of_trim_eq hnames.1 hcurrent
          rw [List.count_append, List.count_cons_self] at hcount
          have hle := Text.count_trim_le ':' after
          obtain ⟨fewer, rfl⟩ : ∃ fewer, colons = fewer + 1 := ⟨colons - 1, by omega⟩
          rw [outcome_readAux_label hbefore hspelled.1 (hsame.trans hfirst.symm),
            separateLines_cons, readAll_cons, outcome_andThen]
          congr 1
          funext next
          apply ih hnames.2 hspelled.2 htrim
          · rw [Text.trim_trim, hafter]
          · exact fun _ => Text.trim_trim after
          · omega

end Layout

/-- **Stacked labels are labels on lines of their own**: in any list of lines, a line with labels in
front of something else may be replaced by one line for each label and one for the rest, all with
the number of the line.  The first pass reaches the same labels and instructions, or fails in the
same way at the same place; only the text that is shown with a failure is another.  Nothing is asked
of the labels, so this holds as well where one is empty, malformed or defined already, and the
blanks around them may differ. -/
theorem discover_stacked (width : Int) (before after : List SourceLine) (number : Int)
    {names spelled : List Text} {rest : Text} (hnames : ∀ name ∈ names, ':' ∉ name)
    (hspelled : ∀ name ∈ spelled, ':' ∉ name) (htrim : spelled.map Text.trim = names.map Text.trim)
    (hrest : names = [] → Text.trim rest = rest) :
    let stacked := discover width (before ++ ⟨number, stackedText names rest⟩ :: after)
    let separate :=
      discover width (before ++ separateLines number spelled (Text.trim rest) ++ after)
    separate.1 = stacked.1 ∧
      separate.2.map Failure.withoutText = stacked.2.map Failure.withoutText := by
  have hline : ∀ l, Layout.outcome (Layout.read width l ⟨number, stackedText names rest⟩) =
      Layout.outcome
        (Layout.readAll width l (separateLines number spelled (Text.trim rest))) := by
    intro l
    refine Layout.outcome_readAux_stacked hnames hspelled htrim rfl ?_ (Nat.le_refl _)
    rintro rfl
    exact hrest rfl
  have hall : Layout.outcome
      (discover width (before ++ separateLines number spelled (Text.trim rest) ++ after)) =
      Layout.outcome (discover width (before ++ ⟨number, stackedText names rest⟩ :: after)) := by
    rw [discover, discover, List.append_assoc, Layout.readAll_append_eq, Layout.readAll_append_eq,
      Layout.outcome_andThen, Layout.outcome_andThen]
    congr 1
    funext l
    rw [Layout.readAll_append_eq, Layout.readAll_cons, Layout.outcome_andThen,
      Layout.outcome_andThen, hline]
  exact Prod.mk.inj hall

/-- Labels with a malformed one among them, and labels with a repeated one, after an instruction. -/
theorem discover_stacked_refused :
    (discover 4 [⟨1, "nop".toList⟩, ⟨2, "a:".toList⟩, ⟨2, "b c:".toList⟩, ⟨2, "ret".toList⟩]).2.map
        Failure.withoutText =
      (discover 4 [⟨1, "nop".toList⟩, ⟨2, "a: b c : ret".toList⟩]).2.map Failure.withoutText ∧
    (discover 4 [⟨1, "nop".toList⟩, ⟨2, "a:".toList⟩, ⟨2, "b:".toList⟩, ⟨2, "a:".toList⟩]).1 =
      (discover 4 [⟨1, "nop".toList⟩, ⟨2, "a: b :a:".toList⟩]).1 := by
  constructor
  · exact (@discover_stacked 4 [⟨1, "nop".toList⟩] [] 2 ["a".toList, " b c ".toList]
      ["a".toList, "b c".toList] " ret".toList (by decide) (by decide) (by decide) (by decide)).2
  · exact (@discover_stacked 4 [⟨1, "nop".toList⟩] [] 2 ["a".toList, " b ".toList, "a".toList]
      ["a".toList, "b".toList, "a".toList] [] (by decide) (by decide) (by decide) (by decide)).1

end RiscAsm

import Mathlib.Data.List.Induction
import RiscAsm.Proofs.Operand

/-!
# The last operand in place

A word without separators and parentheses that comes out as the last operand of a text stands in the
text as it is, with only separators after it (`exists_last_operand`).  Another word in its place
comes out as the last operand instead, and all operands before it stay (`tokenize_last_operand`).
So the last operand of a statement can be replaced where it stands (`Statement.parse_replaceLast`).
-/

namespace RiscAsm

namespace Operand

/-- A word that cannot be divided: without separators and parentheses. -/
structure IsWord (s : Text) : Prop where
  ne_nil : s ≠ []
  plain : ∀ c ∈ s, isSeparator c = false ∧ nesting c = 0

theorem IsWord.closed {s : Text} (h : IsWord s) : Closed s :=
  nestingOf_of_forall fun c hc => (h.plain c hc).2

theorem IsWord.isOperand {s : Text} (h : IsWord s) : IsOperand s :=
  isOperand_of_closed h.ne_nil (unbroken_of_forall fun c hc => (h.plain c hc).1) h.closed

namespace Scan

/-! ## Words and separators -/

theorem depth_finish (s : Scan) : s.finish.depth = s.depth := by
  unfold finish
  split <;> rfl

/-- Outside parentheses a separator adds no operand to those that would be finished now. -/
theorem step_separator {s : Scan} {c : Char} (hc : isSeparator c = true) (hs : s.depth = 0) :
    (s.step c).current = [] ∧ (s.step c).depth = 0 ∧ (s.step c).finish.done = s.finish.done := by
  rw [step_of_isSeparator hc hs]
  refine ⟨s.current_finish, s.depth_finish.trans hs, ?_⟩
  have hnone : pending { s.finish with comma := s.finish.comma || c == ',' } = [] := by
    rw [pending, current_finish]
    rfl
  rw [finish_of_not_pending hnone]

/-- Outside parentheses separators add no operand. -/
theorem foldl_step_separators {text : Text} {s : Scan} (h : ∀ c ∈ text, isSeparator c = true)
    (hs : s.depth = 0) : (text.foldl Scan.step s).finish.done = s.finish.done := by
  induction text generalizing s with
  | nil => rfl
  | cons c text ih =>
      rw [List.forall_mem_cons] at h
      obtain ⟨-, hdepth, hdone⟩ := step_separator h.1 hs
      rw [List.foldl_cons, ih h.2 hdepth, hdone]

/-- A character that is no parenthesis and divides nothing goes to the operand at hand. -/
theorem step_plain {s : Scan} {c : Char} (hc : s.depth = 0 → isSeparator c = false)
    (hnesting : nesting c = 0) : s.step c = s.push c := by
  have hopen : c ≠ '(' := by
    rintro rfl
    cases hnesting
  rw [step_of_not_isSeparator hc, if_neg hopen, hnesting, Int.add_zero]
  rfl

/-- A word goes to the operand at hand as a whole. -/
theorem foldl_step_word {word : Text} (h : ∀ c ∈ word, isSeparator c = false ∧ nesting c = 0)
    (s : Scan) : word.foldl Scan.step s = { s with current := word.reverse ++ s.current } := by
  induction word generalizing s with
  | nil => rfl
  | cons c word ih =>
      rw [List.forall_mem_cons] at h
      rw [List.foldl_cons, step_plain (fun _ => h.1.1) h.1.2, ih h.2]
      simp [push]

/-! ## Where the operand at hand stands -/

theorem with_current_nil {s : Scan} (h : s.current = []) : { s with current := [] } = s := by
  rw [← h]

/-- An operand at hand without parentheses is the end of the text that was read.  The induction is
on the text from its end. -/
theorem exists_front (text : Text)
    (h : ∀ c ∈ (text.foldl Scan.step {}).current, nesting c = 0) :
    ∃ front, text = front ++ (text.foldl Scan.step {}).current.reverse ∧
      front.foldl Scan.step {} = { text.foldl Scan.step {} with current := [] } := by
  induction text using List.reverseRecOn with
  | nil => exact ⟨[], rfl, rfl⟩
  | append_singleton text c ih =>
      have hscan : (text ++ [c]).foldl Scan.step {} = (text.foldl Scan.step {}).step c := by
        rw [List.foldl_append, List.foldl_cons, List.foldl_nil]
      rw [hscan] at h ⊢
      rcases (text.foldl Scan.step {}).divides_or c with ⟨hc, hdepth⟩ | hnot
      · obtain ⟨hcurrent, -, -⟩ := step_separator hc hdepth
        refine ⟨text ++ [c], by rw [hcurrent]; simp, ?_⟩
        rw [hscan]
        exact (with_current_nil hcurrent).symm
      · have hplain : nesting c = 0 := by
          refine h c ?_
          rw [step_of_not_isSeparator hnot]
          exact List.mem_cons_self
        rw [step_plain hnot hplain] at h ⊢
        obtain ⟨front, htext, hfront⟩ := ih fun d hd => h d (List.mem_cons_of_mem c hd)
        refine ⟨front, ?_, hfront⟩
        rw [push, List.reverse_cons, ← List.append_assoc, ← htext]

/-- An operand at hand that trims to a word is that word. -/
theorem Inv.eq_of_pending {s : Scan} {word : Text} (h : s.Inv) (hword : IsWord word)
    (hpending : s.pending = word) :
    s.current.reverse = word ∧ s.depth = 0 ∧ ∀ c ∈ s.current, nesting c = 0 := by
  obtain ⟨left, right, htrim, hleft, hright⟩ := Text.exists_trim s.current.reverse
  rw [← pending, hpending] at htrim
  have hblank : ∀ c, isBlank c = true → nesting c = 0 := by
    intro c hc
    apply nesting_of_isSeparator
    simp [isSeparator, hc]
  have hplain : ∀ c ∈ s.current.reverse, nesting c = 0 := by
    rw [htrim, List.forall_mem_append, List.forall_mem_append]
    exact ⟨⟨fun c hc => hblank c (hleft c hc), fun c hc => (hword.plain c hc).2⟩,
      fun c hc => hblank c (hright c hc)⟩
  have hclosed : Closed s.current.reverse := nestingOf_of_forall hplain
  refine ⟨?_, h.depth.trans hclosed, fun c hc => hplain c (List.mem_reverse.mpr hc)⟩
  rw [← hpending, pending]
  exact (Text.trim_eq_self (head?_of_unbroken h.unbroken)
    (getLast?_of_closed h.unbroken hclosed)).symm

end Scan

/-! ## The last operand -/

/-- Where the last operand of a text stands, if it is a word: separators follow it, and it starts
where no other operand is at hand. -/
theorem exists_last_operand {text word : Text} (hword : IsWord word)
    (h : (tokenize text).getLast? = some word) :
    ∃ front tail, text = front ++ word ++ tail ∧ (∀ c ∈ tail, isSeparator c = true) ∧
      (front.foldl Scan.step {}).current = [] ∧ (front.foldl Scan.step {}).depth = 0 ∧
      (front.foldl Scan.step {}).done.reverse = (tokenize text).dropLast := by
  unfold tokenize at h ⊢
  induction text using List.reverseRecOn with
  | nil => cases h
  | append_singleton text c ih =>
      have hinv : ((text ++ [c]).foldl Scan.step {}).Inv := inv_scan (text ++ [c])
      have hfront := Scan.exists_front (text ++ [c])
      have hscan : (text ++ [c]).foldl Scan.step {} = (text.foldl Scan.step {}).step c := by
        rw [List.foldl_append, List.foldl_cons, List.foldl_nil]
      rw [hscan] at h hinv hfront ⊢
      rcases (text.foldl Scan.step {}).divides_or c with ⟨hc, hdepth⟩ | hnot
      · -- a separator at the end is one more after the word
        obtain ⟨-, -, hdone⟩ := Scan.step_separator hc hdepth
        rw [hdone] at h ⊢
        obtain ⟨front, tail, htext, htail, hrest⟩ := ih h
        refine ⟨front, tail ++ [c], ?_, ?_, hrest⟩
        · rw [← List.append_assoc, ← htext]
        · rw [List.forall_mem_append]
          exact ⟨htail, List.forall_mem_singleton.mpr hc⟩
      · -- any other character belongs to the word, which is the operand at hand
        have hcurrent : ((text.foldl Scan.step {}).step c).current ≠ [] := by
          rw [Scan.step_of_not_isSeparator hnot]
          exact List.cons_ne_nil _ _
        have hpending := fun hp => hcurrent (hinv.current_eq_nil hp)
        rw [Scan.finish_of_pending hpending, List.reverse_cons, List.getLast?_concat,
          Option.some_inj] at h
        obtain ⟨hend, hdepth, hplain⟩ := hinv.eq_of_pending hword h
        obtain ⟨front, htext, hstate⟩ := hfront hplain
        refine ⟨front, [], ?_, by simp, ?_⟩
        · rw [htext, hend, List.append_nil]
        · rw [hstate, Scan.finish_of_pending hpending, List.reverse_cons, List.dropLast_concat]
          exact ⟨rfl, hdepth, rfl⟩

/-- A word comes out as the last operand where no other operand is at hand and only separators
follow. -/
theorem tokenize_last_operand {front word tail : Text} (hword : IsWord word)
    (hcurrent : (front.foldl Scan.step {}).current = [])
    (hdepth : (front.foldl Scan.step {}).depth = 0) (htail : ∀ c ∈ tail, isSeparator c = true) :
    tokenize (front ++ word ++ tail) = (front.foldl Scan.step {}).done.reverse ++ [word] := by
  rw [tokenize, List.foldl_append, List.foldl_append]
  generalize front.foldl Scan.step {} = s at hcurrent hdepth ⊢
  have hfinish := Scan.finish_operand hword.isOperand s s.depth
  rw [Scan.foldl_step_word hword.plain, hcurrent, List.append_nil,
    Scan.foldl_step_separators htail, hfinish, List.reverse_cons]
  exact hdepth

/-! ## Another word in place of the last operand -/

/-- The text with `new` in place of `word`, the last word before the separators at its end. -/
def replaceLast (word new text : Text) : Text :=
  ((text.reverse.dropWhile isSeparator).drop word.length).reverse ++ new ++
    (text.reverse.takeWhile isSeparator).reverse

/-- A word in place of another leaves a trimmed text trimmed. -/
theorem trim_replace {front word new tail : Text} (hnew : IsWord new)
    (h : Text.trim (front ++ word ++ tail) = front ++ word ++ tail) :
    Text.trim (front ++ new ++ tail) = front ++ new ++ tail := by
  have hblank : ∀ c ∈ new, isBlank c = false :=
    fun c hc => isBlank_of_isSeparator (hnew.plain c hc).1
  have hhead := Text.head?_trim (front ++ word ++ tail)
  have hlast := Text.getLast?_trim (front ++ word ++ tail)
  rw [h] at hhead hlast
  apply Text.trim_eq_self
  · cases front with
    | nil =>
        rw [List.nil_append, List.head?_append_of_ne_nil _ hnew.ne_nil]
        exact fun c hc => hblank c (List.mem_of_head? hc)
    | cons c front => exact hhead
  · by_cases htail : tail = []
    · rw [htail, List.append_nil, List.getLast?_append_of_ne_nil _ hnew.ne_nil]
      exact fun c hc => hblank c (List.mem_of_getLast? hc)
    · rw [List.getLast?_append_of_ne_nil _ htail] at hlast ⊢
      exact hlast

theorem replaceLast_append {word : Text} (hword : IsWord word) (new front : Text) {tail : Text}
    (htail : ∀ c ∈ tail, isSeparator c = true) :
    replaceLast word new (front ++ word ++ tail) = front ++ new ++ tail := by
  have hreverse : (front ++ word ++ tail).reverse =
      tail.reverse ++ (word.reverse ++ front.reverse) := by
    simp
  have hends : ∀ c ∈ tail.reverse, isSeparator c = true :=
    fun c hc => htail c (List.mem_reverse.mp hc)
  obtain ⟨last, rest, hlast⟩ :=
    List.exists_cons_of_ne_nil (List.reverse_ne_nil_iff.mpr hword.ne_nil)
  have hstop : isSeparator last = false :=
    (hword.plain last (List.mem_reverse.mp (by rw [hlast]; exact List.mem_cons_self))).1
  have hdrop : (front ++ word ++ tail).reverse.dropWhile isSeparator =
      word.reverse ++ front.reverse := by
    rw [hreverse, List.dropWhile_append_of_pos hends, hlast, List.cons_append,
      List.dropWhile_cons_of_neg (by simp [hstop])]
  have htake : (front ++ word ++ tail).reverse.takeWhile isSeparator = tail.reverse := by
    rw [hreverse, List.takeWhile_append_of_pos hends, hlast, List.cons_append,
      List.takeWhile_cons_of_neg (by simp [hstop]), List.append_nil]
  rw [replaceLast, hdrop, htake, ← List.length_reverse, List.drop_left, List.reverse_reverse,
    List.reverse_reverse]

end Operand

/-! ## Statements -/

namespace Statement

theorem parse_trim (text : Text) : parse (Text.trim text) = parse text := by
  rw [parse, parse, Text.trim_trim]

/-- A text in the parts that a statement with operands is read from: blanks, the mnemonic, blanks,
the operands, and blanks again. -/
structure Parts (left mnemonic gap rest right : Text) : Prop where
  left : ∀ c ∈ left, isBlank c = true
  mnemonic_ne_nil : mnemonic ≠ []
  mnemonic : ∀ c ∈ mnemonic, isBlank c = false
  gap_ne_nil : gap ≠ []
  gap : ∀ c ∈ gap, isBlank c = true
  rest_ne_nil : rest ≠ []
  rest : Text.trim rest = rest
  right : ∀ c ∈ right, isBlank c = true

/-- What is read from a text in parts. -/
theorem Parts.parse_eq {left mnemonic gap rest right : Text}
    (h : Parts left mnemonic gap rest right) :
    parse (left ++ (mnemonic ++ (gap ++ rest)) ++ right) =
      .ok ⟨lower mnemonic, Operand.tokenize rest⟩ := by
  have htrim : Text.trim (mnemonic ++ (gap ++ rest)) = mnemonic ++ (gap ++ rest) := by
    apply Text.trim_eq_self
    · rw [List.head?_append_of_ne_nil _ h.mnemonic_ne_nil]
      exact fun c hc => h.mnemonic c (List.mem_of_head? hc)
    · rw [← List.append_assoc, List.getLast?_append_of_ne_nil _ h.rest_ne_nil, ← h.rest]
      exact Text.getLast?_trim rest
  obtain ⟨hfirst, hafter⟩ := firstWord_append h.mnemonic h.gap_ne_nil h.gap rest
  have hparse : parse (left ++ (mnemonic ++ (gap ++ rest)) ++ right) =
      parse (mnemonic ++ (gap ++ rest)) := by
    rw [← parse_trim, Text.trim_append_of_blank_right _ h.right,
      Text.trim_append_of_blank_left h.left, parse_trim]
  rw [hparse, parse_of_trim (by simp [h.mnemonic_ne_nil]) htrim, hfirst, hafter,
    Text.trimStart_eq_self]
  rw [← h.rest]
  exact Text.head?_trim rest

/-- Between the first word of a line and what follows it there are blanks. -/
theorem exists_gap {line : Text} (hrest : Text.afterFirstWord line ≠ []) :
    ∃ gap, line = Text.firstWord line ++ (gap ++ Text.afterFirstWord line) ∧ gap ≠ [] ∧
      ∀ c ∈ gap, isBlank c = true := by
  obtain ⟨gap, hgap, hblank⟩ := Text.exists_trimStart (line.dropWhile fun c => !isBlank c)
  rw [← Text.afterFirstWord] at hgap
  refine ⟨gap, ?_, ?_, hblank⟩
  · rw [← hgap]
    exact List.takeWhile_append_dropWhile.symm
  · -- what follows the word starts with a blank, and what is left without blanks does not
    rintro rfl
    rw [List.nil_append] at hgap
    obtain ⟨c, rest, hcons⟩ := List.exists_cons_of_ne_nil hrest
    have hstart : isBlank c = false := by
      apply Text.head?_trimStart (line.dropWhile fun c => !isBlank c)
      rw [← Text.afterFirstWord, hcons]
      rfl
    have hstop := List.head?_dropWhile_not (fun c => !isBlank c) line
    rw [hgap, hcons] at hstop
    simp [hstart] at hstop

/-- A text that a statement with operands is read from has such parts. -/
theorem exists_parts {text : Text} {s : Statement} (h : parse text = .ok s)
    (hoperands : s.operands ≠ []) :
    ∃ left mnemonic gap rest right, text = left ++ (mnemonic ++ (gap ++ rest)) ++ right ∧
      Parts left mnemonic gap rest right ∧ s = ⟨lower mnemonic, Operand.tokenize rest⟩ := by
  obtain ⟨left, right, htext, hleft, hright⟩ := Text.exists_trim text
  have hline : Text.trim text ≠ [] := by
    intro hnil
    rw [parse, hnil] at h
    cases h
  have hs : s = ⟨lower (Text.firstWord (Text.trim text)),
      Operand.tokenize (Text.afterFirstWord (Text.trim text))⟩ := by
    rw [← parse_trim, parse_of_trim hline (Text.trim_trim text)] at h
    exact (Except.ok.inj h).symm
  have hhead := Text.head?_trim text
  have hlast := Text.getLast?_trim text
  generalize Text.trim text = line at *
  subst hs
  have hrest : Text.afterFirstWord line ≠ [] := by
    intro hnil
    rw [hnil] at hoperands
    exact hoperands rfl
  obtain ⟨gap, hdivide, hgap, hblank⟩ := exists_gap hrest
  refine ⟨left, Text.firstWord line, gap, Text.afterFirstWord line, right, ?_,
    ⟨hleft, ?_, ?_, hgap, hblank, hrest, ?_, hright⟩, rfl⟩
  · rw [← hdivide]
    exact htext
  · -- the line does not start with a blank
    obtain ⟨c, line, rfl⟩ := List.exists_cons_of_ne_nil hline
    have hc : isBlank c = false := hhead c rfl
    rw [Text.firstWord, List.takeWhile_cons_of_pos (by simp [hc])]
    exact List.cons_ne_nil _ _
  · intro c hc
    simpa using List.mem_takeWhile_imp hc
  · apply Text.trim_eq_self
    · exact Text.head?_trimStart _
    · rw [hdivide, ← List.append_assoc, List.getLast?_append_of_ne_nil _ hrest] at hlast
      exact hlast

/-- The last operand of a statement, if it is a word, is replaced where it stands in the text. -/
theorem parse_replaceLast {text word new : Text} {s : Statement} (h : parse text = .ok s)
    (hlast : s.operands.getLast? = some word) (hword : Operand.IsWord word)
    (hnew : Operand.IsWord new) :
    ∃ front tail, text = front ++ word ++ tail ∧
      Operand.replaceLast word new text = front ++ new ++ tail ∧
      parse (Operand.replaceLast word new text) =
        .ok { s with operands := s.operands.dropLast ++ [new] } := by
  have hoperands : s.operands ≠ [] := by
    intro hnil
    rw [hnil] at hlast
    cases hlast
  obtain ⟨left, mnemonic, gap, rest, right, rfl, hparts, rfl⟩ := exists_parts h hoperands
  obtain ⟨front, tail, rfl, htail, hcurrent, hdepth, hdone⟩ :=
    Operand.exists_last_operand hword hlast
  have hends : ∀ c ∈ tail ++ right, Operand.isSeparator c = true := by
    rw [List.forall_mem_append]
    refine ⟨htail, fun c hc => ?_⟩
    simp [Operand.isSeparator, hparts.right c hc]
  have hplace : ∀ word, left ++ (mnemonic ++ (gap ++ (front ++ word ++ tail))) ++ right =
      left ++ mnemonic ++ gap ++ front ++ word ++ (tail ++ right) := by
    simp
  have hreplace : Operand.replaceLast word new
      (left ++ (mnemonic ++ (gap ++ (front ++ word ++ tail))) ++ right) =
        left ++ (mnemonic ++ (gap ++ (front ++ new ++ tail))) ++ right := by
    rw [hplace, hplace, Operand.replaceLast_append hword new _ hends]
  have hnewParts : Parts left mnemonic gap (front ++ new ++ tail) right :=
    { hparts with
      rest_ne_nil := by simp [hnew.ne_nil]
      rest := Operand.trim_replace hnew hparts.rest }
  refine ⟨left ++ mnemonic ++ gap ++ front, tail ++ right, hplace word, ?_, ?_⟩
  · rw [hreplace, hplace]
  · rw [hreplace, hnewParts.parse_eq, Operand.tokenize_last_operand hnew hcurrent hdepth htail,
      hdone]

end Statement

end RiscAsm

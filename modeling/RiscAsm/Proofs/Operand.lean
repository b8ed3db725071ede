import Mathlib.Data.List.Basic
import RiscAsm.Operand
import RiscAsm.Proofs.Numeral
import RiscAsm.Proofs.Text.LowerCase

/-!
# Operands joined and divided again

An operand has no separator outside its parentheses.  Dividing a text gives only such operands, all
but the last with their parentheses closed (`isOperand_of_mem_tokenize`,
`closed_of_mem_dropLast_tokenize`); joining operands with commas and dividing again gives them back
(`tokenize_joinComma`).  So a statement that is written as a line is read back
(`Statement.parse_render`), and what was read once is read back from how it is written, also with a
number as its last operand (`Statement.rewritten_reads_back`).
-/

namespace RiscAsm

namespace Operand

/-! ## Nesting -/

/-- How a character changes the number of open parentheses. -/
def nesting (c : Char) : Int := if c = '(' then 1 else if c = ')' then -1 else 0

/-- How a text changes the number of open parentheses. -/
def nestingOf : Text → Int
  | [] => 0
  | c :: s => nesting c + nestingOf s

/-- A character that divides operands outside parentheses. -/
def isSeparator (c : Char) : Bool := c == ',' || isBlank c

/-- No separator stands outside parentheses, `depth` of which are open at the start. -/
def Unbroken (depth : Int) : Text → Prop
  | [] => True
  | c :: s => (depth = 0 → isSeparator c = false) ∧ Unbroken (depth + nesting c) s

@[simp] theorem nestingOf_nil : nestingOf [] = 0 := rfl

@[simp] theorem nestingOf_cons (c : Char) (s : Text) :
    nestingOf (c :: s) = nesting c + nestingOf s := rfl

@[simp] theorem nestingOf_append (s t : Text) : nestingOf (s ++ t) = nestingOf s + nestingOf t := by
  induction s with
  | nil => simp
  | cons c s ih => rw [List.cons_append, nestingOf_cons, nestingOf_cons, ih, Int.add_assoc]

/-- Separators are no parentheses. -/
theorem nesting_of_isSeparator {c : Char} (h : isSeparator c = true) : nesting c = 0 := by
  rw [nesting, if_neg, if_neg]
  · rintro rfl
    exact absurd h (by decide)
  · rintro rfl
    exact absurd h (by decide)

/-- A character that is no separator is no blank. -/
theorem isBlank_of_isSeparator {c : Char} (h : isSeparator c = false) : isBlank c = false := by
  simp only [isSeparator, Bool.or_eq_false_iff] at h
  exact h.2

/-- An unbroken text in two parts. -/
theorem unbroken_append {depth : Int} {s t : Text} :
    Unbroken depth (s ++ t) ↔ Unbroken depth s ∧ Unbroken (depth + nestingOf s) t := by
  induction s generalizing depth with
  | nil => simp [Unbroken]
  | cons c s ih =>
      rw [List.cons_append, Unbroken, Unbroken, ih, nestingOf_cons, ← Int.add_assoc, and_assoc]

/-- A text without separators is unbroken. -/
theorem unbroken_of_forall {depth : Int} {s : Text} (h : ∀ c ∈ s, isSeparator c = false) :
    Unbroken depth s := by
  induction s generalizing depth with
  | nil => trivial
  | cons c s ih =>
      exact ⟨fun _ => h c List.mem_cons_self, ih fun d hd => h d (List.mem_cons_of_mem c hd)⟩

/-- A text without parentheses does not change their number. -/
theorem nestingOf_of_forall {s : Text} (h : ∀ c ∈ s, nesting c = 0) : nestingOf s = 0 := by
  induction s with
  | nil => rfl
  | cons c s ih =>
      rw [nestingOf_cons, h c List.mem_cons_self, ih fun d hd => h d (List.mem_cons_of_mem c hd)]
      rfl

/-! ## Operands -/

/-- A text that can stand as one operand. -/
structure IsOperand (s : Text) : Prop where
  ne_nil : s ≠ []
  trimmed : Text.trim s = s
  unbroken : Unbroken 0 s

/-- A text that closes all parentheses it opens. -/
def Closed (s : Text) : Prop := nestingOf s = 0

/-- An unbroken text does not start with a blank. -/
theorem head?_of_unbroken {s : Text} (h : Unbroken 0 s) : ∀ c ∈ s.head?, isBlank c = false := by
  intro c hc
  cases s with
  | nil => simp at hc
  | cons d s =>
      rw [List.head?_cons, Option.mem_some_iff] at hc
      subst hc
      exact isBlank_of_isSeparator (h.1 rfl)

/-- An unbroken text that closes its parentheses does not end with a blank. -/
theorem getLast?_of_closed {s : Text} (h : Unbroken 0 s) (hclosed : Closed s) :
    ∀ c ∈ s.getLast?, isBlank c = false := by
  intro c hc
  obtain ⟨front, hs⟩ := List.getLast?_eq_some_iff.mp hc
  rw [hs, unbroken_append] at h
  rw [hs, Closed, nestingOf_append, nestingOf_cons, nestingOf_nil] at hclosed
  by_cases hsep : isSeparator c = true
  · -- a separator at the end would stand outside parentheses
    rw [nesting_of_isSeparator hsep] at hclosed
    exact isBlank_of_isSeparator (h.2.1 (by omega))
  · exact isBlank_of_isSeparator (by simpa using hsep)

/-- An unbroken text that closes its parentheses is an operand, if it is not empty. -/
theorem isOperand_of_closed {s : Text} (hne : s ≠ []) (h : Unbroken 0 s) (hclosed : Closed s) :
    IsOperand s where
  ne_nil := hne
  trimmed := Text.trim_eq_self (head?_of_unbroken h) (getLast?_of_closed h hclosed)
  unbroken := h

/-- Trimming an unbroken text gives an operand, or nothing. -/
theorem isOperand_trim {s : Text} (h : Unbroken 0 s) (hne : Text.trim s ≠ []) :
    IsOperand (Text.trim s) where
  ne_nil := hne
  trimmed := Text.trim_trim s
  unbroken := by
    have hstart : Text.trimStart s = s := Text.trimStart_eq_self (head?_of_unbroken h)
    obtain ⟨r, hr⟩ := Text.trimEnd_prefix s
    rw [Text.trim, hstart]
    rw [← hr, unbroken_append] at h
    exact h.1

/-- A numeral has no separators and no parentheses. -/
theorem plain_of_mem_ofInt {n : Int} {c : Char} (h : c ∈ Numeral.ofInt n) :
    isSeparator c = false ∧ nesting c = 0 := by
  rcases Numeral.mem_ofInt h with rfl | hdigit
  · exact ⟨by decide, by decide⟩
  · obtain ⟨hleast, -⟩ := Numeral.toNat_of_isDigit hdigit
    have hne : ∀ d : Char, d.toNat < 48 → c ≠ d := by
      rintro d hd rfl
      omega
    constructor
    · simp [isSeparator, Numeral.isBlank_of_isDigit hdigit, hne ',' (by decide)]
    · rw [nesting, if_neg (hne '(' (by decide)), if_neg (hne ')' (by decide))]

/-- A numeral is an operand without parentheses. -/
theorem isOperand_ofInt (n : Int) : IsOperand (Numeral.ofInt n) ∧ Closed (Numeral.ofInt n) := by
  have hclosed : Closed (Numeral.ofInt n) :=
    nestingOf_of_forall fun c hc => (plain_of_mem_ofInt hc).2
  exact ⟨isOperand_of_closed (Numeral.ofInt_ne_nil n)
    (unbroken_of_forall fun c hc => (plain_of_mem_ofInt hc).1) hclosed, hclosed⟩

/-! ## Joined operands -/

@[simp] theorem joinComma_singleton (t : Text) : Text.joinComma [t] = t := by
  simp [Text.joinComma, Text.join]

theorem joinComma_cons_cons (t u : Text) (ts : List Text) :
    Text.joinComma (t :: u :: ts) = t ++ ',' :: ' ' :: Text.joinComma (u :: ts) := by
  simp [Text.joinComma, Text.join, List.intercalate_cons_cons]

/-- Joined operands start with the first operand. -/
theorem exists_joinComma_cons (t : Text) (ts : List Text) :
    ∃ rest, Text.joinComma (t :: ts) = t ++ rest := by
  cases ts with
  | nil => exact ⟨[], by simp⟩
  | cons u ts => exact ⟨_, joinComma_cons_cons t u ts⟩

/-- Joined operands end with the last operand. -/
theorem exists_joinComma_concat (ts : List Text) (t : Text) :
    ∃ front, Text.joinComma (ts ++ [t]) = front ++ t := by
  induction ts with
  | nil => exact ⟨[], by simp⟩
  | cons u ts ih =>
      obtain ⟨front, hfront⟩ := ih
      refine ⟨u ++ ',' :: ' ' :: front, ?_⟩
      cases ts with
      | nil =>
          have hnil : front = [] := by simpa using hfront
          subst hnil
          simp [joinComma_cons_cons]
      | cons v ts =>
          rw [List.cons_append, List.cons_append, joinComma_cons_cons]
          rw [List.cons_append] at hfront
          rw [hfront]
          simp

/-! ## What a step does -/

namespace Scan

/-- Outside parentheses a separator ends the operand at hand. -/
theorem step_of_isSeparator {s : Scan} {c : Char} (hc : isSeparator c = true) (hs : s.depth = 0) :
    s.step c = { s.finish with comma := s.finish.comma || c == ',' } := by
  have hopen : (c == '(') = false := by
    rw [beq_eq_false_iff_ne]
    rintro rfl
    exact absurd hc (by decide)
  have hclose : (c == ')') = false := by
    rw [beq_eq_false_iff_ne]
    rintro rfl
    exact absurd hc (by decide)
  have hguard : ((c == ',' || isBlank c) && s.depth == 0) = true := by
    rw [hs, ← isSeparator, hc]
    rfl
  rw [step, hopen, hclose, hguard]
  simp only [Bool.false_eq_true, if_false, if_true]
  cases c == ',' <;> simp

/-- A character divides operands, or it does not, inside parentheses or because it is no separator.
-/
theorem divides_or (s : Scan) (c : Char) :
    (isSeparator c = true ∧ s.depth = 0) ∨ (s.depth = 0 → isSeparator c = false) := by
  by_cases hs : s.depth = 0
  · cases hc : isSeparator c with
    | true => exact .inl ⟨rfl, hs⟩
    | false => exact .inr fun _ => rfl
  · exact .inr fun h => absurd h hs

/-- Every other character is added to the operand at hand; an opening parenthesis first takes back
an offset. -/
theorem step_of_not_isSeparator {s : Scan} {c : Char}
    (hc : s.depth = 0 → isSeparator c = false) :
    s.step c = { (if c = '(' then s.rejoin else s).push c with depth := s.depth + nesting c } := by
  by_cases hopen : c = '('
  · subst hopen
    rfl
  · by_cases hclose : c = ')'
    · subst hclose
      rfl
    · have hguard : ((c == ',' || isBlank c) && s.depth == 0) = false := by
        rw [← isSeparator]
        by_cases hs : s.depth = 0
        · rw [hc hs]
          rfl
        · simp [hs]
      have hnesting : nesting c = 0 := by
        rw [nesting, if_neg hopen, if_neg hclose]
      rw [step, hguard, hnesting]
      simp [hopen, hclose, push]

/-- An offset is taken back only at the start of an operand, without a comma in between. -/
theorem rejoin_cases (s : Scan) :
    s.rejoin = s ∨ ∃ last earlier, s.pending = [] ∧ s.comma = false ∧ s.done = last :: earlier ∧
      s.rejoin = { s with done := earlier, current := last.reverse } := by
  rw [rejoin]
  split
  · rename_i h
    rw [Bool.and_eq_true, List.isEmpty_iff, Bool.not_eq_true'] at h
    split
    · rename_i last earlier hdone
      split
      · exact Or.inr ⟨last, earlier, h.1, h.2, hdone, rfl⟩
      · exact Or.inl rfl
    · exact Or.inl rfl
  · exact Or.inl rfl

/-- Ending an operand that holds something. -/
theorem finish_of_pending {s : Scan} (h : s.pending ≠ []) :
    s.finish = { s with done := s.pending :: s.done, current := [], comma := false } := by
  rw [finish, if_neg]
  rwa [List.isEmpty_iff]

/-- Ending an operand that holds nothing. -/
theorem finish_of_not_pending {s : Scan} (h : s.pending = []) :
    s.finish = { s with current := [] } := by
  rw [finish, if_pos]
  rwa [List.isEmpty_iff]

theorem current_finish (s : Scan) : s.finish.current = [] := by
  by_cases hp : s.pending = []
  · rw [finish_of_not_pending hp]
  · rw [finish_of_pending hp]

/-! ## Operands that come out of a scan -/

/-- What holds of the state at every character: finished operands are closed, and the operand at
hand is unbroken and has opened as many parentheses as are counted. -/
structure Inv (s : Scan) : Prop where
  done : ∀ t ∈ s.done, IsOperand t ∧ Closed t
  unbroken : Unbroken 0 s.current.reverse
  depth : s.depth = nestingOf s.current.reverse

/-- The invariant holds at the start. -/
theorem inv_init : Inv {} where
  done := by simp
  unbroken := trivial
  depth := rfl

/-- Outside parentheses, ending an operand keeps the invariant. -/
theorem Inv.finish {s : Scan} (h : s.Inv) (hs : s.depth = 0) : s.finish.Inv := by
  by_cases hp : s.pending = []
  · rw [finish_of_not_pending hp]
    exact ⟨h.done, trivial, hs⟩
  · rw [finish_of_pending hp]
    have hclosed : Closed s.current.reverse := by
      rw [Closed, ← h.depth, hs]
    have hpending : s.pending = s.current.reverse :=
      Text.trim_eq_self (head?_of_unbroken h.unbroken) (getLast?_of_closed h.unbroken hclosed)
    refine ⟨?_, trivial, hs⟩
    intro t ht
    rcases List.mem_cons.mp ht with rfl | ht
    · rw [hpending] at hp ⊢
      exact ⟨isOperand_of_closed hp h.unbroken hclosed, hclosed⟩
    · exact h.done t ht

/-- An operand at hand that holds nothing is empty, since it does not start with a blank. -/
theorem Inv.current_eq_nil {s : Scan} (h : s.Inv) (hp : s.pending = []) : s.current = [] := by
  rw [← List.reverse_eq_nil_iff]
  cases hrev : s.current.reverse with
  | nil => rfl
  | cons c t =>
      have hblank := Text.trim_eq_nil_iff.mp hp c (by rw [hrev]; exact List.mem_cons_self)
      have hhead := head?_of_unbroken h.unbroken c (by rw [hrev]; rfl)
      simp [hblank] at hhead

/-- Taking back an offset keeps the invariant. -/
theorem Inv.rejoin {s : Scan} (h : s.Inv) : s.rejoin.Inv ∧ s.rejoin.depth = s.depth := by
  rcases s.rejoin_cases with hr | ⟨last, earlier, hp, -, hdone, hr⟩
  · rw [hr]
    exact ⟨h, rfl⟩
  · -- the operand at hand is empty, so no parenthesis is open
    have hdepth : s.depth = 0 := by
      rw [h.depth, h.current_eq_nil hp]
      rfl
    obtain ⟨hoperand, hclosed⟩ := h.done last (by rw [hdone]; exact List.mem_cons_self)
    rw [hr]
    refine ⟨⟨?_, ?_, ?_⟩, rfl⟩
    · intro t ht
      exact h.done t (by rw [hdone]; exact List.mem_cons_of_mem last ht)
    · simpa using hoperand.unbroken
    · simpa [hdepth] using hclosed.symm

/-- Adding a character that divides nothing keeps the invariant. -/
theorem Inv.push {s : Scan} (h : s.Inv) {c : Char} (hc : s.depth = 0 → isSeparator c = false) :
    Inv { s.push c with depth := s.depth + nesting c } where
  done := h.done
  unbroken := by
    simp only [Scan.push, List.reverse_cons]
    rw [unbroken_append]
    refine ⟨h.unbroken, ?_, trivial⟩
    intro hzero
    exact hc (by rw [h.depth]; omega)
  depth := by
    simp only [Scan.push, List.reverse_cons, nestingOf_append, nestingOf_cons, nestingOf_nil]
    rw [h.depth]
    omega

/-- Every step keeps the invariant. -/
theorem Inv.step {s : Scan} (h : s.Inv) (c : Char) : (s.step c).Inv := by
  rcases s.divides_or c with ⟨hc, hs⟩ | hnot
  · rw [step_of_isSeparator hc hs]
    obtain ⟨hdone, hunbroken, hdepth⟩ := h.finish hs
    exact ⟨hdone, hunbroken, hdepth⟩
  · rw [step_of_not_isSeparator hnot]
    split
    · obtain ⟨hinv, hdepth⟩ := h.rejoin
      rw [← hdepth] at hnot ⊢
      exact hinv.push hnot
    · exact h.push hnot

/-- The invariant holds after any text. -/
theorem Inv.foldl {s : Scan} (h : s.Inv) (text : Text) : (text.foldl Scan.step s).Inv := by
  induction text generalizing s with
  | nil => exact h
  | cons c text ih => exact ih (h.step c)

/-! ## Scanning an operand -/

/-- No offset would be taken back now. -/
def Guarded (s : Scan) : Prop := s.comma = true ∨ s.done = [] ∨ s.pending ≠ []

/-- While the state is guarded, nothing is taken back. -/
theorem Guarded.rejoin {s : Scan} (h : s.Guarded) : s.rejoin = s := by
  rcases s.rejoin_cases with hr | ⟨last, earlier, hp, hcomma, hdone, -⟩
  · exact hr
  · exfalso
    rcases h with h | h | h
    · simp [hcomma] at h
    · simp [hdone] at h
    · exact h hp

/-- A guarded state stays guarded when a character is added. -/
theorem Guarded.push {s : Scan} (h : s.Guarded) (c : Char) (depth : Int) :
    Guarded { s.push c with depth } := by
  rcases h with h | h | h
  · exact Or.inl h
  · exact Or.inr (Or.inl h)
  · refine Or.inr (Or.inr ?_)
    intro hp
    apply h
    rw [pending, Text.trim_eq_nil_iff] at hp ⊢
    intro d hd
    apply hp d
    simp only [Scan.push, List.reverse_cons, List.mem_append]
    exact Or.inl hd

/-- An unbroken text goes to the operand at hand as a whole. -/
theorem foldl_step_of_unbroken {text : Text} {s : Scan} (hs : s.Guarded)
    (h : Unbroken s.depth text) :
    text.foldl Scan.step s =
      { s with current := text.reverse ++ s.current, depth := s.depth + nestingOf text } := by
  induction text generalizing s with
  | nil => simp
  | cons c text ih =>
      have hstep : s.step c = { s.push c with depth := s.depth + nesting c } := by
        rw [step_of_not_isSeparator h.1]
        split
        · rw [hs.rejoin]
        · rfl
      rw [List.foldl_cons, hstep, ih (hs.push c _) h.2]
      simp [Scan.push, Int.add_assoc]

/-- While a character other than a blank is at hand, nothing is taken back. -/
theorem guarded_of_mem {s : Scan} {c : Char} (hc : c ∈ s.current) (hblank : isBlank c = false) :
    s.Guarded := by
  refine Or.inr (Or.inr ?_)
  intro hpending
  rw [pending, Text.trim_eq_nil_iff] at hpending
  rw [hpending c (List.mem_reverse.mpr hc)] at hblank
  cases hblank

/-- An operand is scanned into the operand at hand, if it does not start with a parenthesis before
which an offset is taken back. -/
theorem foldl_step_operand {t : Text} (ht : IsOperand t) {s : Scan} (hcurrent : s.current = [])
    (hdepth : s.depth = 0) (hapart : t.head? = some '(' → s.rejoin = s) :
    t.foldl Scan.step s = { s with current := t.reverse, depth := nestingOf t } := by
  obtain ⟨c, rest, rfl⟩ := List.exists_cons_of_ne_nil ht.ne_nil
  obtain ⟨hc, hrest⟩ := ht.unbroken
  have hstep : s.step c = { s with current := [c], depth := nesting c } := by
    rw [step_of_not_isSeparator fun _ => hc rfl, hdepth, Int.zero_add]
    split
    · rename_i hopen
      rw [hapart (by rw [hopen]; rfl), push, hcurrent]
    · rw [push, hcurrent]
  -- from now on the first character is at hand, and it is no blank
  have hguarded : Guarded { s with current := [c], depth := nesting c } :=
    guarded_of_mem List.mem_cons_self (isBlank_of_isSeparator (hc rfl))
  rw [Int.zero_add] at hrest
  rw [List.foldl_cons, hstep, foldl_step_of_unbroken hguarded hrest, nestingOf_cons,
    List.reverse_cons]

/-- Ending a scanned operand. -/
theorem finish_operand {t : Text} (ht : IsOperand t) (s : Scan) (depth : Int) :
    finish { s with current := t.reverse, depth } =
      { done := t :: s.done, current := [], depth, comma := false } := by
  have hpending : pending { s with current := t.reverse, depth } = t := by
    rw [pending, List.reverse_reverse, ht.trimmed]
  rw [finish_of_pending (by rw [hpending]; exact ht.ne_nil), hpending]

/-- Separators while no operand is at hand only show whether there is a comma. -/
theorem foldl_step_gap {gap : Text} (hgap : ∀ c ∈ gap, isSeparator c = true) (done : List Text)
    (comma : Bool) :
    gap.foldl Scan.step { done, current := [], depth := 0, comma } =
      { done, current := [], depth := 0, comma := comma || gap.contains ',' } := by
  induction gap generalizing comma with
  | nil => simp
  | cons c gap ih =>
      obtain ⟨hc, hgap⟩ := List.forall_mem_cons.mp hgap
      rw [List.foldl_cons, step_of_isSeparator hc rfl, finish_of_not_pending rfl, ih hgap,
        List.contains_cons, Bool.or_assoc]
      congr 3
      exact BEq.comm

/-- Separators after an operand end it. -/
theorem foldl_step_gap_of_operand {t gap : Text} (ht : IsOperand t)
    (hgap : ∀ c ∈ gap, isSeparator c = true) (hne : gap ≠ []) (done : List Text) (comma : Bool) :
    gap.foldl Scan.step { done, current := t.reverse, depth := 0, comma } =
      { done := t :: done, current := [], depth := 0, comma := gap.contains ',' } := by
  obtain ⟨c, gap, rfl⟩ := List.exists_cons_of_ne_nil hne
  obtain ⟨hc, hgap⟩ := List.forall_mem_cons.mp hgap
  have hfinish := finish_operand ht { done, comma } 0
  rw [List.foldl_cons, step_of_isSeparator hc rfl, hfinish, foldl_step_gap hgap,
    List.contains_cons, Bool.false_or]
  congr 2
  exact BEq.comm

/-- Operands joined with commas are finished one after the other. -/
theorem done_foldl_step_joinComma {ts : List Text} (hne : ts ≠ []) (hts : ∀ t ∈ ts, IsOperand t)
    (hclosed : ∀ t ∈ ts.dropLast, Closed t) {s : Scan} (hcurrent : s.current = [])
    (hdepth : s.depth = 0) (hguard : s.comma = true ∨ s.done = []) :
    ((Text.joinComma ts).foldl Scan.step s).finish.done = ts.reverse ++ s.done := by
  induction ts generalizing s with
  | nil => exact absurd rfl hne
  | cons t ts ih =>
      have ht : IsOperand t := hts t List.mem_cons_self
      have hapart : s.rejoin = s := Guarded.rejoin (hguard.imp_right Or.inl)
      cases ts with
      | nil =>
          rw [joinComma_singleton, foldl_step_operand ht hcurrent hdepth fun _ => hapart,
            finish_operand ht]
          rfl
      | cons u ts =>
          have hzero : nestingOf t = 0 := hclosed t (by simp)
          have hgap : Scan.step (Scan.step { s with current := t.reverse, depth := 0 } ',') ' ' =
              { done := t :: s.done, current := [], depth := 0, comma := true } :=
            @foldl_step_gap_of_operand t [',', ' '] ht (List.all_eq_true.mp (by decide))
              (List.cons_ne_nil _ _) s.done s.comma
          rw [joinComma_cons_cons, List.foldl_append,
            foldl_step_operand ht hcurrent hdepth fun _ => hapart, hzero, List.foldl_cons,
            List.foldl_cons, hgap,
            ih (List.cons_ne_nil u ts) (fun v hv => hts v (List.mem_cons_of_mem t hv))
              (fun v hv => hclosed v (by simp [hv])) rfl rfl (Or.inl rfl)]
          simp

end Scan

/-! ## Dividing and joining -/

/-- The state after a whole text satisfies the invariant. -/
theorem inv_scan (s : Text) : (s.foldl Scan.step {}).Inv := Scan.inv_init.foldl s

/-- Dividing a text gives operands. -/
theorem isOperand_of_mem_tokenize {s t : Text} (h : t ∈ tokenize s) : IsOperand t := by
  rw [tokenize, List.mem_reverse] at h
  have hinv := inv_scan s
  by_cases hp : (s.foldl Scan.step {}).pending = []
  · rw [Scan.finish_of_not_pending hp] at h
    exact (hinv.done t h).1
  · rw [Scan.finish_of_pending hp] at h
    rcases List.mem_cons.mp h with rfl | h
    · exact isOperand_trim hinv.unbroken hp
    · exact (hinv.done t h).1

/-- All operands but the last close their parentheses. -/
theorem closed_of_mem_dropLast_tokenize {s t : Text} (h : t ∈ (tokenize s).dropLast) :
    Closed t := by
  rw [tokenize] at h
  have hinv := inv_scan s
  by_cases hp : (s.foldl Scan.step {}).pending = []
  · rw [Scan.finish_of_not_pending hp] at h
    exact (hinv.done t (List.mem_reverse.mp (List.dropLast_subset _ h))).2
  · rw [Scan.finish_of_pending hp, List.reverse_cons, List.dropLast_concat] at h
    exact (hinv.done t (List.mem_reverse.mp h)).2

/-- Operands joined with commas are divided again. -/
theorem tokenize_joinComma {ts : List Text} (hts : ∀ t ∈ ts, IsOperand t)
    (hclosed : ∀ t ∈ ts.dropLast, Closed t) : tokenize (Text.joinComma ts) = ts := by
  by_cases hne : ts = []
  · subst hne
    rfl
  · rw [tokenize, Scan.done_foldl_step_joinComma hne hts hclosed rfl rfl (Or.inr rfl)]
    simp

end Operand

/-! ## Statements -/

/-- A mnemonic without blanks is the first word of what starts with it, up to the first blank. -/
theorem firstWord_append {m gap : Text} (hm : ∀ c ∈ m, isBlank c = false) (hne : gap ≠ [])
    (hgap : ∀ c ∈ gap, isBlank c = true) (s : Text) :
    Text.firstWord (m ++ (gap ++ s)) = m ∧
      Text.afterFirstWord (m ++ (gap ++ s)) = Text.trimStart s := by
  have hpos : ∀ c ∈ m, (!isBlank c) = true := fun c hc => by simp [hm c hc]
  obtain ⟨c, gap, rfl⟩ := List.exists_cons_of_ne_nil hne
  have hblank : isBlank c = true := hgap c List.mem_cons_self
  constructor
  · rw [Text.firstWord, List.takeWhile_append_of_pos hpos, List.cons_append,
      List.takeWhile_cons_of_neg (by simp [hblank]), List.append_nil]
  · rw [Text.afterFirstWord, List.dropWhile_append_of_pos hpos, List.cons_append,
      List.dropWhile_cons_of_neg (by simp [hblank]), ← List.cons_append]
    exact Text.trimStart_append_of_blank hgap s

/-- A text without blanks is one word. -/
theorem firstWord_eq_self {m : Text} (hm : ∀ c ∈ m, isBlank c = false) :
    Text.firstWord m = m ∧ Text.afterFirstWord m = [] := by
  have hpos : ∀ c ∈ m, (!isBlank c) = true := fun c hc => by simp [hm c hc]
  constructor
  · rw [Text.firstWord, List.takeWhile_eq_self_iff]
    exact hpos
  · rw [Text.afterFirstWord, List.dropWhile_eq_nil_iff.mpr hpos]
    rfl

namespace Statement

/-- Reading a text that is trimmed and not empty. -/
theorem parse_of_trim {s : Text} (hne : s ≠ []) (hs : Text.trim s = s) :
    parse s = .ok ⟨lower (Text.firstWord s), Operand.tokenize (Text.afterFirstWord s)⟩ := by
  rw [parse, hs]
  split
  · exact absurd rfl hne
  · rfl

/-- A written statement does not start or end with a blank. -/
theorem trim_render {m : Text} {ops : List Text} (hne : m ≠ [])
    (hm : ∀ c ∈ m, isBlank c = false) (hops : ∀ t ∈ ops, Operand.IsOperand t) :
    Text.trim (render ⟨m, ops⟩) = render ⟨m, ops⟩ := by
  by_cases hnil : ops = []
  · subst hnil
    exact Text.trim_eq_self_of_forall hm
  · have hrender : render ⟨m, ops⟩ = m ++ ' ' :: Text.joinComma ops := by
      simp [render, hnil]
    rw [hrender]
    apply Text.trim_eq_self
    · rw [List.head?_append_of_ne_nil _ hne]
      exact fun c hc => hm c (List.mem_of_head? hc)
    · obtain ⟨ts, t, rfl⟩ : ∃ ts t, ops = ts ++ [t] :=
        ⟨_, _, (List.dropLast_concat_getLast hnil).symm⟩
      obtain ⟨front, hfront⟩ := Operand.exists_joinComma_concat ts t
      have ht := hops t (by simp)
      rw [hfront, ← List.cons_append, ← List.append_assoc,
        List.getLast?_append_of_ne_nil _ ht.ne_nil,
        ← ht.trimmed]
      exact Text.getLast?_trim t

/-- A written statement is divided into its mnemonic and what its joined operands are divided
into. -/
theorem parse_render_eq {m : Text} {ops : List Text} (hne : m ≠ [])
    (hm : ∀ c ∈ m, isBlank c = false) (hops : ∀ t ∈ ops, Operand.IsOperand t) :
    parse (render ⟨m, ops⟩) = .ok ⟨lower m, Operand.tokenize (Text.joinComma ops)⟩ := by
  have htrim := trim_render hne hm hops
  by_cases hnil : ops = []
  · subst hnil
    obtain ⟨hfirst, hafter⟩ := firstWord_eq_self hm
    rw [show render ⟨m, []⟩ = m from rfl] at htrim ⊢
    rw [parse_of_trim hne htrim, hfirst, hafter]
    rfl
  · have hrender : render ⟨m, ops⟩ = m ++ ' ' :: Text.joinComma ops := by
      simp [render, hnil]
    have hspace : ∀ c ∈ [' '], isBlank c = true := List.forall_mem_singleton.mpr (by decide)
    obtain ⟨hfirst, hafter⟩ := firstWord_append hm (by decide) hspace (Text.joinComma ops)
    rw [List.singleton_append] at hfirst hafter
    -- the joined operands start like the first operand, which does not start with a blank
    have hstart : Text.trimStart (Text.joinComma ops) = Text.joinComma ops := by
      obtain ⟨t, ts, rfl⟩ := List.exists_cons_of_ne_nil hnil
      obtain ⟨rest, hrest⟩ := Operand.exists_joinComma_cons t ts
      have ht := hops t List.mem_cons_self
      apply Text.trimStart_eq_self
      rw [hrest, List.head?_append_of_ne_nil _ ht.ne_nil]
      exact Operand.head?_of_unbroken ht.unbroken
    rw [hrender] at htrim ⊢
    rw [parse_of_trim (by simp) htrim, hfirst, hafter, hstart]

/-- A statement that is written as a line is read back, its mnemonic in lower case. -/
theorem parse_render {m : Text} {ops : List Text} (hne : m ≠ [])
    (hm : ∀ c ∈ m, isBlank c = false) (hops : ∀ t ∈ ops, Operand.IsOperand t)
    (hclosed : ∀ t ∈ ops.dropLast, Operand.Closed t) :
    parse (render ⟨m, ops⟩) = .ok ⟨lower m, ops⟩ := by
  rw [parse_render_eq hne hm hops, Operand.tokenize_joinComma hops hclosed]

/-! ## Statements that were read -/

/-- The mnemonic of a line is a word in lower case. -/
theorem mnemonic_of_parse {line : Text} {s : Statement} (h : parse line = .ok s) :
    s.mnemonic ≠ [] ∧ (∀ c ∈ s.mnemonic, isBlank c = false) ∧ lower s.mnemonic = s.mnemonic := by
  unfold parse at h
  split at h
  · cases h
  · rename_i hne
    obtain rfl := Except.ok.inj h
    refine ⟨lower_ne_nil ?_, not_blank_of_mem_lower ?_, lower_lower _⟩
    · -- a trimmed text does not start with a blank
      obtain ⟨c, rest, hcons⟩ := List.exists_cons_of_ne_nil hne
      have hc : isBlank c = false := Text.head?_trim line c (by rw [hcons]; rfl)
      rw [hcons, Text.firstWord, List.takeWhile_cons_of_pos (by simp [hc])]
      exact List.cons_ne_nil _ _
    · intro c hc
      simpa using List.mem_takeWhile_imp hc

/-- The operands of a line can stand as operands, and all but the last close their parentheses. -/
theorem operands_of_parse {line : Text} {s : Statement} (h : parse line = .ok s) :
    (∀ t ∈ s.operands, Operand.IsOperand t) ∧ ∀ t ∈ s.operands.dropLast, Operand.Closed t := by
  unfold parse at h
  split at h
  · cases h
  · obtain rfl := Except.ok.inj h
    exact ⟨fun _ ht => Operand.isOperand_of_mem_tokenize ht,
      fun _ ht => Operand.closed_of_mem_dropLast_tokenize ht⟩

/-- So they are with another operand in place of the last one. -/
theorem operands_concat {line t : Text} {s : Statement} (h : parse line = .ok s)
    (ht : Operand.IsOperand t) :
    (∀ o ∈ s.operands.dropLast ++ [t], Operand.IsOperand o) ∧
      ∀ o ∈ (s.operands.dropLast ++ [t]).dropLast, Operand.Closed o := by
  obtain ⟨hoperands, hclosed⟩ := operands_of_parse h
  constructor
  · rw [List.forall_mem_append]
    exact ⟨fun o ho => hoperands o (List.dropLast_subset _ ho), List.forall_mem_singleton.mpr ht⟩
  · rw [List.dropLast_concat]
    exact hclosed

theorem operands_number {line : Text} {s : Statement} (h : parse line = .ok s) (number : Int) :
    (∀ t ∈ s.operands.dropLast ++ [Numeral.ofInt number], Operand.IsOperand t) ∧
      ∀ t ∈ (s.operands.dropLast ++ [Numeral.ofInt number]).dropLast, Operand.Closed t :=
  operands_concat h (Operand.isOperand_ofInt number).1

/-- The mnemonic of a line with other operands is read back. -/
theorem parse_render_of_parse {line : Text} {s : Statement} (h : parse line = .ok s)
    {ops : List Text} (hops : ∀ t ∈ ops, Operand.IsOperand t)
    (hclosed : ∀ t ∈ ops.dropLast, Operand.Closed t) :
    parse (render { s with operands := ops }) = .ok { s with operands := ops } := by
  obtain ⟨hne, hblank, hlower⟩ := mnemonic_of_parse h
  have hread := parse_render hne hblank hops hclosed
  rwa [hlower] at hread

/-- **What was read is read back from how it is written**: dividing a text into operands, joining
them with commas and dividing again gives the same operands, whatever the text is; a line that is
read as a statement is read as the same statement when that is written as a line; and so is the
statement with any number in place of its last operand. -/
theorem rewritten_reads_back :
    (∀ text, Operand.tokenize (Text.joinComma (Operand.tokenize text)) = Operand.tokenize text) ∧
      ∀ line s, parse line = .ok s → parse s.render = .ok s ∧
        ∀ number : Int,
          parse (render { s with operands := s.operands.dropLast ++ [Numeral.ofInt number] }) =
            .ok { s with operands := s.operands.dropLast ++ [Numeral.ofInt number] } := by
  constructor
  · intro text
    exact Operand.tokenize_joinComma (fun _ ht => Operand.isOperand_of_mem_tokenize ht)
      fun _ ht => Operand.closed_of_mem_dropLast_tokenize ht
  · intro line s h
    constructor
    · obtain ⟨hoperands, hclosed⟩ := operands_of_parse h
      exact parse_render_of_parse h hoperands hclosed
    · intro number
      obtain ⟨hoperands, hclosed⟩ := operands_number h number
      exact parse_render_of_parse h hoperands hclosed

/-- A line with a capital that is lowered to two characters, repeated separators, an offset that is
put back before its base, and a parenthesis that is never closed. -/
theorem rewritten_reads_back_unclosed :
    ∃ s, parse "İLW ,a0,, 4 (sp) ((x, y ".toList = .ok s ∧
      s.operands = ["a0".toList, "4(sp)".toList, "((x, y".toList] ∧ parse s.render = .ok s ∧
      parse (render { s with operands := ["a0".toList, "4(sp)".toList, "-8".toList] }) =
        .ok { s with operands := ["a0".toList, "4(sp)".toList, "-8".toList] } := by
  have h : parse "İLW ,a0,, 4 (sp) ((x, y ".toList =
      .ok ⟨"i̇lw".toList, ["a0".toList, "4(sp)".toList, "((x, y".toList]⟩ := by decide +kernel
  have height : Numeral.ofInt (-8) = "-8".toList := by decide +kernel
  obtain ⟨hsame, hnumber⟩ := rewritten_reads_back.2 _ _ h
  have hlast := hnumber (-8)
  rw [height] at hlast
  exact ⟨_, h, rfl, hsame, hlast⟩

end Statement

end RiscAsm

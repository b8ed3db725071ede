import Mathlib.Data.List.Chain
import RiscAsm.Proofs.Operand.Last

/-!
# Separators between operands

Operands can be written with any separators between them, before the first and after the last.
Which separators these are matters in one place only: an offset before a base in parentheses is
taken for one operand with it when no comma parts the two.  `Entry` is an operand with the
separators that follow it, and `merged` gives the operands of entries with such pairs put together.
Dividing what is written gives exactly these (`tokenize_written`), so it gives the operands
themselves when there is no such pair, and otherwise the operands with that pair as one
(`tokenize_spaced`).
-/

namespace RiscAsm.Operand

/-! ## Entries -/

/-- An operand and the separators that follow it. -/
structure Entry where
  operand : Text
  gap : Text
  deriving DecidableEq, Repr

namespace Entry

/-- The text of an entry. -/
def text (e : Entry) : Text := e.operand ++ e.gap

/-- An offset that no comma parts from a base in parentheses. -/
def joins (e next : Entry) : Bool :=
  Immediate.accepts e.operand && !e.gap.contains ',' && next.operand.head? == some '('

theorem joins_iff {e next : Entry} :
    e.joins next = true ↔
      Immediate.accepts e.operand = true ∧ ',' ∉ e.gap ∧ next.operand.head? = some '(' := by
  simp [joins, and_assoc]

end Entry

/-- The text of entries. -/
def written (entries : List Entry) : Text := entries.flatMap Entry.text

/-- The operands of entries, an offset put together with the base after it. -/
def merged : List Entry → List Text
  | [] => []
  | [e] => [e.operand]
  | e :: next :: rest =>
    if e.joins next then (e.operand ++ next.operand) :: merged rest
    else e.operand :: merged (next :: rest)

/-- Separators, and entries that can be written after them: the operands close their parentheses,
and all but the last have separators after them. -/
structure Spaced (lead : Text) (entries : List Entry) : Prop where
  lead : ∀ c ∈ lead, isSeparator c = true
  operand : ∀ e ∈ entries, IsOperand e.operand
  closed : ∀ e ∈ entries, Closed e.operand
  gap : ∀ e ∈ entries, ∀ c ∈ e.gap, isSeparator c = true
  gap_ne_nil : ∀ e ∈ entries.dropLast, e.gap ≠ []

/-- A comma stands between every offset and a base in parentheses after it. -/
def Parted (entries : List Entry) : Prop :=
  entries.IsChain fun e next =>
    Immediate.accepts e.operand = true → next.operand.head? = some '(' → ',' ∈ e.gap

instance (s : Text) : Decidable (Closed s) :=
  inferInstanceAs (Decidable (nestingOf s = 0))

instance decidableUnbroken : (depth : Int) → (s : Text) → Decidable (Unbroken depth s)
  | _, [] => isTrue trivial
  | depth, c :: s =>
    have := decidableUnbroken (depth + nesting c) s
    inferInstanceAs (Decidable ((depth = 0 → isSeparator c = false) ∧ _))

instance (s : Text) : Decidable (IsOperand s) :=
  decidable_of_iff (s ≠ [] ∧ Text.trim s = s ∧ Unbroken 0 s)
    ⟨fun ⟨h₁, h₂, h₃⟩ => ⟨h₁, h₂, h₃⟩, fun ⟨h₁, h₂, h₃⟩ => ⟨h₁, h₂, h₃⟩⟩

theorem spaced_iff {lead : Text} {entries : List Entry} :
    Spaced lead entries ↔ lead.all isSeparator = true ∧
      (∀ e ∈ entries, IsOperand e.operand ∧ Closed e.operand ∧ e.gap.all isSeparator = true) ∧
      ∀ e ∈ entries.dropLast, e.gap ≠ [] := by
  simp only [List.all_eq_true]
  constructor
  · intro h
    exact ⟨h.lead, fun e he => ⟨h.operand e he, h.closed e he, h.gap e he⟩, h.gap_ne_nil⟩
  · rintro ⟨hlead, hentries, hgap⟩
    exact ⟨hlead, fun e he => (hentries e he).1, fun e he => (hentries e he).2.1,
      fun e he => (hentries e he).2.2, hgap⟩

instance (lead : Text) (entries : List Entry) : Decidable (Spaced lead entries) :=
  decidable_of_iff _ spaced_iff.symm

instance (entries : List Entry) : Decidable (Parted entries) :=
  inferInstanceAs (Decidable (entries.IsChain _))

theorem written_cons (e : Entry) (entries : List Entry) :
    written (e :: entries) = e.operand ++ (e.gap ++ written entries) := by
  rw [written, List.flatMap_cons, Entry.text, List.append_assoc, ← written]

namespace Spaced

variable {e next : Entry} {rest : List Entry}

theorem tail (h : Spaced [] (e :: next :: rest)) : Spaced [] (next :: rest) where
  lead := h.lead
  operand := fun f hf => h.operand f (List.mem_cons_of_mem e hf)
  closed := fun f hf => h.closed f (List.mem_cons_of_mem e hf)
  gap := fun f hf => h.gap f (List.mem_cons_of_mem e hf)
  gap_ne_nil := fun f hf => h.gap_ne_nil f (List.mem_cons_of_mem e hf)

/-- Two operands without the separators between them are one operand. -/
theorem join (h : Spaced [] (e :: next :: rest)) :
    Spaced [] (⟨e.operand ++ next.operand, next.gap⟩ :: rest) := by
  have htail := h.tail
  have he := h.operand e List.mem_cons_self
  have hnext := htail.operand next List.mem_cons_self
  have hclosed : Closed (e.operand ++ next.operand) := by
    rw [Closed, nestingOf_append, h.closed e List.mem_cons_self,
      htail.closed next List.mem_cons_self]
    rfl
  have hunbroken : Unbroken 0 (e.operand ++ next.operand) := by
    rw [unbroken_append, h.closed e List.mem_cons_self]
    exact ⟨he.unbroken, hnext.unbroken⟩
  refine ⟨h.lead, ?_, ?_, ?_, ?_⟩
  · intro f hf
    rcases List.mem_cons.mp hf with rfl | hf
    · exact isOperand_of_closed (List.append_ne_nil_of_left_ne_nil he.ne_nil _) hunbroken hclosed
    · exact htail.operand f (List.mem_cons_of_mem next hf)
  · intro f hf
    rcases List.mem_cons.mp hf with rfl | hf
    · exact hclosed
    · exact htail.closed f (List.mem_cons_of_mem next hf)
  · intro f hf
    rcases List.mem_cons.mp hf with rfl | hf
    · exact htail.gap next List.mem_cons_self
    · exact htail.gap f (List.mem_cons_of_mem next hf)
  · intro f hf
    cases rest with
    | nil => cases hf
    | cons third rest =>
        rcases List.mem_cons.mp hf with rfl | hf
        · exact htail.gap_ne_nil next List.mem_cons_self
        · exact htail.gap_ne_nil f (List.mem_cons_of_mem next hf)

end Spaced

/-! ## Merging -/

/-- An entry that is not put together with the next one. -/
theorem merged_cons {e : Entry} {entries : List Entry}
    (h : ∀ next ∈ entries.head?, e.joins next = false) :
    merged (e :: entries) = e.operand :: merged entries := by
  cases entries with
  | nil => rfl
  | cons next rest =>
      rw [merged, if_neg]
      rw [h next rfl]
      exact Bool.false_ne_true

/-- What starts with a parenthesis, or holds one, is no offset. -/
theorem not_accepts_append {s t : Text} (h : t.head? = some '(') :
    Immediate.accepts (s ++ t) = false := by
  rw [Bool.eq_false_iff]
  intro haccepts
  apply Immediate.not_mem_of_accepts haccepts (.inl rfl)
  exact List.mem_append_right s (List.mem_of_head? h)

/-- Parted entries are not put together. -/
theorem merged_of_parted {entries : List Entry} (h : Parted entries) :
    merged entries = entries.map Entry.operand := by
  induction entries with
  | nil => rfl
  | cons e entries ih =>
      obtain ⟨hhead, hrest⟩ := List.isChain_cons.mp h
      rw [merged_cons, ih hrest, List.map_cons]
      intro next hnext
      rw [Bool.eq_false_iff]
      intro hjoins
      obtain ⟨haccepts, hcomma, hopen⟩ := Entry.joins_iff.mp hjoins
      exact hcomma (hhead next hnext haccepts hopen)

/-- A pair that is put together between entries that are parted.  The induction is on the entries
before it; the last of them is not put together with the offset, which does not start with a
parenthesis. -/
theorem merged_of_joins {before after : List Entry} {e next : Entry} (hjoins : e.joins next = true)
    (hbefore : Parted before) (hafter : Parted after) :
    merged (before ++ e :: next :: after) =
      before.map Entry.operand ++ (e.operand ++ next.operand) :: after.map Entry.operand := by
  induction before with
  | nil =>
      rw [List.nil_append, merged, if_pos hjoins, merged_of_parted hafter]
      rfl
  | cons first before ih =>
      obtain ⟨hhead, hrest⟩ := List.isChain_cons.mp hbefore
      rw [List.cons_append, merged_cons, ih hrest, List.map_cons, List.cons_append]
      intro second hsecond
      rw [Bool.eq_false_iff]
      intro hfirst
      obtain ⟨haccepts, hcomma, hopen⟩ := Entry.joins_iff.mp hfirst
      cases before with
      | nil =>
          obtain rfl : e = second := Option.some.inj hsecond
          have hoffset := not_accepts_append (s := []) hopen
          rw [List.nil_append, (Entry.joins_iff.mp hjoins).1] at hoffset
          cases hoffset
      | cons third before => exact hcomma (hhead second hsecond haccepts hopen)

/-! ## Scanning entries -/

namespace Scan

/-- An operand that starts with a parenthesis is scanned after the offset that is taken back. -/
theorem foldl_step_joined {offset t : Text} (ht : IsOperand t) (hclosed : Closed t)
    (hoffset : Immediate.accepts offset = true) (hopen : t.head? = some '(') (done : List Text) :
    t.foldl Scan.step { done := offset :: done, current := [], depth := 0, comma := false } =
      { done, current := (offset ++ t).reverse, depth := 0, comma := false } := by
  obtain ⟨rest, rfl⟩ := List.head?_eq_some_iff.mp hopen
  obtain ⟨-, hrest⟩ := ht.unbroken
  have hrejoin : rejoin { done := offset :: done, current := [], depth := 0, comma := false } =
      { done, current := offset.reverse, depth := 0, comma := false } := by
    rw [rejoin]
    exact if_pos hoffset
  have hstep : step { done := offset :: done, current := [], depth := 0, comma := false } '(' =
      { done, current := '(' :: offset.reverse, depth := nesting '(', comma := false } := by
    rw [step_of_not_isSeparator fun _ => by decide, if_pos rfl, hrejoin, push, Int.zero_add]
  have hguarded : Guarded
      { done, current := '(' :: offset.reverse, depth := nesting '(', comma := false } :=
    guarded_of_mem List.mem_cons_self (by decide)
  rw [Int.zero_add] at hrest
  rw [List.foldl_cons, hstep, foldl_step_of_unbroken hguarded hrest, ← nestingOf_cons, hclosed]
  simp

/-- After separators, nothing is taken back unless the operand before them joins the next one. -/
theorem rejoin_of_not_joins {e next : Entry} (h : e.joins next = false)
    (hopen : next.operand.head? = some '(') (done : List Text) :
    rejoin { done := e.operand :: done, current := [], depth := 0, comma := e.gap.contains ',' } =
      { done := e.operand :: done, current := [], depth := 0, comma := e.gap.contains ',' } := by
  rw [Entry.joins, hopen, beq_self_eq_true, Bool.and_true] at h
  rw [rejoin]
  split
  · rename_i hfree
    have hcomma : (!e.gap.contains ',') = true := (Bool.and_eq_true_iff.mp hfree).2
    rw [hcomma, Bool.and_true] at h
    exact if_neg (by rw [h]; exact Bool.false_ne_true)
  · rfl

/-- The separators after the operand at hand and the entries after them are scanned to the merged
operands.  The induction is on the entries; the operand at hand may be an offset with its base. -/
theorem done_foldl_step_written {e : Entry} {entries : List Entry}
    (h : Spaced [] (e :: entries)) (done : List Text) (comma : Bool) :
    ((e.gap ++ written entries).foldl Scan.step
        { done, current := e.operand.reverse, depth := 0, comma }).finish.done =
      (merged (e :: entries)).reverse ++ done := by
  induction entries generalizing e done comma with
  | nil =>
      have hoperand := h.operand e List.mem_cons_self
      have hfinish := finish_operand hoperand { done, comma } 0
      rw [written, List.flatMap_nil, List.append_nil,
        foldl_step_separators (h.gap e List.mem_cons_self) rfl, hfinish]
      rfl
  | cons next rest ih =>
      have hoperand := h.operand e List.mem_cons_self
      have hgap := h.gap e List.mem_cons_self
      have hne : e.gap ≠ [] := h.gap_ne_nil e List.mem_cons_self
      have hnext := h.tail.operand next List.mem_cons_self
      have hclosed := h.tail.closed next List.mem_cons_self
      rw [written_cons, List.foldl_append, foldl_step_gap_of_operand hoperand hgap hne,
        List.foldl_append]
      by_cases hjoins : e.joins next = true
      · -- the operand at hand becomes the offset with its base, and it joins nothing after it
        obtain ⟨hoffset, hcomma, hopen⟩ := Entry.joins_iff.mp hjoins
        have hnone : e.gap.contains ',' = false := by simpa using hcomma
        have hmerged : merged (⟨e.operand ++ next.operand, next.gap⟩ :: rest) =
            (e.operand ++ next.operand) :: merged rest := by
          apply merged_cons
          intro third hthird
          rw [Entry.joins, not_accepts_append hopen, Bool.false_and, Bool.false_and]
        rw [hnone, foldl_step_joined hnext hclosed hoffset hopen, ih h.join, hmerged, merged,
          if_pos hjoins]
      · have hapart : e.joins next = false := by simpa using hjoins
        rw [foldl_step_operand hnext rfl rfl fun hopen => rejoin_of_not_joins hapart hopen done,
          hclosed, ih h.tail, merged, if_neg hjoins, List.reverse_cons, List.append_assoc]
        rfl

end Scan

/-! ## Dividing what is written -/

/-- Dividing written entries gives their operands, an offset put together with the base after it. -/
theorem tokenize_written {lead : Text} {entries : List Entry} (h : Spaced lead entries) :
    tokenize (lead ++ written entries) = merged entries := by
  rw [tokenize, List.foldl_append, Scan.foldl_step_gap h.lead]
  cases entries with
  | nil => rfl
  | cons e entries =>
      have hspaced : Spaced [] (e :: entries) := { h with lead := by simp }
      have he := h.operand e List.mem_cons_self
      rw [written_cons, List.foldl_append,
        Scan.foldl_step_operand he rfl rfl fun _ => by simp [Scan.rejoin],
        h.closed e List.mem_cons_self, Scan.done_foldl_step_written hspaced, List.append_nil,
        List.reverse_reverse]

/-- Separators do not matter.  Operands that close their parentheses can be written with any commas
and blanks before, between and after them.  Dividing the text puts every offset together with a base
in parentheses that no comma parts from it.  So it gives the operands back when there is no such
pair, and where one pair has only blanks between them, exactly these two become one operand. -/
theorem tokenize_spaced {lead : Text} {entries : List Entry} (h : Spaced lead entries) :
    tokenize (lead ++ written entries) = merged entries ∧
      (Parted entries → tokenize (lead ++ written entries) = entries.map Entry.operand) ∧
      ∀ before e next after, entries = before ++ e :: next :: after →
        Immediate.accepts e.operand = true → next.operand.head? = some '(' →
        (∀ c ∈ e.gap, isBlank c = true) → Parted before → Parted after →
        tokenize (lead ++ written entries) =
          before.map Entry.operand ++ (e.operand ++ next.operand) :: after.map Entry.operand := by
  rw [tokenize_written h]
  refine ⟨rfl, merged_of_parted, ?_⟩
  rintro before e next after rfl haccepts hopen hblank hbefore hafter
  have hcomma : ',' ∉ e.gap := by
    intro hmem
    have hfalse : isBlank ',' = false := by decide
    rw [hblank ',' hmem] at hfalse
    cases hfalse
  exact merged_of_joins (Entry.joins_iff.mpr ⟨haccepts, hcomma, hopen⟩) hbefore hafter

/-- A comma before the blanks and one after them part an offset from its base, and blanks alone do
not. -/
theorem tokenize_spaced_base :
    tokenize " a0 ,8 ,(sp)\t".toList = ["a0".toList, "8".toList, "(sp)".toList] ∧
      tokenize ", a0 ,8 \t(sp),x".toList = ["a0".toList, "8(sp)".toList, "x".toList] := by
  constructor
  · exact (@tokenize_spaced " ".toList
      [⟨"a0".toList, " ,".toList⟩, ⟨"8".toList, " ,".toList⟩, ⟨"(sp)".toList, "\t".toList⟩]
      (by decide +kernel)).2.1 (by decide +kernel)
  · exact (@tokenize_spaced ", ".toList
      [⟨"a0".toList, " ,".toList⟩, ⟨"8".toList, " \t".toList⟩, ⟨"(sp)".toList, ",".toList⟩,
        ⟨"x".toList, []⟩] (by decide +kernel)).2.2
      [⟨"a0".toList, " ,".toList⟩] ⟨"8".toList, " \t".toList⟩ ⟨"(sp)".toList, ",".toList⟩
      [⟨"x".toList, []⟩] rfl (by decide +kernel) rfl (List.all_eq_true.mp (by decide +kernel))
      (by decide +kernel) (by decide +kernel)

end RiscAsm.Operand

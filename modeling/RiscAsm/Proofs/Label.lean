import Mathlib.Data.List.Forall2
import RiscAsm.Proofs.Layout
import RiscAsm.Proofs.Operand.Last
import RiscAsm.Proofs.Source

/-!
# Label names in texts

A label name is a word among operands (`Label.isWord_of_isName`) and never a number
(`Label.not_accepts_of_isName`).  Texts that differ only in names (`Respelled`) have the same
blanks, breaks, colons and comment marks, so they are divided in the same places.
-/

namespace RiscAsm

open Source (Uncommented)

namespace Label

/-! ## Names -/

theorem toNat_of_isAlpha {c : Char} (h : c.isAlpha = true) :
    (65 ≤ c.toNat ∧ c.toNat ≤ 90) ∨ (97 ≤ c.toNat ∧ c.toNat ≤ 122) := by
  rcases Bool.or_eq_true_iff.mp h with hupper | hlower
  · obtain ⟨hleast, hgreatest⟩ : 'A'.val ≤ c.val ∧ c.val ≤ 'Z'.val := of_decide_eq_true hupper
    exact .inl ⟨hleast, hgreatest⟩
  · obtain ⟨hleast, hgreatest⟩ := Bool.and_eq_true_iff.mp hlower
    exact .inr ⟨of_decide_eq_true hleast, of_decide_eq_true hgreatest⟩

/-- Characters of names are no blanks. -/
theorem isBlank_of_isNameRest {c : Char} (h : isNameRest c = true) : isBlank c = false := by
  simp only [isNameRest, Char.isAlphanum, Bool.or_eq_true, beq_iff_eq] at h
  rcases h with (((halpha | hdigit) | rfl) | rfl) | rfl
  · have hcode := toNat_of_isAlpha halpha
    simp only [isBlank, inRanges, blankRanges, List.any_cons, List.any_nil, Bool.or_false,
      Bool.or_eq_false_iff, Bool.and_eq_false_iff, decide_eq_false_iff_not]
    omega
  · exact Numeral.isBlank_of_isDigit hdigit
  · decide
  · decide
  · decide

/-- A letter is no decimal digit. -/
theorem digit?_of_isAlpha {c : Char} (h : c.isAlpha = true) : Numeral.digit? 10 c = none := by
  have hcode := toNat_of_isAlpha h
  have hle : ∀ a b : Char, a ≤ b ↔ a.toNat ≤ b.toNat := fun a b => UInt32.le_iff_toNat_le
  unfold Numeral.digit?
  simp only [hle, Bool.and_eq_true, decide_eq_true_eq]
  by_cases hlower : 'a'.toNat ≤ c.toNat ∧ c.toNat ≤ 'z'.toNat
  · rw [if_pos hlower]
    simp
  · have hupper : 'A'.toNat ≤ c.toNat ∧ c.toNat ≤ 'Z'.toNat :=
      hcode.resolve_right hlower
    rw [if_neg hlower, if_pos hupper]
    simp

/-- A name is a word: separators and parentheses are no characters of names. -/
theorem isWord_of_isName {name : Text} (h : isName name = true) : Operand.IsWord name where
  ne_nil := by
    rintro rfl
    cases h
  plain := by
    intro c hc
    have hrest := isNameRest_of_mem h hc
    have hne : ∀ d, isNameRest d = false → c ≠ d := by
      rintro d hd rfl
      rw [hrest] at hd
      cases hd
    constructor
    · simp [Operand.isSeparator, isBlank_of_isNameRest hrest, hne ',' (by decide)]
    · rw [Operand.nesting, if_neg (hne '(' (by decide)), if_neg (hne ')' (by decide))]

/-- A name is no number. -/
theorem not_accepts_of_isName {name : Text} (h : isName name = true) :
    Immediate.accepts name = false := by
  have htrim : Text.trim name = name :=
    Text.trim_eq_self_of_forall fun c hc => isBlank_of_isNameRest (isNameRest_of_mem h hc)
  obtain ⟨c, rest, rfl⟩ := List.exists_cons_of_ne_nil (isWord_of_isName h).ne_nil
  have hstart : isNameStart c = true := (Bool.and_eq_true_iff.mp h).1
  have hne : ∀ d, isNameStart d = false → c ≠ d := by
    rintro d hd rfl
    rw [hstart] at hd
    cases hd
  -- what starts a name is neither a digit nor a sign
  have hread : Numeral.readDecimal (c :: rest) = none := by
    have hgroups : Numeral.readGroups 10 (c :: rest) = none := by
      simp only [isNameStart, Bool.or_eq_true, beq_iff_eq] at hstart
      rw [Numeral.readGroups, Numeral.readGroupsAux]
      rcases hstart with (halpha | rfl) | rfl
      · simp [digit?_of_isAlpha halpha]
      · rfl
      · rfl
    rw [Numeral.readDecimal, hgroups]
    exact ite_self none
  have hsigned : Immediate.readSigned (c :: rest) = none := by
    unfold Immediate.readSigned
    split
    · rename_i heq
      exact absurd (List.cons.inj heq).1 (hne '+' (by decide))
    · rename_i heq
      exact absurd (List.cons.inj heq).1 (hne '-' (by decide))
    · rw [hread]
      rfl
  have hnumber : Immediate.read? (c :: rest) = none := by
    unfold Immediate.read?
    split
    · rename_i heq
      exact absurd (List.cons.inj heq).1 (hne '0' (by decide))
    · exact hsigned
  unfold Immediate.accepts Immediate.parse
  rw [htrim]
  split
  · rfl
  · rename_i heq
    exact absurd (List.cons.inj heq).1 (hne '-' (by decide))
  · rw [hnumber]
    rfl

end Label

/-! ## Texts that differ in names -/

/-- The second text is the first one with other words made of characters of names in some places. -/
inductive Respelled : Text → Text → Prop
  | refl (s : Text) : Respelled s s
  | name {s t : Text} (hs : s ≠ []) (ht : t ≠ []) (hs' : ∀ c ∈ s, Label.isNameRest c = true)
      (ht' : ∀ c ∈ t, Label.isNameRest c = true) : Respelled s t
  | append {s s' t t' : Text} (hs : Respelled s s') (ht : Respelled t t') :
      Respelled (s ++ t) (s' ++ t')

namespace Respelled

variable {s s' : Text}

theorem eq_nil_iff (h : Respelled s s') : s' = [] ↔ s = [] := by
  induction h with
  | refl s => exact Iff.rfl
  | name hs ht _ _ => exact ⟨fun h => absurd h ht, fun h => absurd h hs⟩
  | append _ _ ihs iht => rw [List.append_eq_nil_iff, List.append_eq_nil_iff, ihs, iht]

/-- Only characters of names are added. -/
theorem mem {c : Char} (h : Respelled s s') (hc : Label.isNameRest c = false) (hmem : c ∈ s') :
    c ∈ s := by
  induction h with
  | refl s => exact hmem
  | name _ _ _ ht' =>
      rw [ht' c hmem] at hc
      cases hc
  | append _ _ ihs iht =>
      rw [List.mem_append] at hmem ⊢
      exact hmem.imp ihs iht

/-- A text starts as before, or with a character of names. -/
theorem head? {c : Char} (h : Respelled s s') (hc : Label.isNameRest c = false)
    (hhead : s'.head? = some c) : s.head? = some c := by
  induction h with
  | refl s => exact hhead
  | name _ _ _ ht' =>
      rw [ht' c (List.mem_of_head? hhead)] at hc
      cases hc
  | @append s s' t t' hs _ ihs iht =>
      by_cases hnil : s' = []
      · rw [hs.eq_nil_iff.mp hnil]
        rw [hnil] at hhead
        exact iht hhead
      · rw [List.head?_append_of_ne_nil _ hnil] at hhead
        rw [List.head?_append_of_ne_nil _ (mt hs.eq_nil_iff.mpr hnil)]
        exact ihs hhead

/-- A text ends as before, or with a character of names. -/
theorem getLast? {c : Char} (h : Respelled s s') (hc : Label.isNameRest c = false)
    (hlast : s'.getLast? = some c) : s.getLast? = some c := by
  induction h with
  | refl s => exact hlast
  | name _ _ _ ht' =>
      rw [ht' c (List.mem_of_getLast? hlast)] at hc
      cases hc
  | @append s s' t t' _ ht ihs iht =>
      by_cases hnil : t' = []
      · rw [ht.eq_nil_iff.mp hnil, List.append_nil]
        rw [hnil, List.append_nil] at hlast
        exact ihs hlast
      · rw [List.getLast?_append_of_ne_nil _ hnil] at hlast
        rw [List.getLast?_append_of_ne_nil _ (mt ht.eq_nil_iff.mpr hnil)]
        exact iht hlast

/-- Characters that are not of names become no new neighbours. -/
theorem pair {a b : Char} (h : Respelled s s') (ha : Label.isNameRest a = false)
    (hb : Label.isNameRest b = false) (hpair : [a, b] <:+: s') : [a, b] <:+: s := by
  induction h with
  | refl s => exact hpair
  | name _ _ _ ht' =>
      rw [ht' a (hpair.mem List.mem_cons_self)] at ha
      cases ha
  | append hs ht ihs iht =>
      rw [Text.pair_infix_append] at hpair ⊢
      rcases hpair with hpair | hpair | ⟨hlast, hhead⟩
      · exact .inl (ihs hpair)
      · exact .inr (.inl (iht hpair))
      · exact .inr (.inr ⟨hs.getLast? ha hlast, ht.head? hb hhead⟩)

theorem uncommented (h : Respelled s s') (hs : Uncommented s) : Uncommented s' :=
  ⟨fun hmem => hs.1 (h.mem (by decide) hmem),
    fun hpair => hs.2 (h.pair (by decide) (by decide) hpair)⟩

/-- Names are not blank. -/
theorem blank_iff (h : Respelled s s') :
    (∀ c ∈ s', isBlank c = true) ↔ ∀ c ∈ s, isBlank c = true := by
  have hname : ∀ {t : Text}, t ≠ [] → (∀ c ∈ t, Label.isNameRest c = true) →
      ¬ ∀ c ∈ t, isBlank c = true := by
    intro t ht ht' hblank
    obtain ⟨c, rest, rfl⟩ := List.exists_cons_of_ne_nil ht
    have hnot := Label.isBlank_of_isNameRest (ht' c List.mem_cons_self)
    rw [hblank c List.mem_cons_self] at hnot
    cases hnot
  induction h with
  | refl s => exact Iff.rfl
  | name hs ht hs' ht' => exact iff_of_false (hname ht ht') (hname hs hs')
  | append _ _ ihs iht =>
      rw [List.forall_mem_append, List.forall_mem_append]
      exact and_congr ihs iht

theorem trim_eq_nil_iff (h : Respelled s s') : Text.trim s' = [] ↔ Text.trim s = [] := by
  rw [Text.trim_eq_nil_iff, Text.trim_eq_nil_iff, h.blank_iff]

/-- Texts that are joined may be respelled one by one. -/
theorem join (separator : Text) {parts parts' : List Text}
    (h : List.Forall₂ Respelled parts parts') :
    Respelled (Text.join separator parts) (Text.join separator parts') := by
  induction h with
  | nil => exact .refl _
  | cons hfirst hrest ih =>
      cases hrest with
      | nil => simpa [Text.join] using hfirst
      | cons hsecond hrest =>
          rw [Text.join, Text.join, List.intercalate_cons_cons, List.intercalate_cons_cons]
          exact (hfirst.append (.refl separator)).append ih

end Respelled

end RiscAsm

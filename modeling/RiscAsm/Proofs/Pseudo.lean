import RiscAsm.Proofs.Encode.Denotation
import RiscAsm.Proofs.Operand.Separators

/-!
# Expansions

What an expansion looks like is said once, for templates and for loads of constants
(`Pseudo.expand_cases`).  Expanding leads to a real instruction, on which expanding again changes
nothing (`Pseudo.real_of_real`), and each operand of it was an operand before or is a short text of
its own (`Pseudo.mem_real`).
-/

namespace RiscAsm

namespace Pseudo

open Operand (IsOperand Closed isOperand_ofInt)

/-! ## Templates and loads of constants -/

/-- What a pseudo-instruction is expanded to. -/
theorem expand_cases {m : Text} {ops : List Text} {r : Statement} (h : expand m ops = .ok r) :
    (∃ slots target, table.lookup (lower m) = some (.template target ops.length slots) ∧
      r = ⟨target, slots.map (fill ops)⟩) ∨
    ∃ rd constant value, table.lookup (lower m) = some .loadImmediate ∧ ops = [rd, constant] ∧
      Immediate.parse constant = .ok value ∧
      r = ⟨"addi".toList, [rd, "x0".toList, Numeral.ofInt value]⟩ := by
  unfold expand at h
  simp only at h
  split at h
  next => cases h
  next hlookup =>
    unfold expandLoadImmediate at h
    split at h
    next rd constant =>
      obtain ⟨value, hvalue, h⟩ := Result.bind_eq_ok.mp h
      split at h
      next =>
        exact .inr ⟨rd, constant, value, hlookup, rfl, hvalue, (Result.pure_eq_ok.mp h).symm⟩
      next => cases h
    next => cases h
  next target arity slots hlookup =>
    split at h
    next harity =>
      subst harity
      exact .inl ⟨slots, target, hlookup, (Except.ok.inj h).symm⟩
    next => cases h

/-- A slot of a template for a number of operands: a text that can stand as an operand, or the
number of one of the operands. -/
def Slot.Fits (arity : Nat) : Slot → Prop
  | .fixed content => IsOperand content ∧ Closed content
  | .operand number => number < arity

instance (arity : Nat) : (slot : Slot) → Decidable (slot.Fits arity)
  | .fixed content => inferInstanceAs (Decidable (IsOperand content ∧ Closed content))
  | .operand number => inferInstanceAs (Decidable (number < arity))

/-- The templates have slots that can be filled, and never a single one. -/
def Expansion.Fits : Expansion → Prop
  | .template _ arity slots => slots.length ≠ 1 ∧ ∀ slot ∈ slots, slot.Fits arity
  | .loadImmediate => True

instance : (e : Expansion) → Decidable e.Fits
  | .template _ arity slots =>
    inferInstanceAs (Decidable (slots.length ≠ 1 ∧ ∀ slot ∈ slots, slot.Fits arity))
  | .loadImmediate => inferInstanceAs (Decidable True)

theorem table_fits : ∀ entry ∈ table, entry.2.Fits := by decide +kernel

/-- Pseudo-instructions stand for real ones, whose mnemonics are words in lower case. -/
theorem table_targets : ∀ entry ∈ table, isPseudo entry.2.target = false ∧ entry.2.target ≠ [] ∧
    (∀ c ∈ entry.2.target, isBlank c = false) ∧ lower entry.2.target = entry.2.target := by
  decide +kernel

/-- A slot that fits is filled with an operand that is closed, or with one of those given. -/
theorem mem_fill {ops : List Text} {slot : Slot} (h : slot.Fits ops.length) :
    IsOperand (fill ops slot) ∧ Closed (fill ops slot) ∨ fill ops slot ∈ ops := by
  cases slot with
  | fixed content => exact .inl h
  | operand number =>
      refine .inr ?_
      have hlt : number < ops.length := h
      rw [fill, List.getD_eq_getElem?_getD, List.getElem?_eq_getElem hlt]
      exact List.getElem_mem hlt

/-! ## Short forms -/

theorem mnemonic_expandShort (s : Statement) : (expandShort s).mnemonic = s.mnemonic := by
  unfold expandShort
  split
  · split
    · rfl
    · split <;> rfl
  · rfl

/-- A short form is expanded once. -/
theorem expandShort_expandShort (s : Statement) : expandShort (expandShort s) = expandShort s := by
  by_cases hone : (expandShort s).operands.length = 1
  · -- what still has one operand was not in short form
    have hsame : expandShort s = s := by
      unfold expandShort at hone ⊢
      split at hone
      next target htarget =>
        split at hone
        next => cases hone
        next hjal =>
          split at hone
          next => cases hone
          next hjalr => rw [if_neg hjal, if_neg hjalr]
      next hnone => rfl
    rw [hsame, hsame]
  · exact expandShort_eq_self hone

/-- The operands of a short form are kept, and those added are closed. -/
theorem mem_expandShort {s : Statement} {t : Text} (h : t ∈ (expandShort s).operands) :
    IsOperand t ∧ Closed t ∨ t ∈ s.operands := by
  have hfixed : ∀ u ∈ ["ra".toList, "0".toList], IsOperand u ∧ Closed u := by decide +kernel
  unfold expandShort at h
  split at h
  next target htarget =>
    rw [htarget]
    split at h
    next =>
      rcases List.mem_cons.mp h with rfl | h
      · exact .inl (hfixed _ (by simp))
      · exact .inr h
    next =>
      split at h
      next =>
        simp only [List.mem_cons, List.not_mem_nil, or_false] at h
        rcases h with rfl | rfl | rfl
        · exact .inl (hfixed _ (by simp))
        · exact .inr (by simp)
        · exact .inl (hfixed _ (by simp))
      next => exact .inr (htarget ▸ h)
  next => exact .inr h

theorem mem_expandShort_of_mem {s : Statement} {t : Text} (h : t ∈ s.operands) :
    t ∈ (expandShort s).operands := by
  unfold expandShort
  split
  next target htarget =>
    obtain rfl : t = target := by simpa [htarget] using h
    split
    · simp
    · split
      · simp
      · exact h
  next => exact h

/-! ## Real instructions -/

variable {s r : Statement}

/-- A real instruction is a template's, a load's or its own. -/
theorem real_cases (h : real s = .ok r) :
    (∃ entry ∈ table, r.mnemonic = entry.2.target ∧ r.operands.length ≠ 1 ∧
      ∀ t ∈ r.operands, IsOperand t ∧ Closed t ∨ t ∈ s.operands) ∨
    (isPseudo s.mnemonic = false ∧ r = expandShort s) := by
  unfold real at h
  split at h
  next hpseudo =>
    refine .inl ?_
    rcases expand_cases h with ⟨slots, target, hlookup, rfl⟩ |
      ⟨rd, constant, value, hlookup, hops, -, rfl⟩
    · have hmem := mem_of_lookup hlookup
      obtain ⟨hlength, hfits⟩ := table_fits _ hmem
      refine ⟨_, hmem, rfl, by simpa using hlength, ?_⟩
      intro t ht
      obtain ⟨slot, hslot, rfl⟩ := List.mem_map.mp ht
      exact mem_fill (hfits slot hslot)
    · refine ⟨_, mem_of_lookup hlookup, rfl, by simp, ?_⟩
      have hzero : IsOperand "x0".toList ∧ Closed "x0".toList := by decide
      simp only [List.forall_mem_cons, hops]
      exact ⟨.inr (by simp), .inl hzero, .inl (isOperand_ofInt value), List.forall_mem_nil _⟩
  next hpseudo =>
    exact .inr ⟨by simpa using hpseudo, (Except.ok.inj h).symm⟩

/-- Expanding leads to an instruction that is no pseudo-instruction. -/
theorem isPseudo_real (h : real s = .ok r) : isPseudo r.mnemonic = false := by
  rcases real_cases h with ⟨entry, hmem, hmnemonic, -⟩ | ⟨hpseudo, rfl⟩
  · rw [hmnemonic]
    exact (table_targets entry hmem).1
  · rw [mnemonic_expandShort]
    exact hpseudo

/-- Expanding what was expanded changes nothing. -/
theorem real_of_real (h : real s = .ok r) : real r = .ok r := by
  rw [real, isPseudo_real h]
  simp only [Bool.false_eq_true, if_false]
  rcases real_cases h with ⟨entry, -, -, hlength, -⟩ | ⟨-, rfl⟩
  · rw [expandShort_eq_self hlength]
  · rw [expandShort_expandShort]

/-- The operands of a real instruction are closed, or were there before. -/
theorem mem_real (h : real s = .ok r) {t : Text} (ht : t ∈ r.operands) :
    IsOperand t ∧ Closed t ∨ t ∈ s.operands := by
  rcases real_cases h with ⟨-, -, -, -, hmem⟩ | ⟨-, rfl⟩
  · exact hmem t ht
  · exact mem_expandShort ht

/-- The mnemonic of the real instruction of a line is a word in lower case. -/
theorem mnemonic_real {line : Text} (hparse : Statement.parse line = .ok s) (h : real s = .ok r) :
    r.mnemonic ≠ [] ∧ (∀ c ∈ r.mnemonic, isBlank c = false) ∧ lower r.mnemonic = r.mnemonic := by
  rcases real_cases h with ⟨entry, hmem, hmnemonic, -⟩ | ⟨-, rfl⟩
  · rw [hmnemonic]
    exact (table_targets entry hmem).2
  · rw [mnemonic_expandShort]
    exact Statement.mnemonic_of_parse hparse

end Pseudo

end RiscAsm

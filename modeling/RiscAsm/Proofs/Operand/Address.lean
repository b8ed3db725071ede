import RiscAsm.Proofs.Operand.Last
import RiscAsm.Proofs.Operand.Memory

/-!
# Registers and addresses read back

A register is written by its number (`RegisterFile.parse_numbered`), and an address as an offset in
front of a base register in parentheses, or without the offset.  Both are operands of a line, and
they are read back (`Operand.parseMemory_address`, `Operand.parseMemory_bare`).
-/

namespace RiscAsm

/-! ## Words and addresses -/

namespace Operand

/-- A text of letters, digits and other word characters. -/
def IsLettered (s : Text) : Prop := ∀ c ∈ s, isWordChar c = true ∧ isBlank c = false

-- the characters are looked at one by one, and not all characters there are
instance (s : Text) : Decidable (IsLettered s) := List.decidableBAll _ s

theorem IsLettered.isWord {s : Text} (h : IsLettered s) (hne : s ≠ []) : IsWord s where
  ne_nil := hne
  plain := fun c hc => plain_of_isWordChar (h c hc).1

/-- An address: an offset, which may be left out, and a base register. -/
def address (offset register : Text) : Text := offset ++ '(' :: register ++ [')']

/-- An address has no blanks in its gaps. -/
theorem address_eq_spacedAddress (offset register : Text) :
    address offset register = spacedAddress offset [] [] register [] [] := by
  simp [address, spacedAddress]

/-- An address is one operand. -/
theorem isOperand_address {offset register : Text}
    (hoffset : ∀ c ∈ offset, isSeparator c = false ∧ nesting c = 0) (hregister : IsWord register) :
    IsOperand (address offset register) ∧ Closed (address offset register) := by
  rw [address_eq_spacedAddress]
  apply isOperand_spacedAddress hoffset
  intro c hc
  exact (hregister.plain c (by simpa using hc)).2

/-- The parts of an address come apart again. -/
theorem memoryParts?_address {sign digits register : Text} (hsign : sign = [] ∨ sign = ['-'])
    (hdigits : IsLettered digits) (hne : register ≠ []) (hregister : IsLettered register) :
    memoryParts? (address (sign ++ digits) register) = some (sign ++ digits, register) := by
  have hoffset : IsOffset (sign ++ digits) :=
    ⟨sign, digits, hsign, fun c hc => (hdigits c hc).1, rfl⟩
  refine memoryParts?_eq_some_iff.mpr ⟨hoffset, hne, fun c hc => (hregister c hc).1, ?_⟩
  exact ⟨[], [], [], [], [], by simp, address_eq_spacedAddress _ _⟩

end Operand

/-! ## Pieces that are read back -/

/-- Digits are word characters. -/
theorem Numeral.isLettered_ofNat (n : Nat) : Operand.IsLettered (Numeral.ofNat n) := by
  intro c hc
  have hdigit := isDigit_of_mem_ofNat hc
  obtain ⟨-, hgreatest⟩ := toNat_of_isDigit hdigit
  refine ⟨?_, isBlank_of_isDigit hdigit⟩
  rw [isWordChar, if_pos (by omega), Char.isAlphanum, hdigit, Bool.or_true]
  rfl

/-- Numbered registers are named by a letter and digits. -/
theorem RegisterFile.isLettered_numbered (file : RegisterFile) (n : Nat) :
    Operand.IsLettered (file.numbered n) := by
  intro c hc
  rcases List.mem_cons.mp hc with rfl | hc
  · cases file <;> decide
  · exact Numeral.isLettered_ofNat n c hc

/-- The name of a numbered register is a word. -/
theorem RegisterFile.isWord_numbered (file : RegisterFile) (n : Nat) :
    Operand.IsWord (file.numbered n) :=
  (file.isLettered_numbered n).isWord (List.cons_ne_nil _ _)

/-- Numbered registers are found by their names. -/
theorem RegisterFile.find?_numbered (file : RegisterFile) (n : Fin 32) :
    file.find? (file.numbered n) = some n.val := by
  revert n
  cases file <;> decide +kernel

/-- Numbered registers are read back. -/
theorem RegisterFile.parse_numbered (file : RegisterFile) (n : Fin 32) :
    file.parse (file.numbered n) = .ok n.val := by
  unfold RegisterFile.parse
  rw [find?_numbered]

namespace Operand

/-- An address is read as its parts are. -/
theorem parseMemory_of_parts {s offsetText register : Text} {offset : Int}
    (hparts : memoryParts? s = some (offsetText, register))
    (hoffset : parseOffset offsetText = .ok offset) (hname : Register.isName register = true) :
    parseMemory s = .ok ⟨offset, register⟩ := by
  rw [parseMemory, hparts]
  simp only [hoffset, hname]
  rfl

/-- Numbered registers are registers. -/
theorem isName_numbered (n : Fin 32) :
    Register.isName (RegisterFile.integer.numbered n) = true := by
  rw [Register.isName, RegisterFile.find?_numbered]
  rfl

/-- An address without an offset has the offset zero. -/
theorem parseMemory_bare (n : Fin 32) :
    parseMemory (address [] (RegisterFile.integer.numbered n)) =
      .ok ⟨0, RegisterFile.integer.numbered n⟩ := by
  have hparts := memoryParts?_address (.inl rfl) (List.forall_mem_nil _)
    (RegisterFile.isWord_numbered .integer n).ne_nil (RegisterFile.isLettered_numbered .integer n)
  exact parseMemory_of_parts hparts rfl (isName_numbered n)

/-- A numeral that can be read is an offset. -/
theorem parseOffset_ofInt {offset : Int} (h : Numeral.tooLong offset = false) :
    parseOffset (Numeral.ofInt offset) = .ok offset := by
  have hparse := Immediate.parse_ofInt h
  rw [parseOffset, if_neg, hparse]
  intro hshort
  simp only [Bool.or_eq_true, beq_iff_eq, Numeral.ofInt_ne_nil, false_or] at hshort
  rw [hshort] at hparse
  cases hparse

/-- An address with an offset is read back. -/
theorem parseMemory_address {offset : Int} (h : Numeral.tooLong offset = false) (n : Fin 32) :
    parseMemory (address (Numeral.ofInt offset) (RegisterFile.integer.numbered n)) =
      .ok ⟨offset, RegisterFile.integer.numbered n⟩ := by
  refine parseMemory_of_parts ?_ (parseOffset_ofInt h) (isName_numbered n)
  have hparts : ∀ sign k, sign = [] ∨ sign = ['-'] →
      memoryParts? (address (sign ++ Numeral.ofNat k) (RegisterFile.integer.numbered n)) =
        some (sign ++ Numeral.ofNat k, RegisterFile.integer.numbered n) := by
    intro sign k hsign
    exact memoryParts?_address hsign (Numeral.isLettered_ofNat k)
      (RegisterFile.isWord_numbered .integer n).ne_nil (RegisterFile.isLettered_numbered .integer n)
  cases offset with
  | ofNat k => exact hparts [] k (.inl rfl)
  | negSucc k => exact hparts ['-'] (k + 1) (.inr rfl)

end Operand

end RiscAsm

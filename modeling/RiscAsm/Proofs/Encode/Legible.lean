import RiscAsm.Proofs.Encode.Denotation
import RiscAsm.Proofs.Operand.Memory

/-!
# Operands that can be read

Whatever an instruction reads its operands as, each of them is accepted by one of the readers
(`legible_of_readOperands`), and what a reader accepts closes the parentheses that it opens
(`Legible.closed`).  So a statement with a word has no operand that is left open
(`closed_of_encodeReal`).
-/

namespace RiscAsm

namespace Operand

/-- A text without parentheses is closed. -/
theorem closed_of_not_mem {s : Text} (h : ∀ c, c = '(' ∨ c = ')' → c ∉ s) : Closed s := by
  apply nestingOf_of_forall
  intro c hc
  rw [nesting, if_neg, if_neg]
  · rintro rfl
    exact h ')' (.inr rfl) hc
  · rintro rfl
    exact h '(' (.inl rfl) hc

/-- Lowering and trimming keep parentheses. -/
theorem mem_lower_of_parenthesis {s : Text} {c : Char} (hc : c = '(' ∨ c = ')') (h : c ∈ s) :
    c ∈ lower s := by
  have hlower : lowerChar c = [c] ∧ c ≠ 'Σ' := by rcases hc with rfl | rfl <;> decide +kernel
  exact mem_lower_of_mem h hlower.2 (by simp [hlower.1])

theorem mem_trim_of_parenthesis {s : Text} {c : Char} (hc : c = '(' ∨ c = ')') (h : c ∈ s) :
    c ∈ Text.trim s :=
  Text.mem_trim h (by rcases hc with rfl | rfl <;> decide)

end Operand

namespace Encode

open Operand (Closed closed_of_not_mem mem_lower_of_parenthesis mem_trim_of_parenthesis)

/-- An operand that one of the readers accepts. -/
inductive Legible (s : Text) : Prop
  | register {file : RegisterFile} {n : Nat} (h : file.parse s = .ok n)
  | immediate {value : Int} (h : Immediate.parse s = .ok value)
  | memory {memory : Operand.Memory} (h : Operand.parseMemory s = .ok memory)
  | status {number : Int} (h : Instruction.csrNames.lookup (lower (Text.trim s)) = some number)
  | accesses {mask : Nat} (h : fenceSet s = .ok mask)
  | rounding {mode : Int} (h : Instruction.roundingModes.lookup (lower s) = some mode)

/-! ## What is legible is closed -/

/-- What is looked up in a list of names without parentheses has none. -/
theorem closed_of_lookup {β : Type} {names : List (Text × β)} {s key : Text} {value : β}
    (hnames : ∀ entry ∈ names, '(' ∉ entry.1 ∧ ')' ∉ entry.1)
    (hkey : ∀ c, c = '(' ∨ c = ')' → c ∈ s → c ∈ key) (h : names.lookup key = some value) :
    Closed s := by
  obtain ⟨hopen, hclose⟩ := hnames _ (mem_of_lookup h)
  refine closed_of_not_mem fun c hc hmem => ?_
  have hkept := hkey c hc hmem
  rcases hc with rfl | rfl
  · exact hopen hkept
  · exact hclose hkept

theorem closed_of_register {file : RegisterFile} {s : Text} {n : Nat} (h : file.parse s = .ok n) :
    Closed s := by
  have hnames : ∀ file : RegisterFile, ∀ entry ∈ file.names, '(' ∉ entry.1 ∧ ')' ∉ entry.1 := by
    intro file
    cases file <;> decide +kernel
  have hfind : file.find? s = some n := by
    unfold RegisterFile.parse at h
    split at h
    next hfind => rw [hfind, Except.ok.inj h]
    next => cases h
    next => cases h
  refine closed_of_lookup (hnames file) (fun c hc hmem => ?_) hfind
  exact mem_trim_of_parenthesis hc (mem_lower_of_parenthesis hc hmem)

theorem closed_of_parse {s : Text} {value : Int} (h : Immediate.parse s = .ok value) :
    Closed s := by
  have haccepts : Immediate.accepts s = true := by
    rw [Immediate.accepts, h]
    rfl
  exact closed_of_not_mem fun c hc => Immediate.not_mem_of_accepts haccepts hc

/-- The letters of a set of memory accesses. -/
theorem mem_of_fenceSet {s : Text} {mask : Nat} (h : fenceSet s = .ok mask) :
    ∀ c ∈ lower s, c ∈ ['i', 'o', 'r', 'w'] := by
  rw [fenceSet] at h
  generalize lower s = letters at h ⊢
  generalize (0 : Nat) = start at h
  induction letters generalizing start with
  | nil => simp
  | cons d letters ih =>
      rw [List.foldlM_cons] at h
      obtain ⟨next, hd, hrest⟩ := Result.bind_eq_ok.mp h
      refine List.forall_mem_cons.mpr ⟨?_, ih next hrest⟩
      split at hd
      next => decide
      next => decide
      next => decide
      next => decide
      next => cases hd

/-- What a reader accepts closes the parentheses that it opens. -/
theorem Legible.closed {s : Text} (h : Legible s) : Closed s := by
  cases h with
  | register h => exact closed_of_register h
  | immediate h => exact closed_of_parse h
  | memory h =>
      rw [Operand.parseMemory] at h
      split at h
      next => cases h
      next hparts => exact Operand.closed_of_memoryParts? hparts
  | status h =>
      have hnames : ∀ entry ∈ Instruction.csrNames, '(' ∉ entry.1 ∧ ')' ∉ entry.1 := by decide
      refine closed_of_lookup hnames (fun c hc hmem => ?_) h
      exact mem_lower_of_parenthesis hc (mem_trim_of_parenthesis hc hmem)
  | accesses h =>
      refine closed_of_not_mem fun c hc hmem => ?_
      have hletter := mem_of_fenceSet h c (mem_lower_of_parenthesis hc hmem)
      rcases hc with rfl | rfl <;> exact absurd hletter (by decide)
  | rounding h =>
      have hnames : ∀ entry ∈ Instruction.roundingModes, '(' ∉ entry.1 ∧ ')' ∉ entry.1 := by decide
      exact closed_of_lookup hnames (fun c hc hmem => mem_lower_of_parenthesis hc hmem) h

/-! ## What is read is legible -/

theorem legible_of_csrNumber {s : Text} {n : Int} (h : csrNumber s = .ok n) : Legible s := by
  rw [csrNumber] at h
  split at h
  next hname => exact .status hname
  next => exact .immediate h

theorem legible_of_atomicAddress {m s : Text} {n : Int} (h : atomicAddress m s = .ok n) :
    Legible s := by
  obtain ⟨memory, hmemory, -⟩ := Result.bind_eq_ok.mp h
  exact .memory hmemory

/-- The operands that are left after a rounding mode was split off are legible only if all are. -/
theorem legible_of_splitRounding {instr : Instruction} {operands : List Text} {count : Nat}
    {found : List Text × Option Int} (h : splitRounding instr operands count = .ok found)
    (hfound : ∀ s ∈ found.1, Legible s) : ∀ s ∈ operands, Legible s := by
  rw [splitRounding] at h
  split at h
  next =>
    obtain rfl := Except.ok.inj h
    exact hfound
  next hcount =>
    simp only at h
    split at h
    next mode hmode =>
      obtain rfl := Except.ok.inj h
      have hne : operands ≠ [] := by
        rintro rfl
        simp at hcount
      rw [← List.dropLast_concat_getLast hne, List.forall_mem_append]
      rw [List.getLastD_eq_getLast?, List.getLast?_eq_some_getLast hne] at hmode
      exact ⟨hfound, List.forall_mem_singleton.mpr (.rounding hmode)⟩
    next => cases h

/-- An operand that is read in its role is legible. -/
theorem legible_of_read {m s : Text} {role : Role} {v : Int × Int} (h : role.read m s = .ok v) :
    Legible s := by
  cases role with
  | register file field =>
      obtain ⟨n, hn, -⟩ := Result.bind_eq_ok.mp h
      exact .register hn
  | number | constant =>
      obtain ⟨n, hn, -⟩ := Result.bind_eq_ok.mp h
      exact .immediate hn
  | status =>
      obtain ⟨number, hnumber, -⟩ := Result.bind_eq_ok.mp h
      exact legible_of_csrNumber hnumber
  | before | after =>
      obtain ⟨mask, hmask, -⟩ := Result.bind_eq_ok.mp h
      exact .accesses hmask
  | address =>
      obtain ⟨memory, hmemory, -⟩ := Result.bind_eq_ok.mp h
      exact .memory hmemory
  | base =>
      obtain ⟨n, hn, -⟩ := Result.bind_eq_ok.mp h
      exact legible_of_atomicAddress hn

/-- Operands that are read in their roles are legible. -/
theorem legible_of_readRoles {m : Text} {roles : List Role} {operands : List Text} {f g : Fields}
    (hlength : roles.length = operands.length) (h : readRoles m roles operands f = .ok g) :
    ∀ s ∈ operands, Legible s := by
  induction roles generalizing operands f with
  | nil =>
      obtain rfl := List.length_eq_zero_iff.mp hlength.symm
      exact List.forall_mem_nil _
  | cons role roles ih =>
      obtain ⟨s, operands, rfl⟩ := List.exists_of_length_succ operands hlength.symm
      obtain ⟨v, hv, hrest⟩ := Result.bind_eq_ok.mp h
      exact List.forall_mem_cons.mpr ⟨legible_of_read hv, ih (by simpa using hlength) hrest⟩

/-- Every operand of an instruction is accepted by a reader. -/
theorem legible_of_readOperands {m : Text} {instr : Instruction} {operands : List Text}
    {f : Fields} (hs : Instruction.Sound m instr) (h : readOperands m instr operands = .ok f) :
    ∀ s ∈ operands, Legible s := by
  obtain ⟨found, roles, hsplit, hshape, hread⟩ := (readOperands_eq_ok_iff hs).mp h
  have hfound := legible_of_readRoles (Form.length_shape hshape) hread
  cases hform : formOf m instr with
  | fused | floating =>
      rw [hform] at hsplit
      exact legible_of_splitRounding hsplit hfound
  | _ =>
      rw [hform] at hsplit
      obtain rfl := Except.ok.inj hsplit
      exact hfound

/-- A statement with a word has no operand that is left open. -/
theorem closed_of_encodeReal {p : Profile} {s : Statement} {w : Nat}
    (hs : ∀ c ∈ s.mnemonic, IsLowered c) (h : encodeReal p s = .ok w) :
    ∀ t ∈ s.operands, Closed t := by
  obtain ⟨instr, d, -, hreads, -⟩ := (encodeReal_eq_ok_iff hs).mp h
  have hsound := Instruction.sound_of_mem (mem_of_lookup hreads.row)
  exact fun t ht => (legible_of_readOperands hsound hreads.operands t ht).closed

end Encode

end RiscAsm

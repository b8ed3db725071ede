import RiscAsm.Proofs.Encode.Operands
import RiscAsm.Proofs.Instruction.Pack

/-!
# Instructions by their codes

The instruction manual describes an instruction by its operation code and its function codes.  They
tell the order of the operands (`Instruction.formByCode`), what the immediate stands for
(`Instruction.useByCode`) and which immediates there is room for (`Instruction.HasRoom`).  The table
goes by names and agrees with them.  A word that carries an instruction has its fields where the
manual has them (`Instruction.Carries.laid`).
-/

namespace RiscAsm

open Encode (Form formOf shiftBits)

/-! ## The order of operands -/

namespace Instruction

/-- The forms of operands that an operation code has whatever the function codes are. -/
def codeForms : List (Int × Form) :=
  [(0x03, .load), (0x07, .load), (0x13, .immediate), (0x17, .upper), (0x1B, .immediate),
   (0x23, .store), (0x27, .store), (0x33, .registers), (0x37, .upper), (0x3B, .registers),
   (0x43, .fused), (0x47, .fused), (0x4B, .fused), (0x4F, .fused), (0x53, .floating),
   (0x63, .branch), (0x67, .jumpRegister), (0x6F, .jump)]

/-- The form of the operands of an instruction, by its codes alone. -/
def formByCode (instr : Instruction) : Form :=
  if instr.opcode = 0x0F then
    if instr.funct3 = some 0 then .fence else .none
  else if instr.opcode = 0x2F then
    if instr.funct7 = some 0b0001000 then .loadReserved else .atomic
  else if instr.opcode = 0x73 then
    if instr.funct3 = some 0 then .none else .csr (4 ≤ instr.funct3.getD 0)
  else (codeForms.lookup instr.opcode).getD .other

/-- Whether an instruction shifts by a constant, by its codes. -/
def shiftsByCode (instr : Instruction) : Bool :=
  (instr.opcode == 0x13 || instr.opcode == 0x1B) &&
    (instr.funct3 == some 0b001 || instr.funct3 == some 0b101)

/-- The width of the values that an instruction shifts under a profile. -/
def shiftedWidth (p : Profile) (instr : Instruction) : Int :=
  if instr.opcode = 0x1B ∨ p = .rv32i then 32 else 64

/-- What the immediate of the I format stands for, by the codes; the immediate itself tells the
instructions without operands apart. -/
def useByCode (m : Text) (instr : Instruction) : ImmediateUse :=
  match instr.formByCode with
  | .none =>
    if instr.opcode = 0x0F then .number else .system (if m = "ebreak".toList then 1 else 0)
  | .csr _ => .csr
  | .immediate => if instr.shiftsByCode then .shift else .number
  | _ => .number

/-- The table has the forms of operands and the uses of immediates that the codes ask for, and its
floating-point operations have two or three registers. -/
theorem table_byCode : ∀ row ∈ table, formOf row.1 row.2 = row.2.formByCode ∧
    (row.2.format = .i → ImmediateUse.of row.1 = useByCode row.1 row.2) ∧
    (row.2.formByCode = .floating → row.2.files.length = 3 ∨ row.2.files.length = 2) := by
  decide +kernel

theorem formOf_eq_formByCode {m : Text} {instr : Instruction} (h : (m, instr) ∈ table) :
    formOf m instr = instr.formByCode :=
  (table_byCode _ h).1

theorem useOf_eq_useByCode {m : Text} {instr : Instruction} (h : (m, instr) ∈ table)
    (hformat : instr.format = .i) : ImmediateUse.of m = useByCode m instr :=
  (table_byCode _ h).2.1 hformat

theorem length_files {m : Text} {instr : Instruction} (h : (m, instr) ∈ table)
    (hform : instr.formByCode = .floating) : instr.files.length = 3 ∨ instr.files.length = 2 :=
  (table_byCode _ h).2.2 hform

/-- A shift amount is below the width of what is shifted. -/
theorem span_shiftBits {m : Text} {instr : Instruction} (h : (m, instr) ∈ table)
    (hshifts : instr.shiftsByCode = true) (p : Profile) :
    (Word.span (shiftBits p m).toNat : Int) = shiftedWidth p instr := by
  have hrows : ∀ row ∈ table, row.2.shiftsByCode = true →
      (Word.span (shiftBits .auto row.1).toNat : Int) = shiftedWidth .auto row.2 ∧
      (Word.span (shiftBits .rv32i row.1).toNat : Int) = shiftedWidth .rv32i row.2 ∧
      (Word.span (shiftBits .rv64i row.1).toNat : Int) = shiftedWidth .rv64i row.2 := by
    decide +kernel
  obtain ⟨hauto, hnarrow, hwide⟩ := hrows _ h hshifts
  cases p with
  | auto => exact hauto
  | rv32i => exact hnarrow
  | rv64i => exact hwide

/-- The immediates that an instruction has room for under a profile, by the form of its operands. -/
def HasRoom (p : Profile) (instr : Instruction) (imm : Int) : Prop :=
  match instr.formByCode with
  | .load | .jumpRegister | .store => -2048 ≤ imm ∧ imm < 2048
  | .immediate =>
    if instr.shiftsByCode then 0 ≤ imm ∧ imm < shiftedWidth p instr else -2048 ≤ imm ∧ imm < 2048
  | .branch => imm % 2 = 0 ∧ -4096 ≤ imm ∧ imm < 4096
  | .upper => -524288 ≤ imm ∧ imm < 1048576
  | .jump => imm % 2 = 0 ∧ -1048576 ≤ imm ∧ imm < 1048576
  | _ => True

/-- The forms of operands with an immediate. -/
def immediateForms : List Form :=
  [.load, .jumpRegister, .immediate, .store, .branch, .upper, .jump]

/-- No instruction has room for an immediate of more than 21 bits. -/
theorem HasRoom.bounds {p : Profile} {instr : Instruction} {imm : Int}
    (h : instr.HasRoom p imm) (hform : instr.formByCode ∈ immediateForms) :
    -1048576 ≤ imm ∧ imm < 1048576 := by
  unfold HasRoom at h
  simp only [immediateForms, List.mem_cons, List.not_mem_nil, or_false] at hform
  rcases hform with hform | hform | hform | hform | hform | hform | hform
  case inr.inr.inl =>
      have hwidth : instr.shiftedWidth p ≤ 64 := by
        unfold shiftedWidth
        split <;> decide
      simp only [hform] at h
      split at h <;> omega
  all_goals
    simp only [hform] at h
    omega

/-- The fields of a word stand where the instruction manual has them, for the operand fields `f`
and a memory ordering. -/
def Laid (m : Text) (instr : Instruction) (f : Fields) (ordering w : Nat) : Prop :=
  (Word.opcode w : Int) = instr.opcode ∧
    match instr.format with
    | .r => (Word.rd w : Int) = f.rd ∧ (Word.rs1 w : Int) = f.rs1 ∧ (Word.rs2 w : Int) = f.rs2 ∧
        f.funct3.or instr.funct3 = some (Word.funct3 w : Int) ∧
        instr.funct7.map (fun code => code + (ordering : Int)) = some (Word.funct7 w : Int)
    | .r4 => (Word.rd w : Int) = f.rd ∧ (Word.rs1 w : Int) = f.rs1 ∧ (Word.rs2 w : Int) = f.rs2 ∧
        (Word.rs3 w : Int) = f.rs3 ∧ f.funct3 = some (Word.funct3 w : Int) ∧
        instr.funct7 = some (Word.precision w : Int)
    | .i => (Word.rd w : Int) = f.rd ∧ (Word.rs1 w : Int) = f.rs1 ∧
        instr.funct3 = some (Word.funct3 w : Int) ∧
        match useByCode m instr with
        | .system value => (Word.immediateField w : Int) = value
        | .shift => (Word.bits 6 20 w : Int) = f.imm ∧
            instr.funct7.map (fun code => code / 2) = some (Word.bits 6 26 w : Int)
        | .csr => (Word.immediateField w : Int) = f.imm
        | .number => Word.immediateI w = f.imm
    | .s => (Word.rs1 w : Int) = f.rs1 ∧ (Word.rs2 w : Int) = f.rs2 ∧
        instr.funct3 = some (Word.funct3 w : Int) ∧ Word.immediateS w = f.imm
    | .b => (Word.rs1 w : Int) = f.rs1 ∧ (Word.rs2 w : Int) = f.rs2 ∧
        instr.funct3 = some (Word.funct3 w : Int) ∧ Word.immediateB w = f.imm
    | .u => (Word.rd w : Int) = f.rd ∧
        (if f.imm < 0 then Word.signed 20 (Word.immediateU w) else Word.immediateU w) = f.imm
    | .j => (Word.rd w : Int) = f.rd ∧ Word.immediateJ w = f.imm
    | .unknown _ => False

/-! ## Words have the layout of the manual -/

variable {m : Text} {instr : Instruction} {f : Fields} {w ordering : Nat}

/-- The formats of the table are known. -/
theorem Sound.format_ne_unknown (hs : Sound m instr) (name : Text) :
    instr.format ≠ .unknown name := by
  intro hformat
  have hknown := hs.format
  rw [hformat] at hknown
  cases hform : formOf m instr <;> rw [hform] at hknown <;> cases hknown

/-- The form of the operands tells the format. -/
theorem format_eq {form : Form} {format : Format} (h : (m, instr) ∈ table)
    (hform : instr.formByCode = form) (hformat : form.format? = some format) :
    instr.format = format := by
  have hsame := (sound_of_mem h).format
  rw [formOf_eq_formByCode h, hform, hformat, Option.some.injEq] at hsame
  exact hsame.symm

/-- The immediates of the I format are in range when they suit what the codes make of them. -/
theorem inRange_iff_of_i {form : Form} {shiftBits imm : Int} (h : (m, instr) ∈ table)
    (hform : instr.formByCode = form) (hformat : form.format? = some .i) :
    instr.InRange m shiftBits imm ↔
      match useByCode m instr with
      | .system _ => True
      | .shift => 0 ≤ imm ∧ imm ≤ Word.span shiftBits.toNat - 1
      | .csr => 0 ≤ imm ∧ imm ≤ 4095
      | .number => -2048 ≤ imm ∧ imm ≤ 2047 := by
  have hi := format_eq h hform hformat
  have huse := useOf_eq_useByCode h hi
  cases hcode : useByCode m instr with
  | _ => simp only [InRange, hi, lower_of_mem h, huse, hcode]

/-- Fields that suit an instruction of the table come with all codes that packing uses. -/
theorem Suits.complete {shiftBits : Int} (hs : Sound m instr) (hf : Suits m instr f)
    (hlower : lower m = m) : instr.Complete m shiftBits f := by
  unfold Complete
  cases hformat : instr.format with
  | r =>
      refine ⟨?_, hs.funct7_some (.inl hformat)⟩
      rw [Option.isSome_or, Bool.or_eq_true, hf.rounds]
      exact (hs.funct3_or_rounds hformat).symm
  | r4 => exact ⟨hf.rounds.trans (hs.rounds hformat), hs.funct7_some (.inr (.inl hformat))⟩
  | i =>
      refine ⟨hs.funct3_some (.inl hformat), ?_⟩
      intro huse
      rw [hlower] at huse
      obtain ⟨code, hcode⟩ := Option.isSome_iff_exists.mp (hs.funct7_some (.inr (.inr huse)))
      exact ⟨code, hcode, fun _ => (hs.funct7_fits code hcode).2.2.2 huse⟩
  | s => exact hs.funct3_some (.inr (.inl hformat))
  | b => exact hs.funct3_some (.inr (.inr hformat))
  | u => trivial
  | j => trivial
  | unknown name => exact absurd hformat (hs.format_ne_unknown name)

/-- An upper immediate that was kept in 20 bits is known again by its sign. -/
theorem signed_immediateU {imm : Int} (hkept : (Word.immediateU w : Int) = imm % 1048576)
    (hleast : -524288 ≤ imm) (hlt : imm < 1048576) :
    (if imm < 0 then Word.signed 20 (Word.immediateU w) else Word.immediateU w) = imm := by
  have hhalf : Word.span (20 - 1) = 524288 := rfl
  have hwhole : Word.span 20 = 1048576 := rfl
  by_cases hneg : imm < 0
  · rw [if_pos hneg, Word.signed, if_neg (by omega)]
    omega
  · rw [if_neg hneg]
    omega

/-- A word shows the code that its instruction has. -/
theorem Matches.funct3_eq (h : Matches m instr w) (hsome : instr.funct3.isSome = true) :
    instr.funct3 = some (Word.funct3 w : Int) := by
  obtain ⟨code, hcode⟩ := Option.isSome_iff_exists.mp hsome
  rw [hcode, h.funct3 code hcode]

/-- A word shows the part of the function code that its instruction fixes. -/
theorem Matches.pin {width shift : Nat} {value : Int} (h : Matches m instr w)
    (hp : codePin? m instr = some ⟨width, shift, value⟩) :
    (Word.bits width shift w : Int) = value :=
  h.code _ hp

/-- The function code of the R format with the memory ordering in its low bits. -/
theorem Carries.funct7_eq (hs : Sound m instr) (h : Carries w instr ⟨m, ordering, f⟩)
    (hformat : instr.format = .r) :
    instr.funct7.map (fun code => code + (ordering : Int)) = some (Word.funct7 w : Int) := by
  obtain ⟨code, hcode⟩ := Option.isSome_iff_exists.mp (hs.funct7_some (.inl hformat))
  have hordering := h.ordering
  rw [hcode, Option.map_some, Option.some.injEq]
  cases hatomic : instr.isAtomic with
  | true =>
      have hfree := (hs.funct7_fits code hcode).2.2.1 hatomic
      have hsplit : Word.funct7 w = Word.rs3 w * 4 + Word.precision w := by
        simp only [Word.rs3, Word.precision, Word.funct7, Word.bits, Word.span, Nat.pow_eq,
          Nat.reducePow]
        omega
      have hupper : (Word.rs3 w : Int) = code / 4 :=
        h.fixed.pin (by simp only [codePin?, hformat, hcode, Option.map_some, hatomic, if_true])
      simp only [hatomic, if_true] at hordering
      omega
  | false =>
      have hall : (Word.funct7 w : Int) = code :=
        h.fixed.pin (by simp only [codePin?, hformat, hcode, Option.map_some, hatomic,
          Bool.false_eq_true, if_false])
      simp only [hatomic, Bool.false_eq_true, if_false] at hordering
      omega

/-- A word of the U format keeps its immediate without the sign. -/
theorem Carries.laid_u (hs : Sound m instr) (h : Carries w instr ⟨m, ordering, f⟩)
    (hformat : instr.format = .u) (hleast : -524288 ≤ f.imm) (hlt : f.imm < 1048576) :
    instr.Laid m f ordering w := by
  have hfields : unpack m instr w = f.canonical m := h.fields
  rw [Fields.canonical, if_pos (hs.upper.mp hformat)] at hfields
  simp only [unpack, hformat, Fields.mk.injEq] at hfields
  obtain ⟨hrd, -, -, himm, -⟩ := hfields
  refine ⟨h.fixed.opcode, ?_⟩
  simp only [hformat]
  exact ⟨hrd, signed_immediateU himm hleast hlt⟩

/-- A word of the I format has its immediate as it is used. -/
theorem Carries.laid_i (hrow : (m, instr) ∈ table) (h : Carries w instr ⟨m, ordering, f⟩)
    (hformat : instr.format = .i) : instr.Laid m f ordering w := by
  have hs := sound_of_mem hrow
  have hfields : unpack m instr w = f.canonical m := h.fields
  rw [canonical_of_ne_u hs (by simp [hformat])] at hfields
  simp only [unpack, hformat] at hfields
  subst hfields
  refine ⟨h.fixed.opcode, ?_⟩
  rw [hformat]
  refine ⟨rfl, rfl, h.fixed.funct3_eq (hs.funct3_some (.inl hformat)), ?_⟩
  rw [← useOf_eq_useByCode hrow hformat]
  cases huse : ImmediateUse.of m with
  | system value => exact h.fixed.pin (by simp only [codePin?, hformat, huse])
  | shift =>
      -- the lowest bit of the function code belongs to the amount
      refine ⟨rfl, ?_⟩
      obtain ⟨code, hcode⟩ := Option.isSome_iff_exists.mp (hs.funct7_some (.inr (.inr huse)))
      have hhalf : (Word.bits 6 26 w : Int) = code / 2 :=
        h.fixed.pin (by simp only [codePin?, hformat, huse, hcode, Option.map_some])
      rw [hcode, hhalf]
      rfl
  | csr => rfl
  | number => rfl

/-- The fields of a word that carries an instruction stand where the manual has them. -/
theorem Carries.laid (hrow : (m, instr) ∈ table) (hf : Suits m instr f)
    (h : Carries w instr ⟨m, ordering, f⟩)
    (hupper : instr.format = .u → -524288 ≤ f.imm ∧ f.imm < 1048576) :
    instr.Laid m f ordering w := by
  have hs := sound_of_mem hrow
  by_cases hu : instr.format = .u
  · exact h.laid_u hs hu (hupper hu).1 (hupper hu).2
  by_cases hi : instr.format = .i
  · exact h.laid_i hrow hi
  have hfields : unpack m instr w = f.canonical m := h.fields
  refine ⟨h.fixed.opcode, ?_⟩
  rw [canonical_of_ne_u hs hu] at hfields
  simp only [unpack] at hfields
  cases hformat : instr.format with
  | u => exact absurd hformat hu
  | i => exact absurd hformat hi
  | r =>
      simp only [hformat] at hfields
      subst hfields
      refine ⟨rfl, rfl, rfl, ?_, h.funct7_eq hs hformat⟩
      cases hrounds : (formOf m instr).rounds with
      | true => rfl
      | false =>
          refine h.fixed.funct3_eq ((hs.funct3_or_rounds hformat).resolve_right ?_)
          rw [hrounds]
          exact Bool.false_ne_true
  | r4 =>
      obtain ⟨code, hcode⟩ := Option.isSome_iff_exists.mp (hs.funct7_some (.inr (.inl hformat)))
      have hprecision : (Word.precision w : Int) = code :=
        h.fixed.pin (by simp only [codePin?, hformat, hcode, Option.map_some])
      simp only [hformat, hs.rounds hformat] at hfields
      subst hfields
      exact ⟨rfl, rfl, rfl, rfl, rfl, by rw [hcode, hprecision]⟩
  | s =>
      simp only [hformat] at hfields
      subst hfields
      exact ⟨rfl, rfl, h.fixed.funct3_eq (hs.funct3_some (.inr (.inl hformat))), rfl⟩
  | b =>
      simp only [hformat] at hfields
      subst hfields
      exact ⟨rfl, rfl, h.fixed.funct3_eq (hs.funct3_some (.inr (.inr hformat))), rfl⟩
  | j =>
      simp only [hformat] at hfields
      subst hfields
      exact ⟨rfl, rfl⟩
  | unknown name => exact absurd hformat (hs.format_ne_unknown name)

end Instruction

end RiscAsm

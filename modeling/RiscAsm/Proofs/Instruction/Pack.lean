import RiscAsm.Proofs.Instruction.Decode

/-!
# Packing any description

`Instruction.pack` takes any description of an instruction and any numbers for its operands, not
only those of the table.  It succeeds exactly when the immediate is in the range of its format
(`exists_pack_iff`), and then every field of the word shows the low bits of what was given, and the
bits of the immediate come together to the given one (`shows_of_pack`).  The instructions with a
fixed immediate stand apart: they are packed without registers, whatever is given (`pack_outcome`).
-/

namespace RiscAsm

namespace Instruction

open Word (low span bits)

/-! ## What packing asks for and gives -/

/-- The codes that packing in the format of an instruction uses are given.  A shift amount of six
bits reaches into the function code, which has to leave a bit free for it. -/
def Complete (instr : Instruction) (m : Text) (shiftBits : Int) (f : Fields) : Prop :=
  match instr.format with
  | .r => (f.funct3.or instr.funct3).isSome = true ∧ instr.funct7.isSome = true
  | .r4 => f.funct3.isSome = true ∧ instr.funct7.isSome = true
  | .i => instr.funct3.isSome = true ∧ (ImmediateUse.of (lower m) = .shift →
      ∃ code, instr.funct7 = some code ∧ (shiftBits = 6 → code % 2 = 0))
  | .s | .b => instr.funct3.isSome = true
  | .u | .j => True
  | .unknown _ => False

/-- The immediates that an instruction has room for. -/
def InRange (instr : Instruction) (m : Text) (shiftBits imm : Int) : Prop :=
  match instr.format with
  | .i =>
    match ImmediateUse.of (lower m) with
    | .system _ => True
    | .shift => 0 ≤ imm ∧ imm ≤ span shiftBits.toNat - 1
    | .csr => 0 ≤ imm ∧ imm ≤ 4095
    | .number => -2048 ≤ imm ∧ imm ≤ 2047
  | .s => -2048 ≤ imm ∧ imm ≤ 2047
  | .b => imm % 2 = 0 ∧ -4096 ≤ imm ∧ imm ≤ 4094
  | .u => -524288 ≤ imm ∧ imm ≤ 1048575
  | .j => imm % 2 = 0 ∧ -1048576 ≤ imm ∧ imm ≤ 1048574
  | _ => True

/-- The fields of a word show what was given: those for registers and codes its low bits, and those
of the immediate together the immediate. -/
def Shows (instr : Instruction) (m : Text) (shiftBits : Int) (f : Fields) (w : Nat) : Prop :=
  Word.opcode w = low 7 instr.opcode ∧
    match instr.format with
    | .r => Word.rd w = low 5 f.rd ∧ Word.rs1 w = low 5 f.rs1 ∧ Word.rs2 w = low 5 f.rs2 ∧
        (f.funct3.or instr.funct3).map (low 3) = some (Word.funct3 w) ∧
        instr.funct7.map (low 7) = some (Word.funct7 w)
    | .r4 => Word.rd w = low 5 f.rd ∧ Word.rs1 w = low 5 f.rs1 ∧ Word.rs2 w = low 5 f.rs2 ∧
        Word.rs3 w = low 5 f.rs3 ∧ f.funct3.map (low 3) = some (Word.funct3 w) ∧
        instr.funct7.map (low 2) = some (Word.precision w)
    | .i => instr.funct3.map (low 3) = some (Word.funct3 w) ∧
        match ImmediateUse.of (lower m) with
        | .system value => Word.rd w = 0 ∧ Word.rs1 w = 0 ∧ Word.immediateI w = value
        | .shift => Word.rd w = low 5 f.rd ∧ Word.rs1 w = low 5 f.rs1 ∧
            (bits shiftBits.toNat 20 w : Int) = f.imm ∧
            instr.funct7.map (fun code => low 7 code / span (shiftBits.toNat - 5)) =
              some (bits (12 - shiftBits.toNat) (20 + shiftBits.toNat) w)
        | .csr => Word.rd w = low 5 f.rd ∧ Word.rs1 w = low 5 f.rs1 ∧
            (Word.immediateField w : Int) = f.imm
        | .number => Word.rd w = low 5 f.rd ∧ Word.rs1 w = low 5 f.rs1 ∧
            Word.immediateI w = f.imm
    | .s => Word.rs1 w = low 5 f.rs1 ∧ Word.rs2 w = low 5 f.rs2 ∧
        instr.funct3.map (low 3) = some (Word.funct3 w) ∧ Word.immediateS w = f.imm
    | .b => Word.rs1 w = low 5 f.rs1 ∧ Word.rs2 w = low 5 f.rs2 ∧
        instr.funct3.map (low 3) = some (Word.funct3 w) ∧ Word.immediateB w = f.imm
    | .u => Word.rd w = low 5 f.rd ∧ (Word.immediateU w : Int) = f.imm % 1048576
    | .j => Word.rd w = low 5 f.rd ∧ Word.immediateJ w = f.imm
    | .unknown _ => False

variable {m : Text} {instr : Instruction} {f : Fields} {shiftBits : Int} {w : Nat}

/-! ## When packing succeeds -/

theorem exists_needed_eq_ok {field : Option Int} :
    (∃ value, needed field = .ok value) ↔ field.isSome = true := by
  simp only [needed_eq_ok, Option.isSome_iff_exists]

/-- A word of the R format needs both function codes. -/
theorem exists_packR : (∃ w, instr.packR f = .ok w) ↔
    (f.funct3.or instr.funct3).isSome = true ∧ instr.funct7.isSome = true := by
  simp only [packR, Result.exists_bind_eq_ok, Result.pure_eq_ok, exists_eq', and_true,
    exists_and_right, exists_needed_eq_ok]

/-- A word of the R4 format needs a rounding mode and a precision. -/
theorem exists_packR4 : (∃ w, instr.packR4 f = .ok w) ↔
    f.funct3.isSome = true ∧ instr.funct7.isSome = true := by
  simp only [packR4, Result.exists_bind_eq_ok, Result.pure_eq_ok, exists_eq', and_true,
    exists_and_right, exists_needed_eq_ok]

theorem exists_packIField {rd rs1 field : Int} :
    (∃ w, instr.packIField rd rs1 field = .ok w) ↔ instr.funct3.isSome = true := by
  simp only [packIField, Result.exists_bind_eq_ok, Result.pure_eq_ok, exists_eq', and_true,
    exists_needed_eq_ok]

theorem exists_packS : (∃ w, instr.packS f = .ok w) ↔
    (-2048 ≤ f.imm ∧ f.imm ≤ 2047) ∧ instr.funct3.isSome = true := by
  have hrange : fieldRange? 12 true = some (-2048, 2047) := rfl
  simp only [packS, Result.exists_bind_eq_ok, Result.pure_eq_ok, exists_eq', and_true,
    exists_and_right, exists_needed_eq_ok, checkRange_eq_ok_iff hrange, exists_const]

theorem exists_packB : (∃ w, instr.packB f = .ok w) ↔
    (f.imm % 2 = 0 ∧ -4096 ≤ f.imm ∧ f.imm ≤ 4094) ∧ instr.funct3.isSome = true := by
  have hrange : fieldRange? 13 true = some (-4096, 4095) := rfl
  simp only [packB, Result.exists_bind_eq_ok, Result.pure_eq_ok, exists_eq', and_true,
    exists_and_right, exists_needed_eq_ok, checkRange_eq_ok_iff hrange, checkEven_eq_ok_iff,
    exists_const]
  -- the greatest offset is odd, so the one below it is the greatest that is left
  constructor
  · rintro ⟨heven, ⟨hleast, hgreatest⟩, hcode⟩
    exact ⟨⟨heven, hleast, by omega⟩, hcode⟩
  · rintro ⟨⟨heven, hleast, hgreatest⟩, hcode⟩
    exact ⟨heven, ⟨hleast, by omega⟩, hcode⟩

/-- An upper immediate may be a negative number of 20 bits or a number without sign. -/
theorem exists_packU : (∃ w, instr.packU f = .ok w) ↔ -524288 ≤ f.imm ∧ f.imm ≤ 1048575 := by
  have hsigned : fieldRange? 20 true = some (-524288, 524287) := rfl
  have hunsigned : fieldRange? 20 false = some (0, 1048575) := rfl
  simp only [packU, Result.exists_bind_eq_ok, Result.pure_eq_ok, exists_eq', and_true]
  by_cases hneg : f.imm < 0
  · simp only [hneg, decide_true, checkRange_eq_ok_iff hsigned, exists_const]
    omega
  · simp only [hneg, decide_false, checkRange_eq_ok_iff hunsigned, exists_const]
    omega

theorem exists_packJ : (∃ w, instr.packJ f = .ok w) ↔
    f.imm % 2 = 0 ∧ -1048576 ≤ f.imm ∧ f.imm ≤ 1048574 := by
  have hrange : fieldRange? 21 true = some (-1048576, 1048575) := rfl
  simp only [packJ, Result.exists_bind_eq_ok, Result.pure_eq_ok, exists_eq', and_true,
    exists_and_right, checkRange_eq_ok_iff hrange, checkEven_eq_ok_iff, exists_const]
  constructor
  · rintro ⟨heven, hleast, hgreatest⟩
    exact ⟨heven, hleast, by omega⟩
  · rintro ⟨heven, hleast, hgreatest⟩
    exact ⟨heven, hleast, by omega⟩

/-- The I format checks its immediate for what it stands for. -/
theorem exists_packI (hformat : instr.format = .i) (hcodes : instr.Complete m shiftBits f)
    (hbits : shiftBits = 5 ∨ shiftBits = 6) :
    (∃ w, instr.packI m shiftBits f = .ok w) ↔ instr.InRange m shiftBits f.imm := by
  simp only [Complete, hformat] at hcodes
  obtain ⟨hcode3, hcode7⟩ := hcodes
  have hcsr : fieldRange? 12 false = some (0, 4095) := rfl
  cases huse : ImmediateUse.of (lower m) with
  | system value =>
      simp only [packI, InRange, hformat, huse, Word.packINumber_eq_ok_iff, exists_and_left,
        exists_packIField, hcode3, and_true, iff_true]
      exact range_of_system huse
  | shift =>
      obtain ⟨code, hcode, -⟩ := hcode7 huse
      simp only [packI, InRange, hformat, huse, Result.exists_bind_eq_ok, exists_packIField, hcode3,
        checkRange_eq_ok_iff (fieldRange?_shiftBits hbits), needed_eq_ok, hcode, Option.some.injEq,
        exists_eq', and_true, exists_const]
  | csr =>
      simp only [packI, InRange, hformat, huse, Result.exists_bind_eq_ok, exists_packIField, hcode3,
        checkRange_eq_ok_iff hcsr, and_true, exists_const]
  | number =>
      simp only [packI, InRange, hformat, huse, Word.packINumber_eq_ok_iff, exists_and_left,
        exists_packIField, hcode3, and_true]

/-- Where all codes are given, packing succeeds exactly for the immediates in range. -/
theorem exists_pack_iff (hcodes : instr.Complete m shiftBits f)
    (hbits : shiftBits = 5 ∨ shiftBits = 6) :
    (∃ w, instr.pack m shiftBits f = .ok w) ↔ instr.InRange m shiftBits f.imm := by
  cases hformat : instr.format with
  | i =>
      simp only [pack, hformat]
      exact exists_packI hformat hcodes hbits
  | r =>
      simp only [Complete, hformat] at hcodes
      simp only [pack, InRange, hformat, exists_packR, hcodes, and_self]
  | r4 =>
      simp only [Complete, hformat] at hcodes
      simp only [pack, InRange, hformat, exists_packR4, hcodes, and_self]
  | s =>
      simp only [Complete, hformat] at hcodes
      simp only [pack, InRange, hformat, exists_packS, hcodes, and_true]
  | b =>
      simp only [Complete, hformat] at hcodes
      simp only [pack, InRange, hformat, exists_packB, hcodes, and_true]
  | u => simp only [pack, InRange, hformat, exists_packU]
  | j => simp only [pack, InRange, hformat, exists_packJ]
  | unknown name => simp only [Complete, hformat] at hcodes

/-! ## What packed words show -/

/-- A field that shows the low bits of a code that is given. -/
theorem map_low {width field : Nat} {code : Option Int} {c : Int} (hcode : code = some c)
    (h : field = low width c) : code.map (low width) = some field := by
  rw [hcode, h]
  rfl

/-- What a word of the I format shows. -/
theorem shows_of_packI (hformat : instr.format = .i) (hcodes : instr.Complete m shiftBits f)
    (hbits : shiftBits = 5 ∨ shiftBits = 6) (h : instr.packI m shiftBits f = .ok w) :
    w < 4294967296 ∧ instr.Shows m shiftBits f w := by
  have hrange := (exists_packI hformat hcodes hbits).mp ⟨w, h⟩
  simp only [Complete, hformat] at hcodes
  simp only [InRange, hformat] at hrange
  simp only [Shows, hformat]
  cases huse : ImmediateUse.of (lower m) with
  | system value =>
      simp only [packI, huse] at h
      obtain ⟨hin, h⟩ := Word.packINumber_eq_ok_iff.mp h
      obtain ⟨code3, hcode3, hlt, hop, hrd, hf3, hrs1, -⟩ := Word.packIField_fields h
      have himm := Word.immediateI_packIField h hin
      exact ⟨hlt, hop, map_low hcode3 hf3, hrd, hrs1, himm⟩
  | shift =>
      simp only [packI, huse] at h hrange
      obtain ⟨_, -, h⟩ := Result.bind_eq_ok.mp h
      obtain ⟨code, hcode, h⟩ := Result.bind_eq_ok.mp h
      rw [needed_eq_ok] at hcode
      obtain ⟨code3, hcode3, hlt, hop, hrd, hf3, hrs1, hfield⟩ := Word.packIField_fields h
      have heven : shiftBits.toNat = 5 ∨ shiftBits.toNat = 6 ∧ code % 2 = 0 := by
        obtain ⟨code', hcode', heven⟩ := hcodes.2 huse
        obtain rfl : code' = code := Option.some.inj (hcode'.symm.trans hcode)
        rcases hbits with rfl | rfl
        · exact .inl rfl
        · exact .inr ⟨rfl, heven rfl⟩
      obtain ⟨hamount, habove⟩ := bits_of_shiftField heven ⟨hrange.1, by omega⟩ hfield
      refine ⟨hlt, hop, map_low hcode3 hf3, hrd, hrs1, hamount, ?_⟩
      rw [hcode, ← habove]
      rfl
  | csr =>
      simp only [packI, huse] at h hrange
      obtain ⟨_, -, h⟩ := Result.bind_eq_ok.mp h
      obtain ⟨code3, hcode3, hlt, hop, hrd, hf3, hrs1, hfield⟩ := Word.packIField_fields h
      have himm := Word.eq_of_eq_low hfield ⟨hrange.1, Int.lt_add_one_of_le hrange.2⟩
      exact ⟨hlt, hop, map_low hcode3 hf3, hrd, hrs1, himm⟩
  | number =>
      simp only [packI, huse] at h
      obtain ⟨hin, h⟩ := Word.packINumber_eq_ok_iff.mp h
      obtain ⟨code3, hcode3, hlt, hop, hrd, hf3, hrs1, -⟩ := Word.packIField_fields h
      have himm := Word.immediateI_packIField h hin
      exact ⟨hlt, hop, map_low hcode3 hf3, hrd, hrs1, himm⟩

/-- A packed word shows what was given. -/
theorem shows_of_pack (hcodes : instr.Complete m shiftBits f)
    (hbits : shiftBits = 5 ∨ shiftBits = 6) (h : instr.pack m shiftBits f = .ok w) :
    w < 4294967296 ∧ instr.Shows m shiftBits f w := by
  cases hformat : instr.format with
  | i =>
      simp only [pack, hformat] at h
      exact shows_of_packI hformat hcodes hbits h
  | r =>
      simp only [pack, hformat] at h
      obtain ⟨code3, code7, hcode3, hcode7, hlt, hop, hrd, hf3, hrs1, hrs2, hf7⟩ :=
        Word.packR_fields h
      simp only [Shows, hformat]
      exact ⟨hlt, hop, hrd, hrs1, hrs2, map_low hcode3 hf3, map_low hcode7 hf7⟩
  | r4 =>
      simp only [pack, hformat] at h
      obtain ⟨mode, code, hmode, hcode, hlt, hop, hrd, hf3, hrs1, hrs2, hprecision, hrs3⟩ :=
        Word.packR4_fields h
      simp only [Shows, hformat]
      exact ⟨hlt, hop, hrd, hrs1, hrs2, hrs3, map_low hmode hf3, map_low hcode hprecision⟩
  | s =>
      simp only [pack, hformat] at h
      obtain ⟨code3, hcode3, -, hlt, hop, hf3, hrs1, hrs2, -⟩ := Word.packS_fields h
      simp only [Shows, hformat]
      exact ⟨hlt, hop, hrs1, hrs2, map_low hcode3 hf3, Word.immediateS_packS h⟩
  | b =>
      simp only [pack, hformat] at h
      obtain ⟨code3, hcode3, -, hlt, hop, hf3, hrs1, hrs2, -⟩ := Word.packB_fields h
      simp only [Shows, hformat]
      exact ⟨hlt, hop, hrs1, hrs2, map_low hcode3 hf3, Word.immediateB_packB h⟩
  | u =>
      simp only [pack, hformat] at h
      obtain ⟨hlt, hop, hrd, himm⟩ := Word.packU_fields h
      simp only [Shows, hformat]
      refine ⟨hlt, hop, hrd, ?_⟩
      rw [himm, Word.low_eq_emod]
      rfl
  | j =>
      simp only [pack, hformat] at h
      obtain ⟨-, hlt, hop, hrd, -⟩ := Word.packJ_fields h
      simp only [Shows, hformat]
      exact ⟨hlt, hop, hrd, Word.immediateJ_packJ h⟩
  | unknown name => simp only [Complete, hformat] at hcodes

/-- **Packing is the layout of the format**: for any description of an instruction with the codes
that its format uses, and any numbers for its operands, packing gives a word of 32 bits that shows
what was given if the immediate is in the range of the format, and fails if it is not. -/
theorem pack_outcome (hcodes : instr.Complete m shiftBits f)
    (hbits : shiftBits = 5 ∨ shiftBits = 6) :
    (instr.InRange m shiftBits f.imm →
      ∃ w < 4294967296, instr.pack m shiftBits f = .ok w ∧ instr.Shows m shiftBits f w) ∧
    (¬ instr.InRange m shiftBits f.imm → ∃ fault, instr.pack m shiftBits f = .error fault) := by
  rw [← exists_pack_iff hcodes hbits]
  constructor
  · rintro ⟨w, h⟩
    obtain ⟨hlt, hshows⟩ := shows_of_pack hcodes hbits h
    exact ⟨w, hlt, h, hshows⟩
  · intro hnone
    cases h : instr.pack m shiftBits f with
    | error fault => exact ⟨fault, rfl⟩
    | ok w => exact absurd ⟨w, h⟩ hnone

/-- A description with codes that are too large for their fields, registers with numbers that are
negative or too large, and the least and the first too great offset of a branch. -/
theorem pack_outcome_branch :
    let instr : Instruction := { opcode := -29, format := .b, funct3 := some 9 }
    (∃ w < 4294967296, instr.pack "beq".toList 5 { rs1 := -1, rs2 := 35, imm := -4096 } = .ok w ∧
      (Word.opcode w = 99 ∧ Word.rs1 w = 31 ∧ Word.rs2 w = 3 ∧ some 1 = some (Word.funct3 w) ∧
        Word.immediateB w = -4096)) ∧
    ∃ fault, instr.pack "beq".toList 5 { rs1 := -1, rs2 := 35, imm := 4096 } = .error fault :=
  ⟨(pack_outcome (by simp [Complete]) (.inl rfl)).1 (by simp [InRange]),
    (pack_outcome (by simp [Complete]) (.inl rfl)).2 (by simp [InRange])⟩

/-- The instructions with a fixed immediate are packed without the register and the immediate that
are given, and a fused operation is not packed without a rounding mode, though its description has a
function code. -/
theorem pack_system_fixed :
    let system : Instruction := { opcode := 0x73, format := .i, funct3 := some 0, funct7 := some 0 }
    let fused : Instruction := { opcode := 0x43, format := .r4, funct3 := some 0, funct7 := some 0 }
    system.pack "ecall".toList 5 { rd := 5, imm := 7 } = .ok 115 ∧
      Word.rd 115 ≠ low 5 5 ∧ Word.immediateI 115 ≠ 7 ∧
      fused.pack "fmadd.s".toList 5 {} = .error .missingField := by
  decide

end Instruction

end RiscAsm

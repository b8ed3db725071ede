import RiscAsm.Proofs.Instruction.Table

/-!
# Decoding machine words

`Instruction.decode?` reads a machine word back: it looks for the row of the table whose fixed
fields the word has and takes the operand fields out of it.  A word packed from fields that suit its
instruction (`Suits`) gives these fields back (`packed_of_pack`), also when a memory ordering is
added to it (`Packed.carries`), and its row is found again (`Carries.decode?_eq`).
-/

namespace RiscAsm

/-- What an instruction line says: a mnemonic of the table, the memory ordering asked for, and the
operand fields. -/
structure Denotation where
  mnemonic : Text
  ordering : Nat
  fields : Fields
  deriving DecidableEq, Repr

/-- The fields with an upper immediate reduced to the 20 bits that a word keeps of it. -/
def Fields.canonical (m : Text) (f : Fields) : Fields :=
  if m = "lui".toList ∨ m = "auipc".toList then { f with imm := f.imm % 1048576 } else f

/-- The same instruction with an upper immediate reduced to 20 bits. -/
def Denotation.canonical (d : Denotation) : Denotation :=
  { d with fields := d.fields.canonical d.mnemonic }

/-- The fields that a format has room for; the others are left at their defaults. -/
def Fields.only (f : Fields) : Format → Fields
  | .r => { rd := f.rd, rs1 := f.rs1, rs2 := f.rs2, funct3 := f.funct3 }
  | .r4 => { rd := f.rd, rs1 := f.rs1, rs2 := f.rs2, rs3 := f.rs3, funct3 := f.funct3 }
  | .i => { rd := f.rd, rs1 := f.rs1, imm := f.imm }
  | .s | .b => { rs1 := f.rs1, rs2 := f.rs2, imm := f.imm }
  | .u | .j => { rd := f.rd, imm := f.imm }
  | .unknown _ => {}

/-- Reads the immediate of the I format out of a word. -/
def ImmediateUse.read (w : Nat) : ImmediateUse → Int
  | .system _ => 0
  | .shift => Word.bits 6 20 w
  | .csr => Word.immediateField w
  | .number => Word.immediateI w

namespace Instruction

open Encode (formOf)
open Word (Fits eq_of_eq_low)

/-- Reads the operand fields of an instruction out of a word. -/
def unpack (m : Text) (instr : Instruction) (w : Nat) : Fields :=
  let rounding : Option Int := if (formOf m instr).rounds then some (Word.funct3 w) else none
  match instr.format with
  | .r => { rd := Word.rd w, rs1 := Word.rs1 w, rs2 := Word.rs2 w, funct3 := rounding }
  | .r4 =>
    { rd := Word.rd w, rs1 := Word.rs1 w, rs2 := Word.rs2 w, rs3 := Word.rs3 w, funct3 := rounding }
  | .i => { rd := Word.rd w, rs1 := Word.rs1 w, imm := (ImmediateUse.of m).read w }
  | .s => { rs1 := Word.rs1 w, rs2 := Word.rs2 w, imm := Word.immediateS w }
  | .b => { rs1 := Word.rs1 w, rs2 := Word.rs2 w, imm := Word.immediateB w }
  | .u => { rd := Word.rd w, imm := Word.immediateU w }
  | .j => { rd := Word.rd w, imm := Word.immediateJ w }
  | .unknown _ => {}

/-- Reads a machine word: the first row of the table that it matches, and its fields. -/
def decode? (w : Nat) : Option Denotation :=
  (table.find? fun row => Matches row.1 row.2 w).map fun (m, instr) =>
    ⟨m, if instr.isAtomic then Word.precision w else 0, unpack m instr w⟩

/-! ## Fields that suit an instruction -/

/-- Fields as the operands of an instruction leave them: registers and rounding modes in range, no
field that the format has no room for, and the codes of the instruction where it has some. -/
structure Suits (m : Text) (instr : Instruction) (f : Fields) : Prop where
  only : f.only instr.format = f
  rd : Fits 5 f.rd
  rs1 : Fits 5 f.rs1
  rs2 : Fits 5 f.rs2
  rs3 : Fits 5 f.rs3
  rounds : f.funct3.isSome = (formOf m instr).rounds
  rounding : ∀ c ∈ f.funct3, Fits 3 c ∧ ∀ code ∈ instr.funct3, c = code
  source : ∀ code ∈ instr.rs2, f.rs2 = code
  system : ∀ value, ImmediateUse.of m = .system value → f = {}

variable {m : Text} {instr : Instruction} {f : Fields} {w : Nat}

/-- The function code that is packed: the rounding mode where the operands give one, and the code of
the instruction otherwise. -/
theorem Suits.code {c : Int} (hs : Sound m instr) (hf : Suits m instr f)
    (h : f.funct3.or instr.funct3 = some c) :
    Fits 3 c ∧ (∀ code ∈ instr.funct3, c = code) ∧
      (if (formOf m instr).rounds then some c else none) = f.funct3 := by
  rw [← hf.rounds]
  cases hmode : f.funct3 with
  | none =>
      rw [hmode, Option.none_or] at h
      refine ⟨hs.funct3_fits c h, ?_, rfl⟩
      intro code hcode
      exact Option.some.inj (h.symm.trans hcode)
  | some mode =>
      rw [hmode, Option.some_or, Option.some.injEq] at h
      subst h
      obtain ⟨hfits, hcode⟩ := hf.rounding mode hmode
      exact ⟨hfits, hcode, rfl⟩

/-! ## Packed words -/

/-- A word that holds the fixed fields of an instruction and the given operand fields, and leaves
room for a memory ordering in an atomic operation. -/
structure Packed (m : Text) (instr : Instruction) (f : Fields) (w : Nat) : Prop where
  lt : w < 4294967296
  fixed : Matches m instr w
  unpack : unpack m instr w = f.canonical m
  free : instr.isAtomic = true → Word.precision w = 0

/-- Only upper immediates are reduced. -/
theorem canonical_of_ne_u (hs : Sound m instr) (h : instr.format ≠ .u) : f.canonical m = f := by
  rw [Fields.canonical, if_neg]
  rwa [← hs.upper]

/-- Only floating-point operations that do not take three registers have a fixed second source. -/
theorem rs2_eq_none (hs : Sound m instr)
    (h : formOf m instr = .floating → instr.files.length = 3) : instr.rs2 = none := by
  rw [← Option.not_isSome_iff_eq_none, hs.rs2_some]
  exact fun hfixed => hfixed.2 (h hfixed.1)

/-- Outside the R format there is no fixed second source and no memory ordering. -/
theorem packed_of_ne_r (hs : Sound m instr) (hformat : instr.format ≠ .r) (hlt : w < 4294967296)
    (hop : Word.opcode w = Word.low 7 instr.opcode)
    (hfunct3 : ∀ c ∈ instr.funct3, (Word.funct3 w : Int) = c)
    (hcode : ∀ p ∈ codePin? m instr, p.Holds w)
    (hunpack : unpack m instr w = f.canonical m) : Packed m instr f w := by
  have hsource : instr.rs2 = none := by
    refine rs2_eq_none hs fun hform => absurd hs.format ?_
    rw [hform]
    exact fun hr => hformat (Option.some.inj hr).symm
  exact {
    lt := hlt
    fixed := ⟨eq_of_eq_low hop hs.opcode, hfunct3, hcode, by simp [hsource]⟩
    unpack := hunpack
    free := fun hatomic => absurd (hs.atomic hatomic).1 hformat }

/-- Packing in the R format. -/
theorem packed_of_packR (hs : Sound m instr) (hf : Suits m instr f) (hformat : instr.format = .r)
    (h : instr.packR f = .ok w) : Packed m instr f w := by
  obtain ⟨code3, code7, hor, hcode7, hlt, hop, hrd, hf3, hrs1, hrs2, hf7⟩ := Word.packR_fields h
  obtain ⟨hfits3, hcode3, hrounding⟩ := hf.code hs hor
  obtain ⟨hfits7, -, hfour, -⟩ := hs.funct7_fits code7 hcode7
  have hop' := eq_of_eq_low hop hs.opcode
  have hf3' := eq_of_eq_low hf3 hfits3
  have hrd' := eq_of_eq_low hrd hf.rd
  have hrs1' := eq_of_eq_low hrs1 hf.rs1
  have hrs2' := eq_of_eq_low hrs2 hf.rs2
  have hf7' := eq_of_eq_low hf7 hfits7
  -- the upper five bits of the function code, and the two below that an ordering may fill
  have hsplit : Word.rs3 w * 4 + Word.precision w = Word.funct7 w ∧ Word.precision w < 4 := by
    simp only [Word.rs3, Word.precision, Word.funct7, Word.bits, Word.span, Nat.pow_eq,
      Nat.reducePow]
    omega
  refine ⟨hlt, ⟨hop', fun c hc => by rw [hf3', hcode3 c hc], ?_,
    fun c hc => by rw [hrs2', hf.source c hc]⟩, ?_, ?_⟩
  · intro p hp
    simp only [codePin?, hformat, hcode7, Option.map_some, Option.mem_some_iff] at hp
    subst hp
    split
    · rename_i hatomic
      have := hfour hatomic
      show (Word.rs3 w : Int) = code7 / 4
      omega
    · exact hf7'
  · rw [canonical_of_ne_u hs (by simp [hformat]), ← hf.only, hformat]
    simp only [unpack, Fields.only, hformat, hrd', hrs1', hrs2', hf3', hrounding]
  · intro hatomic
    have := hfour hatomic
    omega

/-- Packing in the R4 format. -/
theorem packed_of_packR4 (hs : Sound m instr) (hf : Suits m instr f) (hformat : instr.format = .r4)
    (h : instr.packR4 f = .ok w) : Packed m instr f w := by
  obtain ⟨mode, code, hmode, hcode, hlt, hop, hrd, hf3, hrs1, hrs2, hprec, hrs3⟩ :=
    Word.packR4_fields h
  obtain ⟨hfits3, hcode3, hrounding⟩ := hf.code hs (c := mode) (by rw [hmode, Option.some_or])
  obtain ⟨-, hfits2, -⟩ := hs.funct7_fits code hcode
  have hf3' := eq_of_eq_low hf3 hfits3
  have hrd' := eq_of_eq_low hrd hf.rd
  have hrs1' := eq_of_eq_low hrs1 hf.rs1
  have hrs2' := eq_of_eq_low hrs2 hf.rs2
  have hrs3' := eq_of_eq_low hrs3 hf.rs3
  refine packed_of_ne_r hs (by simp [hformat]) hlt hop ?_ ?_ ?_
  · intro c hc
    rw [hf3', hcode3 c hc]
  · intro p hp
    simp only [codePin?, hformat, hcode, Option.map_some, Option.mem_some_iff] at hp
    subst hp
    exact eq_of_eq_low hprec (hfits2 hformat)
  · rw [canonical_of_ne_u hs (by simp [hformat]), ← hf.only, hformat]
    simp only [unpack, Fields.only, hformat, hrd', hrs1', hrs2', hrs3', hf3', hrounding]

/-- The function code of an instruction that has it in its words. -/
theorem funct3_eq {code3 : Int} (hs : Sound m instr) (hcode3 : instr.funct3 = some code3)
    (h : Word.funct3 w = Word.low 3 code3) : ∀ c ∈ instr.funct3, (Word.funct3 w : Int) = c := by
  intro c hc
  rw [eq_of_eq_low h (hs.funct3_fits code3 hcode3)]
  exact Option.some.inj (hcode3.symm.trans hc)

/-! ### The I format -/

/-- What an instruction has packed in the I format, whatever its immediate field holds. -/
theorem packed_of_packIField {d s field : Int} (hs : Sound m instr) (hformat : instr.format = .i)
    (hd : Fits 5 d) (hr : Fits 5 s) (h : instr.packIField d s field = .ok w)
    (hcode : ∀ p ∈ codePin? m instr, p.Holds w)
    (hfields : f = { rd := d, rs1 := s, imm := (ImmediateUse.of m).read w }) :
    Packed m instr f w := by
  obtain ⟨code3, hcode3, hlt, hop, hrd, hf3, hrs1, -⟩ := Word.packIField_fields h
  have hrd' := eq_of_eq_low hrd hd
  have hrs1' := eq_of_eq_low hrs1 hr
  refine packed_of_ne_r hs (by simp [hformat]) hlt hop (funct3_eq hs hcode3 hf3) hcode ?_
  rw [canonical_of_ne_u hs (by simp [hformat]), hfields]
  simp only [unpack, hformat, hrd', hrs1']

/-- The system instructions are the ones with a fixed immediate. -/
theorem of_eq_system {value : Int} :
    ImmediateUse.of m = .system value ↔ systemImmediates.lookup m = some value := by
  rw [ImmediateUse.of]
  cases systemImmediates.lookup m with
  | some v => simp
  | none =>
      simp only [reduceCtorEq, iff_false]
      split
      · simp
      · split <;> simp

/-- The immediate of a system instruction fits into its field. -/
theorem fits_of_system {value : Int} (h : ImmediateUse.of m = .system value) : Fits 12 value :=
  (by decide : ∀ entry ∈ systemImmediates, Fits 12 entry.2) _ (mem_of_lookup (of_eq_system.mp h))

/-- The immediate of a system instruction is in range. -/
theorem range_of_system {value : Int} (h : ImmediateUse.of m = .system value) :
    -2048 ≤ value ∧ value ≤ 2047 :=
  (by decide : ∀ entry ∈ systemImmediates, -2048 ≤ entry.2 ∧ entry.2 ≤ 2047) _
    (mem_of_lookup (of_eq_system.mp h))

/-- The low bits of the function code and the shift amount lie side by side in the immediate field,
if the code leaves a bit free for an amount of six bits. -/
theorem shiftField_eq {code amount : Int} {width : Nat}
    (hwidth : width = 5 ∨ width = 6 ∧ code % 2 = 0) (hamount : Fits width amount) :
    (shiftField code amount : Int) = Word.low 7 code * 32 + amount := by
  obtain ⟨a, rfl⟩ := Int.eq_ofNat_of_zero_le hamount.1
  have hlow := Word.low_eq_emod 7 code
  have hplace : Word.place 12 0 a = a := by
    simp only [Fits, Word.place, Word.span, Nat.pow_eq, Nat.reducePow] at hamount ⊢
    rcases hwidth with rfl | ⟨rfl, -⟩ <;> omega
  rw [shiftField, hplace, Word.place_eq]
  simp only [Fits, Word.span, Nat.pow_eq, Nat.reducePow] at hamount hlow ⊢
  rcases hwidth with rfl | ⟨rfl, heven⟩
  · have hfive : Word.low 7 code * 32 = 2 ^ 5 * Word.low 7 code := by omega
    rw [hfive, ← Nat.two_pow_add_eq_or_of_lt (by omega)]
    omega
  · have hsix : Word.low 7 code * 32 = 2 ^ 6 * (Word.low 7 code / 2) := by omega
    rw [hsix, ← Nat.two_pow_add_eq_or_of_lt (by omega)]
    omega

/-- The immediate field of a shift shows the amount and, above it, the function code. -/
theorem bits_of_shiftField {code amount : Int} {width : Nat}
    (hwidth : width = 5 ∨ width = 6 ∧ code % 2 = 0) (hamount : Fits width amount)
    (h : Word.immediateField w = Word.low 12 (shiftField code amount)) :
    (Word.bits width 20 w : Int) = amount ∧
      Word.low 7 code / Word.span (width - 5) = Word.bits (12 - width) (20 + width) w := by
  have hjoin := shiftField_eq hwidth hamount
  have hlow := Word.low_eq_emod 7 code
  have hlt := Word.low_lt 7 code
  have hfits : Fits 12 (shiftField code amount) := by
    simp only [Fits, Word.span, Nat.pow_eq, Nat.reducePow] at hamount hlow hlt ⊢
    rcases hwidth with rfl | ⟨rfl, heven⟩ <;> omega
  have hfield := eq_of_eq_low h hfits
  simp only [Fits, Word.immediateField, Word.bits, Word.span, Nat.pow_eq] at *
  rcases hwidth with rfl | ⟨rfl, heven⟩
  · simp only [Nat.reduceSub, Nat.reduceAdd, Nat.reducePow] at *
    omega
  · simp only [Nat.reduceSub, Nat.reduceAdd, Nat.reducePow] at *
    omega

/-- A shift keeps its function code beside the amount. -/
theorem packed_of_shiftField {code : Int} (hs : Sound m instr) (hf : Suits m instr f)
    (hformat : instr.format = .i) (huse : ImmediateUse.of m = .shift)
    (hcode : instr.funct7 = some code) (hamount : Fits 6 f.imm)
    (h : instr.packIField f.rd f.rs1 (shiftField code f.imm) = .ok w) : Packed m instr f w := by
  obtain ⟨hfits7, -, -, heven⟩ := hs.funct7_fits code hcode
  obtain ⟨-, -, -, -, -, -, -, hfield⟩ := Word.packIField_fields h
  obtain ⟨hlower, hupper⟩ := bits_of_shiftField (.inr ⟨rfl, heven huse⟩) hamount hfield
  refine packed_of_packIField hs hformat hf.rd hf.rs1 h ?_ ?_
  · intro p hp
    simp only [codePin?, hformat, huse, hcode, Option.map_some, Option.mem_some_iff] at hp
    subst hp
    have hall := Word.low_of_fits hfits7
    have hhalf : Word.low 7 code / 2 = Word.bits 6 26 w := hupper
    show (Word.bits 6 26 w : Int) = code / 2
    omega
  · have honly : f.only .i = f := by rw [← hformat, hf.only]
    rw [huse, ImmediateUse.read, hlower]
    exact honly.symm

/-- Packing in the I format. -/
theorem packed_of_packI {shiftBits : Int} (hs : Sound m instr) (hf : Suits m instr f)
    (hlower : lower m = m) (hbits : shiftBits = 5 ∨ shiftBits = 6) (hformat : instr.format = .i)
    (h : instr.packI m shiftBits f = .ok w) : Packed m instr f w := by
  have honly : f.only .i = f := by rw [← hformat, hf.only]
  rw [packI, hlower] at h
  split at h
  · -- a system instruction has no operands
    rename_i value huse
    obtain ⟨-, h⟩ := Word.packINumber_eq_ok_iff.mp h
    obtain ⟨-, -, -, -, -, -, -, hfield⟩ := Word.packIField_fields h
    refine packed_of_packIField hs hformat (by decide) (by decide) h ?_ ?_
    · intro p hp
      simp only [codePin?, hformat, huse, Option.mem_some_iff] at hp
      subst hp
      exact eq_of_eq_low hfield (fits_of_system huse)
    · rw [hf.system value huse, huse]
      rfl
  · -- an amount of five bits is one of six bits
    rename_i huse
    obtain ⟨_, hrange, h⟩ := Result.bind_eq_ok.mp h
    obtain ⟨code, hcode, h⟩ := Result.bind_eq_ok.mp h
    have hamount : Fits 6 f.imm := by
      simp only [Fits, Word.span, Nat.pow_eq, Nat.reducePow]
      rcases hbits with rfl | rfl
      · have hin : 0 ≤ f.imm ∧ f.imm ≤ 31 := mem_of_checkRange hrange rfl
        omega
      · have hin : 0 ≤ f.imm ∧ f.imm ≤ 63 := mem_of_checkRange hrange rfl
        omega
    exact packed_of_shiftField hs hf hformat huse (needed_eq_ok.mp hcode) hamount h
  · -- the number of a register is kept without sign
    rename_i huse
    obtain ⟨_, hrange, h⟩ := Result.bind_eq_ok.mp h
    have hin : 0 ≤ f.imm ∧ f.imm ≤ 4095 := mem_of_checkRange hrange rfl
    obtain ⟨-, -, -, -, -, -, -, hfield⟩ := Word.packIField_fields h
    have hfield' := eq_of_eq_low hfield ⟨hin.1, Int.lt_add_one_of_le hin.2⟩
    refine packed_of_packIField hs hformat hf.rd hf.rs1 h ?_ ?_
    · simp [codePin?, hformat, huse]
    · rw [huse, ImmediateUse.read, hfield']
      exact honly.symm
  · -- any other immediate is kept in two's complement
    rename_i huse
    obtain ⟨hin, h⟩ := Word.packINumber_eq_ok_iff.mp h
    have himm := Word.immediateI_packIField h hin
    refine packed_of_packIField hs hformat hf.rd hf.rs1 h ?_ ?_
    · simp [codePin?, hformat, huse]
    · rw [huse, ImmediateUse.read, himm]
      exact honly.symm

/-! ### The formats with other immediates -/

/-- Packing in the S format. -/
theorem packed_of_packS (hs : Sound m instr) (hf : Suits m instr f) (hformat : instr.format = .s)
    (h : instr.packS f = .ok w) : Packed m instr f w := by
  obtain ⟨code3, hcode3, -, hlt, hop, hf3, hrs1, hrs2, -⟩ := Word.packS_fields h
  have hrs1' := eq_of_eq_low hrs1 hf.rs1
  have hrs2' := eq_of_eq_low hrs2 hf.rs2
  refine packed_of_ne_r hs (by simp [hformat]) hlt hop (funct3_eq hs hcode3 hf3) ?_ ?_
  · simp [codePin?, hformat]
  · rw [canonical_of_ne_u hs (by simp [hformat]), ← hf.only, hformat]
    simp only [unpack, Fields.only, hformat, hrs1', hrs2', Word.immediateS_packS h]

/-- Packing in the B format. -/
theorem packed_of_packB (hs : Sound m instr) (hf : Suits m instr f) (hformat : instr.format = .b)
    (h : instr.packB f = .ok w) : Packed m instr f w := by
  obtain ⟨code3, hcode3, -, hlt, hop, hf3, hrs1, hrs2, -⟩ := Word.packB_fields h
  have hrs1' := eq_of_eq_low hrs1 hf.rs1
  have hrs2' := eq_of_eq_low hrs2 hf.rs2
  refine packed_of_ne_r hs (by simp [hformat]) hlt hop (funct3_eq hs hcode3 hf3) ?_ ?_
  · simp [codePin?, hformat]
  · rw [canonical_of_ne_u hs (by simp [hformat]), ← hf.only, hformat]
    simp only [unpack, Fields.only, hformat, hrs1', hrs2', Word.immediateB_packB h]

/-- Packing in the U format. -/
theorem packed_of_packU (hs : Sound m instr) (hf : Suits m instr f) (hformat : instr.format = .u)
    (h : instr.packU f = .ok w) : Packed m instr f w := by
  obtain ⟨hlt, hop, hrd, himm⟩ := Word.packU_fields h
  have hrd' := eq_of_eq_low hrd hf.rd
  have himm' : (Word.immediateU w : Int) = f.imm % 1048576 := by rw [himm, Word.low_eq_emod]; rfl
  refine packed_of_ne_r hs (by simp [hformat]) hlt hop ?_ ?_ ?_
  · simp [hs.funct3_none (.inr (.inl hformat))]
  · simp [codePin?, hformat]
  · rw [Fields.canonical, if_pos (hs.upper.mp hformat), ← hf.only, hformat]
    simp only [unpack, Fields.only, hformat, hrd', himm']

/-- Packing in the J format. -/
theorem packed_of_packJ (hs : Sound m instr) (hf : Suits m instr f) (hformat : instr.format = .j)
    (h : instr.packJ f = .ok w) : Packed m instr f w := by
  obtain ⟨-, hlt, hop, hrd, -⟩ := Word.packJ_fields h
  have hrd' := eq_of_eq_low hrd hf.rd
  refine packed_of_ne_r hs (by simp [hformat]) hlt hop ?_ ?_ ?_
  · simp [hs.funct3_none (.inr (.inr hformat))]
  · simp [codePin?, hformat]
  · rw [canonical_of_ne_u hs (by simp [hformat]), ← hf.only, hformat]
    simp only [unpack, Fields.only, hformat, hrd', Word.immediateJ_packJ h]

/-! ### All formats -/

/-- Packing keeps the fixed fields and the operand fields of an instruction. -/
theorem packed_of_pack {shiftBits : Int} (hs : Sound m instr) (hf : Suits m instr f)
    (hlower : lower m = m) (hbits : shiftBits = 5 ∨ shiftBits = 6)
    (h : instr.pack m shiftBits f = .ok w) : Packed m instr f w := by
  rw [pack] at h
  split at h
  case h_1 hformat => exact packed_of_packR hs hf hformat h
  case h_2 hformat => exact packed_of_packR4 hs hf hformat h
  case h_3 hformat => exact packed_of_packI hs hf hlower hbits hformat h
  case h_4 hformat => exact packed_of_packS hs hf hformat h
  case h_5 hformat => exact packed_of_packB hs hf hformat h
  case h_6 hformat => exact packed_of_packU hs hf hformat h
  case h_7 hformat => exact packed_of_packJ hs hf hformat h
  case h_8 => simp at h

/-! ## Reading words back -/

/-- A word holds an instruction with the given description: the fixed fields, the operand fields and
the memory ordering can all be read off it. -/
structure Carries (w : Nat) (instr : Instruction) (d : Denotation) : Prop where
  lt : w < 4294967296
  fixed : Matches d.mnemonic instr w
  fields : unpack d.mnemonic instr w = d.fields.canonical d.mnemonic
  ordering : (if instr.isAtomic then Word.precision w else 0) = d.ordering

/-- A memory ordering fills the two bits that an atomic operation leaves free. -/
theorem Packed.carries_of_atomic {ordering : Nat} (hs : Sound m instr) (h : Packed m instr f w)
    (hatomic : instr.isAtomic = true) (hlt : ordering < 4) :
    Carries (w ||| ordering <<< 25) instr ⟨m, ordering, f⟩ := by
  obtain ⟨hformat, hrounds⟩ := hs.atomic hatomic
  have hfree := h.free hatomic
  have hw := h.lt
  obtain ⟨hop, hf3, hcode, hrs2⟩ := h.fixed
  generalize hW : w ||| ordering <<< 25 = W
  rw [Word.or_shiftLeft_of_bits hfree hlt] at hW
  -- the other fields of the word stay as they are
  have hsame : W < 4294967296 ∧ Word.precision W = ordering ∧ Word.opcode W = Word.opcode w ∧
      Word.rd W = Word.rd w ∧ Word.funct3 W = Word.funct3 w ∧ Word.rs1 W = Word.rs1 w ∧
      Word.rs2 W = Word.rs2 w ∧ Word.rs3 W = Word.rs3 w := by
    simp only [Word.precision, Word.opcode, Word.rd, Word.funct3, Word.rs1, Word.rs2, Word.rs3,
      Word.bits, Word.span, Nat.pow_eq, Nat.reducePow] at hfree hW ⊢
    omega
  obtain ⟨hlt', hprec, hop', hrd', hf3', hrs1', hrs2', hrs3'⟩ := hsame
  refine ⟨hlt', ⟨by rwa [hop'], by rwa [hf3'], ?_, by rwa [hrs2']⟩, ?_,
    by rw [if_pos hatomic, hprec]⟩
  · intro p hp
    have hbefore := hcode p hp
    simp only [codePin?, hformat, hatomic, if_true, Option.mem_def, Option.map_eq_some_iff] at hp
    obtain ⟨c, -, rfl⟩ := hp
    exact (congrArg Nat.cast hrs3').trans hbefore
  · rw [← h.unpack]
    simp only [Instruction.unpack, hformat, hrounds, hrd', hrs1', hrs2', Bool.false_eq_true,
      if_false]

/-- A packed word with a memory ordering holds the instruction it was packed from. -/
theorem Packed.carries {ordering : Nat} (hs : Sound m instr) (h : Packed m instr f w)
    (hordering : ordering = 0 ∨ ordering < 4 ∧ instr.isAtomic = true) :
    Carries (w ||| ordering <<< 25) instr ⟨m, ordering, f⟩ := by
  by_cases hatomic : instr.isAtomic = true
  · exact h.carries_of_atomic hs hatomic (by omega)
  · obtain rfl : ordering = 0 := hordering.resolve_right fun hand => hatomic hand.2
    rw [Nat.zero_shiftLeft, Nat.or_zero]
    exact ⟨h.lt, h.fixed, h.unpack, if_neg hatomic⟩

/-- A word that holds an instruction of the table is read back as that instruction. -/
theorem Carries.decode?_eq {d : Denotation} (h : Carries w instr d)
    (hmem : (d.mnemonic, instr) ∈ table) : decode? w = some d.canonical := by
  rw [decode?]
  cases hfind : table.find? fun row => Matches row.1 row.2 w with
  | none =>
      rw [List.find?_eq_none] at hfind
      exact absurd (decide_eq_true h.fixed) (hfind (d.mnemonic, instr) hmem)
  | some row =>
      have hrow : Matches row.1 row.2 w := by
        simpa using List.find?_some hfind
      obtain rfl := eq_of_matches (List.mem_of_find?_eq_some hfind) hmem hrow h.fixed
      simp only [Option.map_some, h.fields, h.ordering, Denotation.canonical]

end Instruction

end RiscAsm

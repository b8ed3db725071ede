import RiscAsm.Instruction.Table

/-!
# Machine words

A machine word is a natural number below `2 ^ 32`, put together from bit fields.  `pack` lays the
operand fields of an instruction out in the format of the instruction; the readers in the section
on fields take a word apart again.
-/

namespace RiscAsm

/-! ## Fields of a word -/

namespace Word

/-- How many numbers `width` bits can hold. -/
def span (width : Nat) : Nat := Nat.pow 2 width

/-- The low `width` bits of `value`, moved `shift` places up. -/
def place (width shift : Nat) (value : Int) : Nat := (value % span width).toNat * span shift

/-- Bits for a word: the low `width` bits of a value, from place `shift` on. -/
structure Slot where
  width : Nat
  shift : Nat
  value : Int

/-- The word with all given bits set. -/
def join (slots : List Slot) : Nat :=
  slots.foldl (fun word slot => word ||| place slot.width slot.shift slot.value) 0

/-- The bits of a value that a mask of up to 32 bits keeps. -/
def masked (mask : Nat) (value : Int) : Nat := (value % span 32).toNat &&& mask

/-- The `width` bits of a word from place `shift` on. -/
def bits (width shift word : Nat) : Nat := word / span shift % span width

/-- Reads `width` bits as a number in two's complement. -/
def signed (width n : Nat) : Int := if n < span (width - 1) then n else n - span width

/-- The operation code. -/
def opcode (word : Nat) : Nat := bits 7 0 word

/-- The destination register. -/
def rd (word : Nat) : Nat := bits 5 7 word

/-- The 3-bit function code. -/
def funct3 (word : Nat) : Nat := bits 3 12 word

/-- The first source register. -/
def rs1 (word : Nat) : Nat := bits 5 15 word

/-- The second source register. -/
def rs2 (word : Nat) : Nat := bits 5 20 word

/-- The 7-bit function code. -/
def funct7 (word : Nat) : Nat := bits 7 25 word

/-- The precision of a fused operation. -/
def precision (word : Nat) : Nat := bits 2 25 word

/-- The third source register. -/
def rs3 (word : Nat) : Nat := bits 5 27 word

/-- The 12-bit immediate of the I format, without sign. -/
def immediateField (word : Nat) : Nat := bits 12 20 word

/-- The immediate of the I format. -/
def immediateI (word : Nat) : Int := signed 12 (immediateField word)

/-- The immediate of the S format. -/
def immediateS (word : Nat) : Int := signed 12 (bits 5 7 word + bits 7 25 word * 32)

/-- The offset of the B format. -/
def immediateB (word : Nat) : Int :=
  signed 13 (bits 4 8 word * 2 + bits 6 25 word * 32 + bits 1 7 word * 2048 +
    bits 1 31 word * 4096)

/-- The immediate of the U format, without sign. -/
def immediateU (word : Nat) : Nat := bits 20 12 word

/-- The offset of the J format. -/
def immediateJ (word : Nat) : Int :=
  signed 21 (bits 10 21 word * 2 + bits 1 20 word * 2048 + bits 8 12 word * 4096 +
    bits 1 31 word * 1048576)

end Word

/-! ## Ranges of immediates -/

/-- The least and the greatest value of a field of `bits` bits, if there is such a field. -/
def fieldRange? (bits : Int) (isSigned : Bool) : Option (Int × Int) :=
  match if isSigned then bits - 1 else bits with
  | .ofNat e =>
    let top : Int := ((1 <<< e : Nat) : Int)
    some (if isSigned then -top else 0, top - 1)
  | .negSucc _ => none

/-- Checks that a value fits into a field of `bits` bits. -/
def checkRange (field : Text) (bits : Int) (isSigned : Bool) (value : Int) : Except Fault Unit :=
  match fieldRange? bits isSigned with
  | none => .error .negativeShift
  | some (least, greatest) =>
    if least ≤ value ∧ value ≤ greatest then .ok ()
    else .error (.mentioning [value, least, greatest, bits]
      (.outOfRange field value least greatest bits))

/-! ## Packing -/

/-- The fields that operands are read into. -/
structure Fields where
  rd : Int := 0
  rs1 : Int := 0
  rs2 : Int := 0
  imm : Int := 0
  rs3 : Int := 0
  /-- A rounding mode, in place of the function code of the instruction. -/
  funct3 : Option Int := none
  deriving DecidableEq, Repr

/-- A field that the format cannot do without. -/
def needed (field : Option Int) : Except Fault Int :=
  match field with
  | some value => .ok value
  | none => .error .missingField

/-- What the immediate of the I format stands for. -/
inductive ImmediateUse where
  /-- A fixed value, with no registers. -/
  | system (value : Int)
  /-- A shift amount below the function code. -/
  | shift
  /-- The number of a control and status register. -/
  | csr
  /-- A number in two's complement. -/
  | number
  deriving DecidableEq, Repr

/-- What the immediate of a mnemonic, given in lower case, stands for. -/
def ImmediateUse.of (mnemonic : Text) : ImmediateUse :=
  match Instruction.systemImmediates.lookup mnemonic with
  | some value => .system value
  | none =>
    if Instruction.constantShifts.contains mnemonic then .shift
    else if Instruction.csrRegisterAccesses.contains mnemonic ||
        Instruction.csrConstantAccesses.contains mnemonic then .csr
    else .number

namespace Instruction

open Word

/-- Packs the R format. -/
def packR (instr : Instruction) (f : Fields) : Except Fault Nat := do
  let funct3 ← needed (f.funct3.or instr.funct3)
  let funct7 ← needed instr.funct7
  return join [⟨7, 0, instr.opcode⟩, ⟨5, 7, f.rd⟩, ⟨3, 12, funct3⟩, ⟨5, 15, f.rs1⟩,
    ⟨5, 20, f.rs2⟩, ⟨7, 25, funct7⟩]

/-- Packs the R4 format. -/
def packR4 (instr : Instruction) (f : Fields) : Except Fault Nat := do
  let rounding ← needed f.funct3
  let precision ← needed instr.funct7
  return join [⟨7, 0, instr.opcode⟩, ⟨5, 7, f.rd⟩, ⟨3, 12, rounding⟩, ⟨5, 15, f.rs1⟩,
    ⟨5, 20, f.rs2⟩, ⟨2, 25, precision⟩, ⟨5, 27, f.rs3⟩]

/-- Packs the I format with a given content of its immediate field. -/
def packIField (instr : Instruction) (rd rs1 field : Int) : Except Fault Nat := do
  let funct3 ← needed instr.funct3
  return join [⟨7, 0, instr.opcode⟩, ⟨5, 7, rd⟩, ⟨3, 12, funct3⟩, ⟨5, 15, rs1⟩, ⟨12, 20, field⟩]

/-- The immediate field of a shift: the amount, beneath the function code. -/
def shiftField (funct7 amount : Int) : Nat := place 7 5 funct7 ||| place 12 0 amount

/-- Packs the I format with a number in two's complement in its immediate field. -/
def packINumber (instr : Instruction) (rd rs1 imm : Int) : Except Fault Nat := do
  checkRange "I-type immediate".toList 12 true imm
  packIField instr rd rs1 (masked 0xFFF imm)

/-- Packs the I format. -/
def packI (instr : Instruction) (mnemonic : Text) (shiftBits : Int) (f : Fields) :
    Except Fault Nat :=
  match ImmediateUse.of (lower mnemonic) with
  | .system value => packINumber instr 0 0 value
  | .shift => do
    checkRange "shift amount".toList shiftBits false f.imm
    let funct7 ← needed instr.funct7
    packIField instr f.rd f.rs1 (shiftField funct7 f.imm)
  | .csr => do
    checkRange "CSR address".toList 12 false f.imm
    packIField instr f.rd f.rs1 f.imm
  | .number => packINumber instr f.rd f.rs1 f.imm

/-- Packs the S format. -/
def packS (instr : Instruction) (f : Fields) : Except Fault Nat := do
  checkRange "S-type immediate".toList 12 true f.imm
  let imm := masked 0xFFF f.imm
  let funct3 ← needed instr.funct3
  return join [⟨7, 0, instr.opcode⟩, ⟨5, 7, imm⟩, ⟨3, 12, funct3⟩, ⟨5, 15, f.rs1⟩,
    ⟨5, 20, f.rs2⟩, ⟨7, 25, imm >>> 5⟩]

/-- Checks that an offset is even. -/
def checkEven (use : OffsetUse) (offset : Int) : Except Fault Unit :=
  if offset % 2 = 0 then .ok () else .error (.mentioning [offset] (.oddOffset use offset))

/-- Packs the B format, whose offset bits are scattered. -/
def packB (instr : Instruction) (f : Fields) : Except Fault Nat := do
  checkEven .branch f.imm
  checkRange "B-type offset".toList 13 true f.imm
  let imm := masked 0x1FFE f.imm
  let funct3 ← needed instr.funct3
  return join [⟨7, 0, instr.opcode⟩, ⟨1, 7, imm >>> 11⟩, ⟨4, 8, imm >>> 1⟩, ⟨3, 12, funct3⟩,
    ⟨5, 15, f.rs1⟩, ⟨5, 20, f.rs2⟩, ⟨6, 25, imm >>> 5⟩, ⟨1, 31, imm >>> 12⟩]

/-- Packs the U format, whose immediate may be written with or without sign. -/
def packU (instr : Instruction) (f : Fields) : Except Fault Nat := do
  checkRange "U-type immediate".toList 20 (f.imm < 0) f.imm
  let imm : Int := if f.imm < 0 then masked 0xFFFFF f.imm else f.imm
  return join [⟨7, 0, instr.opcode⟩, ⟨5, 7, f.rd⟩, ⟨20, 12, imm⟩]

/-- Packs the J format, whose offset bits are scattered. -/
def packJ (instr : Instruction) (f : Fields) : Except Fault Nat := do
  checkEven .jump f.imm
  checkRange "J-type offset".toList 21 true f.imm
  let imm := masked 0x1FFFFF f.imm
  return join [⟨7, 0, instr.opcode⟩, ⟨5, 7, f.rd⟩, ⟨8, 12, imm >>> 12⟩, ⟨1, 20, imm >>> 11⟩,
    ⟨10, 21, imm >>> 1⟩, ⟨1, 31, imm >>> 20⟩]

/-- Packs operand fields into the machine word of an instruction. -/
def pack (instr : Instruction) (mnemonic : Text) (shiftBits : Int) (f : Fields) :
    Except Fault Nat :=
  match instr.format with
  | .r => instr.packR f
  | .r4 => instr.packR4 f
  | .i => instr.packI mnemonic shiftBits f
  | .s => instr.packS f
  | .b => instr.packB f
  | .u => instr.packU f
  | .j => instr.packJ f
  | .unknown name => .error (.unknownFormat name)

end Instruction

end RiscAsm

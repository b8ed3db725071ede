import RiscAsm.Register

/-!
# Instructions

An `Instruction` describes how one mnemonic is encoded: its format, its operation and function
codes, the instruction set it belongs to, and which register file each operand is taken from.
-/

namespace RiscAsm

/-- The layouts of a machine word. -/
inductive Format where
  /-- Register operands only. -/
  | r
  /-- A 12-bit immediate. -/
  | i
  /-- A store, whose 12-bit offset is divided. -/
  | s
  /-- A branch with a 13-bit even offset. -/
  | b
  /-- A 20-bit upper immediate. -/
  | u
  /-- A jump with a 21-bit even offset. -/
  | j
  /-- Three source registers. -/
  | r4
  /-- A layout that is not known, by its name. -/
  | unknown (name : Text)
  deriving DecidableEq, Repr

/-- The description of one instruction. -/
structure Instruction where
  /-- The operation code. -/
  opcode : Int
  format : Format
  /-- The 3-bit function code; in floating-point arithmetic its place may be free for a rounding
  mode instead. -/
  funct3 : Option Int := none
  /-- The 7-bit function code, or the 2-bit precision of a fused operation. -/
  funct7 : Option Int := none
  /-- The instruction set that the instruction belongs to. -/
  isa : Isa := .rv32i
  /-- The fixed second source of floating-point operations that have one source operand. -/
  rs2 : Option Int := none
  /-- The register file of each operand; operands past the end are integer registers. -/
  files : List RegisterFile := []
  deriving DecidableEq, Repr

namespace Instruction

/-- The operation code that all atomic memory operations share. -/
def atomicOpcode : Int := 0x2F

/-- Whether an instruction is an atomic memory operation. -/
def isAtomic (instr : Instruction) : Bool := instr.opcode == atomicOpcode

/-- The register file of the operand at a position. -/
def fileOf (instr : Instruction) (position : Nat) : RegisterFile :=
  instr.files.getD position .integer

/-- The register file of the operand at a position, where a negative position counts from the end
of the listed operands and must not go past their start. -/
def fileAt? (instr : Instruction) : Int → Option RegisterFile
  | .ofNat position => some (instr.fileOf position)
  | .negSucc n => instr.files.reverse[n]?

end Instruction

end RiscAsm

import RiscAsm.Instruction.Basic

/-!
# The instruction table

`Instruction.table` lists every supported mnemonic with its description: the base sets RV32I and
RV64I with the extensions M, A, F, D, Zicsr and Zifencei.  `Instruction.find?` looks a mnemonic up
in any case.
-/

namespace RiscAsm

namespace Instruction

/-- A row of the instruction table. -/
abbrev Row := Text × Instruction

/-! ## Integer instructions -/

/-- A row for an operation on registers. -/
def registerRow (name : String) (opcode funct3 funct7 : Int) (isa : Isa) : Row :=
  (name.toList, { opcode, format := .r, funct3 := some funct3, funct7 := some funct7, isa })

/-- A row for an operation with a 12-bit immediate. -/
def immediateRow (name : String) (opcode funct3 : Int) (isa : Isa) : Row :=
  (name.toList, { opcode, format := .i, funct3 := some funct3, isa })

/-- A row for a shift by a constant, whose function code fills the upper immediate bits. -/
def shiftRow (name : String) (opcode funct3 funct7 : Int) (isa : Isa) : Row :=
  (name.toList, { opcode, format := .i, funct3 := some funct3, funct7 := some funct7, isa })

/-- A row for a store of an integer register. -/
def storeRow (name : String) (funct3 : Int) (isa : Isa) : Row :=
  (name.toList, { opcode := 0x23, format := .s, funct3 := some funct3, isa })

/-- A row for a conditional branch. -/
def branchRow (name : String) (funct3 : Int) : Row :=
  (name.toList, { opcode := 0x63, format := .b, funct3 := some funct3 })

/-- The base instructions for 32-bit registers. -/
def baseTable : List Row :=
  [registerRow "add" 0x33 0b000 0x00 .rv32i,
   registerRow "sub" 0x33 0b000 0x20 .rv32i,
   registerRow "sll" 0x33 0b001 0x00 .rv32i,
   registerRow "slt" 0x33 0b010 0x00 .rv32i,
   registerRow "sltu" 0x33 0b011 0x00 .rv32i,
   registerRow "xor" 0x33 0b100 0x00 .rv32i,
   registerRow "srl" 0x33 0b101 0x00 .rv32i,
   registerRow "sra" 0x33 0b101 0x20 .rv32i,
   registerRow "or" 0x33 0b110 0x00 .rv32i,
   registerRow "and" 0x33 0b111 0x00 .rv32i,
   immediateRow "addi" 0x13 0b000 .rv32i,
   immediateRow "slti" 0x13 0b010 .rv32i,
   immediateRow "sltiu" 0x13 0b011 .rv32i,
   immediateRow "xori" 0x13 0b100 .rv32i,
   immediateRow "ori" 0x13 0b110 .rv32i,
   immediateRow "andi" 0x13 0b111 .rv32i,
   shiftRow "slli" 0x13 0b001 0x00 .rv32i,
   shiftRow "srli" 0x13 0b101 0x00 .rv32i,
   shiftRow "srai" 0x13 0b101 0x20 .rv32i,
   immediateRow "lb" 0x03 0b000 .rv32i,
   immediateRow "lh" 0x03 0b001 .rv32i,
   immediateRow "lw" 0x03 0b010 .rv32i,
   immediateRow "lbu" 0x03 0b100 .rv32i,
   immediateRow "lhu" 0x03 0b101 .rv32i,
   storeRow "sb" 0b000 .rv32i,
   storeRow "sh" 0b001 .rv32i,
   storeRow "sw" 0b010 .rv32i,
   branchRow "beq" 0b000,
   branchRow "bne" 0b001,
   branchRow "blt" 0b100,
   branchRow "bge" 0b101,
   branchRow "bltu" 0b110,
   branchRow "bgeu" 0b111,
   ("jal".toList, { opcode := 0x6F, format := .j }),
   immediateRow "jalr" 0x67 0b000 .rv32i,
   ("lui".toList, { opcode := 0x37, format := .u }),
   ("auipc".toList, { opcode := 0x17, format := .u }),
   immediateRow "ecall" 0x73 0b000 .rv32i,
   immediateRow "ebreak" 0x73 0b000 .rv32i,
   immediateRow "fence" 0x0F 0b000 .rv32i,
   immediateRow "fence.i" 0x0F 0b001 .zifencei,
   immediateRow "csrrw" 0x73 0b001 .zicsr,
   immediateRow "csrrs" 0x73 0b010 .zicsr,
   immediateRow "csrrc" 0x73 0b011 .zicsr,
   immediateRow "csrrwi" 0x73 0b101 .zicsr,
   immediateRow "csrrsi" 0x73 0b110 .zicsr,
   immediateRow "csrrci" 0x73 0b111 .zicsr]

/-- Multiplication and division on 32-bit registers. -/
def multiplyTable : List Row :=
  [registerRow "mul" 0x33 0b000 0x01 .rv32m,
   registerRow "mulh" 0x33 0b001 0x01 .rv32m,
   registerRow "mulhsu" 0x33 0b010 0x01 .rv32m,
   registerRow "mulhu" 0x33 0b011 0x01 .rv32m,
   registerRow "div" 0x33 0b100 0x01 .rv32m,
   registerRow "divu" 0x33 0b101 0x01 .rv32m,
   registerRow "rem" 0x33 0b110 0x01 .rv32m,
   registerRow "remu" 0x33 0b111 0x01 .rv32m]

/-- What 64-bit registers add to the base and to multiplication. -/
def wideTable : List Row :=
  [immediateRow "lwu" 0x03 0b110 .rv64i,
   immediateRow "ld" 0x03 0b011 .rv64i,
   storeRow "sd" 0b011 .rv64i,
   immediateRow "addiw" 0x1B 0b000 .rv64i,
   shiftRow "slliw" 0x1B 0b001 0x00 .rv64i,
   shiftRow "srliw" 0x1B 0b101 0x00 .rv64i,
   shiftRow "sraiw" 0x1B 0b101 0x20 .rv64i,
   registerRow "addw" 0x3B 0b000 0x00 .rv64i,
   registerRow "subw" 0x3B 0b000 0x20 .rv64i,
   registerRow "sllw" 0x3B 0b001 0x00 .rv64i,
   registerRow "srlw" 0x3B 0b101 0x00 .rv64i,
   registerRow "sraw" 0x3B 0b101 0x20 .rv64i,
   registerRow "mulw" 0x3B 0b000 0x01 .rv64m,
   registerRow "divw" 0x3B 0b100 0x01 .rv64m,
   registerRow "divuw" 0x3B 0b101 0x01 .rv64m,
   registerRow "remw" 0x3B 0b110 0x01 .rv64m,
   registerRow "remuw" 0x3B 0b111 0x01 .rv64m]

/-! ## Atomic memory operations -/

/-- The two rows of an atomic operation, on words and on doublewords.  The two lowest bits of the
function code stay free for the memory ordering. -/
def atomicRows (name : String) (funct5 : Int) : List Row :=
  [(name.toList ++ ".w".toList,
      { opcode := atomicOpcode, format := .r, funct3 := some 0b010, funct7 := some (funct5 * 4),
        isa := .rv32a }),
   (name.toList ++ ".d".toList,
      { opcode := atomicOpcode, format := .r, funct3 := some 0b011, funct7 := some (funct5 * 4),
        isa := .rv64a })]

/-- The atomic memory operations. -/
def atomicTable : List Row :=
  [atomicRows "lr" 0b00010, atomicRows "sc" 0b00011, atomicRows "amoswap" 0b00001,
   atomicRows "amoadd" 0b00000, atomicRows "amoxor" 0b00100, atomicRows "amoand" 0b01100,
   atomicRows "amoor" 0b01000, atomicRows "amomin" 0b10000, atomicRows "amomax" 0b10100,
   atomicRows "amominu" 0b11000, atomicRows "amomaxu" 0b11100].flatten

/-! ## Floating-point instructions -/

/-- The two precisions of floating-point numbers. -/
inductive Precision where
  | single | double
  deriving DecidableEq, Repr

namespace Precision

/-- The letter of a precision in mnemonics. -/
def letter : Precision → Text
  | single => ['s']
  | double => ['d']

/-- The code of a precision in machine words. -/
def code : Precision → Int
  | single => 0b00
  | double => 0b01

/-- The extension that holds the operations of a precision. -/
def isa : Precision → Isa
  | single => .rv32f
  | double => .rv32d

/-- The extension that holds the operations of a precision on 64-bit integers. -/
def wideIsa : Precision → Isa
  | single => .rv64f
  | double => .rv64d

end Precision

/-- A floating-point operation on registers.  Without a `funct3` its place holds a rounding mode;
with an `rs2` there is one source operand only. -/
def floating (p : Precision) (funct5 : Int) (funct3 rs2 : Option Int) (files : List RegisterFile)
    (isa : Isa) : Instruction :=
  { opcode := 0x53, format := .r, funct3, funct7 := some (funct5 * 4 + p.code), isa, rs2, files }

/-- A fused multiplication and addition. -/
def fused (p : Precision) (opcode : Int) : Instruction :=
  { opcode, format := .r4, funct7 := some p.code, isa := p.isa,
    files := [.float, .float, .float, .float] }

/-- A load into a floating-point register. -/
def floatLoad (p : Precision) (funct3 : Int) : Instruction :=
  { opcode := 0x07, format := .i, funct3 := some funct3, isa := p.isa, files := [.float] }

/-- A store of a floating-point register. -/
def floatStore (p : Precision) (funct3 : Int) : Instruction :=
  { opcode := 0x27, format := .s, funct3 := some funct3, isa := p.isa, files := [.float] }

/-- The operations that both precisions have. -/
def floatTable (p : Precision) : List Row :=
  let ending (name : String) : Text := name.toList ++ '.' :: p.letter
  let toFloat (source : String) : Text := "fcvt.".toList ++ p.letter ++ '.' :: source.toList
  let threeFloats := [RegisterFile.float, .float, .float]
  let comparison := [RegisterFile.integer, .float, .float]
  let toInteger := [RegisterFile.integer, .float]
  let fromInteger := [RegisterFile.float, .integer]
  [(ending "fmadd", fused p 0x43),
   (ending "fmsub", fused p 0x47),
   (ending "fnmsub", fused p 0x4B),
   (ending "fnmadd", fused p 0x4F),
   (ending "fadd", floating p 0b00000 none none threeFloats p.isa),
   (ending "fsub", floating p 0b00001 none none threeFloats p.isa),
   (ending "fmul", floating p 0b00010 none none threeFloats p.isa),
   (ending "fdiv", floating p 0b00011 none none threeFloats p.isa),
   (ending "fsqrt", floating p 0b01011 none (some 0) [.float, .float] p.isa),
   (ending "fsgnj", floating p 0b00100 (some 0b000) none threeFloats p.isa),
   (ending "fsgnjn", floating p 0b00100 (some 0b001) none threeFloats p.isa),
   (ending "fsgnjx", floating p 0b00100 (some 0b010) none threeFloats p.isa),
   (ending "fmin", floating p 0b00101 (some 0b000) none threeFloats p.isa),
   (ending "fmax", floating p 0b00101 (some 0b001) none threeFloats p.isa),
   (ending "feq", floating p 0b10100 (some 0b010) none comparison p.isa),
   (ending "flt", floating p 0b10100 (some 0b001) none comparison p.isa),
   (ending "fle", floating p 0b10100 (some 0b000) none comparison p.isa),
   (ending "fcvt.w", floating p 0b11000 none (some 0) toInteger p.isa),
   (ending "fcvt.wu", floating p 0b11000 none (some 1) toInteger p.isa),
   (toFloat "w", floating p 0b11010 none (some 0) fromInteger p.isa),
   (toFloat "wu", floating p 0b11010 none (some 1) fromInteger p.isa),
   (ending "fclass", floating p 0b11100 (some 0b001) (some 0) toInteger p.isa),
   (ending "fcvt.l", floating p 0b11000 none (some 2) toInteger p.wideIsa),
   (ending "fcvt.lu", floating p 0b11000 none (some 3) toInteger p.wideIsa),
   (toFloat "l", floating p 0b11010 none (some 2) fromInteger p.wideIsa),
   (toFloat "lu", floating p 0b11010 none (some 3) fromInteger p.wideIsa)]

/-- The floating-point operations of one precision only. -/
def floatTransferTable : List Row :=
  [("flw".toList, floatLoad .single 0b010),
   ("fsw".toList, floatStore .single 0b010),
   ("fmv.x.w".toList, floating .single 0b11100 (some 0b000) (some 0) [.integer, .float] .rv32f),
   ("fmv.w.x".toList, floating .single 0b11110 (some 0b000) (some 0) [.float, .integer] .rv32f),
   ("fld".toList, floatLoad .double 0b011),
   ("fsd".toList, floatStore .double 0b011),
   ("fcvt.s.d".toList, floating .single 0b01000 none (some 1) [.float, .float] .rv32d),
   ("fcvt.d.s".toList, floating .double 0b01000 none (some 0) [.float, .float] .rv32d),
   ("fmv.x.d".toList, floating .double 0b11100 (some 0b000) (some 0) [.integer, .float] .rv64d),
   ("fmv.d.x".toList, floating .double 0b11110 (some 0b000) (some 0) [.float, .integer] .rv64d)]

/-! ## The whole table -/

/-- Every supported mnemonic with its description. -/
def table : List Row :=
  baseTable ++ multiplyTable ++ wideTable ++ floatTable .single ++ floatTable .double ++
    floatTransferTable ++ atomicTable

/-- The description of a mnemonic, given in any case. -/
def find? (mnemonic : Text) : Option Instruction := table.lookup (lower mnemonic)

/-! ## Mnemonics that share a treatment -/

/-- Loads, which take a memory operand. -/
def loads : List Text :=
  ["lb", "lh", "lw", "lbu", "lhu", "lwu", "ld", "flw", "fld"].map String.toList

/-- Shifts by a constant. -/
def constantShifts : List Text :=
  ["slli", "srli", "srai", "slliw", "srliw", "sraiw"].map String.toList

/-- Accesses to control and status registers with a register as source. -/
def csrRegisterAccesses : List Text := ["csrrw", "csrrs", "csrrc"].map String.toList

/-- Accesses to control and status registers with a constant as source. -/
def csrConstantAccesses : List Text := ["csrrwi", "csrrsi", "csrrci"].map String.toList

/-- The fixed immediates of the system instructions. -/
def systemImmediates : List (Text × Int) := [("ecall".toList, 0x000), ("ebreak".toList, 0x001)]

/-- The control and status registers that have names. -/
def csrNames : List (Text × Int) :=
  [("fflags".toList, 0x001), ("frm".toList, 0x002), ("fcsr".toList, 0x003),
   ("cycle".toList, 0xC00), ("time".toList, 0xC01), ("instret".toList, 0xC02),
   ("mstatus".toList, 0x300), ("misa".toList, 0x301), ("mie".toList, 0x304),
   ("mtvec".toList, 0x305), ("mscratch".toList, 0x340), ("mepc".toList, 0x341),
   ("mcause".toList, 0x342), ("mtval".toList, 0x343), ("mip".toList, 0x344),
   ("mhartid".toList, 0xF14)]

/-- The rounding modes of floating-point arithmetic. -/
def roundingModes : List (Text × Int) :=
  [("rne".toList, 0b000), ("rtz".toList, 0b001), ("rdn".toList, 0b010), ("rup".toList, 0b011),
   ("rmm".toList, 0b100), ("dyn".toList, 0b111)]

/-- The rounding mode that is meant when none is written: the one set while the program runs. -/
def dynamicRounding : Int := 0b111

/-- The endings that ask an atomic operation for a memory ordering, longest first. -/
def orderings : List (Text × Nat) :=
  [(".aqrl".toList, 0b11), (".aq".toList, 0b10), (".rl".toList, 0b01)]

end Instruction

end RiscAsm

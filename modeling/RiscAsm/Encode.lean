import RiscAsm.Instruction.Word
import RiscAsm.Pseudo

/-!
# Encoding one instruction

`encodeWord` takes an instruction line, with all labels already replaced by numbers, to its machine
word: it expands pseudo-instructions, takes off a memory ordering, looks the mnemonic up, checks it
against the profile, reads the operands in the form the instruction asks for, and packs them.
-/

namespace RiscAsm

namespace Encode

/-! ## Operand forms -/

/-- The forms of operand lists. -/
inductive Form where
  | none
  | fence
  | csr (constant : Bool)
  | loadReserved
  | atomic
  | fused
  | floating
  | registers
  | load
  | jumpRegister
  | immediate
  | store
  | branch
  | upper
  | jump
  | other
  deriving DecidableEq, Repr

/-- The form of the operands of an instruction of the I format that has no special treatment. -/
def immediateForm (mnemonic : Text) : Form :=
  if Instruction.loads.contains mnemonic then .load
  else if mnemonic = "jalr".toList then .jumpRegister
  else .immediate

/-- The form of the operands of an instruction. -/
def formOf (mnemonic : Text) (instr : Instruction) : Form :=
  if (Instruction.systemImmediates.lookup mnemonic).isSome || mnemonic == "fence.i".toList then
    .none
  else if mnemonic == "fence".toList then .fence
  else if Instruction.csrRegisterAccesses.contains mnemonic then .csr false
  else if Instruction.csrConstantAccesses.contains mnemonic then .csr true
  else if instr.isAtomic then
    if "lr.".toList.isPrefixOf mnemonic then .loadReserved else .atomic
  else match instr.format with
    | .r4 => .fused
    | .r => if instr.files.isEmpty then .registers else .floating
    | .i => immediateForm mnemonic
    | .s => .store
    | .b => .branch
    | .u => .upper
    | .j => .jump
    | .unknown _ => .other

/-! ## Reading operands -/

/-- The bits of a set of memory accesses, written with the letters `i`, `o`, `r` and `w`. -/
def fenceSet (text : Text) : Except Fault Nat :=
  (lower text).foldlM (fun mask c =>
    match c with
    | 'i' => .ok (mask ||| 8)
    | 'o' => .ok (mask ||| 4)
    | 'r' => .ok (mask ||| 2)
    | 'w' => .ok (mask ||| 1)
    | _ => .error (.fenceSet text)) 0

/-- The number of a control and status register, by its name or written as a number. -/
def csrNumber (text : Text) : Except Fault Int :=
  match Instruction.csrNames.lookup (lower (Text.trim text)) with
  | some number => .ok number
  | none => Immediate.parse text

/-- Takes a rounding mode off the operands where the instruction leaves room for one. -/
def splitRounding (instr : Instruction) (operands : List Text) (count : Nat) :
    Except Fault (List Text × Option Int) :=
  if instr.funct3.isSome || operands.length != count + 1 then .ok (operands, instr.funct3)
  else
    let written := operands.getLastD []
    match Instruction.roundingModes.lookup (lower written) with
    | some mode => .ok (operands.dropLast, some mode)
    | none => .error (.roundingMode written)

/-- Reads the operand at a position as a register of the file that the instruction asks for. -/
def registerAt (instr : Instruction) (position : Nat) (name : Text) : Except Fault Int := do
  let n ← (instr.fileOf position).parse name
  return n

/-- Reads an integer register. -/
def integerRegister (name : Text) : Except Fault Int := do
  let n ← RegisterFile.integer.parse name
  return n

/-- Reads the address operand of an atomic operation, which has no offset. -/
def atomicAddress (mnemonic address : Text) : Except Fault Int := do
  let memory ← Operand.parseMemory address
  if memory.offset ≠ 0 then
    throw (.mentioning [memory.offset] (.addressOffset mnemonic memory.offset))
  integerRegister memory.register

/-- Reads the operands of an instruction into fields. -/
def readOperands (mnemonic : Text) (instr : Instruction) (operands : List Text) :
    Except Fault Fields :=
  let wrongCount (expected : Nat) (shape : String) (got : List Text) : Except Fault Fields :=
    .error (.operandCount mnemonic expected shape.toList got.length)
  match formOf mnemonic instr with
  | .none =>
    match operands with
    | [] => .ok {}
    | _ => wrongCount 0 "none" operands
  | .fence =>
    match operands with
    | [] => .ok { imm := 0xFF }
    | [before, after] => do
      let predecessors ← fenceSet before
      let successors ← fenceSet after
      return { imm := (predecessors <<< 4 ||| successors : Nat) }
    | _ => wrongCount 2 "pred, succ" operands
  | .csr constant =>
    match operands with
    | [destination, number, source] => do
      let rd ← integerRegister destination
      let imm ← csrNumber number
      if constant then
        let rs1 ← Immediate.parse source
        checkRange "CSR immediate".toList 5 false rs1
        return { rd, rs1, imm }
      else
        let rs1 ← integerRegister source
        return { rd, rs1, imm }
    | _ => wrongCount 3 "rd, csr, source" operands
  | .loadReserved =>
    match operands with
    | [destination, address] => do
      let rd ← integerRegister destination
      let rs1 ← atomicAddress mnemonic address
      return { rd, rs1 }
    | _ => wrongCount 2 "rd, (rs1)" operands
  | .atomic =>
    match operands with
    | [destination, source, address] => do
      let rd ← integerRegister destination
      let rs2 ← integerRegister source
      let rs1 ← atomicAddress mnemonic address
      return { rd, rs1, rs2 }
    | _ => wrongCount 3 "rd, rs2, (rs1)" operands
  | .fused => do
    let (operands, rounding) ← splitRounding instr operands 4
    match operands with
    | [destination, first, second, third] => do
      let rd ← registerAt instr 0 destination
      let rs1 ← registerAt instr 1 first
      let rs2 ← registerAt instr 2 second
      let rs3 ← registerAt instr 3 third
      return { rd, rs1, rs2, rs3, funct3 := some (rounding.getD Instruction.dynamicRounding) }
    | _ => wrongCount 4 "rd, rs1, rs2, rs3" operands
  | .floating => do
    let count := instr.files.length
    let (operands, rounding) ← splitRounding instr operands count
    let funct3 := some (rounding.getD Instruction.dynamicRounding)
    if count = 3 then
      match operands with
      | [destination, first, second] => do
        let rd ← registerAt instr 0 destination
        let rs1 ← registerAt instr 1 first
        let rs2 ← registerAt instr 2 second
        return { rd, rs1, rs2, funct3 }
      | _ => wrongCount count "rd, rs1, rs2" operands
    else
      match operands with
      | [destination, source] => do
        let rd ← registerAt instr 0 destination
        let rs1 ← registerAt instr 1 source
        let rs2 ← needed instr.rs2
        return { rd, rs1, rs2, funct3 }
      | _ => wrongCount count "rd, rs1" operands
  | .registers =>
    match operands with
    | [destination, first, second] => do
      let rd ← integerRegister destination
      let rs1 ← integerRegister first
      let rs2 ← integerRegister second
      return { rd, rs1, rs2 }
    | _ => wrongCount 3 "rd, rs1, rs2" operands
  | .load =>
    match operands with
    | [destination, address] => do
      let rd ← registerAt instr 0 destination
      let memory ← Operand.parseMemory address
      let rs1 ← integerRegister memory.register
      return { rd, rs1, imm := memory.offset }
    | _ => wrongCount 2 "rd, offset(rs1)" operands
  | .jumpRegister =>
    match operands with
    | [destination, address] => do
      let rd ← integerRegister destination
      let memory ← Operand.parseMemory address
      let rs1 ← integerRegister memory.register
      return { rd, rs1, imm := memory.offset }
    | [destination, base, offset] => do
      let rd ← integerRegister destination
      let rs1 ← integerRegister base
      let imm ← Immediate.parse offset
      return { rd, rs1, imm }
    | _ => wrongCount 3 "rd, rs1, imm" operands
  | .immediate =>
    match operands with
    | [destination, source, number] => do
      let rd ← integerRegister destination
      let rs1 ← integerRegister source
      let imm ← Immediate.parse number
      return { rd, rs1, imm }
    | _ => wrongCount 3 "rd, rs1, imm" operands
  | .store =>
    match operands with
    | [source, address] => do
      let rs2 ← registerAt instr 0 source
      let memory ← Operand.parseMemory address
      let rs1 ← integerRegister memory.register
      return { rs1, rs2, imm := memory.offset }
    | _ => wrongCount 2 "rs2, offset(rs1)" operands
  | .branch =>
    match operands with
    | [first, second, target] => do
      let rs1 ← integerRegister first
      let rs2 ← integerRegister second
      let imm ← Immediate.parse target
      return { rs1, rs2, imm }
    | _ => wrongCount 3 "rs1, rs2, offset" operands
  | .upper =>
    match operands with
    | [destination, number] => do
      let rd ← integerRegister destination
      let imm ← Immediate.parse number
      return { rd, imm }
    | _ => wrongCount 2 "rd, imm" operands
  | .jump =>
    match operands with
    | [destination, target] => do
      let rd ← integerRegister destination
      let imm ← Immediate.parse target
      return { rd, imm }
    | _ => wrongCount 2 "rd, offset" operands
  | .other => .ok {}

/-! ## Encoding -/

/-- Takes a memory ordering off the mnemonic of an atomic operation. -/
def splitOrdering (mnemonic : Text) : Text × Nat :=
  let found := Instruction.orderings.findSome? fun (ending, ordering) => do
    let base ← Text.dropEnding? ending mnemonic
    let instr ← Instruction.find? base
    if instr.isAtomic then some (base, ordering) else Option.none
  found.getD (mnemonic, 0)

/-- The number of bits of a shift amount. -/
def shiftBits (profile : Profile) (mnemonic : Text) : Int :=
  if mnemonic.getLast? == some 'w' || profile == .rv32i then 5 else 6

/-- Encodes a real instruction. -/
def encodeReal (profile : Profile) (s : Statement) : Except Fault Nat := do
  let (mnemonic, ordering) := splitOrdering s.mnemonic
  match Instruction.find? mnemonic with
  | none => throw (.unknownMnemonic mnemonic)
  | some instr =>
    if !profile.admits instr.isa then
      throw (.profileMismatch instr.isa mnemonic profile)
    let fields ← readOperands mnemonic instr s.operands
    let word ← instr.pack mnemonic (shiftBits profile mnemonic) fields
    return word ||| ordering <<< 25

/-- Encodes an instruction line into its machine word. -/
def encodeWord (profile : Profile) (text : Text) : Except Fault Nat := do
  let statement ← Statement.parse text
  let realStatement ← Pseudo.real statement
  encodeReal profile realStatement

/-! ## Places that take labels -/

/-- The numbers of operands with which the last operand of a mnemonic is a place in the program. -/
def labelCounts (mnemonic : Text) : List Nat :=
  match Pseudo.jumps.lookup (lower mnemonic) with
  | some count => [count]
  | none =>
    match (Instruction.find? mnemonic).map Instruction.format with
    | some .b => [3]
    | some .j => [1, 2]
    | _ => []

/-- Whether some form of a mnemonic ends with a place in the program. -/
def mayTakeLabel (mnemonic : Text) : Bool := !(labelCounts mnemonic).isEmpty

/-- Whether the last of `count` operands of a mnemonic is a place in the program. -/
def takesLabel (mnemonic : Text) (count : Int) : Bool :=
  (labelCounts mnemonic).any fun n => (n : Int) == count

end Encode

end RiscAsm

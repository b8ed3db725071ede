import RiscAsm.Isa
import RiscAsm.Numeral

/-!
# Faults of a single instruction

A `Fault` is a reason why one instruction line, or a part of it, has no meaning.  `Fault.reason`
gives the wording and `Fault.family` says what sort of failure it is.
-/

namespace RiscAsm

/-- The sorts of faults. -/
inductive FaultFamily where
  /-- The text does not have the expected shape. -/
  | parse
  /-- The instruction is well formed but has no encoding. -/
  | encoding
  /-- A single value is not acceptable. -/
  | value
  /-- The instruction's description lacks a field that its format needs. -/
  | missing
  deriving DecidableEq, Repr

/-- The two formats whose immediate is an even offset from a place in the program. -/
inductive OffsetUse where
  | branch | jump
  deriving DecidableEq, Repr

/-- Why an instruction, or a part of it, has no meaning. -/
inductive Fault where
  | emptyImmediate
  | invalidImmediate (text : Text)
  | memoryShape (text : Text)
  | memoryRegister (name : Text)
  | emptyInstruction
  | unknownPseudo (mnemonic : Text)
  | pseudoArity (name : Text) (expected got : Nat)
  | wideLoadImmediate (value : Int)
  | unknownRegister (name : Text)
  | unknownFloatRegister (name : Text)
  | registerNumber (number : Int)
  | numeralTooLong
  | negativeShift
  | outOfRange (field : Text) (value least greatest bits : Int)
  | oddOffset (use : OffsetUse) (value : Int)
  | unknownFormat (name : Text)
  | missingField
  | fenceSet (text : Text)
  | operandCount (mnemonic : Text) (expected : Nat) (shape : Text) (got : Nat)
  | roundingMode (text : Text)
  | unknownMnemonic (mnemonic : Text)
  | profileMismatch (isa : Isa) (mnemonic : Text) (profile : Profile)
  | addressOffset (mnemonic : Text) (offset : Int)
  deriving DecidableEq, Repr

namespace Fault

/-- The sort of a fault. -/
def family : Fault → FaultFamily
  | wideLoadImmediate _ | outOfRange .. | oddOffset .. | unknownFormat _ | unknownMnemonic _
  | profileMismatch .. => .encoding
  | unknownRegister _ | unknownFloatRegister _ | registerNumber _ | numeralTooLong
  | negativeShift => .value
  | missingField => .missing
  | _ => .parse

/-- The wording of a fault. -/
def reason : Fault → Text
  | emptyImmediate => "Empty immediate value".toList
  | invalidImmediate text => "Invalid immediate value: ".toList ++ text
  | memoryShape text => "Invalid memory operand syntax: ".toList ++ text
  | memoryRegister name => "Invalid register in memory operand: ".toList ++ name
  | emptyInstruction => "Empty instruction".toList
  | unknownPseudo mnemonic => "Unknown pseudo-instruction: ".toList ++ mnemonic
  | pseudoArity name expected got =>
    let upperName := name.map Char.toUpper
    match expected with
    | 0 => upperName ++ " takes no operands, got ".toList ++ Numeral.ofNat got
    | 1 => upperName ++ " requires 1 operand, got ".toList ++ Numeral.ofNat got
    | n => upperName ++ " requires ".toList ++ Numeral.ofNat n ++ " operands, got ".toList ++
        Numeral.ofNat got
  | wideLoadImmediate value =>
    "LI immediate ".toList ++ Numeral.ofInt value ++
      " does not fit in 12 bits; use lui and addi".toList
  | unknownRegister name => "Invalid register name: ".toList ++ name
  | unknownFloatRegister name => "Invalid floating-point register name: ".toList ++ name
  | registerNumber number => "Invalid register number: ".toList ++ Numeral.ofInt number
  | numeralTooLong => Numeral.tooLongMessage
  | negativeShift => "negative shift count".toList
  | outOfRange field value least greatest bits =>
    field ++ " value ".toList ++ Numeral.ofInt value ++ " out of range [".toList ++
      Numeral.ofInt least ++ ", ".toList ++ Numeral.ofInt greatest ++ "] for ".toList ++
      Numeral.ofInt bits ++ "-bit field".toList
  | oddOffset .branch value =>
    "B-type branch offset must be even, got ".toList ++ Numeral.ofInt value
  | oddOffset .jump value => "J-type jump offset must be even, got ".toList ++ Numeral.ofInt value
  | unknownFormat name => "Unknown instruction format: ".toList ++ name
  | missingField => "Missing instruction field".toList
  | fenceSet text => "Invalid fence ordering set: ".toList ++ text
  | operandCount mnemonic expected shape got =>
    mnemonic ++ " requires ".toList ++ Numeral.ofNat expected ++ " operands (".toList ++ shape ++
      "), got ".toList ++ Numeral.ofNat got
  | roundingMode text => "Invalid rounding mode: ".toList ++ text
  | unknownMnemonic mnemonic => "Invalid mnemonic: ".toList ++ mnemonic
  | profileMismatch isa mnemonic profile =>
    "Detected ".toList ++ isa.name ++ " instruction '".toList ++ mnemonic ++
      "' incompatible with configuration ISA: ".toList ++ profile.name
  | addressOffset mnemonic offset =>
    mnemonic ++ " takes no address offset, got ".toList ++ Numeral.ofInt offset

/-- The fault `f`, unless one of the numbers it mentions is too long to be written. -/
def mentioning (numbers : List Int) (f : Fault) : Fault :=
  if numbers.any Numeral.tooLong then numeralTooLong else f

end Fault

end RiscAsm

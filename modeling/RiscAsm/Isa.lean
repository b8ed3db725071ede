import RiscAsm.Text.UpperCase

/-!
# Instruction sets and profiles

Every instruction belongs to a base instruction set or an extension of it.  A `Profile` says which
of them a program may use: the order `rv32i`, `rv64i` is one of inclusion, and `auto` admits all.
-/

namespace RiscAsm

/-- A base instruction set, or an extension with the register width it is defined for. -/
inductive Isa where
  | rv32i | rv32m | rv32a | rv32f | rv32d
  | rv64i | rv64m | rv64a | rv64f | rv64d
  | zicsr | zifencei
  deriving DecidableEq, Repr

namespace Isa

/-- The usual name of an instruction set. -/
def name : Isa → Text
  | rv32i => "RV32I".toList
  | rv32m => "RV32M".toList
  | rv32a => "RV32A".toList
  | rv32f => "RV32F".toList
  | rv32d => "RV32D".toList
  | rv64i => "RV64I".toList
  | rv64m => "RV64M".toList
  | rv64a => "RV64A".toList
  | rv64f => "RV64F".toList
  | rv64d => "RV64D".toList
  | zicsr => "Zicsr".toList
  | zifencei => "Zifencei".toList

/-- The least register width an instruction set exists for, if it depends on one. -/
def xlen? : Isa → Option Nat
  | rv32i | rv32m | rv32a | rv32f | rv32d => some 32
  | rv64i | rv64m | rv64a | rv64f | rv64d => some 64
  | zicsr | zifencei => none

end Isa

/-- What instructions are checked against. -/
inductive Profile where
  | auto | rv32i | rv64i
  deriving DecidableEq, Repr

namespace Profile

/-- All profiles, in the order they are listed to users. -/
def all : List Profile := [auto, rv32i, rv64i]

/-- The name of a profile. -/
def name : Profile → Text
  | auto => "AUTO".toList
  | rv32i => "RV32I".toList
  | rv64i => "RV64I".toList

/-- The register width of a profile. -/
def xlen : Profile → Nat
  | rv32i => 32
  | auto | rv64i => 64

/-- Whether a profile admits the instructions of an instruction set. -/
def admits (p : Profile) (isa : Isa) : Bool :=
  p == auto || isa.xlen?.all (· ≤ p.xlen)

/-- Finds a profile by its name in any case. -/
def ofName? (s : Text) : Option Profile :=
  let wanted := upperAscii s
  all.find? fun p => p.name == wanted

/-- The names of all profiles, as they are listed in messages. -/
def choices : Text := Text.joinComma (all.map name)

end Profile

end RiscAsm

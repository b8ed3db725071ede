import RiscAsm.Fault
import RiscAsm.Text.LowerCase

/-!
# Registers

The integer registers are written `x0` to `x31` or by their roles (`zero`, `ra`, `sp`, and so on,
with `fp` as a second name of `s0`); the floating-point registers are written `f0` to `f31` or by
their roles.  Names are read in any case.
-/

namespace RiscAsm

/-- The two files of registers. -/
inductive RegisterFile where
  | integer | float
  deriving DecidableEq, Repr

namespace RegisterFile

/-- The letter that numbered names of a file start with. -/
def letter : RegisterFile → Char
  | integer => 'x'
  | float => 'f'

/-- The numbered name of a register. -/
def numbered (file : RegisterFile) (n : Nat) : Text := file.letter :: Numeral.ofNat n

/-- The numbered names of a file with their numbers. -/
def numberedNames (file : RegisterFile) : List (Text × Nat) :=
  (List.range 32).map fun n => (file.numbered n, n)

/-- The roles of the integer registers, in the order of their numbers. -/
def integerRoles : List Text :=
  ["zero", "ra", "sp", "gp", "tp", "t0", "t1", "t2",
   "s0", "s1", "a0", "a1", "a2", "a3", "a4", "a5",
   "a6", "a7", "s2", "s3", "s4", "s5", "s6", "s7",
   "s8", "s9", "s10", "s11", "t3", "t4", "t5", "t6"].map String.toList

/-- The roles of the floating-point registers, in the order of their numbers. -/
def floatRoles : List Text :=
  ["ft0", "ft1", "ft2", "ft3", "ft4", "ft5", "ft6", "ft7",
   "fs0", "fs1", "fa0", "fa1", "fa2", "fa3", "fa4", "fa5",
   "fa6", "fa7", "fs2", "fs3", "fs4", "fs5", "fs6", "fs7",
   "fs8", "fs9", "fs10", "fs11", "ft8", "ft9", "ft10", "ft11"].map String.toList

/-- All names of the integer registers with their numbers. -/
def integerNames : List (Text × Nat) :=
  numberedNames integer ++ integerRoles.zipIdx ++ [("fp".toList, 8)]

/-- All names of the floating-point registers with their numbers. -/
def floatNames : List (Text × Nat) := numberedNames float ++ floatRoles.zipIdx

/-- All names of a file with the numbers they stand for. -/
def names : RegisterFile → List (Text × Nat)
  | integer => integerNames
  | float => floatNames

/-- The number of the register with the given name. -/
def find? (file : RegisterFile) (name : Text) : Option Nat :=
  file.names.lookup (Text.trim (lower name))

/-- Reads a register name of a file. -/
def parse (file : RegisterFile) (name : Text) : Except Fault Nat :=
  match file.find? name, file with
  | some n, _ => .ok n
  | none, integer => .error (.unknownRegister name)
  | none, float => .error (.unknownFloatRegister name)

end RegisterFile

namespace Register

/-- Whether a text names an integer register. -/
def isName (name : Text) : Bool := (RegisterFile.integer.find? name).isSome

/-- The name of an integer register, by its role or numbered. -/
def nameOf (number : Int) (byRole : Bool) : Except Fault Text :=
  match number with
  | .ofNat n =>
    match RegisterFile.integerRoles[n]? with
    | some role => .ok (if byRole then role else RegisterFile.integer.numbered n)
    | none => .error (.mentioning [number] (.registerNumber number))
  | .negSucc _ => .error (.mentioning [number] (.registerNumber number))

end Register

end RiscAsm

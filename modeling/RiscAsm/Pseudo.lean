import RiscAsm.Operand

/-!
# Pseudo-instructions

A pseudo-instruction stands for exactly one real instruction, so expanding it never moves what
follows.  Most are templates, whose slots are filled by the operands; `li` chooses its immediate.
One-operand jumps have a short form that implies the link register.
-/

namespace RiscAsm

namespace Pseudo

/-- An operand of a template: a fixed text, or the operand with the given number. -/
inductive Slot where
  | fixed (content : Text)
  | operand (number : Nat)
  deriving DecidableEq, Repr

/-- How a pseudo-instruction is expanded. -/
inductive Expansion where
  /-- The mnemonic that takes its place, the number of operands it takes, and the new operands. -/
  | template (mnemonic : Text) (arity : Nat) (slots : List Slot)
  /-- The load of a 12-bit constant. -/
  | loadImmediate
  deriving DecidableEq, Repr

/-- The first operand. -/
def first : Slot := .operand 0

/-- The second operand. -/
def second : Slot := .operand 1

/-- A fixed operand. -/
def text (s : String) : Slot := .fixed s.toList

/-- A row for a template. -/
def row (name mnemonic : String) (arity : Nat) (slots : List Slot) : Text × Expansion :=
  (name.toList, .template mnemonic.toList arity slots)

/-- All pseudo-instructions. -/
def table : List (Text × Expansion) :=
  [("li".toList, .loadImmediate),
   row "nop" "addi" 0 [text "x0", text "x0", text "0"],
   row "ret" "jalr" 0 [text "x0", text "ra", text "0"],
   row "mv" "addi" 2 [first, second, text "0"],
   row "not" "xori" 2 [first, second, text "-1"],
   row "neg" "sub" 2 [first, text "x0", second],
   row "seqz" "sltiu" 2 [first, second, text "1"],
   row "snez" "sltu" 2 [first, text "x0", second],
   row "sltz" "slt" 2 [first, second, text "x0"],
   row "sgtz" "slt" 2 [first, text "x0", second],
   row "j" "jal" 1 [text "x0", first],
   row "jr" "jalr" 1 [text "x0", first, text "0"],
   row "call" "jal" 1 [text "ra", first],
   row "beqz" "beq" 2 [first, text "x0", second],
   row "bnez" "bne" 2 [first, text "x0", second],
   row "blez" "bge" 2 [text "x0", first, second],
   row "bgez" "bge" 2 [first, text "x0", second],
   row "bltz" "blt" 2 [first, text "x0", second],
   row "bgtz" "blt" 2 [text "x0", first, second],
   row "fmv.s" "fsgnj.s" 2 [first, second, second],
   row "fneg.s" "fsgnjn.s" 2 [first, second, second],
   row "fabs.s" "fsgnjx.s" 2 [first, second, second],
   row "fmv.d" "fsgnj.d" 2 [first, second, second],
   row "fneg.d" "fsgnjn.d" 2 [first, second, second],
   row "fabs.d" "fsgnjx.d" 2 [first, second, second]]

/-- The pseudo-instructions whose last operand is a place in the program, with the number of
operands they take. -/
def jumps : List (Text × Nat) :=
  [("j".toList, 1), ("call".toList, 1), ("beqz".toList, 2), ("bnez".toList, 2),
   ("blez".toList, 2), ("bgez".toList, 2), ("bltz".toList, 2), ("bgtz".toList, 2)]

/-- The expansion of a mnemonic, given in any case. -/
def find? (mnemonic : Text) : Option Expansion := table.lookup (lower mnemonic)

/-- Whether a mnemonic is a pseudo-instruction. -/
def isPseudo (mnemonic : Text) : Bool := (find? mnemonic).isSome

/-- Fills the slots of a template. -/
def fill (operands : List Text) : Slot → Text
  | .fixed content => content
  | .operand number => operands.getD number []

/-- Expands the load of a constant into an addition to the zero register. -/
def expandLoadImmediate (name : Text) (operands : List Text) : Except Fault Statement :=
  match operands with
  | [rd, constant] => do
    let value ← Immediate.parse constant
    if -2048 ≤ value ∧ value ≤ 2047 then
      return ⟨"addi".toList, [rd, "x0".toList, Numeral.ofInt value]⟩
    else throw (.mentioning [value] (.wideLoadImmediate value))
  | _ => .error (.pseudoArity name 2 operands.length)

/-- Expands a pseudo-instruction. -/
def expand (mnemonic : Text) (operands : List Text) : Except Fault Statement :=
  let name := lower mnemonic
  match table.lookup name with
  | none => .error (.unknownPseudo mnemonic)
  | some .loadImmediate => expandLoadImmediate name operands
  | some (.template target arity slots) =>
    if operands.length = arity then .ok ⟨target, slots.map (fill operands)⟩
    else .error (.pseudoArity name arity operands.length)

/-- Adds the link register that one-operand jumps imply. -/
def expandShort (s : Statement) : Statement :=
  match s.operands with
  | [target] =>
    if s.mnemonic = "jal".toList then ⟨s.mnemonic, ["ra".toList, target]⟩
    else if s.mnemonic = "jalr".toList then ⟨s.mnemonic, ["ra".toList, target, "0".toList]⟩
    else s
  | _ => s

/-- The real instruction that a statement stands for. -/
def real (s : Statement) : Except Fault Statement :=
  if isPseudo s.mnemonic then expand s.mnemonic s.operands else .ok (expandShort s)

end Pseudo

end RiscAsm

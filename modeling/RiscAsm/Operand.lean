import RiscAsm.Immediate
import RiscAsm.Register
import RiscAsm.Text.Word

/-!
# Operands and instruction lines

An instruction line is a mnemonic and a list of operands.  Commas and blanks both divide operands,
but not inside parentheses, and an offset that a blank parts from its base register is put back:
`4 (sp)` is the operand `4(sp)`.
-/

namespace RiscAsm

namespace Operand

/-! ## Division into operands -/

/-- The state while operands are divided.  Both the finished operands and the characters of the
operand at hand are kept with the latest first. -/
structure Scan where
  /-- Finished operands, latest first. -/
  done : List Text := []
  /-- Characters of the operand at hand, latest first. -/
  current : Text := []
  /-- How many more parentheses were opened than closed. -/
  depth : Int := 0
  /-- Whether a comma was seen since the last finished operand. -/
  comma : Bool := false
  deriving DecidableEq, Repr

namespace Scan

/-- The operand at hand, in reading order and trimmed. -/
def pending (s : Scan) : Text := Text.trim s.current.reverse

/-- Ends the operand at hand, if there is one. -/
def finish (s : Scan) : Scan :=
  if s.pending.isEmpty then { s with current := [] }
  else { s with done := s.pending :: s.done, current := [], comma := false }

/-- Takes back an immediate that only blanks part from what follows. -/
def rejoin (s : Scan) : Scan :=
  if s.pending.isEmpty && !s.comma then
    match s.done with
    | last :: earlier =>
      if Immediate.accepts last then { s with done := earlier, current := last.reverse } else s
    | [] => s
  else s

/-- Adds a character to the operand at hand. -/
def push (s : Scan) (c : Char) : Scan := { s with current := c :: s.current }

/-- Reads one character. -/
def step (s : Scan) (c : Char) : Scan :=
  if c == '(' then { s.rejoin.push c with depth := s.depth + 1 }
  else if c == ')' then { s.push c with depth := s.depth - 1 }
  else if (c == ',' || isBlank c) && s.depth == 0 then
    if c == ',' then { s.finish with comma := true } else s.finish
  else s.push c

end Scan

/-- Divides the text after a mnemonic into operands. -/
def tokenize (s : Text) : List Text := (s.foldl Scan.step {}).finish.done.reverse

/-! ## Memory operands -/

/-- A base register, by the name it was written with, and an offset. -/
structure Memory where
  offset : Int
  register : Text
  deriving DecidableEq, Repr

/-- The offset and register texts of an operand of the shape `offset(register)`. -/
def memoryParts? (s : Text) : Option (Text × Text) :=
  let s := Text.trimStart s
  let (sign, s) := match s with
    | '-' :: rest => (['-'], rest)
    | _ => ([], s)
  let digits := s.takeWhile isWordChar
  match Text.trimStart (s.dropWhile isWordChar) with
  | '(' :: rest =>
    let rest := Text.trimStart rest
    let register := rest.takeWhile isWordChar
    if register.isEmpty then none
    else match Text.trimStart (rest.dropWhile isWordChar) with
      | ')' :: rest =>
        if (Text.trimStart rest).isEmpty then some (sign ++ digits, register) else none
      | _ => none
  | _ => none

/-- Reads an offset, which may be left out. -/
def parseOffset (s : Text) : Except Fault Int :=
  if s == [] || s == ['-'] then .ok 0 else Immediate.parse s

/-- Reads a memory operand `offset(register)`. -/
def parseMemory (s : Text) : Except Fault Memory :=
  match memoryParts? s with
  | none => .error (.memoryShape s)
  | some (offsetText, register) => do
    let offset ← parseOffset offsetText
    if Register.isName register then .ok ⟨offset, register⟩
    else .error (.memoryRegister register)

end Operand

/-! ## Instruction lines -/

/-- A mnemonic with its operands. -/
structure Statement where
  mnemonic : Text
  operands : List Text
  deriving DecidableEq, Repr

namespace Statement

/-- Divides a line into the mnemonic, in lower case, and its operands. -/
def parse (s : Text) : Except Fault Statement :=
  match Text.trim s with
  | [] => .error .emptyInstruction
  | line => .ok ⟨lower (Text.firstWord line), Operand.tokenize (Text.afterFirstWord line)⟩

/-- Writes a statement as a line. -/
def render (s : Statement) : Text :=
  if s.operands.isEmpty then s.mnemonic else s.mnemonic ++ ' ' :: Text.joinComma s.operands

end Statement

end RiscAsm

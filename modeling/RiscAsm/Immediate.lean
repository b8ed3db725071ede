import RiscAsm.Fault

/-!
# Immediate values

An immediate is an integer written in decimal, or in hexadecimal, binary or octal after the marks
`0x`, `0b` and `0o`.  One leading minus sign may stand apart from the rest.
-/

namespace RiscAsm.Immediate

/-- Reads an optional sign and decimal digits. -/
def readSigned : Text → Option Int
  | '+' :: digits => (Numeral.readDecimal digits).map fun n => (n : Int)
  | '-' :: digits => (Numeral.readDecimal digits).map fun n => -(n : Int)
  | digits => (Numeral.readDecimal digits).map fun n => (n : Int)

/-- The base that a radix letter stands for. -/
def base? : Char → Option Nat
  | 'x' | 'X' => some 16
  | 'b' | 'B' => some 2
  | 'o' | 'O' => some 8
  | _ => none

/-- Reads an immediate without the minus sign that may stand apart. -/
def read? (s : Text) : Option Int :=
  match s with
  | '0' :: letter :: digits =>
    match base? letter with
    | some base => (Numeral.readMarked base digits).map fun n => (n : Int)
    | none => readSigned s
  | _ => readSigned s

/-- Reads an immediate, or reports the part of it that is no number. -/
def parse (s : Text) : Except Fault Int :=
  match Text.trim s with
  | [] => .error .emptyImmediate
  | '-' :: rest =>
    let magnitude := Text.trim rest
    match read? magnitude with
    | some n => .ok (-n)
    | none => .error (.invalidImmediate magnitude)
  | text =>
    match read? text with
    | some n => .ok n
    | none => .error (.invalidImmediate text)

/-- Whether a text is an immediate. -/
def accepts (s : Text) : Bool := (parse s).isOk

end RiscAsm.Immediate

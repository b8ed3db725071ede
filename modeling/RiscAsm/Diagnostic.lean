import RiscAsm.Encode

/-!
# Diagnostics

A `Diagnostic` reports why a program could not be assembled and, once that is known, where: the
source line, its text, and the position among the instructions of the program.  `Failure` is what
an operation on programs may end with: nearly always a diagnostic.
-/

namespace RiscAsm

/-- The kinds of diagnostics. -/
inductive DiagnosticKind where
  /-- No particular kind. -/
  | general
  /-- A text that cannot be read. -/
  | parse
  /-- A malformed label definition. -/
  | labelSyntax
  /-- An instruction that has no encoding. -/
  | encoding
  /-- A fault with labels. -/
  | symbol
  /-- A label that is defined twice. -/
  | duplicateLabel
  /-- A label that is used and never defined. -/
  | undefinedLabel
  /-- An input that is no source text. -/
  | input
  deriving DecidableEq, Repr

/-- A report of why and where assembling failed. -/
structure Diagnostic where
  kind : DiagnosticKind
  reason : Text
  /-- The number of the source line. -/
  line : Option Int := none
  /-- The text of the source line. -/
  text : Option Text := none
  /-- The position among the instructions, from one on. -/
  index : Option Int := none
  deriving DecidableEq, Repr

namespace Diagnostic

/-- The same report at another place. -/
def locate (d : Diagnostic) (line : Option Int) (text : Option Text) (index : Option Int) :
    Diagnostic :=
  { d with line, text, index }

/-- The whole message, with the place in front, unless the line number is too long to be written. -/
def message? (d : Diagnostic) : Option Text :=
  match d.line with
  | none => some d.reason
  | some line =>
    if Numeral.tooLong line then none
    else
      let head := "Line ".toList ++ Numeral.ofInt line ++ ": ".toList ++ d.reason
      match d.text with
      | none | some [] => some head
      | some text => some (head ++ "\n  ".toList ++ text)

/-- The message, with the limit on numerals in place of one that cannot be written. -/
def message (d : Diagnostic) : Text := d.message?.getD Numeral.tooLongMessage

/-- The number of the failing instruction that callers are told: minus one if there was no source
text, and one if no position is known. -/
def failingLine (d : Diagnostic) : Int :=
  if d.kind = .input then -1
  else match d.index with
    | none | some 0 => 1
    | some index => index

end Diagnostic

/-- How an operation on programs may fail. -/
inductive Failure where
  | diagnostic (d : Diagnostic)
  /-- A value that is not acceptable. -/
  | value (message : Text)
  /-- An instruction whose description lacks a field. -/
  | missingField
  /-- A number that does not fit into a machine word. -/
  | overflow
  deriving DecidableEq, Repr

/-- The failure that reports a diagnostic.  It has to write the number of the line, and where that
is too long, this is the failure. -/
def Diagnostic.failure (d : Diagnostic) : Failure :=
  match d.message? with
  | some _ => .diagnostic d
  | none => .value Numeral.tooLongMessage

/-- The failure that a fault amounts to by itself. -/
def Fault.failure (f : Fault) : Failure :=
  match f.family with
  | .parse => .diagnostic { kind := .parse, reason := f.reason }
  | .encoding => .diagnostic { kind := .encoding, reason := f.reason }
  | .value => .value f.reason
  | .missing => .missingField

/-- The failure that a fault amounts to when it keeps an instruction from being encoded. -/
def Fault.encodingFailure (f : Fault) : Failure :=
  match f.family with
  | .missing => .missingField
  | _ => .diagnostic { kind := .encoding, reason := f.reason }

/-- Encodes an instruction line, reporting every fault as an encoding diagnostic. -/
def encode (profile : Profile) (text : Text) : Except Failure Nat :=
  (Encode.encodeWord profile text).mapError Fault.encodingFailure

/-- The machine word of an instruction line as binary digits. -/
def encodeBits (profile : Profile) (text : Text) : Except Failure Text :=
  (encode profile text).map (Numeral.binary 32)

end RiscAsm

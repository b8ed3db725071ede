import RiscAsm.Buffer
import RiscAsm.Label
import RiscAsm.Settings

/-!
# Assembling programs

`assemble` takes a source to an `Assembly` in two passes.  The first finds the labels and the
instructions; the second replaces the label at the end of each branch by a number and encodes the
instruction.  The first failure ends the run.
-/

namespace RiscAsm

/-- A value as a source: only a text is one. -/
def Source.ofValue : Value → Source
  | .text content => .text content
  | v => .other v.typeName

/-- An assembled program. -/
structure Assembly where
  labels : LabelTable := {}
  instructions : List SourceLine := []
  words : List Nat := []
  deriving DecidableEq, Repr

/-! ## The second pass -/

/-- An encoded instruction: its offset, its word, and its text after labels were replaced. -/
structure Emitted where
  offset : Nat
  word : Nat
  text : Text
  deriving DecidableEq, Repr

/-- The offset of the instruction at a position, from one on. -/
def offsetOf (index : Nat) : Nat := (index - 1) * instructionWidth

/-- The number that a label with the given offset stands for in an instruction. -/
def branchTarget (mode : BranchMode) (offset : Nat) (target : Int) : Int :=
  match mode with
  | .absolute => target
  | .relative => target - offset

/-- The label at the end of an instruction, if there is one. -/
def labelOperand? (s : Statement) : Option Text :=
  if Encode.takesLabel s.mnemonic s.operands.length then
    s.operands.getLast?.filter fun operand => !Immediate.accepts operand
  else none

/-- The text of an instruction with the label at its end replaced by a number. -/
def patch (settings : Settings) (labels : LabelTable) (line : SourceLine) (index : Nat) :
    Except Failure Text :=
  match Statement.parse line.text with
  | .error _ => .ok line.text
  | .ok statement =>
    match labelOperand? statement with
    | none => .ok line.text
    | some name => do
      let target ← labels.resolve name (some line) (some index)
      let number := Numeral.ofInt (branchTarget settings.branches (offsetOf index) target)
      return { statement with operands := statement.operands.dropLast ++ [number] }.render

/-- A failure of encoding, with the place of the instruction. -/
def locateFailure (line : SourceLine) (index : Nat) : Failure → Failure
  | .diagnostic d => (d.locate (some line.number) (some line.text) (some index)).failure
  | failure => failure

/-- Encodes the instruction at a position. -/
def emit (settings : Settings) (labels : LabelTable) (entry : SourceLine × Nat) :
    Except Failure Emitted := do
  let (line, index) := entry
  let text ← patch settings labels line index
  match encode settings.profile text with
  | .ok word => return ⟨offsetOf index, word, text⟩
  | .error failure => throw (locateFailure line index failure)

/-! ## Both passes -/

/-- The first pass over a source text. -/
def firstPass (settings : Settings) (text : Text) : Layout × Option Failure :=
  discover instructionWidth (Source.normalize (!settings.stripComments) text)

/-- The second pass over a layout. -/
def secondPass (settings : Settings) (layout : Layout) : Except Failure (List Emitted) :=
  (layout.instructions.zipIdx 1).mapM (emit settings layout.labels)

/-- The layout of a source text, or the failure of the first pass. -/
def layOut (settings : Settings) (text : Text) : Except Failure Layout :=
  match firstPass settings text with
  | (_, some failure) => .error failure
  | (layout, none) => .ok layout

/-- Assembles a source text. -/
def assembleText (settings : Settings) (text : Text) : Except Failure Assembly := do
  let layout ← layOut settings text
  let emitted ← secondPass settings layout
  return { labels := layout.labels
           instructions := layout.instructions
           words := emitted.map Emitted.word }

/-- Assembles a source. -/
def assemble (settings : Settings) (source : Source) : Except Failure Assembly :=
  match source.decode with
  | .error d => .error (.diagnostic d)
  | .ok text => assembleText settings text

/-! ## Results -/

namespace Assembly

/-- The bytes of an assembled program. -/
def bytes (a : Assembly) : List UInt8 := Bytes.ofWords a.words

/-- The words as hexadecimal digits. -/
def hexLines (a : Assembly) : List Text := a.words.map (Numeral.hex 8)

/-- The bytes of an assembled program in a buffer. -/
def toBuffer (a : Assembly) : Except Failure Buffer :=
  match Buffer.ofWords? (a.words.map Int.ofNat) with
  | some b => .ok b
  | none => .error .overflow

end Assembly

/-- A buffer with the program and zero, or an empty buffer and the number of the instruction that
failed. -/
def assembleBuffer (settings : Settings) (source : Source) : Except Failure (Buffer × Int) :=
  let result := do
    let assembly ← assemble settings source
    assembly.toBuffer
  match result with
  | .ok b => .ok (b, 0)
  | .error (.diagnostic d) => .ok (Buffer.empty, d.failingLine)
  | .error failure => .error failure

/-! ## Sessions -/

/-- The offset, text and line number of each instruction. -/
def sourceMapOf (instructions : List SourceLine) : List (Nat × Text × Int) :=
  (instructions.zipIdx 1).map fun (line, index) => (offsetOf index, line.text, line.number)

/-- An assembler that is used again and again, with its settings and what its runs have left. -/
structure Session where
  settings : Settings := {}
  labels : LabelTable := {}
  instructions : List SourceLine := []
  words : List Nat := []
  sourceMap : List (Nat × Text × Int) := []
  deriving DecidableEq, Repr

namespace Session

/-- What the latest run has left, as an assembled program. -/
def program (s : Session) : Assembly :=
  { labels := s.labels, instructions := s.instructions, words := s.words }

/-- An action of a session.  When it fails, what it did to the session before stays. -/
abbrev Action := ExceptT Failure (StateM Session)

/-- Forgets what earlier runs have left. -/
def reset (s : Session) : Session :=
  { s with labels := {}, instructions := [], words := [], sourceMap := [] }

/-- Assembles a source: everything is forgotten first, and the results are kept last. -/
def assembleSource (source : Source) : Action Buffer := do
  modify reset
  let settings := (← get).settings
  let text ← ofExcept (source.decode.mapError .diagnostic)
  let layout ← ofExcept (layOut settings text)
  let emitted ← ofExcept (secondPass settings layout)
  let words := emitted.map Emitted.word
  modify fun s => { s with labels := layout.labels }
  modify fun s => { s with instructions := layout.instructions }
  modify fun s => { s with words }
  modify fun s => { s with sourceMap := sourceMapOf layout.instructions }
  ofExcept (Assembly.toBuffer { words })

/-- The session after a source was assembled, and what that gave. -/
def assemble (s : Session) (source : Source) : Session × Except Failure Buffer :=
  ((assembleSource source).run.run s).swap

end Session

end RiscAsm

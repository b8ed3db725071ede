import RiscAsm.Source
import RiscAsm.Text.Quoted

/-!
# Labels and the first pass

A label names the place of the instruction that follows it.  `discover` goes through the lines of
a program once, records every label at the offset of the next instruction, and gathers the
instructions.  A `LabelTable` takes each name once and keeps the order of definition.
-/

namespace RiscAsm

/-! ## The label table -/

/-- Names with their offsets, in order of definition. -/
structure LabelTable where
  entries : List (Text × Int) := []
  deriving DecidableEq, Repr

namespace LabelTable

/-- The offset of a name, if it is defined. -/
def get? (t : LabelTable) (name : Text) : Option Int := t.entries.lookup name

/-- Whether a name is defined. -/
def contains (t : LabelTable) (name : Text) : Bool := (t.get? name).isSome

/-- The defined names, in order of definition. -/
def names (t : LabelTable) : List Text := t.entries.map Prod.fst

/-- The number of defined names. -/
def size (t : LabelTable) : Nat := t.entries.length

/-- The failure that reports a label at its place: a line, if one is known, and a position. -/
def diagnose (kind : DiagnosticKind) (reason : Text) (line : Option SourceLine)
    (index : Option Int) : Failure :=
  Diagnostic.failure
    { kind, reason, line := line.map SourceLine.number, text := line.map SourceLine.text, index }

/-- Records a new name. -/
def define (t : LabelTable) (name : Text) (offset : Int) (line : Option SourceLine)
    (index : Option Int) : Except Failure LabelTable :=
  match t.get? name with
  | none => .ok ⟨t.entries ++ [(name, offset)]⟩
  | some earlier =>
    if Numeral.tooLong earlier then .error (.value Numeral.tooLongMessage)
    else .error (diagnose .duplicateLabel ("Duplicate label: ".toList ++ name ++
      " (already at offset ".toList ++ Numeral.ofInt earlier ++ ")".toList) line index)

/-- The offset of a name that should be defined. -/
def resolve (t : LabelTable) (name : Text) (line : Option SourceLine) (index : Option Int) :
    Except Failure Int :=
  match t.get? name with
  | some offset => .ok offset
  | none => .error (diagnose .undefinedLabel ("Undefined label: ".toList ++ name) line index)

/-- One entry as it is shown. -/
def renderEntry (entry : Text × Int) : Text :=
  Quoted.quote entry.1 ++ ": ".toList ++ Numeral.ofInt entry.2

/-- The table as it is shown, unless an offset is too long to be written. -/
def render? (t : LabelTable) : Option Text :=
  if t.entries.any fun entry => Numeral.tooLong entry.2 then none
  else some ("LabelTable(\x7b".toList ++ Text.joinComma (t.entries.map renderEntry) ++
    "\x7d)".toList)

end LabelTable

/-! ## Label definitions -/

namespace Label

/-- A character that may start a label name. -/
def isNameStart (c : Char) : Bool := c.isAlpha || c == '_' || c == '.'

/-- A character that may follow in a label name. -/
def isNameRest (c : Char) : Bool := c.isAlphanum || c == '_' || c == '.' || c == '$'

/-- Whether a text is a label name. -/
def isName : Text → Bool
  | [] => false
  | c :: rest => isNameStart c && rest.all isNameRest

/-- Splits a label definition off the front of a line. -/
def split (line : SourceLine) (index : Option Int) : Except Failure (Option Text × Text) :=
  match Text.cutAt? ':' line.text with
  | none => .ok (none, line.text)
  | some (before, after) =>
    let name := Text.trim before
    let malformed (reason : Text) : Failure :=
      Diagnostic.failure
        { kind := .labelSyntax, reason, line := some line.number, text := some line.text, index }
    if name.isEmpty then .error (malformed "Missing label name before ':'".toList)
    else if isName name then .ok (some name, Text.trim after)
    else .error (malformed ("Malformed label definition: ".toList ++ Quoted.quote name))

end Label

/-! ## The first pass -/

/-- What the first pass finds: the labels and the instructions. -/
structure Layout where
  labels : LabelTable := {}
  /-- The instructions, latest first. -/
  reversed : List SourceLine := []
  /-- The number of instructions. -/
  count : Nat := 0
  deriving DecidableEq, Repr

namespace Layout

/-- The instructions in order. -/
def instructions (l : Layout) : List SourceLine := l.reversed.reverse

/-- Adds an instruction. -/
def push (l : Layout) (line : SourceLine) : Layout :=
  { l with reversed := line :: l.reversed, count := l.count + 1 }

/-- The position of the next instruction, from one on. -/
def nextIndex (l : Layout) : Int := l.count + 1

/-- Takes label definitions off the front of `current`, which is what is left of `line`, and adds
the rest as an instruction.  There are at most `colons` colons left.  The layout that was reached
comes with the failure, if there is one. -/
def readAux (width : Int) (line : SourceLine) : Nat → Layout → Text → Layout × Option Failure
  | colons, l, current =>
    match Label.split ⟨line.number, current⟩ (some l.nextIndex) with
    | .error failure => (l, some failure)
    | .ok (none, text) => (if text.isEmpty then l else l.push ⟨line.number, text⟩, none)
    | .ok (some name, rest) =>
      match l.labels.define name (l.count * width) (some line) (some l.nextIndex) with
      | .error failure => (l, some failure)
      | .ok labels =>
        match colons with
        | 0 => ({ l with labels }, none)
        | colons + 1 => readAux width line colons { l with labels } rest

/-- Reads one line. -/
def read (width : Int) (l : Layout) (line : SourceLine) : Layout × Option Failure :=
  readAux width line (line.text.count ':') l line.text

/-- Reads lines up to the first failure. -/
def readAll (width : Int) (l : Layout) : List SourceLine → Layout × Option Failure
  | [] => (l, none)
  | line :: rest =>
    match read width l line with
    | (next, none) => readAll width next rest
    | (next, some failure) => (next, some failure)

end Layout

/-- The first pass, with instructions `width` bytes apart: the layout that was reached and the
failure that ended it, if there was one. -/
def discover (width : Int) (lines : List SourceLine) : Layout × Option Failure :=
  Layout.readAll width {} lines

end RiscAsm

import RiscAsm.Program

/-!
# Listings and logs

A listing shows each instruction of an assembled program with its address, its word and its place
in the source, with the labels in front of the instructions they name.  A log tells what the two
passes did, up to the failure if there was one.
-/

namespace RiscAsm

/-! ## Listings -/

namespace Assembly

/-- The first two lines of a listing. -/
def listingHead : List Text :=
  ["Address       Code       Line  Source".toList, List.replicate 60 '-']

/-- The line of a label. -/
def labelLine (name : Text) : Text := List.replicate 26 ' ' ++ name ++ [':']

/-- The line of an instruction. -/
def codeLine (baseAddress offset word : Nat) (line : SourceLine) : Text :=
  "0x".toList ++ Numeral.hexUpper 8 (baseAddress + offset) ++ ":   ".toList ++
    Numeral.hexUpper 8 word ++ "   ".toList ++ (Numeral.ofInt line.number).leftpad 4 ' ' ++
    "  ".toList ++ line.text

/-- The names of labels by their offsets. -/
abbrev Groups := List (Int × List Text)

/-- Adds a label to those at its offset. -/
def addLabel (label : Text × Int) : Groups → Groups
  | [] => [(label.2, [label.1])]
  | group :: rest =>
    if group.1 = label.2 then (group.1, group.2 ++ [label.1]) :: rest
    else group :: addLabel label rest

/-- The labels of a table, grouped by their offsets. -/
def groupLabels (labels : LabelTable) : Groups :=
  labels.entries.foldl (fun groups label => addLabel label groups) []

/-- The labels at an offset, in the order of their definitions. -/
def namesAt (groups : Groups) (offset : Nat) : List Text := (groups.lookup (offset : Int)).getD []

/-- The lines of one instruction: its labels, then the instruction. -/
def listingEntry (baseAddress : Nat) (groups : Groups) (entry : (SourceLine × Nat) × Nat) :
    List Text :=
  let ((line, word), index) := entry
  let offset := offsetOf index
  (namesAt groups offset).map labelLine ++ [codeLine baseAddress offset word line]

/-- The lines of a listing. -/
def listingLines (settings : Settings) (a : Assembly) : List Text :=
  listingHead ++ ((a.instructions.zip a.words).zipIdx 1).flatMap
    (listingEntry settings.baseAddress (groupLabels a.labels))

/-- The listing of an assembled program. -/
def listing (settings : Settings) (a : Assembly) : Text := Text.joinLines (a.listingLines settings)

/-- The words of an assembled program, one a line. -/
def hexText (a : Assembly) : Text := Text.joinLines a.hexLines

end Assembly

/-! ## Queries -/

namespace Session

/-- The words of the latest run, one a line. -/
def hexText (s : Session) : Text := s.program.hexText

/-- The load address of a label of the latest run. -/
def address? (s : Session) (name : Text) : Option Int :=
  (s.labels.get? name).map fun offset => s.settings.baseAddress + offset

/-- The word at an offset, if there is one. -/
def wordAt (s : Session) (offset : Nat) : Except Escape Nat :=
  match s.words[offset / instructionWidth]? with
  | some word => .ok word
  | none => .error .index

/-- The lines of an entry of the source map, with the word at its offset. -/
def mapEntry (s : Session) (groups : Assembly.Groups) (entry : Nat × Text × Int) :
    Except Escape (List Text) := do
  let (offset, text, number) := entry
  let word ← s.wordAt offset
  return (Assembly.namesAt groups offset).map Assembly.labelLine ++
    [Assembly.codeLine s.settings.baseAddress offset word ⟨number, text⟩]

/-- The listing of the latest run, by its source map. -/
def listing (s : Session) : Except Escape Text := do
  let entries ← s.sourceMap.mapM (s.mapEntry (Assembly.groupLabels s.labels))
  return Text.joinLines (Assembly.listingHead ++ entries.flatten)

end Session

/-! ## Logs -/

namespace Log

/-- What is logged of a label. -/
def labelLine (entry : Text × Int) : Text :=
  "  Label '".toList ++ entry.1 ++ "' at 0x".toList ++ Numeral.hexUpper 4 entry.2.toNat

/-- What is logged of an encoded instruction. -/
def emittedLine (e : Emitted) : Text :=
  "  0x".toList ++ Numeral.hexUpper 4 e.offset ++ ": ".toList ++ Numeral.hexUpper 8 e.word ++
    "  ".toList ++ e.text

/-- What is logged of the first pass, up to the layout it reached. -/
def firstPass (layout : Layout) : List Text :=
  "=== Pass 1: Collecting labels ===".toList :: layout.labels.entries.map labelLine

/-- What is logged at the end of a first pass that succeeds. -/
def firstPassEnd (layout : Layout) : List Text :=
  ["  Total labels: ".toList ++ Numeral.ofNat layout.labels.size,
   "  Program size: ".toList ++ Numeral.ofNat (layout.count * instructionWidth) ++
     " bytes".toList]

/-- What is logged of the instructions up to the first that fails. -/
def emittedLines (settings : Settings) (labels : LabelTable) (done : List Text) :
    List (SourceLine × Nat) → List Text
  | [] => (("  Total instructions: ".toList ++ Numeral.ofNat done.length) :: done).reverse
  | entry :: rest =>
    match emit settings labels entry with
    | .ok e => emittedLines settings labels (emittedLine e :: done) rest
    | .error _ => done.reverse

/-- What is logged of the second pass. -/
def secondPass (settings : Settings) (layout : Layout) : List Text :=
  "=== Pass 2: Encoding instructions ===".toList ::
    emittedLines settings layout.labels [] (layout.instructions.zipIdx 1)

/-- What is logged while a source is assembled. -/
def assemble (settings : Settings) (source : Source) : List Text :=
  match source.decode with
  | .error _ => []
  | .ok text =>
    match RiscAsm.firstPass settings text with
    | (layout, some _) => firstPass layout
    | (layout, none) => firstPass layout ++ firstPassEnd layout ++ secondPass settings layout

end Log

end RiscAsm

import RiscAsm.Diagnostic
import RiscAsm.Text.Utf8

/-!
# Source text

A `Source` is what a caller hands in: text, bytes that should be text, or something else.
`normalize` divides a text into lines at every kind of line break, cuts comments off, trims the
lines and keeps the ones that are not empty, with their numbers.
-/

namespace RiscAsm

/-- What is handed in to be assembled. -/
inductive Source where
  | text (content : Text)
  | bytes (content : List UInt8)
  /-- Something that is neither, by the name of its type. -/
  | other (typeName : Text)
  deriving DecidableEq, Repr

/-- A line of a program with its number in the source. -/
structure SourceLine where
  number : Int
  text : Text
  deriving DecidableEq, Repr

namespace Source

/-- The diagnostic for an input that is no source text. -/
def unreadable (reason : Text) : Diagnostic := { kind := .input, reason }

/-- The text of a source. -/
def decode : Source → Except Diagnostic Text
  | text content => .ok content
  | bytes content =>
    match Utf8.decode content with
    | .ok decoded => .ok decoded
    | .error invalid => .error (unreadable ("Source is not valid UTF-8: ".toList ++
        invalid.wrong.reason ++ " at byte ".toList ++ Numeral.ofNat invalid.offset))
  | other typeName => .error (unreadable ("Expected source text, got ".toList ++ typeName))

/-- What a comment starts with. -/
def commentMarks : List Text := [['#'], ['/', '/']]

/-- The part of a line before its comment, which starts at the first of its marks. -/
def stripComment (line : Text) : Text :=
  match (commentMarks.filterMap fun mark => Text.find? mark line).min? with
  | some position => line.take position
  | none => line

/-- The text with every line break written as a line feed: first the pairs of a carriage return and
a line feed, then the carriage returns that are left. -/
def unifyBreaks (s : Text) : Text :=
  Text.replace ['\r'] ['\n'] (Text.replace ['\r', '\n'] ['\n'] s)

/-- The lines of a text, whatever its line breaks. -/
def rawLines (s : Text) : List Text := (unifyBreaks s).splitOn '\n'

/-- A raw line as a line of the program, unless nothing is left of it. -/
def keepLine (keepComments : Bool) (raw : Text × Nat) : Option SourceLine :=
  let text := Text.trim (if keepComments then raw.1 else stripComment raw.1)
  if text.isEmpty then none else some ⟨raw.2, text⟩

/-- The lines of a program: trimmed, not empty, and numbered from one as in the source. -/
def normalize (keepComments : Bool) (s : Text) : List SourceLine :=
  ((rawLines s).zipIdx 1).filterMap (keepLine keepComments)

end Source

end RiscAsm

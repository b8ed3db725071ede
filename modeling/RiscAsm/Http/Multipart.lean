import RiscAsm.Http.Parameter

/-!
# Multipart forms

A form with uploaded files is sent as parts, each with headers and a content, between lines that
repeat a boundary.  `Multipart.encode` writes a form, and `Multipart.decode` reads one.  A form is
read in chunks of limited size: what is sure to belong to the part at hand leaves the buffer at
once, and a form that is found to be malformed leaves the chunks after it unread.
-/

namespace RiscAsm.Http

/-- A part of a form: the name of its field, the name of its file if it is an upload, its content
type, and its content. -/
structure Part where
  name : Option Text
  filename : Option Text := none
  contentType : Option Text := none
  content : List UInt8 := []
  deriving DecidableEq, Repr

namespace Multipart

/-! ## Writing -/

/-- The two bytes that end a line. -/
def lineEnd : List UInt8 := [0x0D, 0x0A]

/-- The bytes that announce a boundary. -/
def dashes : List UInt8 := [0x2D, 0x2D]

/-- The headers of a part, each ended as a line. -/
def encodeHeaders (part : Part) : List UInt8 :=
  let filename : Text := match part.filename with
    | some filename => "; filename=\"".toList ++ filename ++ ['"']
    | none => []
  let contentType : Text := match part.contentType with
    | some contentType => "Content-Type: ".toList ++ contentType ++ ['\r', '\n']
    | none => []
  Utf8.encode ("Content-Disposition: form-data; name=\"".toList ++ part.name.getD [] ++ ['"'] ++
    filename ++ ['\r', '\n'] ++ contentType)

/-- A part, from the line break before its boundary on. -/
def encodePart (boundary : List UInt8) (part : Part) : List UInt8 :=
  lineEnd ++ dashes ++ boundary ++ lineEnd ++ encodeHeaders part ++
    (if part.content.isEmpty then [] else lineEnd ++ part.content)

/-- A form. -/
def encode (boundary : List UInt8) (parts : List Part) : List UInt8 :=
  parts.flatMap (encodePart boundary) ++ lineEnd ++ dashes ++ boundary ++ dashes ++ lineEnd

/-! ## Places in a buffer -/

/-- The first place, counted from `index`, at which something is found. -/
def search {α : Type} (found : List UInt8 → Option α) (index : Nat) :
    List UInt8 → Option (Nat × α)
  | [] => (found []).map fun a => (index, a)
  | b :: rest =>
    match found (b :: rest) with
    | some a => some (index, a)
    | none => search found (index + 1) rest

/-- What follows a line break at the front. -/
def afterBreak? : List UInt8 → Option (List UInt8)
  | 0x0D :: 0x0A :: rest => some rest
  | 0x0A :: rest => some rest
  | 0x0D :: rest => some rest
  | _ => none

/-- A blank that does not end a line. -/
def isGap (b : UInt8) : Bool := b == 0x20 || b == 0x09 || b == 0x0B || b == 0x0C

/-- A boundary that was found: whether it is the last one, and what follows its line. -/
structure Found where
  last : Bool
  rest : List UInt8
  deriving DecidableEq, Repr

/-- Reads the line of a boundary. -/
def boundaryLine? (boundary buffer : List UInt8) : Option Found :=
  if (dashes ++ boundary).isPrefixOf buffer then
    match buffer.drop (2 + boundary.length) with
    | 0x2D :: 0x2D :: rest =>
      let rest := rest.dropWhile isGap
      some ⟨true, (afterBreak? rest).getD rest⟩
    | rest => (afterBreak? (rest.dropWhile isGap)).map fun rest => ⟨false, rest⟩
  else none

/-- Reads the line of a boundary after a line break. -/
def brokenLine? (boundary buffer : List UInt8) : Option Found :=
  (afterBreak? buffer).bind (boundaryLine? boundary)

/-- Reads the line of the first boundary, before which there need not be a line break. -/
def firstLine? (boundary buffer : List UInt8) : Option Found :=
  (brokenLine? boundary buffer).or (boundaryLine? boundary buffer)

/-- Reads an empty line, which ends the headers of a part: the buffer from its second line break
on, and the number of bytes before that break. -/
def emptyLine? : List UInt8 → Option (List UInt8 × Nat)
  | 0x0D :: 0x0A :: 0x0D :: 0x0A :: rest => some (0x0D :: 0x0A :: rest, 2)
  | 0x0D :: 0x0D :: rest => some (0x0D :: rest, 1)
  | 0x0A :: 0x0A :: rest => some (0x0A :: rest, 1)
  | _ => none

/-- The place of the last line feed or, if it comes before that, of the last carriage return; the
size of the buffer counts for what is not there. -/
def lastBreak (buffer : List UInt8) : Nat :=
  let (size, feed, carriage) := buffer.foldl
    (fun (index, feed, carriage) b =>
      (index + 1, if b == 0x0A then some index else feed,
        if b == 0x0D then some index else carriage))
    ((0, none, none) : Nat × Option Nat × Option Nat)
  min (feed.getD size) (carriage.getD size)

/-! ## Headers -/

/-- Joins the lines that continue a header to the line before. -/
def unfoldAux (done : List UInt8) : List UInt8 → List UInt8
  | [] => done.reverse
  | 0x0D :: 0x0A :: b :: rest =>
    if b == 0x20 || b == 0x09 then unfoldAux (0x20 :: done) rest
    else unfoldAux (0x0A :: 0x0D :: done) (b :: rest)
  | a :: b :: rest =>
    if (a == 0x0A || a == 0x0D) && (b == 0x20 || b == 0x09) then unfoldAux (0x20 :: done) rest
    else unfoldAux (a :: done) (b :: rest)
  | [a] => (a :: done).reverse

/-- The lines of bytes, gathered with the latest first; an empty line counts as none. -/
def linesAux (done : List (List UInt8)) (line : List UInt8) : List UInt8 → List (List UInt8)
  | [] => (line.reverse :: done).reverse
  | b :: rest =>
    if b == 0x0A || b == 0x0D then linesAux (line.reverse :: done) [] rest
    else linesAux done (b :: line) rest

/-- A blank in bytes. -/
def isSpace (b : UInt8) : Bool := isGap b || b == 0x0A || b == 0x0D

/-- Bytes without the blanks at both ends. -/
def trim (line : List UInt8) : List UInt8 :=
  ((line.dropWhile isSpace).reverse.dropWhile isSpace).reverse

/-- A header: its name in lower case and its value. -/
def header? (line : List UInt8) : Option (Text × Text) :=
  match Utf8.decode line with
  | .error _ => none
  | .ok text =>
    let (name, value) := (Text.cutAt? ':' text).getD (text, [])
    some (lower (Text.trim name), Text.trim value)

/-- The headers in bytes, which must be text. -/
def headers? (bytes : List UInt8) : Option (List (Text × Text)) :=
  (((linesAux [] [] (unfoldAux [] bytes)).map trim).filter fun line => !line.isEmpty).mapM header?

/-- The part that headers announce; one of them must say what the part is for. -/
def part? (headers : List (Text × Text)) : Option Part :=
  (headers.lookup "content-disposition".toList).map fun disposition =>
    let parameters := (HeaderValue.parse disposition).parameters
    { name := parameters.lookup "name".toList
      filename := parameters.lookup "filename".toList
      contentType := headers.lookup "content-type".toList }

/-! ## Reading -/

/-- Why a form cannot be read. -/
inductive Fault where
  /-- The bytes are no form; some of them were not read. -/
  | malformed (unread : List UInt8)
  /-- There are too many parts, or a text field is too long. -/
  | tooLarge
  deriving DecidableEq, Repr

/-- The most parts that a form can have. -/
def maxParts : Nat := 1000

/-- The most bytes that are kept for a text field, or until the end of a part shows. -/
def maxFieldSize : Nat := 500000

/-- The size of the chunks in which a form is read. -/
def chunkSize : Nat := 65536

/-- What is read next. -/
inductive Phase where
  /-- What stands before the first boundary. -/
  | preamble
  | headers
  /-- The line break before a content. -/
  | start
  | content
  /-- What stands after the last boundary. -/
  | epilogue
  deriving DecidableEq, Repr

/-- The state while a form is read. -/
structure Reader where
  phase : Phase := .preamble
  buffer : List UInt8 := []
  /-- How much of the buffer has been searched in vain. -/
  searched : Nat := 0
  /-- The parts that are complete, latest first. -/
  parts : List Part := []
  /-- How many parts have started. -/
  started : Nat := 0
  /-- The part at hand, without its content. -/
  current : Part := { name := none }
  /-- The pieces of its content, latest first. -/
  pieces : List (List UInt8) := []
  /-- The size of those pieces. -/
  size : Nat := 0
  deriving DecidableEq, Repr

/-- What reading a step leads to. -/
inductive Step where
  | next (reader : Reader)
  /-- There is nothing to do before more bytes come. -/
  | wait (reader : Reader)
  | malformed
  | tooLarge
  deriving DecidableEq, Repr

namespace Reader

/-- The phase after a boundary. -/
def phaseAfter (found : Found) : Phase := if found.last then .epilogue else .headers

/-- Reads up to the first boundary. -/
def readPreamble (boundary : List UInt8) (r : Reader) : Step :=
  match search (firstLine? boundary) r.searched (r.buffer.drop r.searched) with
  | some (_, found) =>
    .next { r with phase := phaseAfter found, buffer := found.rest, searched := 0 }
  | none => .wait { r with searched := r.buffer.length - (boundary.length + 8) }

/-- Reads the headers of a part. -/
def readHeaders (r : Reader) : Step :=
  match search emptyLine? r.searched (r.buffer.drop r.searched) with
  | none => .wait { r with searched := r.buffer.length - 8 }
  | some (index, rest, _) =>
    match (headers? (r.buffer.take index)).bind part? with
    | none => .malformed
    | some part =>
      if maxParts ≤ r.started then .tooLarge
      else .next { r with
        phase := .start, buffer := rest, searched := 0, started := r.started + 1,
        current := part, pieces := [], size := 0 }

/-- Adds a piece to the content of the part at hand. -/
def addPiece (r : Reader) (piece : List UInt8) : Step :=
  let size := r.size + piece.length
  if r.current.filename.isNone && maxFieldSize < size then .tooLarge
  else .next { r with pieces := piece :: r.pieces, size }

/-- Ends the part at hand. -/
def endPart (r : Reader) : Reader :=
  { r with parts := { r.current with content := r.pieces.reverse.flatten } :: r.parts }

/-- How many bytes of the buffer are sure to belong to the content at hand, of which the first
`skipped` are the line break before it. -/
def settled (boundary : List UInt8) (skipped : Nat) (r : Reader) : Nat :=
  let index := lastBreak (r.buffer.drop skipped) + skipped
  let marked := (search (fun s => if (dashes ++ boundary).isPrefixOf s then some () else none) 0
    r.buffer).isSome
  if !marked && boundary.length + 3 < r.buffer.length - index then r.buffer.length else index

/-- Reads a piece of a content, of which the first `skipped` bytes are the line break before it. -/
def readContent (boundary : List UInt8) (skipped : Nat) (r : Reader) : Step :=
  match search (brokenLine? boundary) 0 r.buffer with
  | some (index, found) =>
    match r.addPiece ((r.buffer.take index).drop skipped) with
    | .next r => .next { r.endPart with phase := phaseAfter found, buffer := found.rest }
    | stop => stop
  | none =>
    let index := r.settled boundary skipped
    let piece := (r.buffer.take index).drop skipped
    if skipped = 0 && piece.isEmpty then .wait r
    else match r.addPiece piece with
      | .next r => .next { r with phase := .content, buffer := r.buffer.drop index }
      | stop => stop

/-- Reads on by a step. -/
def step (boundary : List UInt8) (r : Reader) : Step :=
  match r.phase with
  | .preamble => r.readPreamble boundary
  | .headers => r.readHeaders
  | .start =>
    match r.buffer with
    | 0x0D :: 0x0A :: _ => r.readContent boundary 2
    | _ => r.readContent boundary 1
  | .content => r.readContent boundary 0
  | .epilogue => .wait r

/-- Reads on as far as the buffer goes; every step takes a byte off it. -/
def drain (boundary : List UInt8) : Nat → Reader → Step
  | 0, r => .wait r
  | fuel + 1, r =>
    match r.step boundary with
    | .next r => drain boundary fuel r
    | stop => stop

/-- Reads chunks one after the other. -/
def readChunks (boundary : List UInt8) : List (List UInt8) → Reader → Except Fault (List Part)
  | [], r => if r.phase = .epilogue then .ok r.parts.reverse else .error (.malformed [])
  | chunk :: rest, r =>
    if maxFieldSize < r.buffer.length + chunk.length then .error .tooLarge
    else
      let r := { r with buffer := r.buffer ++ chunk }
      match r.drain boundary (r.buffer.length + 1) with
      | .next r | .wait r => readChunks boundary rest r
      | .malformed => .error (.malformed rest.flatten)
      | .tooLarge => .error .tooLarge

end Reader

/-- Divides bytes into chunks, of which there are at most `fuel`. -/
def chunks : Nat → List UInt8 → List (List UInt8)
  | 0, _ => []
  | fuel + 1, bytes =>
    if bytes.isEmpty then [] else bytes.take chunkSize :: chunks fuel (bytes.drop chunkSize)

/-- Reads a form. -/
def decode (boundary bytes : List UInt8) : Except Fault (List Part) :=
  Reader.readChunks boundary (chunks (bytes.length / chunkSize + 1) bytes) {}

end Multipart

end RiscAsm.Http

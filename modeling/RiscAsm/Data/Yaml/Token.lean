import RiscAsm.Data.Yaml.Number
import RiscAsm.Data.Yaml.Scalar
import RiscAsm.Text.Utf8

/-!
# Tokens of a YAML document

`Token.ofText` divides a document into tokens.  Indentation shows as the start and the end of block
collections.  A text that turns out to be a key is marked as one afterwards, when the colon is
found; a key must stand on one line and be at most 1024 characters long.  A document that cannot be
divided has the tokens that were certain before the fault was met.
-/

namespace RiscAsm.Yaml

/-- An instruction to the reader of a document. -/
inductive Directive where
  /-- The version of the language. -/
  | version (major : Nat)
  /-- What a handle at the start of a tag stands for. -/
  | handle (name start : Text)
  | other
  deriving DecidableEq, Repr

/-- The parts of a document. -/
inductive Token where
  | directive (d : Directive)
  | documentStart
  | documentEnd
  | blockSequenceStart
  | blockMappingStart
  | blockEnd
  | flowSequenceStart
  | flowMappingStart
  | flowSequenceEnd
  | flowMappingEnd
  | blockEntry
  | flowEntry
  | key
  | value
  | alias (name : Text)
  | anchor (name : Text)
  /-- A tag, after a handle or in full. -/
  | tag (handle : Option Text) (name : Text)
  | scalar (plain : Bool) (text : Text)
  deriving DecidableEq, Repr

/-- A place where a key may have started. -/
structure KeyStart where
  /-- The number of the token that the key would start with. -/
  token : Nat
  /-- Whether there must be a key. -/
  required : Bool
  index : Nat
  line : Nat
  column : Nat
  deriving DecidableEq, Repr

/-- The state while tokens are found. -/
structure Scan where
  cursor : Cursor
  /-- The tokens found so far, latest first. -/
  tokens : List Token := []
  /-- How many there are. -/
  count : Nat := 0
  /-- How many flow collections are open. -/
  flow : Int := 0
  /-- The column of the block collection at hand, or -1 outside all of them. -/
  indent : Int := -1
  /-- The columns of the block collections around it. -/
  outer : List Int := []
  /-- Whether a key may start here. -/
  keyAllowed : Bool := true
  /-- The possible keys, by the number of open flow collections. -/
  keys : List (Int × KeyStart) := []
  deriving DecidableEq, Repr

namespace Scan

/-- Whether a flow collection is open. -/
def inFlow (s : Scan) : Bool := s.flow != 0

/-- Adds a token at the end. -/
def emit (s : Scan) (t : Token) : Scan :=
  { s with tokens := t :: s.tokens, count := s.count + 1 }

/-- Puts a token before the one with the given number. -/
def insert (s : Scan) (n : Nat) (t : Token) : Scan :=
  let later := s.count - n
  { s with tokens := s.tokens.take later ++ t :: s.tokens.drop later, count := s.count + 1 }

/-- Ends the block collections that are indented deeper than `column`. -/
def unwindAux (column : Int) : List Int → Scan → Scan
  | [], s => s
  | o :: rest, s =>
    if s.indent > column then
      unwindAux column rest { s.emit .blockEnd with indent := o, outer := rest }
    else s

/-- Ends the block collections that are indented deeper than `column`. -/
def unwind (s : Scan) (column : Int) : Scan :=
  if s.inFlow then s else unwindAux column s.outer s

/-- Starts a block collection at a column, if it is deeper than the one at hand. -/
def indentTo (s : Scan) (column : Int) : Option Scan :=
  if s.indent < column then some { s with outer := s.indent :: s.outer, indent := column } else none

/-- Gives up the possible key at the current depth; there must not be one that is required. -/
def dropKey (s : Scan) : Option Scan :=
  match s.keys.lookup s.flow with
  | none => some s
  | some k =>
    if k.required then none else some { s with keys := s.keys.filter fun e => e.1 != s.flow }

/-- Remembers that a key may start here. -/
def markKey (s : Scan) : Option Scan :=
  if s.keyAllowed then do
    let s ← s.dropKey
    let k : KeyStart :=
      { token := s.count
        required := !s.inFlow && s.indent == s.cursor.column
        index := s.cursor.index, line := s.cursor.line, column := s.cursor.column }
    return { s with keys := (s.flow, k) :: s.keys }
  else some s

/-- Whether a key can no longer have started at a place. -/
def isStale (s : Scan) (k : KeyStart) : Bool :=
  k.line != s.cursor.line || s.cursor.index - k.index > 1024

/-- Gives up the possible keys that are on another line or too far back. -/
def dropStaleKeys (s : Scan) : Option Scan :=
  if s.keys.any fun e => s.isStale e.2 && e.2.required then none
  else some { s with keys := s.keys.filter fun e => !s.isStale e.2 }

/-- Moves over spaces, comments and line breaks. -/
def skipAux : Nat → Scan → Scan
  | 0, s => s
  | fuel + 1, s =>
    let c := s.cursor.skipWhile (· == ' ')
    let c := if c.sees '#' then c.skipWhile (!isBreak ·) else c
    match c.takeBreak with
    | ([], c) => { s with cursor := c }
    | (_, c) => skipAux fuel { s with cursor := c, keyAllowed := s.keyAllowed || !s.inFlow }

/-- Moves to the next token. -/
def skip (s : Scan) : Scan :=
  let c := if s.cursor.index == 0 && s.cursor.sees '\ufeff' then s.cursor.advance else s.cursor
  skipAux (c.rest.length + 1) { s with cursor := c }

/-- Moves over `n` characters. -/
def moveBy (s : Scan) (n : Nat) : Scan := { s with cursor := s.cursor.advanceBy n }

/-! ## Single tokens -/

/-- A line that divides documents. -/
def documentMark (s : Scan) (t : Token) : Option Scan := do
  let s ← (s.unwind (-1)).dropKey
  return { (s.emit t).moveBy 3 with keyAllowed := false }

/-- The start of a flow collection. -/
def flowStart (s : Scan) (t : Token) : Option Scan := do
  let s ← s.markKey
  return { (s.emit t).moveBy 1 with flow := s.flow + 1, keyAllowed := true }

/-- The end of a flow collection. -/
def flowEnd (s : Scan) (t : Token) : Option Scan := do
  let s ← s.dropKey
  return { (s.emit t).moveBy 1 with flow := s.flow - 1, keyAllowed := false }

/-- The comma between parts of a flow collection. -/
def flowEntry (s : Scan) : Option Scan := do
  let s ← s.dropKey
  return { (s.emit .flowEntry).moveBy 1 with keyAllowed := true }

/-- Starts a block collection here if it is needed. -/
def openBlock (s : Scan) (t : Token) : Option Scan :=
  if s.inFlow then some s
  else if !s.keyAllowed then none
  else match s.indentTo s.cursor.column with
    | some s => some (s.emit t)
    | none => some s

/-- The dash before a part of a block sequence. -/
def blockEntry (s : Scan) : Option Scan := do
  let s ← s.openBlock .blockSequenceStart
  let s ← s.dropKey
  return { (s.emit .blockEntry).moveBy 1 with keyAllowed := true }

/-- The question mark before a key. -/
def explicitKey (s : Scan) : Option Scan := do
  let s ← s.openBlock .blockMappingStart
  let s ← s.dropKey
  return { (s.emit .key).moveBy 1 with keyAllowed := !s.inFlow }

/-- The colon before a value. -/
def valueMark (s : Scan) : Option Scan :=
  match s.keys.lookup s.flow with
  | some k =>
    let s := { s with keys := s.keys.filter fun e => e.1 != s.flow }
    let s := s.insert k.token .key
    let s := if s.inFlow then s else match s.indentTo k.column with
      | some s => s.insert k.token .blockMappingStart
      | none => s
    some { (s.emit .value).moveBy 1 with keyAllowed := false }
  | none => do
    let s ← s.openBlock .blockMappingStart
    let s ← s.dropKey
    return { (s.emit .value).moveBy 1 with keyAllowed := !s.inFlow }

/-- A character of the name of an anchor. -/
def isNameChar (c : Char) : Bool := c.isAlphanum || c == '-' || c == '_'

/-- An anchor or an alias, from its mark on. -/
def named (s : Scan) (make : Text → Token) : Option Scan := do
  let s ← s.markKey
  let (name, c) := s.cursor.advance.takeWhile isNameChar
  if name.isEmpty ||
      !endsWith [' ', '\t', '?', ':', ',', ']', '\x7d', '%', '@', '\x60'] c.peek then none
  else return { s.emit (make name) with cursor := c, keyAllowed := false }

/-- A character of a tag that stands for itself. -/
def isTagChar (c : Char) : Bool := c.isAlphanum || "-;/?:@&=+$,_.!~*'()[]".toList.contains c

/-- Takes bytes written as pairs of digits after percent signs. -/
def percentBytes : Nat → Cursor → Option (List UInt8 × Cursor)
  | 0, _ => none
  | fuel + 1, c =>
    match c.rest with
    | '%' :: a :: b :: _ => do
      let n ← hexValue? [a, b]
      let (bytes, c) ← percentBytes fuel (c.advanceBy 3)
      return (UInt8.ofNat n :: bytes, c)
    | '%' :: _ => none
    | _ => some ([], c)

/-- Takes the name of a tag, given what was found of it, latest first. -/
def tagName : Nat → Text → Cursor → Option (Text × Cursor)
  | 0, _, _ => none
  | fuel + 1, done, c =>
    if c.sees '%' then do
      let (bytes, c) ← percentBytes (c.rest.length + 1) c
      let text ← (Utf8.decode bytes).toOption
      tagName fuel (text.reverse ++ done) c
    else if c.peek.any isTagChar then
      let (text, c) := c.takeWhile isTagChar
      tagName fuel (text.reverse ++ done) c
    else some (done.reverse, c)

/-- Takes the name of a tag, which is not empty. -/
def takeTagName (c : Cursor) : Option (Text × Cursor) := do
  let start := c.index
  let (name, c) ← tagName (c.rest.length + 1) [] c
  if c.index = start then none else return (name, c)

/-- Takes the handle at the start of a tag: a mark, or a name between two. -/
def takeHandle (c : Cursor) : Option (Text × Cursor) :=
  if !c.sees '!' then none
  else if c.peekAt 1 == some ' ' then some (['!'], c.advance)
  else
    let (name, c) := c.advance.takeWhile isNameChar
    if c.sees '!' then some ('!' :: name ++ ['!'], c.advance) else none

/-- Takes a tag with its handle. -/
def takeTag (c : Cursor) : Option (Token × Cursor) :=
  match c.peekAt 1 with
  | some '<' => do
    let (name, c) ← takeTagName (c.advanceBy 2)
    if c.sees '>' then return (.tag none name, c.advance) else none
  | next =>
    if isBoundary next then some (.tag none ['!'], c.advance)
    else if (c.advance.rest.takeWhile fun x => !endsWith [' '] (some x)).contains '!' then do
      let (handle, c) ← takeHandle c
      let (name, c) ← takeTagName c
      return (.tag (some handle) name, c)
    else do
      let (name, c) ← takeTagName c.advance
      return (.tag (some ['!']) name, c)

/-- A tag, from its mark on. -/
def tag (s : Scan) : Option Scan := do
  let s ← s.markKey
  let (t, c) ← takeTag s.cursor
  if endsWith [' '] c.peek then return { s.emit t with cursor := c, keyAllowed := false } else none

/-- A block scalar. -/
def block (s : Scan) (folded : Bool) : Option Scan := do
  let s ← s.dropKey
  let (text, c) ← blockScalar folded s.indent s.cursor
  return { s.emit (.scalar false text) with cursor := c, keyAllowed := true }

/-- A quoted scalar. -/
def quoted (s : Scan) (double : Bool) : Except LoadError Scan := do
  let s ← orMalformed s.markKey
  let (text, c) ← quotedScalar double s.cursor
  return { s.emit (.scalar false text) with cursor := c, keyAllowed := false }

/-- A plain scalar. -/
def plain (s : Scan) : Option Scan := do
  let s ← s.markKey
  let (text, crossed, c) := plainScalar s.inFlow (s.indent + 1) s.cursor
  return { s.emit (.scalar true text) with cursor := c, keyAllowed := crossed }

/-! ## Directives -/

/-- Takes a number of a version. -/
def versionNumber (c : Cursor) : Except LoadError (Nat × Cursor) := do
  let (digits, c) := c.takeWhile Char.isDigit
  if digits.isEmpty then throw .malformed
  let n ← Number.readInt 10 digits
  return (n.toNat, c)

/-- Takes a version: two numbers with a point between them. -/
def takeVersion (c : Cursor) : Except LoadError (Directive × Cursor) := do
  let (major, c) ← versionNumber (c.skipWhile (· == ' '))
  if !c.sees '.' then throw .malformed
  let (_, c) ← versionNumber c.advance
  return (.version major, c)

/-- Takes a handle with what it stands for. -/
def takeMeaning (c : Cursor) : Option (Directive × Cursor) := do
  let (handle, c) ← takeHandle (c.skipWhile (· == ' '))
  if !c.sees ' ' then none
  else
    let (start, c) ← takeTagName (c.skipWhile (· == ' '))
    return (.handle handle start, c)

/-- A line with an instruction to the reader of the document. -/
def directive (s : Scan) : Except LoadError Scan := do
  let s ← orMalformed (s.unwind (-1)).dropKey
  let (name, c) := s.cursor.advance.takeWhile isNameChar
  if name.isEmpty || !endsWith [' '] c.peek then throw .malformed
  let (d, c) ←
    if name == "YAML".toList then takeVersion c
    else if name == "TAG".toList then orMalformed (takeMeaning c)
    else pure (.other, c.skipWhile (!isBreak ·))
  if !endsWith [' '] c.peek then throw .malformed
  let c := c.skipWhile (· == ' ')
  let c := if c.sees '#' then c.skipWhile (!isBreak ·) else c
  if !endsWith [] c.peek then throw .malformed
  return { s.emit (.directive d) with cursor := c.takeBreak.2, keyAllowed := false }

/-! ## All tokens -/

/-- The marks that cannot start a plain scalar. -/
def indicators : List Char :=
  ['-', '?', ':', ',', '[', ']', '\x7b', '\x7d', '#', '&', '*', '!', '|', '>', '\'', '"', '%', '@',
   '\x60']

/-- Whether a plain scalar starts with a character, given the one after it. -/
def startsPlain (s : Scan) (x : Char) (next : Option Char) : Bool :=
  (!isBoundary (some x) && !indicators.contains x) ||
    (!isBoundary next && (x == '-' || (!s.inFlow && (x == '?' || x == ':'))))

/-- Finds the token that starts with the character `x`. -/
def next (s : Scan) (x : Char) : Except LoadError Scan :=
  let c := s.cursor
  let after := c.peekAt 1
  if x == '%' && c.column == 0 then s.directive
  else if x == '"' then s.quoted true
  else if x == '\'' then s.quoted false
  else orMalformed <|
    if x == '-' && c.column == 0 && c.seesMarker then s.documentMark .documentStart
    else if x == '.' && c.column == 0 && c.seesMarker then s.documentMark .documentEnd
    else if x == '[' then s.flowStart .flowSequenceStart
    else if x == '\x7b' then s.flowStart .flowMappingStart
    else if x == ']' then s.flowEnd .flowSequenceEnd
    else if x == '\x7d' then s.flowEnd .flowMappingEnd
    else if x == ',' then s.flowEntry
    else if x == '-' && isBoundary after then s.blockEntry
    else if x == '?' && (s.inFlow || isBoundary after) then s.explicitKey
    else if x == ':' && (s.inFlow || isBoundary after) then s.valueMark
    else if x == '*' then s.named .alias
    else if x == '&' then s.named .anchor
    else if x == '!' then s.tag
    else if x == '|' && !s.inFlow then s.block false
    else if x == '>' && !s.inFlow then s.block true
    else if s.startsPlain x after then s.plain
    else none

/-- Finds the next token, unless the document ends. -/
def step (s : Scan) : Except LoadError (Scan × Bool) := do
  let s ← orMalformed s.skip.dropStaleKeys
  let s := s.unwind s.cursor.column
  match s.cursor.peek with
  | none =>
    let s ← orMalformed (s.unwind (-1)).dropKey
    return ({ s with keys := [] }, true)
  | some x =>
    let s ← s.next x
    return (s, false)

/-- The tokens before the first that may still turn out to start a key. -/
def certain (s : Scan) : List Token :=
  let starts := (s.keys.filter fun e => !s.isStale e.2).map (·.2.token)
  s.tokens.reverse.take (starts.foldl min s.count)

/-- Finds all tokens; every step but the last moves forward. -/
def all : Nat → Scan → List Token × Option LoadError
  | 0, s => (s.certain, some .malformed)
  | fuel + 1, s =>
    match s.step with
    | .error error => (s.certain, some error)
    | .ok (s, true) => (s.tokens.reverse, none)
    | .ok (s, false) => all fuel s

end Scan

/-- The tokens of a document, and the fault after them if there is one. -/
def Token.ofText (s : Text) : List Token × Option LoadError :=
  if s.all isAllowed then Scan.all (s.length + 2) { cursor := { rest := s } }
  else ([], some .malformed)

end RiscAsm.Yaml

import RiscAsm.Data.Yaml.Cursor
import RiscAsm.Data.Yaml.Error
import RiscAsm.Numeral

/-!
# Scalars of a YAML document

A scalar is a text that stands plain, between quotes, or as an indented block.  Line breaks inside
plain and quoted scalars are folded: a single one becomes a space, of several the first is dropped.
Each reader gives the text and the place after it.
-/

namespace RiscAsm.Yaml

/-! ## Plain scalars -/

/-- Whether a plain scalar ends before a character, given the one after it. -/
def endsPlain (inFlow : Bool) (c : Char) (next : Option Char) : Bool :=
  isBoundary (some c) ||
    (c == ':' && endsWith ([' ', '\t'] ++ if inFlow then [',', '[', ']', '\x7b', '\x7d'] else [])
      next) ||
    (inFlow && [',', '?', '[', ']', '\x7b', '\x7d'].contains c)

/-- The part of a plain scalar up to a space or a break. -/
def plainRun (inFlow : Bool) : Text → Text
  | [] => []
  | c :: rest => if endsPlain inFlow c rest.head? then [] else c :: plainRun inFlow rest

/-- The breaks and spaces before the continuation of a plain scalar; nothing if a line that divides
documents comes first. -/
def plainBreaks : Nat → Text → Cursor → Option Text × Cursor
  | 0, breaks, c => (some breaks, c)
  | fuel + 1, breaks, c =>
    match c.peek with
    | some ' ' => plainBreaks fuel breaks c.advance
    | some x =>
      if isBreak x then
        let (br, c) := c.takeBreak
        if c.seesMarker then (none, c) else plainBreaks fuel (breaks ++ br) c
      else (some breaks, c)
    | none => (some breaks, c)

/-- A folded line break: `first` is the break, `more` the ones that follow it. -/
def fold (first more : Text) : Text :=
  if first != ['\n'] then first ++ more else if more.isEmpty then [' '] else more

/-- What lies between two parts of a plain scalar, folded, and whether it crosses a line break. -/
def plainSpaces (c : Cursor) : Option Text × Cursor × Bool :=
  let (spaces, c) := c.takeWhile (· == ' ')
  match c.takeBreak with
  | ([], c) => (some spaces, c, false)
  | (first, c) =>
    if c.seesMarker then (none, c, true)
    else match plainBreaks (c.rest.length + 1) [] c with
      | (none, c) => (none, c, true)
      | (some more, c) => (some (fold first more), c, true)

/-- Reads the rest of a plain scalar whose lines are indented by `indent`, given its text so far,
latest first, and the spaces before the next part. -/
def plainAux (inFlow : Bool) (indent : Int) :
    Nat → Text → Text → Bool → Cursor → Text × Bool × Cursor
  | 0, done, _, crossed, c => (done.reverse, crossed, c)
  | fuel + 1, done, spaces, crossed, c =>
    let run := if c.sees '#' then [] else plainRun inFlow c.rest
    if run.isEmpty then (done.reverse, crossed, c)
    else
      let done := run.reverse ++ (spaces.reverse ++ done)
      match plainSpaces (c.advanceBy run.length) with
      | (none, c, crossed) => (done.reverse, crossed, c)
      | (some spaces, c, crossed) =>
        if spaces.isEmpty || c.sees '#' || (!inFlow && c.column < indent) then
          (done.reverse, crossed, c)
        else plainAux inFlow indent fuel done spaces crossed c

/-- Reads a plain scalar: its text, whether a line break follows it, and the place after it. -/
def plainScalar (inFlow : Bool) (indent : Int) (c : Cursor) : Text × Bool × Cursor :=
  plainAux inFlow indent (c.rest.length + 1) [] [] false c

/-! ## Quoted scalars -/

/-- The character that a short escape stands for. -/
def escapeChar? : Char → Option Char
  | '0' => some '\x00'
  | 'a' => some '\x07'
  | 'b' => some '\x08'
  | 't' => some '\t'
  | '\t' => some '\t'
  | 'n' => some '\n'
  | 'v' => some '\x0b'
  | 'f' => some '\x0c'
  | 'r' => some '\r'
  | 'e' => some '\x1b'
  | ' ' => some ' '
  | '"' => some '"'
  | '\\' => some '\\'
  | '/' => some '/'
  | 'N' => some '\u0085'
  | '_' => some '\u00a0'
  | 'L' => some '\u2028'
  | 'P' => some '\u2029'
  | _ => none

/-- The number of hexadecimal digits that an escape takes. -/
def escapeDigits? : Char → Option Nat
  | 'x' => some 2
  | 'u' => some 4
  | 'U' => some 8
  | _ => none

/-- The value of hexadecimal digits. -/
def hexValue? (digits : Text) : Option Nat :=
  if digits.all fun c => c.toNat < 128 then
    digits.foldlM (fun n c => (Numeral.digit? 16 c).map fun d => n * 16 + d) 0
  else none

/-- The breaks after the first one inside a quoted scalar. -/
def quotedBreaks : Nat → Text → Cursor → Option (Text × Cursor)
  | 0, _, _ => none
  | fuel + 1, breaks, c =>
    if c.seesMarker then none
    else
      let c := c.skipWhile isGap
      match c.takeBreak with
      | ([], c) => some (breaks, c)
      | (br, c) => quotedBreaks fuel (breaks ++ br) c

/-- The spaces and breaks inside a quoted scalar, folded. -/
def quotedSpaces (c : Cursor) : Option (Text × Cursor) :=
  let (spaces, c) := c.takeWhile isGap
  match c.peek with
  | none => none
  | some _ =>
    match c.takeBreak with
    | ([], c) => some (spaces, c)
    | (first, c) =>
      (quotedBreaks (c.rest.length + 1) [] c).map fun (more, c) => (fold first more, c)

/-- The character of a code.  Halves of pairs are replaced, and a code that is too large for any
character is an error. -/
def codeChar (n : Nat) : Except LoadError Char :=
  if n.isValidChar then .ok (Char.ofNat n)
  else if n < 0x110000 then .ok '\ufffd'
  else if n < 0x80000000 then
    .error (.scalar (.value "chr() arg not in range(0x110000)".toList))
  else .error (.scalar .tooLarge)

/-- Reads an escape after its backslash. -/
def escapeSequence (c : Cursor) : Except LoadError (Text × Cursor) :=
  match c.peek with
  | none => .error .malformed
  | some x =>
    match escapeChar? x, escapeDigits? x with
    | some e, _ => .ok ([e], c.advance)
    | none, some count => do
      let c := c.advance
      let digits := c.rest.take count
      let n ← orMalformed (if digits.length < count then none else hexValue? digits)
      let e ← codeChar n
      return ([e], c.advanceBy count)
    | none, none =>
      if isBreak x then
        let c := c.takeBreak.2
        orMalformed (quotedBreaks (c.rest.length + 1) [] c)
      else .error .malformed

/-- Reads the rest of a quoted scalar, given its text so far, latest first. -/
def quotedAux (double : Bool) : Nat → Text → Cursor → Except LoadError (Text × Cursor)
  | 0, _, _ => .error .malformed
  | fuel + 1, done, c =>
    match c.rest with
    | [] => .error .malformed
    | '\'' :: '\'' :: _ =>
      if double then quotedAux double fuel ('\'' :: done) c.advance
      else quotedAux double fuel ('\'' :: done) (c.advanceBy 2)
    | '\'' :: _ =>
      if double then quotedAux double fuel ('\'' :: done) c.advance
      else .ok (done.reverse, c.advance)
    | '"' :: _ =>
      if double then .ok (done.reverse, c.advance)
      else quotedAux double fuel ('"' :: done) c.advance
    | '\\' :: _ =>
      if double then
        match escapeSequence c.advance with
        | .ok (e, c) => quotedAux double fuel (e.reverse ++ done) c
        | .error error => .error error
      else quotedAux double fuel ('\\' :: done) c.advance
    | x :: _ =>
      if isGap x || isBreak x then
        match quotedSpaces c with
        | some (spaces, c) => quotedAux double fuel (spaces.reverse ++ done) c
        | none => .error .malformed
      else quotedAux double fuel (x :: done) c.advance

/-- Reads a quoted scalar from its quote on. -/
def quotedScalar (double : Bool) (c : Cursor) : Except LoadError (Text × Cursor) :=
  quotedAux double (2 * c.rest.length + 2) [] c.advance

/-! ## Block scalars -/

/-- What is done with the breaks at the end of a block. -/
inductive Chomping where
  | strip | clip | keep
  deriving DecidableEq, Repr

/-- Reads a sign of how breaks at the end are treated. -/
def chomping? : Option Char → Option Chomping
  | some '+' => some .keep
  | some '-' => some .strip
  | _ => none

/-- Reads a digit that says how far a block is indented. -/
def increment? : Option Char → Option Nat
  | some c => if '1' ≤ c && c ≤ '9' then some (c.toNat - '0'.toNat) else none
  | none => none

/-- Reads what stands after the mark of a block on its line. -/
def blockHead (c : Cursor) : Option (Chomping × Option Nat × Cursor) :=
  let (chomp, increment, c) := match chomping? c.peek with
    | some chomp =>
      let c := c.advance
      match increment? c.peek with
      | some n => (chomp, some n, c.advance)
      | none => (chomp, none, c)
    | none =>
      match increment? c.peek with
      | some n =>
        let c := c.advance
        match chomping? c.peek with
        | some chomp => (chomp, some n, c.advance)
        | none => (.clip, some n, c)
      | none => (.clip, none, c)
  if endsWith [' '] c.peek then
    let c := c.skipWhile (· == ' ')
    let c := if c.sees '#' then c.skipWhile (!isBreak ·) else c
    if endsWith [] c.peek then some (chomp, increment, c.takeBreak.2) else none
  else none

/-- The empty lines before a block whose indentation is to be found, latest first, and the deepest
column. -/
def blockIndentation : Nat → Text → Nat → Cursor → Text × Nat × Cursor
  | 0, breaks, deepest, c => (breaks, deepest, c)
  | fuel + 1, breaks, deepest, c =>
    if c.sees ' ' then
      let c := c.advance
      blockIndentation fuel breaks (max deepest c.column) c
    else match c.takeBreak with
      | ([], c) => (breaks, deepest, c)
      | (br, c) => blockIndentation fuel (br ++ breaks) deepest c

/-- Moves over spaces up to a column. -/
def skipIndent : Nat → Nat → Cursor → Cursor
  | 0, _, c => c
  | fuel + 1, indent, c =>
    if c.column < indent && c.sees ' ' then skipIndent fuel indent c.advance else c

/-- The empty lines inside a block, latest first. -/
def blockBreaks (indent : Nat) : Nat → Text → Cursor → Text × Cursor
  | 0, breaks, c => (breaks, c)
  | fuel + 1, breaks, c =>
    let c := skipIndent indent indent c
    match c.takeBreak with
    | ([], c) => (breaks, c)
    | (br, c) => blockBreaks indent fuel (br ++ breaks) c

/-- Reads the lines of a block, given its text so far and the breaks before the next line, both
latest first. -/
def blockLines (folded : Bool) (indent : Nat) :
    Nat → Text → Text → Text → Cursor → Text × Text × Text × Cursor
  | 0, done, breaks, last, c => (done, breaks, last, c)
  | fuel + 1, done, breaks, last, c =>
    if c.column == indent && c.peek.isSome then
      let tight := !(c.peek.any isGap)
      let (line, c) := c.takeWhile (!isBreak ·)
      let done := line.reverse ++ breaks ++ done
      let (last, c) := c.takeBreak
      let (breaks, c) := blockBreaks indent fuel [] c
      if c.column == indent && c.peek.isSome then
        let joint :=
          if folded && last == ['\n'] && tight && !(c.peek.any isGap) then
            if breaks.isEmpty then [' '] else []
          else last
        blockLines folded indent fuel (joint ++ done) breaks last c
      else (done, breaks, last, c)
    else (done, breaks, last, c)

/-- Reads a block scalar from its mark on, inside a collection indented by `outer`. -/
def blockScalar (folded : Bool) (outer : Int) (c : Cursor) : Option (Text × Cursor) := do
  let (chomp, increment, c) ← blockHead c.advance
  let least := (max 1 (outer + 1)).toNat
  let (indent, breaks, c) := match increment with
    | some n =>
      let indent := least + n - 1
      let (breaks, c) := blockBreaks indent (c.rest.length + 1) [] c
      (indent, breaks, c)
    | none =>
      let (breaks, deepest, c) := blockIndentation (c.rest.length + 1) [] 0 c
      (max least deepest, breaks, c)
  let (done, breaks, last, c) := blockLines folded indent (c.rest.length + 1) [] breaks [] c
  let ending := match chomp with
    | .strip => []
    | .clip => last
    | .keep => breaks ++ last
  return ((ending ++ done).reverse, c)

end RiscAsm.Yaml

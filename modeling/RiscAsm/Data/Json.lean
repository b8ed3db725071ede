import RiscAsm.Data.Value

/-!
# JSON

`Json.parse` reads a JSON document into a value, and `Json.render` writes one.  Whole numbers and
numbers with a point or an exponent stay apart, and whole numbers must not be too long; `NaN`,
`Infinity` and `-Infinity` are numbers; of entries with equal keys the last one wins, at the place
of the first.  A string may hold one half of a pair that stands for a character without the other;
no `Text` has such a half, so a document with one is not read.
-/

namespace RiscAsm.Json

/-! ## Reading -/

/-- Why a text is no document. -/
inductive ReadError where
  | malformed
  /-- Too many lists and mappings stand inside each other. -/
  | tooDeep
  /-- A half of a pair that stands for one character stands alone. -/
  | loneHalf
  deriving DecidableEq, Repr

/-- How many lists and mappings may stand inside each other. -/
def maxDepth : Nat := 975

/-- White space between the parts of a document. -/
def isSpace (c : Char) : Bool := c == ' ' || c == '\t' || c == '\n' || c == '\r'

/-- Drops white space. -/
def skip (s : Text) : Text := s.dropWhile isSpace

/-- Reads four hexadecimal digits. -/
def hex4? : Text → Option (Nat × Text)
  | a :: b :: c :: d :: rest => do
    let a ← Numeral.hexDigit? a
    let b ← Numeral.hexDigit? b
    let c ← Numeral.hexDigit? c
    let d ← Numeral.hexDigit? d
    return (((a * 16 + b) * 16 + c) * 16 + d, rest)
  | _ => none

/-- The character of a simple escape. -/
def simpleEscape? : Char → Option Char
  | '"' => some '"'
  | '\\' => some '\\'
  | '/' => some '/'
  | 'b' => some '\x08'
  | 'f' => some '\x0c'
  | 'n' => some '\n'
  | 'r' => some '\r'
  | 't' => some '\t'
  | _ => none

/-- Whether a number is the first half of a pair that stands for one character. -/
def isHighHalf (n : Nat) : Bool := 0xD800 ≤ n && n < 0xDC00

/-- Whether a number is the second half of a pair that stands for one character. -/
def isLowHalf (n : Nat) : Bool := 0xDC00 ≤ n && n < 0xE000

/-- The character of a code point, if it is no half of a pair. -/
def charOf (n : Nat) : Except ReadError Char :=
  if isHighHalf n || isLowHalf n then .error .loneHalf
  else if n.isValidChar then .ok (Char.ofNat n)
  else .error .malformed

/-- The code point that two halves stand for. -/
def pairCode (high low : Nat) : Nat := 0x10000 + (high - 0xD800) * 0x400 + (low - 0xDC00)

/-- What follows a first half: its second half, if it stands there. -/
def lowHalf? : Text → Option (Nat × Text)
  | '\\' :: 'u' :: rest => (hex4? rest).filter fun (n, _) => isLowHalf n
  | _ => none

/-- Reads the rest of a string after its quote.  The characters so far are gathered with the latest
first; there are fewer than `fuel` characters left. -/
def readString : Nat → Text → Text → Except ReadError (Text × Text)
  | 0, _, _ => .error .malformed
  | fuel + 1, done, s =>
    match s with
    | [] => .error .malformed
    | '"' :: rest => .ok (done.reverse, rest)
    | '\\' :: 'u' :: rest =>
      match hex4? rest with
      | none => .error .malformed
      | some (n, rest) =>
        match if isHighHalf n then lowHalf? rest else none with
        | some (low, rest) =>
          readString fuel (Char.ofNat (pairCode n low) :: done) rest
        | none => do
          let c ← charOf n
          readString fuel (c :: done) rest
    | '\\' :: c :: rest =>
      match simpleEscape? c with
      | some e => readString fuel (e :: done) rest
      | none => .error .malformed
    | c :: rest =>
      if c.toNat < 0x20 then .error .malformed else readString fuel (c :: done) rest

/-- Takes digits off the front. -/
def takeDigits (s : Text) : Text × Text := (s.takeWhile Char.isDigit, s.dropWhile Char.isDigit)

/-- Reads the fraction of a number, if there is one. -/
def takeFraction : Text → Text × Text
  | '.' :: rest =>
    match takeDigits rest with
    | ([], _) => ([], '.' :: rest)
    | (digits, rest) => ('.' :: digits, rest)
  | s => ([], s)

/-- Reads the exponent of a number, if there is one. -/
def takeExponent (s : Text) : Text × Text :=
  match s with
  | mark :: rest =>
    if mark == 'e' || mark == 'E' then
      let (sign, rest) := match rest with
        | '+' :: r => (['+'], r)
        | '-' :: r => (['-'], r)
        | r => ([], r)
      match takeDigits rest with
      | ([], _) => ([], s)
      | (digits, rest) => ('e' :: sign ++ digits, rest)
    else ([], s)
  | [] => ([], s)

/-- Reads the whole part of a number: zero, or digits that do not start with zero. -/
def takeWhole : Text → Option (Text × Text)
  | '0' :: rest => some (['0'], rest)
  | s =>
    match takeDigits s with
    | ([], _) => none
    | (digits, rest) => some (digits, rest)

/-- Reads a number after its sign. -/
def readNumber (negative : Bool) (s : Text) : Option (Value × Text) := do
  let (whole, rest) ← takeWhole s
  let (fraction, rest) := takeFraction rest
  let (exponent, rest) := takeExponent rest
  if fraction.isEmpty && exponent.isEmpty then
    let n ← Numeral.readDecimal whole
    return (.int (if negative then -n else n), rest)
  else
    let x := Decimal.readFloat (whole ++ fraction ++ exponent)
    return (.float (if negative then -x else x), rest)

/-- Takes a word off the front. -/
def takeWord? (word : String) (s : Text) : Option Text :=
  if word.toList.isPrefixOf s then some (s.drop word.length) else none

/-- Reads a value that is neither a string nor made of others. -/
def readScalar (s : Text) : Option (Value × Text) :=
  if let some rest := takeWord? "null" s then some (.null, rest)
  else if let some rest := takeWord? "true" s then some (.bool true, rest)
  else if let some rest := takeWord? "false" s then some (.bool false, rest)
  else if let some rest := takeWord? "NaN" s then some (.float (0 / 0), rest)
  else if let some rest := takeWord? "Infinity" s then some (.float (1 / 0), rest)
  else if let some rest := takeWord? "-Infinity" s then some (.float (-1 / 0), rest)
  else match s with
    | '-' :: rest => readNumber true rest
    | _ => readNumber false s

/-- The result of reading the start of a text: a value, and the text after it. -/
abbrev Result := Except ReadError (Value × Text)

mutual

/-- Reads a value.  There are fewer than `fuel` steps left, of which there are two for each
character, and `depth` lists and mappings may still be opened inside each other. -/
def readValue : Nat → Nat → Text → Result
  | 0, _, _ => .error .malformed
  | fuel + 1, depth, s =>
    match s, depth with
    | '"' :: rest, _ => do
      let (content, rest) ← readString fuel [] rest
      return (.text content, rest)
    | '[' :: _, 0 => .error .tooDeep
    | '\x7b' :: _, 0 => .error .tooDeep
    | '[' :: rest, depth + 1 =>
      match skip rest with
      | ']' :: rest => .ok (.list [], rest)
      | rest => readItems fuel depth [] rest
    | '\x7b' :: rest, depth + 1 =>
      match skip rest with
      | '\x7d' :: rest => .ok (.map [], rest)
      | rest => readEntries fuel depth [] rest
    | s, _ =>
      match readScalar s with
      | some result => .ok result
      | none => .error .malformed

/-- Reads the items of a list, gathered with the latest first. -/
def readItems : Nat → Nat → List Value → Text → Result
  | 0, _, _, _ => .error .malformed
  | fuel + 1, depth, items, s => do
    let (item, rest) ← readValue fuel depth s
    match skip rest with
    | ',' :: rest => readItems fuel depth (item :: items) (skip rest)
    | ']' :: rest => return (.list (item :: items).reverse, rest)
    | _ => .error .malformed

/-- Reads the entries of a mapping, gathered with the latest first. -/
def readEntries : Nat → Nat → List (Text × Value) → Text → Result
  | 0, _, _, _ => .error .malformed
  | fuel + 1, depth, entries, s =>
    match s with
    | '"' :: rest => do
      let (key, rest) ← readString fuel [] rest
      match skip rest with
      | ':' :: rest =>
        let (value, rest) ← readValue fuel depth (skip rest)
        let entries := Value.putEntry (· == ·) key value entries
        match skip rest with
        | ',' :: rest => readEntries fuel depth entries (skip rest)
        | '\x7d' :: rest =>
          return (.map (entries.reverse.map fun entry => (.text entry.1, entry.2)), rest)
        | _ => .error .malformed
      | _ => .error .malformed
    | _ => .error .malformed

end

/-- Reads a document. -/
def parse (s : Text) : Except ReadError Value :=
  match readValue (2 * s.length + 2) maxDepth (skip s) with
  | .ok (value, rest) => if (skip rest).isEmpty then .ok value else .error .malformed
  | .error e => .error e

/-! ## Writing -/

/-- One character of a string. -/
def escape (c : Char) : Text :=
  match c with
  | '"' => ['\\', '"']
  | '\\' => ['\\', '\\']
  | '\n' => ['\\', 'n']
  | '\r' => ['\\', 'r']
  | '\t' => ['\\', 't']
  | _ => if c.toNat < 0x20 then '\\' :: 'u' :: Numeral.hex 4 c.toNat else [c]

/-- A string. -/
def quote (s : Text) : Text := '"' :: s.flatMap escape ++ ['"']

/-- The text of a number. -/
def numberText (x : Float) : Text :=
  if x.isNaN then "NaN".toList
  else if x.isInf then (if x < 0 then "-Infinity" else "Infinity").toList
  else Decimal.messageStyle.render x

/-- The key of an entry as a text. -/
def keyText : Value → Text
  | .text s => s
  | v => (v.outer 0).toOption.getD []

mutual

/-- Writes a value as a document. -/
def render : Value → Text
  | .null => "null".toList
  | .bool true => "true".toList
  | .bool false => "false".toList
  | .int n => Numeral.ofInt n
  | .float x => numberText x
  | .text s => quote s
  | .list items => '[' :: Text.join [','] (renderItems [] items) ++ [']']
  | .map entries => '\x7b' :: Text.join [','] (renderEntries [] entries) ++ ['\x7d']
  | v => quote ((v.outer 0).toOption.getD [])

/-- Writes the items of a list, gathered with the latest first. -/
def renderItems (done : List Text) : List Value → List Text
  | [] => done.reverse
  | item :: rest => renderItems (render item :: done) rest

/-- Writes the entries of a mapping, gathered with the latest first. -/
def renderEntries (done : List Text) : List (Value × Value) → List Text
  | [] => done.reverse
  | (key, value) :: rest =>
    renderEntries ((quote (keyText key) ++ ':' :: render value) :: done) rest

end

end RiscAsm.Json

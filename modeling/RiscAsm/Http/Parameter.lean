import RiscAsm.Http.Percent
import RiscAsm.Text.LowerCase

/-!
# Header values with parameters

A header such as a content type has a value and, after semicolons, parameters.  The value of a
parameter is a token or stands between quotes.  A name that ends in a star announces a value with
percent escapes, which may start with the name of a character set; a name that ends in a star and a
number belongs to a value that is given in several pieces.
-/

namespace RiscAsm.Http

/-! ## Character sets -/

/-- The character sets that escapes and form fields may be written in. -/
inductive Charset where
  | ascii | utf8 | latin1
  deriving DecidableEq, Repr

/-- The character set with a name in lower case. -/
def Charset.ofName? (s : Text) : Option Charset :=
  if s == "utf-8".toList then some utf8
  else if s == "ascii".toList || s == "us-ascii".toList then some ascii
  else if s == "iso-8859-1".toList then some latin1
  else none

/-- The text of bytes, with a replacement for what is no text. -/
def Charset.decode (charset : Charset) (bytes : List UInt8) : Text :=
  match charset with
  | utf8 => Utf8.repair bytes
  | ascii => bytes.map fun b => if b < 0x80 then Char.ofNat b.toNat else Utf8.replacement
  | latin1 => bytes.map fun b => Char.ofNat b.toNat

/-! ## Values as they are written -/

/-- A header value with its parameters, of which the names are in lower case. -/
structure HeaderValue where
  value : Text
  parameters : List (Text × Text) := []
  deriving DecidableEq, Repr

namespace HeaderValue

/-- A blank that may stand around the parts of a header: a space or a tab. -/
def isGap (c : Char) : Bool := c == ' ' || c == '\t'

/-- A part of a header without the blanks around it. -/
def trim (s : Text) : Text := ((s.dropWhile isGap).reverse.dropWhile isGap).reverse

/-- The marks that tokens may have beside letters, digits and the underscore. -/
def tokenMarks : List Char := "!#$%&'*+-.^\x60|~".toList

/-- A character of a token. -/
def isTokenChar (c : Char) : Bool := c.isAlphanum || c == '_' || tokenMarks.contains c

/-- Takes a name and the equals sign after it off the front. -/
def takeName? (s : Text) : Option (Text × Text) :=
  match s.takeWhile isTokenChar, s.dropWhile isTokenChar with
  | [], _ => none
  | name, '=' :: rest => some (name, rest)
  | _, _ => none

/-- Divides a text after the quote that closes it.  A backslash hides a quote and a backslash from
that; what comes before is gathered latest first. -/
def closeQuote? (done : Text) : Text → Option (Text × Text)
  | [] => none
  | '\\' :: '\\' :: rest => closeQuote? ('\\' :: '\\' :: done) rest
  | '\\' :: '"' :: rest => closeQuote? ('"' :: '\\' :: done) rest
  | '"' :: rest => some (('"' :: done).reverse, rest)
  | c :: rest => closeQuote? (c :: done) rest

/-- Takes a value as it is written off the front, if there is one: a token, or a text with its
quotes.  A quote that is not closed takes all that follows with it. -/
def takeValue (s : Text) : Option Text × Text :=
  match s.takeWhile isTokenChar, s with
  | [], '"' :: rest =>
    match closeQuote? ['"'] rest with
    | some (value, after) => (some value, after)
    | none => (none, [])
  | [], _ => (none, s)
  | token, _ => (some token, s.dropWhile isTokenChar)

/-- The parameters as they are written.  What is no parameter is passed over up to the next
semicolon. -/
def writtenAux : Nat → Text → List (Text × Text)
  | 0, _ => []
  | fuel + 1, s =>
    let (found, rest) : List (Text × Text) × Text := match takeName? s with
      | none => ([], s)
      | some (name, rest) =>
        let (value, rest) := takeValue rest
        (value.toList.map fun value => (name.map Char.toLower, value), rest)
    match Text.cutAt? ';' rest with
    | some (_, after) => found ++ writtenAux fuel (after.dropWhile isGap)
    | none => found

/-- The parameters as they are written. -/
def written (s : Text) : List (Text × Text) := writtenAux (s.length + 1) s

/-! ## What is meant -/

/-- The character sets named so far: the last one at all, and the last one that is known. -/
structure Named where
  last : Text := []
  known : Text := []
  deriving DecidableEq, Repr

/-- Takes the name of a character set, and that of a language, off the front of a value. -/
def takeCharset? (s : Text) : Option (Text × Text) :=
  if s.all isTokenChar then
    match s.splitOn '\'' with
    | charset :: _ :: value => some (charset, Text.join ['\''] value)
    | _ => none
  else none

/-- Reads a value with escapes. -/
def extended (named : Named) (s : Text) : Named × Text :=
  let (last, value) := match (takeCharset? s).filter fun found => !found.2.isEmpty with
    | some (charset, value) => (charset.map Char.toLower, value)
    | none => (named.last, s)
  let last := if last.isEmpty then named.known else last
  match Charset.ofName? last with
  | some charset => (⟨last, last⟩, charset.decode (Percent.bytes value))
  | none => ({ named with last }, value)

/-- Puts `new` in the place of every `a` that a `b` follows, and of that. -/
def replacePair (a b : Char) (new : Char) : Text → Text
  | x :: y :: rest =>
    if x == a && y == b then new :: replacePair a b new rest
    else x :: replacePair a b new (y :: rest)
  | short => short

/-- Puts a quote in the place of its escape. -/
def replaceEscapedQuote : Text → Text
  | '%' :: '2' :: '2' :: rest => '"' :: replaceEscapedQuote rest
  | c :: rest => c :: replaceEscapedQuote rest
  | [] => []

/-- A value without the quotes it stands between. -/
def unquote (s : Text) : Text :=
  if s.head? == some '"' && s.getLast? == some '"' then
    let bare := (s.drop 1).dropLast
    replaceEscapedQuote (replacePair '\\' '"' '"' (replacePair '\\' '\\' '\\' bare))
  else s

/-- The name of a value that is given in pieces, without the number of the piece. -/
def pieceOf? (name : Text) : Option Text :=
  let digits := name.reverse.takeWhile Char.isDigit
  match name.reverse.dropWhile Char.isDigit with
  | '*' :: rest => if digits.isEmpty then none else some rest.reverse
  | _ => none

/-- Sets a parameter. -/
def set (name value : Text) (parameters : List (Text × Text)) : List (Text × Text) :=
  (name, value) :: parameters.filter fun entry => entry.1 != name

/-- Reads a parameter as it is written. -/
def read (state : Named × List (Text × Text)) (entry : Text × Text) :
    Named × List (Text × Text) :=
  let (named, parameters) := state
  let (name, named, value) := match Text.dropEnding? ['*'] entry.1 with
    | some name => (name, extended named entry.2)
    | none => (entry.1, named, entry.2)
  let value := unquote value
  match pieceOf? name with
  | some whole => (named, set whole ((parameters.lookup whole).getD [] ++ value) parameters)
  | none => (named, set name value parameters)

/-- Reads a header value. -/
def parse (s : Text) : HeaderValue :=
  let (value, rest) := (Text.cutAt? ';' s).getD (s, [])
  let value := trim value
  let rest := trim rest
  if value.isEmpty || rest.isEmpty then { value }
  else { value, parameters := ((written rest).foldl read ({}, [])).2 }

end HeaderValue

end RiscAsm.Http

import RiscAsm.Numeral
import RiscAsm.Text.Utf8

/-!
# Percent escapes

In addresses, queries and headers a byte may be written as `%` with two hexadecimal digits.  Such
escapes stand for bytes, and only several of them together for a character: a text is taken to
bytes first and then back.
-/

namespace RiscAsm.Percent

/-- The byte that two hexadecimal digits stand for. -/
def byte? (a b : Char) : Option UInt8 := do
  let high ← Numeral.hexDigit? a
  let low ← Numeral.hexDigit? b
  return (high * 16 + low).toUInt8

/-- The bytes of a text after its escapes have been replaced, gathered latest first. -/
def bytesAux (done : List UInt8) : Text → List UInt8
  | [] => done.reverse
  | '%' :: a :: b :: rest =>
    match byte? a b with
    | some byte => bytesAux (byte :: done) rest
    | none => bytesAux (0x25 :: done) (a :: b :: rest)
  | c :: rest => bytesAux ((Utf8.encodeChar c).reverse ++ done) rest

/-- The bytes of a text after its escapes have been replaced. -/
def bytes (s : Text) : List UInt8 := bytesAux [] s

/-- A byte written as an escape. -/
def escape (b : UInt8) : Text := '%' :: Numeral.hexUpper 2 b.toNat

/-- The text of bytes, where bytes that are no text are written as escapes. -/
def keepInvalid : Nat → List UInt8 → Text
  | 0, _ => []
  | fuel + 1, bytes =>
    match Utf8.decode bytes with
    | .ok text => text
    | .error invalid =>
      let before := match Utf8.decode (bytes.take invalid.offset) with
        | .ok text => text
        | .error _ => []
      match bytes.drop invalid.offset with
      | b :: rest => before ++ escape b ++ keepInvalid fuel rest
      | [] => before

/-- A text without its escapes, where those that are no text stay. -/
def decodeKeeping (s : Text) : Text := keepInvalid (s.length + 1) (bytes s)

/-- A text without its escapes, where those that are no text are replaced. -/
def decode (s : Text) : Text := Utf8.repair (bytes s)

end RiscAsm.Percent

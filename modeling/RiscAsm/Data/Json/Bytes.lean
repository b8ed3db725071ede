import RiscAsm.Buffer
import RiscAsm.Data.Json
import RiscAsm.Text.Utf8

/-!
# JSON documents as bytes

A document that comes as bytes is written in UTF-8, UTF-16 or UTF-32.  Which of them it is shows in
its first bytes: in a mark, or in where the zeros stand, since a document starts with an ASCII
character.
-/

namespace RiscAsm.Json

/-- The order of the bytes of a number. -/
inductive ByteOrder where
  | little | big
  deriving DecidableEq, Repr

/-- The number that bytes stand for in an order. -/
def ByteOrder.value (order : ByteOrder) (bytes : List UInt8) : Nat :=
  match order with
  | little => Bytes.value bytes
  | big => Bytes.value bytes.reverse

/-- The ways to write a document. -/
inductive Encoding where
  | utf8
  | utf16 (order : ByteOrder)
  | utf32 (order : ByteOrder)
  deriving DecidableEq, Repr

/-- The encoding that the zeros among the first bytes show. -/
def Encoding.ofZeros : List UInt8 → Encoding
  | [a, b] => if a = 0 then utf16 .big else if b = 0 then utf16 .little else utf8
  | a :: b :: c :: d :: _ =>
    if a = 0 then if b = 0 then utf32 .big else utf16 .big
    else if b = 0 then if c = 0 ∧ d = 0 then utf32 .little else utf16 .little
    else utf8
  | _ => utf8

/-- The encoding of a document, and its bytes without the mark that may stand at the start. -/
def Encoding.detect : List UInt8 → Encoding × List UInt8
  | 0x00 :: 0x00 :: 0xFE :: 0xFF :: rest => (utf32 .big, rest)
  | 0xFF :: 0xFE :: 0x00 :: 0x00 :: rest => (utf32 .little, rest)
  | 0xFE :: 0xFF :: rest => (utf16 .big, rest)
  | 0xFF :: 0xFE :: rest => (utf16 .little, rest)
  | 0xEF :: 0xBB :: 0xBF :: rest => (utf8, rest)
  | bytes => (ofZeros bytes, bytes)

/-- The numbers of two bytes each, gathered with the latest first. -/
def pairsAux (order : ByteOrder) (done : List Nat) : List UInt8 → Option (List Nat)
  | [] => some done.reverse
  | a :: b :: rest => pairsAux order (order.value [a, b] :: done) rest
  | _ => none

/-- The numbers of four bytes each, gathered with the latest first. -/
def foursAux (order : ByteOrder) (done : List Nat) : List UInt8 → Option (List Nat)
  | [] => some done.reverse
  | a :: b :: c :: d :: rest => foursAux order (order.value [a, b, c, d] :: done) rest
  | _ => none

/-- Joins the halves of pairs that stand for one character, gathered with the latest first. -/
def joinHalvesAux (done : List Nat) : List Nat → List Nat
  | [] => done.reverse
  | high :: low :: rest =>
    if isHighHalf high && isLowHalf low then joinHalvesAux (pairCode high low :: done) rest
    else joinHalvesAux (high :: done) (low :: rest)
  | [last] => (last :: done).reverse

/-- Whether three bytes are a half of a pair in UTF-8. -/
def isHalf (a b c : UInt8) : Bool := a == 0xED && 0xA0 ≤ b && b ≤ 0xBF && 0x80 ≤ c && c ≤ 0xBF

/-- Bytes without the halves of pairs in them, gathered with the latest first. -/
def dropHalvesAux (done : List UInt8) : List UInt8 → List UInt8
  | a :: b :: c :: rest =>
    if isHalf a b c then dropHalvesAux done rest else dropHalvesAux (a :: done) (b :: c :: rest)
  | rest => done.reverse ++ rest

/-- The text of bytes in UTF-8. -/
def decodeUtf8 (bytes : List UInt8) : Except ReadError Text :=
  match Utf8.decode bytes, Utf8.decode (dropHalvesAux [] bytes) with
  | .ok text, _ => .ok text
  | .error _, .ok _ => .error .loneHalf
  | .error _, .error _ => .error .malformed

/-- The text of bytes in an encoding. -/
def Encoding.decode (encoding : Encoding) (bytes : List UInt8) : Except ReadError Text :=
  match encoding with
  | utf8 => decodeUtf8 bytes
  | utf16 order =>
    match pairsAux order [] bytes with
    | some units => (joinHalvesAux [] units).mapM charOf
    | none => .error .malformed
  | utf32 order =>
    match foursAux order [] bytes with
    | some codes => codes.mapM charOf
    | none => .error .malformed

/-- Reads a document from bytes. -/
def ofBytes (bytes : List UInt8) : Except ReadError Value := do
  let (encoding, content) := Encoding.detect bytes
  parse (← encoding.decode content)

end RiscAsm.Json

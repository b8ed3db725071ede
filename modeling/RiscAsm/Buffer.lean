import RiscAsm.Numeral

/-!
# Program buffers

A `Buffer` holds the bytes of an assembled program, words in little-endian order, until it is
released.  After that its bytes can no longer be read.
-/

namespace RiscAsm

/-- The number of bytes of an instruction. -/
def instructionWidth : Nat := 4

/-! ## Words and bytes -/

namespace Bytes

/-- The four bytes of a word, lowest first. -/
def ofWord (n : Nat) : List UInt8 :=
  [n.toUInt8, (n / 256).toUInt8, (n / 65536).toUInt8, (n / 16777216).toUInt8]

/-- The bytes of words, one after the other. -/
def ofWords (words : List Nat) : List UInt8 := words.flatMap ofWord

/-- The number that bytes stand for, lowest first. -/
def value (bytes : List UInt8) : Nat := bytes.foldr (fun b n => b.toNat + 256 * n) 0

/-- The words of bytes, gathered with the latest first; the last one may be short. -/
def toWordsAux (done : List Nat) : List UInt8 → List Nat
  | [] => done.reverse
  | a :: b :: c :: d :: rest => toWordsAux (value [a, b, c, d] :: done) rest
  | short => (value short :: done).reverse

/-- The words of bytes; if the last four are not complete, the missing ones count as zero. -/
def toWords (bytes : List UInt8) : List Nat := toWordsAux [] bytes

/-- Bytes as pairs of hexadecimal digits. -/
def hexText (bytes : List UInt8) : Text := bytes.flatMap fun b => Numeral.hex 2 b.toNat

end Bytes

/-! ## Buffers -/

/-- The bytes of a program, or nothing once they are released. -/
structure Buffer where
  content : Option (List UInt8)
  deriving DecidableEq, Repr

/-- The failure of reading a buffer that was released. -/
structure Released where
  deriving DecidableEq, Repr

/-- The wording of that failure. -/
def Released.message : Text := "operation forbidden on released ProgramBuffer".toList

namespace Buffer

/-- A buffer that holds the given bytes. -/
def ofBytes (bytes : List UInt8) : Buffer := ⟨some bytes⟩

/-- A buffer without bytes. -/
def empty : Buffer := ofBytes []

/-- An integer as a machine word, if it is one. -/
def word? : Int → Option Nat
  | .ofNat n => if n < 4294967296 then some n else none
  | .negSucc _ => none

/-- A buffer that holds the given words, if they all are machine words. -/
def ofWords? (words : List Int) : Option Buffer :=
  (words.mapM word?).map fun ws => ofBytes (Bytes.ofWords ws)

/-- Whether a buffer was released. -/
def released (b : Buffer) : Bool := b.content.isNone

/-- The bytes of a buffer. -/
def data (b : Buffer) : Except Released (List UInt8) :=
  match b.content with
  | some bytes => .ok bytes
  | none => .error {}

/-- The words of a buffer. -/
def words (b : Buffer) : Except Released (List Nat) := b.data.map Bytes.toWords

/-- The words of a buffer as eight hexadecimal digits each. -/
def hexWords (b : Buffer) : Except Released (List Text) :=
  b.words.map fun ws => ws.map (Numeral.hex 8)

/-- The number of bytes of a buffer. -/
def size (b : Buffer) : Except Released Nat := b.data.map List.length

/-- Whether two buffers hold the same bytes. -/
def same (a b : Buffer) : Except Released Bool := do
  let x ← a.data
  let y ← b.data
  return x == y

/-- Drops the bytes. -/
def release (_ : Buffer) : Buffer := ⟨none⟩

/-- A buffer as it is shown. -/
def render (b : Buffer) : Text :=
  match b.content with
  | some bytes => "ProgramBuffer(".toList ++ Numeral.ofNat bytes.length ++ " bytes)".toList
  | none => "ProgramBuffer(<released>)".toList

end Buffer

end RiscAsm

import RiscAsm.Text.Basic

/-!
# Base 64

Bytes are written in groups of three as four digits of base 64; a group that is not complete is
filled up with `=`.  When digits are read, everything else between them is passed over.
-/

namespace RiscAsm.Base64

/-- The digit for a number below 64. -/
def digit (n : Nat) : Char :=
  if n < 26 then Char.ofNat ('A'.toNat + n)
  else if n < 52 then Char.ofNat ('a'.toNat + (n - 26))
  else if n < 62 then Char.ofNat ('0'.toNat + (n - 52))
  else if n = 62 then '+'
  else '/'

/-- The four digits of three bytes. -/
def group (a b c : UInt8) : Text :=
  let n := a.toNat * 65536 + b.toNat * 256 + c.toNat
  [digit (n / 262144), digit (n / 4096 % 64), digit (n / 64 % 64), digit (n % 64)]

/-- Encodes bytes, with the digits so far gathered latest first. -/
def encodeAux (done : Text) : List UInt8 → Text
  | a :: b :: c :: rest => encodeAux ((group a b c).reverse ++ done) rest
  | [a, b] => (('=' :: ((group a b 0).take 3).reverse) ++ done).reverse
  | [a] => (('=' :: '=' :: ((group a 0 0).take 2).reverse) ++ done).reverse
  | [] => done.reverse

/-- Encodes bytes. -/
def encode (bytes : List UInt8) : Text := encodeAux [] bytes

/-- The number that a digit stands for. -/
def value? (c : Char) : Option Nat :=
  if 'A' ≤ c && c ≤ 'Z' then some (c.toNat - 'A'.toNat)
  else if 'a' ≤ c && c ≤ 'z' then some (c.toNat - 'a'.toNat + 26)
  else if '0' ≤ c && c ≤ '9' then some (c.toNat - '0'.toNat + 52)
  else if c == '+' then some 62
  else if c == '/' then some 63
  else none

/-- Decodes the rest of a text.  The bytes so far are gathered latest first; `place` digits of the
group at hand have been read, `left` is what they leave over, and `fill` marks follow them. -/
def decodeAux (done : List UInt8) (place left fill : Nat) : Text → Option (List UInt8)
  | [] => if place = 0 then some done.reverse else none
  | '=' :: rest =>
    if place < 2 then decodeAux done place left fill rest
    else if 4 ≤ place + fill + 1 then some done.reverse
    else decodeAux done place left (fill + 1) rest
  | c :: rest =>
    match value? c, place with
    | none, _ => decodeAux done place left fill rest
    | some n, 0 => decodeAux done 1 n 0 rest
    | some n, 1 => decodeAux ((left * 4 + n / 16).toUInt8 :: done) 2 (n % 16) 0 rest
    | some n, 2 => decodeAux ((left * 16 + n / 4).toUInt8 :: done) 3 (n % 4) 0 rest
    | some n, _ => decodeAux ((left * 64 + n).toUInt8 :: done) 0 0 0 rest

/-- Decodes a text; a group must not be cut short. -/
def decode? (s : Text) : Option (List UInt8) := decodeAux [] 0 0 0 s

end RiscAsm.Base64

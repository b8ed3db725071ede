import RiscAsm.Text.Basic

/-!
# UTF-8

`Utf8.decode` reads bytes strictly: overlong forms, surrogates and values past `U+10FFFF` are
refused.  A fault names the offset of the sequence that is wrong and whether its first byte cannot
start a character, a later byte cannot continue it, or the bytes end within it.  `Utf8.repair` reads
any bytes, with a replacement for each sequence that is wrong.
-/

namespace RiscAsm.Utf8

/-- What is wrong with a sequence of bytes. -/
inductive Wrong where
  | start | continuation | ending
  deriving DecidableEq, Repr

/-- A fault and the offset of the sequence that has it. -/
structure Invalid where
  wrong : Wrong
  offset : Nat
  deriving DecidableEq, Repr

/-- The wording of a fault. -/
def Wrong.reason : Wrong → Text
  | start => "invalid start byte".toList
  | continuation => "invalid continuation byte".toList
  | ending => "unexpected end of data".toList

/-- What a first byte announces: how many bytes follow, the least and greatest value of the one
after it, and the bits it contributes. -/
structure Lead where
  follow : Nat
  least : Nat
  greatest : Nat
  bits : Nat
  deriving DecidableEq, Repr

/-- Reads a first byte. -/
def lead? (b : Nat) : Option Lead :=
  if b < 0x80 then some ⟨0, 0x80, 0xBF, b⟩
  else if b < 0xC2 then none
  else if b < 0xE0 then some ⟨1, 0x80, 0xBF, b - 0xC0⟩
  else if b = 0xE0 then some ⟨2, 0xA0, 0xBF, 0⟩
  else if b = 0xED then some ⟨2, 0x80, 0x9F, b - 0xE0⟩
  else if b < 0xF0 then some ⟨2, 0x80, 0xBF, b - 0xE0⟩
  else if b = 0xF0 then some ⟨3, 0x90, 0xBF, 0⟩
  else if b < 0xF4 then some ⟨3, 0x80, 0xBF, b - 0xF0⟩
  else if b = 0xF4 then some ⟨3, 0x80, 0x8F, 4⟩
  else none

/-- The character at hand: where it starts and what its bytes so far say. -/
structure Pending where
  offset : Nat
  lead : Lead
  deriving DecidableEq, Repr

/-- The state while bytes are read: the characters so far, latest first, the offset of the next
byte, and the character at hand. -/
structure Scan where
  done : Text := []
  position : Nat := 0
  pending : Option Pending := none
  deriving DecidableEq, Repr

/-- Reads one byte. -/
def step (s : Scan) (byte : UInt8) : Except Invalid Scan :=
  let b := byte.toNat
  match s.pending with
  | none =>
    match lead? b with
    | none => .error ⟨.start, s.position⟩
    | some ⟨0, _, _, bits⟩ =>
      .ok { s with done := Char.ofNat bits :: s.done, position := s.position + 1 }
    | some lead => .ok { s with position := s.position + 1, pending := some ⟨s.position, lead⟩ }
  | some ⟨offset, lead⟩ =>
    if lead.least ≤ b ∧ b ≤ lead.greatest then
      let bits := lead.bits * 64 + (b - 0x80)
      if lead.follow ≤ 1 then
        .ok { done := Char.ofNat bits :: s.done, position := s.position + 1, pending := none }
      else
        .ok { s with
          position := s.position + 1,
          pending := some ⟨offset, ⟨lead.follow - 1, 0x80, 0xBF, bits⟩⟩ }
    else .error ⟨.continuation, offset⟩

/-- Decodes bytes into text. -/
def decode (bytes : List UInt8) : Except Invalid Text := do
  let s ← bytes.foldlM step {}
  match s.pending with
  | none => return s.done.reverse
  | some ⟨offset, _⟩ => throw ⟨.ending, offset⟩

/-- What stands for a sequence of bytes that is wrong. -/
def replacement : Char := '\ufffd'

/-- Reads one byte, where a sequence that is wrong is replaced as soon as it shows. -/
def repairStep (s : Scan) (byte : UInt8) : Scan :=
  match step s byte with
  | .ok next => next
  | .error _ =>
    let replaced := { s with done := replacement :: s.done, pending := none }
    if s.pending.isNone then replaced
    else match step replaced byte with
      | .ok next => next
      | .error _ => { replaced with done := replacement :: replaced.done }

/-- Decodes bytes into text, with a replacement for each sequence that is wrong. -/
def repair (bytes : List UInt8) : Text :=
  let s := bytes.foldl repairStep {}
  if s.pending.isNone then s.done.reverse else (replacement :: s.done).reverse

/-- The bytes of one character. -/
def encodeChar (c : Char) : List UInt8 :=
  let n := c.toNat
  if n < 0x80 then [n.toUInt8]
  else if n < 0x800 then [(0xC0 + n / 0x40).toUInt8, (0x80 + n % 0x40).toUInt8]
  else if n < 0x10000 then
    [(0xE0 + n / 0x1000).toUInt8, (0x80 + n / 0x40 % 0x40).toUInt8, (0x80 + n % 0x40).toUInt8]
  else
    [(0xF0 + n / 0x40000).toUInt8, (0x80 + n / 0x1000 % 0x40).toUInt8,
     (0x80 + n / 0x40 % 0x40).toUInt8, (0x80 + n % 0x40).toUInt8]

/-- Encodes text as bytes. -/
def encode (s : Text) : List UInt8 := s.flatMap encodeChar

end RiscAsm.Utf8

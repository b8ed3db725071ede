import RiscAsm.Text.Basic
import RiscAsm.Text.Digit

/-!
# Numerals

Integers are written in decimal, hexadecimal or binary, and read back from groups of digits that
single underscores may divide.  A decimal numeral, written or read, has at most `maxDigits` digits.
-/

namespace RiscAsm.Numeral

/-! ## Writing -/

/-- The decimal digits of a natural number. -/
def ofNat (n : Nat) : Text := Nat.toDigits 10 n

/-- The decimal numeral of an integer. -/
def ofInt : Int → Text
  | .ofNat n => ofNat n
  | .negSucc n => '-' :: ofNat (n + 1)

/-- The greatest number of decimal digits that a numeral may have. -/
def maxDigits : Nat := 4300

/-- An integer whose decimal numeral would have more than `maxDigits` digits. -/
def tooLong (n : Int) : Bool := Nat.pow 10 maxDigits ≤ n.natAbs

/-- What is said in place of a text that would hold a numeral that is too long. -/
def tooLongMessage : Text :=
  ("Exceeds the limit (4300 digits) for integer string conversion; " ++
    "use sys.set_int_max_str_digits() to increase the limit").toList

/-- What is said of a decimal numeral that is too long to be read. -/
def tooManyMessage (digits : Nat) : Text :=
  "Exceeds the limit (4300 digits) for integer string conversion: value has ".toList ++
    ofNat digits ++ " digits; use sys.set_int_max_str_digits() to increase the limit".toList

/-- The digits of `n` in the given base, with zeros in front up to `width` digits. -/
def padded (base width n : Nat) : Text := (Nat.toDigits base n).leftpad width '0'

/-- Lower-case hexadecimal digits, at least `width` of them. -/
def hex (width n : Nat) : Text := padded 16 width n

/-- Upper-case hexadecimal digits, at least `width` of them. -/
def hexUpper (width n : Nat) : Text := (hex width n).map Char.toUpper

/-- Binary digits, at least `width` of them. -/
def binary (width n : Nat) : Text := padded 2 width n

/-! ## Reading -/

/-- A blank that may stand around a numeral. -/
def isPadding (c : Char) : Bool := isBlank c && !(0x1C ≤ c.toNat && c.toNat ≤ 0x1F)

/-- A text without the blanks around it. -/
def unpad (s : Text) : Text := ((s.dropWhile isPadding).reverse.dropWhile isPadding).reverse

/-- The value of a character as a digit of the given base. -/
def digit? (base : Nat) (c : Char) : Option Nat :=
  let value :=
    if 'a' ≤ c && c ≤ 'z' then some (c.toNat - 'a'.toNat + 10)
    else if 'A' ≤ c && c ≤ 'Z' then some (c.toNat - 'A'.toNat + 10)
    else decimalDigit? c
  value.filter (· < base)

/-- The value of an ASCII hexadecimal digit. -/
def hexDigit? (c : Char) : Option Nat := if c.toNat < 128 then digit? 16 c else none

/-- Reads the rest of groups of digits, given the value so far and whether a digit was just read. -/
def readGroupsAux (base : Nat) (value : Nat) (afterDigit : Bool) : Text → Option Nat
  | [] => if afterDigit then some value else none
  | c :: rest =>
    if c == '_' then
      if afterDigit then readGroupsAux base value false rest else none
    else match digit? base c with
      | some d => readGroupsAux base (value * base + d) true rest
      | none => none

/-- Reads one or more groups of digits joined by single underscores. -/
def readGroups (base : Nat) (s : Text) : Option Nat := readGroupsAux base 0 false s

/-- Reads what follows a radix mark: groups of digits, after an underscore if there is one. -/
def readMarked (base : Nat) : Text → Option Nat
  | '_' :: rest => readGroups base rest
  | s => readGroups base s

/-- The number of digits of a text, leaving out the underscores. -/
def digitCount (s : Text) : Nat := s.countP (· != '_')

/-- Reads groups of decimal digits that are not too many. -/
def readDecimal (s : Text) : Option Nat :=
  if digitCount s ≤ maxDigits then readGroups 10 s else none

end RiscAsm.Numeral

import RiscAsm.Numeral

/-!
# Shortest decimal text of a binary number

A floating-point number stands for every real number that rounds to it.  `shortest` finds the
decimal with the fewest digits among those, and the nearest one to the number if there are several.
All arithmetic is exact.  `Style` holds the decisions on how the digits are laid out.
-/

namespace RiscAsm.Decimal

/-! ## Binary numbers -/

/-- A floating-point number taken apart: a finite one is `significand * 2 ^ exponent`. -/
inductive Binary where
  | notANumber
  | infinite (negative : Bool)
  | finite (negative : Bool) (significand : Nat) (exponent : Int)
  deriving DecidableEq, Repr

/-- The leading bit that a significand has where the exponent is not the least. -/
def hiddenBit : Nat := 4503599627370496

/-- The parts of a floating-point number. -/
def Binary.ofFloat (x : Float) : Binary :=
  let bits := x.toBits.toNat
  let negative := bits / 9223372036854775808 == 1
  let exponent : Nat := bits / hiddenBit % 2048
  let fraction := bits % hiddenBit
  if exponent = 2047 then
    if fraction = 0 then .infinite negative else .notANumber
  else if exponent = 0 then .finite negative fraction (-1074)
  else .finite negative (fraction + hiddenBit) ((exponent : Int) - 1075)

/-! ## Digits -/

/-- A number `digits * 10 ^ power`. -/
structure Digits where
  digits : Nat
  power : Int
  deriving DecidableEq, Repr

/-- The numbers that round to a binary number, as fractions with one denominator. -/
structure Interval where
  value : Nat
  least : Nat
  greatest : Nat
  denominator : Nat
  /-- Whether the ends belong to it. -/
  closed : Bool
  deriving DecidableEq, Repr

/-- The interval of the numbers that round to `significand * 2 ^ exponent`. -/
def Interval.of (significand : Nat) (exponent : Int) : Interval :=
  let unit := Nat.pow 2 exponent.toNat
  let below := if significand = hiddenBit ∧ exponent ≠ -1074 then unit else 2 * unit
  { value := 4 * significand * unit
    least := 4 * significand * unit - below
    greatest := 4 * significand * unit + 2 * unit
    denominator := 4 * Nat.pow 2 (-exponent).toNat
    closed := significand % 2 == 0 }

/-- The decimal with steps of `10 ^ power` that lies in the interval and is nearest to its value. -/
def Interval.nearest? (i : Interval) (power : Int) : Option Digits :=
  let step := i.denominator * Nat.pow 10 power.toNat
  let scale := Nat.pow 10 (-power).toNat
  let holds (d : Nat) : Bool :=
    if i.closed then i.least * scale ≤ d * step && d * step ≤ i.greatest * scale
    else i.least * scale < d * step && d * step < i.greatest * scale
  let lower := i.value * scale / step
  let below := i.value * scale - lower * step
  let above := (lower + 1) * step - i.value * scale
  match holds lower, holds (lower + 1) with
  | true, false => some ⟨lower, power⟩
  | false, true => some ⟨lower + 1, power⟩
  | true, true =>
    if below < above || (below == above && lower % 2 == 0) then some ⟨lower, power⟩
    else some ⟨lower + 1, power⟩
  | false, false => none

/-- Whether the value of an interval is at least `10 ^ power`. -/
def Interval.reaches (i : Interval) (power : Int) : Bool :=
  i.denominator * Nat.pow 10 power.toNat ≤ i.value * Nat.pow 10 (-power).toNat

/-- The greatest power of ten that the value of an interval reaches. -/
def Interval.magnitude (i : Interval) : Int :=
  let guess := ((i.value.log2 : Int) - i.denominator.log2) * 30103 / 100000
  if i.reaches (guess + 1) then guess + 1
  else if i.reaches guess then guess
  else guess - 1

/-- Drops the zeros at the end, of which there are at most `fuel`. -/
def Digits.normalizeAux : Nat → Digits → Digits
  | 0, d => d
  | fuel + 1, d =>
    if d.digits % 10 = 0 then normalizeAux fuel ⟨d.digits / 10, d.power + 1⟩ else d

/-- The shortest decimal that rounds to a positive binary number: at most 17 digits are needed. -/
def shortest (significand : Nat) (exponent : Int) : Digits :=
  let i := Interval.of significand exponent
  let magnitude := i.magnitude
  let found := (List.range 17).findSome? fun k => i.nearest? (magnitude - (k : Nat))
  (found.getD ⟨i.value / i.denominator, 0⟩).normalizeAux 20

/-! ## Layout -/

/-- How digits are laid out. -/
structure Style where
  /-- The least power of ten of a number that is written without an exponent. -/
  leastPositional : Int
  /-- The greatest power of ten of a number that is written without an exponent. -/
  greatestPositional : Int
  /-- The least number of digits of an exponent. -/
  exponentWidth : Nat
  notANumber : Text
  infinite : Text

/-- Numbers in messages have no exponent from a ten-thousandth up to sixteen digits. -/
def messageStyle : Style :=
  { leastPositional := -4
    greatestPositional := 15
    exponentWidth := 2
    notANumber := "nan".toList
    infinite := "inf".toList }

/-- Lays out digits whose first stands for `10 ^ magnitude`. -/
def Style.layOut (style : Style) (digits : Text) (magnitude : Int) : Text :=
  if style.leastPositional ≤ magnitude ∧ magnitude ≤ style.greatestPositional then
    if magnitude < 0 then "0.".toList ++ List.replicate (-magnitude - 1).toNat '0' ++ digits
    else
      let whole := magnitude.toNat + 1
      if digits.length ≤ whole then
        digits ++ List.replicate (whole - digits.length) '0' ++ ".0".toList
      else digits.take whole ++ '.' :: digits.drop whole
  else
    let significand := match digits with
      | [] => []
      | [d] => [d]
      | d :: rest => d :: '.' :: rest
    significand ++ 'e' :: (if magnitude < 0 then '-' else '+') ::
      Numeral.padded 10 style.exponentWidth magnitude.natAbs

/-- The text of a floating-point number. -/
def Style.render (style : Style) (x : Float) : Text :=
  let sign (negative : Bool) : Text := if negative then ['-'] else []
  match Binary.ofFloat x with
  | .notANumber => style.notANumber
  | .infinite negative => sign negative ++ style.infinite
  | .finite negative 0 _ => sign negative ++ "0.0".toList
  | .finite negative significand exponent =>
    let d := shortest significand exponent
    let digits := Numeral.ofNat d.digits
    sign negative ++ style.layOut digits (d.power + digits.length - 1)

/-! ## Reading -/

/-- The floating-point number nearest to `digits * 10 ^ power`, where powers that are out of reach
need not be computed. -/
def toFloat (digits : Nat) (power : Int) : Float :=
  let magnitude := power + (Numeral.ofNat digits).length
  if digits = 0 ∨ magnitude < -400 then 0
  else if 400 < magnitude then 1 / 0
  else if power < 0 then Float.ofScientific digits true (-power).toNat
  else Float.ofScientific digits false power.toNat

/-- Reads decimal digits, skipping a point, with the number of digits that follow it. -/
def readFraction (s : Text) : Nat × Nat :=
  let (value, places, _) := s.foldl (fun (value, places, afterPoint) c =>
    if c == '.' then (value, places, true)
    else (value * 10 + (c.toNat - '0'.toNat), if afterPoint then places + 1 else places,
      afterPoint)) (0, 0, false)
  (value, places)

/-- Reads ASCII digits. -/
def readDigits (s : Text) : Nat := (readFraction s).1

/-- Reads a number written as digits with an optional point and an optional exponent. -/
def readFloat (s : Text) : Float :=
  let isMark (c : Char) : Bool := c == 'e' || c == 'E'
  let (value, places) := readFraction (s.takeWhile (!isMark ·))
  let exponent : Int := match (s.dropWhile (!isMark ·)).drop 1 with
    | '-' :: digits => -(readDigits digits : Int)
    | '+' :: digits => readDigits digits
    | digits => readDigits digits
  toFloat value (exponent - places)

/-- Whether a text is digits with at most one point, and at least one digit. -/
def isPointed (s : Text) : Bool :=
  s.any Char.isDigit && s.all (fun c => c.isDigit || c == '.') && s.count '.' ≤ 1

/-- Whether a text is an exponent of ten, or empty. -/
def isPower : Text → Bool
  | [] => true
  | mark :: rest =>
    let digits := match rest with
      | '-' :: digits | '+' :: digits => digits
      | digits => digits
    mark == 'e' && !digits.isEmpty && digits.all Char.isDigit

/-- The number that a text without a sign stands for. -/
def unsigned? (s : Text) : Option Float :=
  if s == "inf".toList || s == "infinity".toList then some (1 / 0)
  else if s == "nan".toList then some (0 / 0)
  else if isPointed (s.takeWhile (· != 'e')) && isPower (s.dropWhile (· != 'e')) then
    some (readFloat s)
  else none

/-- The number that a text stands for: with blanks around it, a sign, digits of any script, a point
and an exponent, or a word for what is no finite number. -/
def ofText? (s : Text) : Option Float :=
  let plain := (Numeral.unpad s).map fun c =>
    match decimalDigit? c with
    | some d => Nat.digitChar d
    | none => c.toLower
  match plain with
  | '-' :: rest => (unsigned? rest).map fun x => -x
  | '+' :: rest => unsigned? rest
  | rest => unsigned? rest

/-- Whether a floating-point number is a given integer. -/
def isInt (x : Float) (n : Int) : Bool :=
  match Binary.ofFloat x with
  | .finite negative significand exponent =>
    let size := significand * Nat.pow 2 exponent.toNat
    size == n.natAbs * Nat.pow 2 (-exponent).toNat && (size == 0 || negative == decide (n < 0))
  | _ => false

end RiscAsm.Decimal

import RiscAsm.Data.Yaml.Error
import RiscAsm.Decimal.Shortest
import RiscAsm.Text.LowerCase
import RiscAsm.Text.Quoted

/-!
# Numbers in YAML documents

Integers and floating-point numbers are read from any text, with underscores left out.  Colons
divide digits of base 60.  A text that is no number is shown in the fault.
-/

namespace RiscAsm.Yaml.Number

/-- The fault of a text that is no integer; a long text is cut off. -/
def notInt (base : Nat) (s : Text) : LoadError :=
  .scalar (.value ("invalid literal for int() with base ".toList ++ Numeral.ofNat base ++
    ": ".toList ++ (Quoted.quote s).take 200))

/-- The fault of a text that is no floating-point number. -/
def notFloat (s : Text) : LoadError :=
  .scalar (.value ("could not convert string to float: ".toList ++ Quoted.quote s))

/-- A text without its underscores. -/
def ungroup (s : Text) : Text := s.filter (· != '_')

/-- Takes a sign off the front. -/
def takeSign : Text → Bool × Text
  | '-' :: rest => (true, rest)
  | '+' :: rest => (false, rest)
  | s => (false, s)

/-- An integer with its sign. -/
def withSign (negative : Bool) (n : Int) : Int := if negative then -n else n

/-- The letters that may mark digits of a base. -/
def radixMarks : Nat → List Char
  | 2 => ['b', 'B']
  | 8 => ['o', 'O']
  | 16 => ['x', 'X']
  | _ => []

/-- Digits without the mark of their base. -/
def unmarked (base : Nat) : Text → Text
  | '0' :: mark :: digits =>
    if (radixMarks base).contains mark then digits else '0' :: mark :: digits
  | s => s

/-- Reads digits of a base with blanks around them, a sign and the mark of the base.  There may be
any number of them, except in base ten. -/
def readInt (base : Nat) (s : Text) : Except LoadError Int :=
  let (negative, rest) := takeSign (Numeral.unpad s)
  let digits := unmarked base rest
  let count := (digits.takeWhile fun c => (Numeral.digit? base c).isSome).length
  if base = 10 ∧ Numeral.maxDigits < count then
    .error (.scalar (.value (Numeral.tooManyMessage count)))
  else match Numeral.readGroups base digits with
    | some n => .ok (withSign negative n)
    | none => .error (notInt base s)

/-- Reads an integer without its sign: in base two or sixteen after a mark, in base eight after a
zero, in base sixty with colons, or in base ten. -/
def readUnsigned : Text → Except LoadError Int
  | [] => .error (.scalar .empty)
  | ['0'] => .ok 0
  | '0' :: 'b' :: digits => readInt 2 digits
  | '0' :: 'x' :: digits => readInt 16 digits
  | '0' :: digits => readInt 8 ('0' :: digits)
  | s =>
    if s.contains ':' then
      (s.splitOn ':').foldlM (fun n part => do
        let digit ← readInt 10 part
        return n * 60 + digit) 0
    else readInt 10 s

/-- The integer that a text stands for. -/
def int (s : Text) : Except LoadError Int :=
  let (negative, rest) := takeSign (ungroup s)
  (readUnsigned rest).map (withSign negative)

/-- Reads a floating-point number. -/
def readFloat (s : Text) : Except LoadError Float :=
  match Decimal.ofText? s with
  | some x => .ok x
  | none => .error (notFloat s)

/-- The sum of digits of base 60, the last first, from the given power of 60 on. -/
def sixtiesAux (total : Float) (power : Nat) : List Float → Except LoadError Float
  | [] => .ok total
  | digit :: rest =>
    if power < Nat.pow 2 1024 then
      sixtiesAux (total + digit * Float.ofScientific power false 0) (power * 60) rest
    else .error (.scalar .tooLarge)

/-- The number with the given digits of base 60. -/
def sixties (digits : List Float) : Except LoadError Float := sixtiesAux 0 1 digits.reverse

/-- The floating-point number that a text stands for. -/
def float (s : Text) : Except LoadError Float := do
  let s := lower (ungroup s)
  if s.isEmpty then throw (.scalar .empty)
  let (negative, rest) := takeSign s
  let x ←
    if rest == ".inf".toList then pure (1 / 0)
    else if rest == ".nan".toList then pure (0 / 0)
    else if rest.contains ':' then do
      let digits ← (rest.splitOn ':').mapM readFloat
      sixties digits
    else readFloat rest
  return if negative then -x else x

end RiscAsm.Yaml.Number

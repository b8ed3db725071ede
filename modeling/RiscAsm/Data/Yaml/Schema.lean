import RiscAsm.Data.Base64
import RiscAsm.Data.Yaml.Number
import RiscAsm.Data.Yaml.Tag

/-!
# Values of YAML scalars

The tag of a scalar says how its text is read.  A plain scalar has the form that its tag asks for; a
scalar that names its tag may have any text.
-/

namespace RiscAsm.Yaml

/-- The truth value that a word stands for, in any case. -/
def truth (s : Text) : Except LoadError Bool :=
  match Tag.truthWords.lookup (lower s) with
  | some b => .ok b
  | none => .error (.scalar .noTruth)

/-- The value of a text with a tag that is no collection. -/
def scalarValue (tag : Tag) (s : Text) : Except LoadError Value :=
  match tag with
  | .null => .ok .null
  | .bool => (truth s).map .bool
  | .int => (Number.int s).map .int
  | .float => (Number.float s).map .float
  | .binary => do
    if s.any fun c => 128 ≤ c.toNat then throw .malformed
    let bytes ← orMalformed (Base64.decode? s)
    return .bytes bytes
  | .timestamp => time s
  | .str => .ok (.text s)
  | _ => .error .malformed

/-! ## Keys -/

/-- The number that a value stands for. -/
def number? : Value → Option (Int ⊕ Float)
  | .bool b => some (.inl (if b then 1 else 0))
  | .int n => some (.inl n)
  | .float x => some (.inr x)
  | _ => none

/-- Whether two numbers are the same. -/
def sameNumber : Int ⊕ Float → Int ⊕ Float → Bool
  | .inl m, .inl n => m == n
  | .inr x, .inr y => x == y || (x.isNaN && y.isNaN)
  | .inl m, .inr y => Decimal.isInt y m
  | .inr x, .inl n => Decimal.isInt x n

/-- Whether two values are the same key of a mapping.  Numbers and moments are compared by what they
stand for. -/
def sameKey : Value → Value → Bool
  | .null, .null => true
  | .text a, .text b => a == b
  | .date a b c, .date x y z => a == x && b == y && c == z
  | .moment a, .moment b => sameMoment a b
  | .bytes a, .bytes b => a == b
  | a, b =>
    match number? a, number? b with
    | some x, some y => sameNumber x y
    | _, _ => false

/-- The entries of a mapping in order, each key once. -/
def distinct {α : Type} (entries : List (Value × α)) : List (Value × α) :=
  (entries.foldl (fun done entry => Value.putEntry sameKey entry.1 entry.2 done) []).reverse

end RiscAsm.Yaml

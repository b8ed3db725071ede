import RiscAsm.Text.Basic

/-!
# Why a YAML document has no value

A document may be malformed, or one of its scalars may have the form or the tag of a value that does
not exist.  Of several faults the one that is met first counts, so the two are kept apart from the
start.
-/

namespace RiscAsm.Yaml

/-- What is wrong with a scalar. -/
inductive ScalarError where
  /-- It has the form of a value that does not exist. -/
  | value (message : Text)
  /-- It stands for a number that is too large. -/
  | tooLarge
  /-- It has no sign and no digit to start with. -/
  | empty
  /-- It is tagged as a truth value and is none. -/
  | noTruth
  /-- It is tagged as a time and is none. -/
  | noTime
  /-- It is tagged as a time and is no scalar. -/
  | noText
  deriving DecidableEq, Repr

/-- Why a document has no value. -/
inductive LoadError where
  | malformed
  /-- Too many collections stand inside each other. -/
  | tooDeep
  | scalar (error : ScalarError)
  deriving DecidableEq, Repr

/-- A result that is missing because the document is malformed. -/
def orMalformed {α : Type} : Option α → Except LoadError α
  | some a => .ok a
  | none => .error .malformed

end RiscAsm.Yaml

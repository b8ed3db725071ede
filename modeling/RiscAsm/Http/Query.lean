import RiscAsm.Http.Percent

/-!
# Query strings

The query of a request is a list of fields.  In names and values a plus sign stands for a space, and
bytes are written as escapes.
-/

namespace RiscAsm.Query

/-- A name or a value without its escapes. -/
def unescape (s : Text) : Text :=
  Percent.decodeKeeping (s.map fun c => if c == '+' then ' ' else c)

/-- One field of a query; without a value it is empty. -/
def field (s : Text) : Text × Text :=
  match Text.cutAt? '=' s with
  | some (name, value) => (unescape name, unescape value)
  | none => (unescape s, [])

/-- The fields of a query. -/
def parse (s : Text) : List (Text × Text) :=
  ((s.splitOn '&').filter fun part => !part.isEmpty).map field

end RiscAsm.Query

import RiscAsm.Numeral
import RiscAsm.Text.Printable

/-!
# Quoted text

Messages show a text between quotes: single quotes, unless the text holds a single quote and no
double one.  Line breaks, tabs, the backslash, the quote in use and unprintable characters are
written as escapes.
-/

namespace RiscAsm.Quoted

/-- The quote that a text is put between. -/
def mark (s : Text) : Char := if s.contains '\'' && !s.contains '"' then '"' else '\''

/-- One character between quotes. -/
def escape (quote c : Char) : Text :=
  if c == quote || c == '\\' then ['\\', c]
  else if c == '\n' then ['\\', 'n']
  else if c == '\r' then ['\\', 'r']
  else if c == '\t' then ['\\', 't']
  else if isPrintable c then [c]
  else if c.toNat < 0x100 then '\\' :: 'x' :: Numeral.hex 2 c.toNat
  else if c.toNat < 0x10000 then '\\' :: 'u' :: Numeral.hex 4 c.toNat
  else '\\' :: 'U' :: Numeral.hex 8 c.toNat

/-- A text between quotes. -/
def quote (s : Text) : Text :=
  let q := mark s
  q :: s.flatMap (escape q) ++ [q]

end RiscAsm.Quoted

import RiscAsm.Text.Basic

/-!
# Upper case

Names that are ASCII in upper case are compared without regard to case.  A few characters outside
ASCII have an ASCII form in upper case, some of them one of several letters.
-/

namespace RiscAsm

/-- Upper case for the characters whose upper-case form is ASCII; every other character stays as it
is, and cannot be part of a name in ASCII. -/
def upperChar (c : Char) : Text :=
  match c with
  | 'ı' => ['I']
  | 'ſ' => ['S']
  | 'ß' => ['S', 'S']
  | 'ﬀ' => ['F', 'F']
  | 'ﬁ' => ['F', 'I']
  | 'ﬂ' => ['F', 'L']
  | 'ﬃ' => ['F', 'F', 'I']
  | 'ﬄ' => ['F', 'F', 'L']
  | 'ﬅ' | 'ﬆ' => ['S', 'T']
  | c => [c.toUpper]

/-- The upper-case form of a text, as far as it is ASCII. -/
def upperAscii (s : Text) : Text := s.flatMap upperChar

end RiscAsm

import RiscAsm.Text.Ranges

/-!
# Blank characters

`isBlank` holds of the Unicode whitespace characters together with the four information
separators `U+001C` to `U+001F`.  Trimming, word splitting and operand separation all use it.
-/

namespace RiscAsm

/-- The blank characters, as closed ranges of code points. -/
def blankRanges : List (Nat × Nat) :=
  [(0x9, 0xD), (0x1C, 0x20), (0x85, 0x85), (0xA0, 0xA0), (0x1680, 0x1680),
   (0x2000, 0x200A), (0x2028, 0x2029), (0x202F, 0x202F), (0x205F, 0x205F), (0x3000, 0x3000)]

/-- A character that separates words. -/
def isBlank (c : Char) : Bool := inRanges blankRanges c.toNat

end RiscAsm

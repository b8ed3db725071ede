import RiscAsm.Text.Blank

/-!
# Text

A `Text` is a list of characters.  This module holds the operations on it that every other part
uses: trimming blanks, taking the first word, cutting at a mark, finding and replacing a pattern,
and joining parts.
-/

namespace RiscAsm

/-- A sequence of characters. -/
abbrev Text := List Char

namespace Text

/-- Drops the blanks at the start. -/
def trimStart (s : Text) : Text := s.dropWhile isBlank

/-- Drops the blanks at the end. -/
def trimEnd (s : Text) : Text := (trimStart s.reverse).reverse

/-- Drops the blanks at both ends. -/
def trim (s : Text) : Text := trimEnd (trimStart s)

/-- The characters before the first blank. -/
def firstWord (s : Text) : Text := s.takeWhile fun c => !isBlank c

/-- What follows the first word and the blanks after it. -/
def afterFirstWord (s : Text) : Text := trimStart (s.dropWhile fun c => !isBlank c)

/-- The texts before and after the first occurrence of `mark`. -/
def cutAt? (mark : Char) (s : Text) : Option (Text × Text) :=
  match s.dropWhile (· != mark) with
  | [] => none
  | _ :: after => some (s.takeWhile (· != mark), after)

/-- The first position of `pattern` in a text whose own first position is `start`. -/
def findFrom? (pattern : Text) (start : Nat) : Text → Option Nat
  | [] => if pattern.isEmpty then some start else none
  | c :: rest =>
    if pattern.isPrefixOf (c :: rest) then some start else findFrom? pattern (start + 1) rest

/-- The first position at which `pattern` stands in a text. -/
def find? (pattern s : Text) : Option Nat := findFrom? pattern 0 s

/-- Puts `new` in place of the occurrences of `old` from the left on.  The first `skip` characters
belong to an occurrence that has been replaced already.  The text so far is gathered with the latest
character first. -/
def replaceAux (old new done : Text) (skip : Nat) : Text → Text
  | [] => done.reverse
  | c :: rest =>
    match skip with
    | skip + 1 => replaceAux old new done skip rest
    | 0 =>
      if old.isPrefixOf (c :: rest) then
        replaceAux old new (new.reverse ++ done) (old.length - 1) rest
      else replaceAux old new (c :: done) 0 rest

/-- The text with `new` in place of every occurrence of `old`, which is not empty. -/
def replace (old new s : Text) : Text := replaceAux old new [] 0 s

/-- What is left of a text when `ending` is taken off its end. -/
def dropEnding? (ending s : Text) : Option Text :=
  if ending.isSuffixOf s then some (s.take (s.length - ending.length)) else none

/-- Whether a text comes before another or equals it, by code points. -/
def le : Text → Text → Bool
  | [], _ => true
  | _ :: _, [] => false
  | a :: s, b :: t => a.toNat < b.toNat || (a == b && le s t)

/-- Joins texts, putting `separator` between neighbours. -/
def join (separator : Text) (parts : List Text) : Text := List.intercalate separator parts

/-- Joins texts with a comma and a space. -/
def joinComma (parts : List Text) : Text := join [',', ' '] parts

/-- Joins lines with line feeds. -/
def joinLines (lines : List Text) : Text := join ['\n'] lines

end Text

end RiscAsm

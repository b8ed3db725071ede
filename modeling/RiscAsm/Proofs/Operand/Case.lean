import RiscAsm.Proofs.Operand.Memory
import RiscAsm.Proofs.Result
import RiscAsm.Proofs.Text.Case

/-!
# Operands up to the case of letters

No part of an instruction line is read in another way when the capitals in it are made small:
neither the marks and digits of numbers (`Immediate.toOption_parse_foldCase`), nor the names of
registers (`RegisterFile.find?_foldCase`), nor memory operands
(`Operand.toOption_parseMemory_foldCase`).  A line is divided at the same places
(`Operand.tokenize_foldCase`), so that a folded line has the folded operands
(`Statement.parse_foldCase`).
-/

namespace RiscAsm

open Text (foldCase foldCase_cons foldCase_trim foldCase_trimStart lower_foldCase)

/-- A character that is another one than `d`, which is no letter, stays another one. -/
theorem toLower_ne {c d : Char} (h : c ≠ d)
    (hd : ∀ k < 26, (Char.ofNat (97 + k) == d) = (Char.ofNat (65 + k) == d)) : c.toLower ≠ d := by
  rw [← beq_eq_false_iff_ne, toLower_beq hd, beq_eq_false_iff_ne]
  exact h

/-! ## Numbers -/

namespace Numeral

theorem digit?_toLower (base : Nat) (c : Char) : digit? base c.toLower = digit? base c := by
  have hvalue := apply_toLower (f := fun c : Char =>
    if 'a' ≤ c && c ≤ 'z' then some (c.toNat - 'a'.toNat + 10)
    else if 'A' ≤ c && c ≤ 'Z' then some (c.toNat - 'A'.toNat + 10)
    else decimalDigit? c) (by decide +kernel) c
  exact congrArg (Option.filter (· < base)) hvalue

theorem readGroups_foldCase (base : Nat) (s : Text) :
    readGroups base (foldCase s) = readGroups base s :=
  readGroupsAux_map 0 false fun c _ => ⟨digit?_toLower base c, toLower_beq (by decide) c⟩

theorem readDecimal_foldCase (s : Text) : readDecimal (foldCase s) = readDecimal s := by
  have hcount : digitCount (foldCase s) = digitCount s := by
    have hmark : (fun c : Char => c != '_') ∘ Char.toLower = (· != '_') :=
      funext fun c => congrArg (!·) (toLower_beq (by decide) c)
    rw [digitCount, foldCase, List.countP_map, hmark, digitCount]
  rw [readDecimal, readDecimal, hcount, readGroups_foldCase]

theorem readMarked_foldCase (base : Nat) (s : Text) :
    readMarked base (foldCase s) = readMarked base s := by
  cases s with
  | nil => rfl
  | cons c s =>
      by_cases hmark : c = '_'
      · subst hmark
        exact readGroups_foldCase base s
      · rw [foldCase_cons, readMarked, readMarked, ← foldCase_cons, readGroups_foldCase]
        · rintro rest ⟨⟩
          exact hmark rfl
        · rintro rest hrest
          exact toLower_ne hmark (by decide) (List.cons.inj hrest).1

end Numeral

namespace Immediate

theorem readSigned_foldCase (s : Text) : readSigned (foldCase s) = readSigned s := by
  cases s with
  | nil => rfl
  | cons c s =>
      rw [foldCase_cons]
      by_cases hplus : c = '+'
      · subst hplus
        show readSigned ('+' :: foldCase s) = readSigned ('+' :: s)
        rw [readSigned, readSigned, Numeral.readDecimal_foldCase]
      · by_cases hminus : c = '-'
        · subst hminus
          show readSigned ('-' :: foldCase s) = readSigned ('-' :: s)
          rw [readSigned, readSigned, Numeral.readDecimal_foldCase]
        · rw [readSigned, readSigned, ← foldCase_cons, Numeral.readDecimal_foldCase]
          · rintro rest ⟨⟩
            exact hplus rfl
          · rintro rest ⟨⟩
            exact hminus rfl
          · intro rest hrest
            exact toLower_ne hplus (by decide) (List.cons.inj hrest).1
          · intro rest hrest
            exact toLower_ne hminus (by decide) (List.cons.inj hrest).1

/-- Without a zero in front there is no radix mark. -/
theorem read?_eq_readSigned {c : Char} {s : Text} (h : c = '0' → s = []) :
    read? (c :: s) = readSigned (c :: s) := by
  rw [read?]
  rintro letter digits ⟨⟩
  cases h rfl

theorem read?_foldCase (s : Text) : read? (foldCase s) = read? s := by
  cases s with
  | nil => rfl
  | cons c s =>
      by_cases hzero : c = '0' → s = []
      · have hfolded : c.toLower = '0' → foldCase s = [] := by
          intro hc
          have hsame : c = '0' := by
            by_contra hne
            exact toLower_ne hne (by decide) hc
          rw [hzero hsame]
          rfl
        rw [foldCase_cons, read?_eq_readSigned hzero, read?_eq_readSigned hfolded, ← foldCase_cons,
          readSigned_foldCase]
      · obtain ⟨rfl, hne⟩ := Classical.not_imp.mp hzero
        obtain ⟨letter, digits, rfl⟩ := List.exists_cons_of_ne_nil hne
        have hbase : base? letter.toLower = base? letter := apply_toLower (by decide) letter
        have hsigned := readSigned_foldCase ('0' :: letter :: digits)
        show read? ('0' :: letter.toLower :: foldCase digits) = read? ('0' :: letter :: digits)
        rw [read?, read?, hbase]
        cases base? letter with
        | none => exact hsigned
        | some base => simp only [Numeral.readMarked_foldCase]

/-- What follows a minus sign that may stand apart is read on its own. -/
theorem toOption_parse_minus {s rest : Text} (h : Text.trim s = '-' :: rest) :
    (parse s).toOption = (read? (Text.trim rest)).map fun n => -n := by
  rw [parse, h]
  split
  next heq => cases heq
  next heq =>
    obtain rfl := (List.cons.inj heq).2
    simp only
    cases read? (Text.trim rest) with
    | none => rfl
    | some n => rfl
  next hother => exact absurd rfl (hother rest)

/-- Any other text is read as it is. -/
theorem toOption_parse_plain {s : Text} {c : Char} {rest : Text} (h : Text.trim s = c :: rest)
    (hc : c ≠ '-') : (parse s).toOption = read? (c :: rest) := by
  rw [parse, h]
  split
  next heq => cases heq
  next heq => exact absurd (List.cons.inj heq).1 hc
  next =>
    cases read? (c :: rest) with
    | none => rfl
    | some n => rfl

/-- A number is the same whatever the case of its letters. -/
theorem toOption_parse_foldCase (s : Text) :
    (parse (foldCase s)).toOption = (parse s).toOption := by
  rcases htrim : Text.trim s with _ | ⟨c, rest⟩
  · have hfolded : Text.trim (foldCase s) = [] := by
      rw [← foldCase_trim, htrim]
      rfl
    rw [parse, parse, htrim, hfolded]
  · have hfolded : Text.trim (foldCase s) = c.toLower :: foldCase rest := by
      rw [← foldCase_trim, htrim]
      rfl
    by_cases hminus : c = '-'
    · subst hminus
      have hfolded : Text.trim (foldCase s) = '-' :: foldCase rest := hfolded
      rw [toOption_parse_minus htrim, toOption_parse_minus hfolded, ← foldCase_trim, read?_foldCase]
    · rw [toOption_parse_plain htrim hminus,
        toOption_parse_plain hfolded (toLower_ne hminus (by decide)), ← foldCase_cons,
        read?_foldCase]

theorem accepts_foldCase (s : Text) : accepts (foldCase s) = accepts s := by
  rw [accepts, accepts, ← Result.isSome_toOption, ← Result.isSome_toOption, toOption_parse_foldCase]

end Immediate

/-! ## Registers -/

namespace RegisterFile

/-- A register is found whatever the case of the letters of its name. -/
theorem find?_foldCase (file : RegisterFile) (s : Text) :
    file.find? (foldCase s) = file.find? s := by
  rw [find?, find?, lower_foldCase]

theorem toOption_parse_foldCase (file : RegisterFile) (s : Text) :
    (file.parse (foldCase s)).toOption = (file.parse s).toOption := by
  unfold parse
  rw [find?_foldCase]
  cases file.find? s with
  | some n => rfl
  | none =>
      cases file with
      | integer => rfl
      | float => rfl

end RegisterFile

/-! ## Division into operands -/

namespace Operand

namespace Scan

/-- The state with its texts folded. -/
def foldCase (s : Scan) : Scan :=
  { s with done := s.done.map Text.foldCase, current := Text.foldCase s.current }

theorem pending_foldCase (s : Scan) : s.foldCase.pending = Text.foldCase s.pending := by
  rw [pending, pending, foldCase_trim, Text.foldCase_reverse]
  rfl

theorem finish_foldCase (s : Scan) : s.foldCase.finish = s.finish.foldCase := by
  rw [finish, finish, pending_foldCase, Text.isEmpty_foldCase]
  split
  · rfl
  · rfl

theorem rejoin_foldCase (s : Scan) : s.foldCase.rejoin = s.rejoin.foldCase := by
  unfold rejoin
  rw [pending_foldCase, Text.isEmpty_foldCase]
  obtain ⟨done, current, depth, comma⟩ := s
  show (if _ && !comma then _ else _) = foldCase (if _ && !comma then _ else _)
  split
  · cases done with
    | nil => rfl
    | cons last earlier =>
        show (if Immediate.accepts (Text.foldCase last) then _ else _) =
          foldCase (if Immediate.accepts last then _ else _)
        rw [Immediate.accepts_foldCase]
        split
        · rw [← Text.foldCase_reverse]
          rfl
        · rfl
  · rfl

theorem push_foldCase (s : Scan) (c : Char) : s.foldCase.push c.toLower = (s.push c).foldCase := rfl

/-- A folded character leads to the folded state. -/
theorem step_foldCase (s : Scan) (c : Char) : s.foldCase.step c.toLower = (s.step c).foldCase := by
  have hdepth : s.foldCase.depth = s.depth := rfl
  rw [step, step, rejoin_foldCase, push_foldCase, push_foldCase, finish_foldCase, hdepth,
    toLower_beq (by decide), toLower_beq (by decide), toLower_beq (by decide), isBlank_toLower]
  split
  · rfl
  · split
    · rfl
    · split
      · split
        · rfl
        · rfl
      · rfl

/-- A folded text leads to the folded state. -/
theorem foldl_step_foldCase (s : Scan) (text : Text) :
    (Text.foldCase text).foldl step s.foldCase = (text.foldl step s).foldCase := by
  induction text generalizing s with
  | nil => rfl
  | cons c text ih => rw [foldCase_cons, List.foldl_cons, List.foldl_cons, step_foldCase, ih]

end Scan

/-- A folded text has the folded operands. -/
theorem tokenize_foldCase (s : Text) : tokenize (foldCase s) = (tokenize s).map foldCase := by
  have hscan := Scan.foldl_step_foldCase {} s
  have hstart : Scan.foldCase {} = {} := rfl
  rw [hstart] at hscan
  rw [tokenize, hscan, Scan.finish_foldCase, tokenize, List.map_reverse]
  rfl

/-! ## Memory operands -/

theorem isWordChar_toLower (c : Char) : isWordChar c.toLower = isWordChar c :=
  apply_toLower (by decide +kernel) c

theorem splitSign_foldCase (s : Text) :
    splitSign (foldCase s) = ((splitSign s).1, foldCase (splitSign s).2) := by
  cases s with
  | nil => rfl
  | cons c s =>
      by_cases hminus : c = '-'
      · subst hminus
        rfl
      · rw [foldCase_cons, splitSign, splitSign]
        · rfl
        · rintro rest ⟨⟩
          exact hminus rfl
        · intro rest hrest
          exact toLower_ne hminus (by decide) (List.cons.inj hrest).1

theorem afterSign?_foldCase (s : Text) :
    afterSign? (foldCase s) =
      (afterSign? s).map fun parts => (foldCase parts.1, foldCase parts.2) := by
  have hopen : Char.toLower '(' = '(' := rfl
  have hclose : Char.toLower ')' = ')' := rfl
  unfold afterSign?
  rw [← Text.foldCase_takeWhile isWordChar_toLower, ← Text.foldCase_dropWhile isWordChar_toLower,
    ← foldCase_trimStart]
  -- folding keeps parentheses and makes no other character one
  rcases Text.trimStart (s.dropWhile isWordChar) with _ | ⟨c, rest⟩
  · rfl
  · by_cases hc : c = '('
    · subst hc
      simp only [foldCase_cons, hopen, ← foldCase_trimStart,
        ← Text.foldCase_takeWhile isWordChar_toLower, ← Text.foldCase_dropWhile isWordChar_toLower,
        Text.isEmpty_foldCase]
      split
      · rfl
      · rcases Text.trimStart ((Text.trimStart rest).dropWhile isWordChar) with _ | ⟨d, rest'⟩
        · rfl
        · by_cases hd : d = ')'
          · subst hd
            simp only [foldCase_cons, hclose, ← foldCase_trimStart, Text.isEmpty_foldCase]
            split
            · rfl
            · rfl
          · split
            next heq => exact absurd (List.cons.inj heq).1 (toLower_ne hd (by decide))
            next =>
              split
              next heq => exact absurd (List.cons.inj heq).1 hd
              next => rfl
    · split
      next heq => exact absurd (List.cons.inj heq).1 (toLower_ne hc (by decide))
      next =>
        split
        next heq => exact absurd (List.cons.inj heq).1 hc
        next => rfl

theorem memoryParts?_foldCase (s : Text) :
    memoryParts? (foldCase s) =
      (memoryParts? s).map fun parts => (foldCase parts.1, foldCase parts.2) := by
  have hsign : ∀ t : Text, foldCase (splitSign t).1 = (splitSign t).1 := by
    intro t
    unfold splitSign
    split
    · rfl
    · rfl
  rw [memoryParts?_eq, memoryParts?_eq, ← foldCase_trimStart, splitSign_foldCase,
    afterSign?_foldCase, Option.map_map, Option.map_map]
  congr 1
  funext parts
  simp only [Function.comp, Text.foldCase_append, hsign]

theorem toOption_parseOffset_foldCase (s : Text) :
    (parseOffset (foldCase s)).toOption = (parseOffset s).toOption := by
  have hempty : (foldCase s == [] || foldCase s == ['-']) = (s == [] || s == ['-']) := by
    rcases s with _ | ⟨c, _ | ⟨d, s⟩⟩
    · rfl
    · have hminus := toLower_beq (d := '-') (by decide) c
      simpa using hminus
    · simp
  rw [parseOffset, parseOffset, hempty]
  split
  · rfl
  · exact Immediate.toOption_parse_foldCase s

/-- A memory operand has the same offset whatever the case of its letters, and the folded
register. -/
theorem toOption_parseMemory_foldCase (s : Text) :
    (parseMemory (foldCase s)).toOption =
      (parseMemory s).toOption.map fun memory => ⟨memory.offset, foldCase memory.register⟩ := by
  rw [parseMemory, parseMemory, memoryParts?_foldCase]
  cases memoryParts? s with
  | none => rfl
  | some parts =>
      obtain ⟨offsetText, register⟩ := parts
      have hname : Register.isName (foldCase register) = Register.isName register := by
        rw [Register.isName, Register.isName, RegisterFile.find?_foldCase]
      have hoffset := toOption_parseOffset_foldCase offsetText
      simp only [Option.map_some, hname]
      rcases Result.toOption_cases hoffset with ⟨offset, hx, hy⟩ | ⟨fault, fault', hx, hy⟩
      · rw [hx, hy]
        cases Register.isName register with
        | true => rfl
        | false => rfl
      · rw [hx, hy]
        rfl

end Operand

/-! ## Instruction lines -/

namespace Statement

/-- The statement with its operands folded. -/
def foldOperands (s : Statement) : Statement := { s with operands := s.operands.map foldCase }

/-- A folded line is the same mnemonic with the folded operands. -/
theorem parse_foldCase (s : Text) :
    parse (foldCase s) = (parse s).map foldOperands := by
  rw [parse, parse, ← foldCase_trim]
  rcases Text.trim s with _ | ⟨c, line⟩
  · rfl
  · show Except.ok _ = Except.ok _
    rw [← Text.foldCase_firstWord, lower_foldCase, ← Text.foldCase_afterFirstWord,
      Operand.tokenize_foldCase]
    rfl

end Statement

end RiscAsm

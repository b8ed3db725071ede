import Mathlib.Data.List.Forall2
import Mathlib.Data.Nat.Digits.Defs
import RiscAsm.Proofs.Numeral
import RiscAsm.Proofs.Text.Pieces

/-!
# The grammar of immediates

Immediates are read from the left, one character after the other.  Their grammar says the same
without a reader: groups of digits joined by single underscores (`Numeral.Grouped`), after a mark
for the radix or a sign (`Immediate.Body`), after a minus sign that may stand apart
(`Immediate.Written`).  An ASCII text is read as an integer exactly when the grammar gives it that
value, and the usual spellings of an integer are read back (`Immediate.parse_grammar`).
-/

namespace RiscAsm

namespace Numeral

/-! ## Digits -/

/-- The character is the digit of a base with the given value, a letter in either case. -/
def IsDigit (base : Nat) (c : Char) (value : Nat) : Prop :=
  value < base ∧ (c = value.digitChar ∨ c = value.digitChar.toUpper)

/-- Below sixteen, bases differ only in the digits that they leave out. -/
theorem digit?_eq_some_iff_of_le {base : Nat} (hbase : base ≤ 16) {c : Char} {d : Nat} :
    digit? base c = some d ↔ digit? 16 c = some d ∧ d < base := by
  unfold digit?
  simp only [Option.filter_eq_some_iff, decide_eq_true_eq]
  constructor
  · rintro ⟨hvalue, hlt⟩
    exact ⟨⟨hvalue, by omega⟩, hlt⟩
  · rintro ⟨⟨hvalue, -⟩, hlt⟩
    exact ⟨hvalue, hlt⟩

/-- A digit is read by its value. -/
theorem IsDigit.digit?_eq {base : Nat} (hbase : base ≤ 16) {c : Char} {d : Nat}
    (h : IsDigit base c d) : digit? base c = some d ∧ c ≠ '_' := by
  have hall : ∀ k < 16, (digit? 16 k.digitChar = some k ∧ k.digitChar ≠ '_') ∧
      digit? 16 k.digitChar.toUpper = some k ∧ k.digitChar.toUpper ≠ '_' := by decide
  obtain ⟨hlt, hc⟩ := h
  obtain ⟨hlower, hupper⟩ := hall d (by omega)
  rw [digit?_eq_some_iff_of_le hbase]
  rcases hc with rfl | rfl
  · exact ⟨⟨hlower.1, hlt⟩, hlower.2⟩
  · exact ⟨⟨hupper.1, hlt⟩, hupper.2⟩

/-- An ASCII character that is read as a digit is one.  Beyond ASCII there are digits of other
scripts. -/
theorem isDigit_of_digit? {base : Nat} (hbase : base ≤ 16) {c : Char} (hascii : c.toNat < 128)
    {d : Nat} (h : digit? base c = some d) : IsDigit base c d := by
  have hall : ∀ n < 128, ∀ d ∈ digit? 16 (Char.ofNat n),
      Char.ofNat n = d.digitChar ∨ Char.ofNat n = d.digitChar.toUpper := by decide +kernel
  obtain ⟨hsixteen, hlt⟩ := (digit?_eq_some_iff_of_le hbase).mp h
  have hone := hall c.toNat hascii
  rw [Char.ofNat_toNat] at hone
  exact ⟨hlt, hone d hsixteen⟩

/-! ## Groups of digits -/

/-- The text consists of groups of digits of a base, joined by single underscores, and the digits
have the given values, in order. -/
def Grouped (base : Nat) (s : Text) (values : List Nat) : Prop :=
  ∃ groups : List Text, groups ≠ [] ∧ (∀ group ∈ groups, group ≠ []) ∧
    s = Text.join ['_'] groups ∧ List.Forall₂ (IsDigit base) groups.flatten values

/-- The number that digits with the given values stand for, by their positions. -/
def positional (base : Nat) (values : List Nat) : Nat := Nat.ofDigits base values.reverse

/-- The same number, gathered from the left. -/
theorem foldl_eq_positional (base : Nat) (values : List Nat) :
    values.foldl (fun value d => value * base + d) 0 = positional base values := by
  rw [positional, Nat.ofDigits_eq_foldr, List.foldl_eq_foldr_reverse]
  congr 1
  funext d value
  simp only [Nat.cast_id]
  ring

/-- What is left to read of groups of digits: the rest of the group at hand, which has to go on
unless a digit was just read, and more groups, each after an underscore. -/
def Remaining (base : Nat) (afterDigit : Bool) (s : Text) (values : List Nat) : Prop :=
  ∃ (first : Text) (rest : List Text), (afterDigit = false → first ≠ []) ∧
    (∀ group ∈ rest, group ≠ []) ∧ s = first ++ rest.flatMap ('_' :: ·) ∧
    List.Forall₂ (IsDigit base) (first ++ rest.flatten) values

theorem join_underscore (first : Text) (rest : List Text) :
    Text.join ['_'] (first :: rest) = first ++ rest.flatMap ('_' :: ·) := by
  induction rest generalizing first with
  | nil => simp [Text.join]
  | cons second rest ih =>
      rw [Text.join, List.intercalate_cons_cons, ← Text.join, ih, List.flatMap_cons]
      simp

/-- Groups are a group that has to start and more groups. -/
theorem grouped_iff_remaining {base : Nat} {s : Text} {values : List Nat} :
    Grouped base s values ↔ Remaining base false s values := by
  constructor
  · rintro ⟨groups, hne, hgroups, rfl, hvalues⟩
    obtain ⟨first, rest, rfl⟩ := List.exists_cons_of_ne_nil hne
    obtain ⟨hfirst, hrest⟩ := List.forall_mem_cons.mp hgroups
    exact ⟨first, rest, fun _ => hfirst, hrest, join_underscore first rest, hvalues⟩
  · rintro ⟨first, rest, hfirst, hrest, rfl, hvalues⟩
    exact ⟨first :: rest, List.cons_ne_nil _ _, List.forall_mem_cons.mpr ⟨hfirst rfl, hrest⟩,
      (join_underscore first rest).symm, hvalues⟩

theorem remaining_nil {base : Nat} {afterDigit : Bool} {values : List Nat} :
    Remaining base afterDigit [] values ↔ afterDigit = true ∧ values = [] := by
  constructor
  · rintro ⟨first, rest, hfirst, -, hs, hvalues⟩
    obtain ⟨rfl, hrest⟩ := List.append_eq_nil_iff.mp hs.symm
    cases rest with
    | cons group rest => simp at hrest
    | nil =>
        cases hvalues
        exact ⟨by simpa using hfirst, rfl⟩
  · rintro ⟨rfl, rfl⟩
    exact ⟨[], [], by simp, by simp, rfl, .nil⟩

/-- An underscore ends the group at hand, and another group has to start. -/
theorem remaining_underscore {base : Nat} (hbase : base ≤ 16) {afterDigit : Bool} {s : Text}
    {values : List Nat} :
    Remaining base afterDigit ('_' :: s) values ↔
      afterDigit = true ∧ Remaining base false s values := by
  constructor
  · rintro ⟨first, rest, hfirst, hrest, hs, hvalues⟩
    cases first with
    | cons c first =>
        obtain ⟨rfl, -⟩ := List.cons.inj hs
        obtain ⟨d, -, hdigit, -, -⟩ := List.forall₂_cons_left_iff.mp hvalues
        exact absurd rfl (hdigit.digit?_eq hbase).2
    | nil =>
        cases rest with
        | nil => cases hs
        | cons group rest =>
            obtain ⟨hgroup, hrest⟩ := List.forall_mem_cons.mp hrest
            obtain ⟨-, rfl⟩ := List.cons.inj hs
            exact ⟨by simpa using hfirst, group, rest, fun _ => hgroup, hrest, rfl, hvalues⟩
  · rintro ⟨rfl, first, rest, hfirst, hrest, rfl, hvalues⟩
    refine ⟨[], first :: rest, by simp, ?_, rfl, hvalues⟩
    exact List.forall_mem_cons.mpr ⟨hfirst rfl, hrest⟩

/-- Any other character is the next digit of the group at hand. -/
theorem remaining_cons {base : Nat} {afterDigit : Bool} {c : Char} (hc : c ≠ '_') {s : Text}
    {values : List Nat} :
    Remaining base afterDigit (c :: s) values ↔
      ∃ d rest, values = d :: rest ∧ IsDigit base c d ∧ Remaining base true s rest := by
  constructor
  · rintro ⟨first, groups, -, hgroups, hs, hvalues⟩
    cases first with
    | nil =>
        cases groups with
        | nil => cases hs
        | cons group groups => exact absurd (List.cons.inj hs).1 hc
    | cons e first =>
        obtain ⟨rfl, rfl⟩ := List.cons.inj hs
        obtain ⟨d, rest, hdigit, hrest, rfl⟩ := List.forall₂_cons_left_iff.mp hvalues
        exact ⟨d, rest, rfl, hdigit, first, groups, by simp, hgroups, rfl, hrest⟩
  · rintro ⟨d, rest, rfl, hdigit, first, groups, -, hgroups, rfl, hvalues⟩
    exact ⟨c :: first, groups, by simp, hgroups, rfl, .cons hdigit hvalues⟩

/-- What is left of groups of digits is read exactly when it is left.  The induction is on the text,
with the value so far and the state of the group at hand left open. -/
theorem readGroupsAux_eq_some_iff {base : Nat} (hbase : base ≤ 16) {s : Text}
    (hascii : ∀ c ∈ s, c.toNat < 128) {value n : Nat} {afterDigit : Bool} :
    readGroupsAux base value afterDigit s = some n ↔
      ∃ values, Remaining base afterDigit s values ∧
        n = values.foldl (fun value d => value * base + d) value := by
  induction s generalizing value afterDigit with
  | nil =>
      rw [readGroupsAux]
      cases afterDigit with
      | false => simp [remaining_nil]
      | true => simp [remaining_nil, eq_comm]
  | cons c s ih =>
      obtain ⟨hc, hs⟩ := List.forall_mem_cons.mp hascii
      rw [readGroupsAux]
      by_cases hunderscore : c = '_'
      · subst hunderscore
        cases afterDigit with
        | false => simp [remaining_underscore hbase]
        | true =>
            simp only [beq_self_eq_true, if_true, remaining_underscore hbase, true_and]
            exact ih hs
      · rw [beq_eq_false_iff_ne.mpr hunderscore]
        simp only [Bool.false_eq_true, if_false, remaining_cons hunderscore]
        cases hdigit : digit? base c with
        | none =>
            simp only [reduceCtorEq, false_iff]
            rintro ⟨values, ⟨d, rest, rfl, hd, -⟩, -⟩
            rw [(hd.digit?_eq hbase).1] at hdigit
            cases hdigit
        | some d =>
            simp only
            rw [ih hs]
            constructor
            · rintro ⟨values, hvalues, rfl⟩
              exact ⟨d :: values, ⟨d, values, rfl, isDigit_of_digit? hbase hc hdigit, hvalues⟩, rfl⟩
            · rintro ⟨values, ⟨e, rest, rfl, he, hrest⟩, rfl⟩
              obtain rfl := Option.some.inj (hdigit.symm.trans (he.digit?_eq hbase).1)
              exact ⟨rest, hrest, rfl⟩

/-- Groups of digits are read by their positional value, and nothing else is read. -/
theorem readGroups_eq_some_iff {base : Nat} (hbase : base ≤ 16) {s : Text}
    (hascii : ∀ c ∈ s, c.toNat < 128) {n : Nat} :
    readGroups base s = some n ↔ ∃ values, Grouped base s values ∧ n = positional base values := by
  rw [readGroups, readGroupsAux_eq_some_iff hbase hascii]
  simp only [foldl_eq_positional, grouped_iff_remaining]

/-- Digits with values are digits, each of them. -/
theorem exists_isDigit_of_mem {base : Nat} {s : Text} {values : List Nat}
    (h : List.Forall₂ (IsDigit base) s values) {c : Char} (hc : c ∈ s) : ∃ d, IsDigit base c d := by
  induction h with
  | nil => cases hc
  | cons hdigit _ ih =>
      rcases List.mem_cons.mp hc with rfl | hc
      · exact ⟨_, hdigit⟩
      · exact ih hc

/-- Underscores are not counted as digits. -/
theorem Grouped.digitCount_eq {base : Nat} (hbase : base ≤ 16) {s : Text} {values : List Nat}
    (h : Grouped base s values) : digitCount s = values.length := by
  obtain ⟨first, rest, -, -, rfl, hvalues⟩ := grouped_iff_remaining.mp h
  have hplain : ∀ c ∈ first ++ rest.flatten, (c != '_') = true := by
    intro c hc
    obtain ⟨d, hdigit⟩ := exists_isDigit_of_mem hvalues hc
    exact bne_iff_ne.mpr (hdigit.digit?_eq hbase).2
  have hrest : ∀ groups : List Text, (groups.flatMap ('_' :: ·)).countP (· != '_') =
      groups.flatten.countP (· != '_') := by
    intro groups
    induction groups with
    | nil => rfl
    | cons group groups ih => simp [ih]
  rw [digitCount, List.countP_append, hrest, ← List.countP_append,
    List.countP_eq_length.mpr hplain, hvalues.length_eq]

/-- Groups of digits are ASCII texts without blanks. -/
theorem Grouped.plain {base : Nat} (hbase : base ≤ 16) {s : Text} {values : List Nat}
    (h : Grouped base s values) : ∀ c ∈ s, c.toNat < 128 ∧ isBlank c = false := by
  have hall : ∀ d < 16, (d.digitChar.toNat < 128 ∧ isBlank d.digitChar = false) ∧
      d.digitChar.toUpper.toNat < 128 ∧ isBlank d.digitChar.toUpper = false := by decide
  obtain ⟨first, rest, -, -, rfl, hvalues⟩ := grouped_iff_remaining.mp h
  intro c hc
  have hcases : c = '_' ∨ c ∈ first ++ rest.flatten := by
    simp only [List.mem_append, List.mem_flatMap, List.mem_cons, List.mem_flatten] at hc ⊢
    grind
  rcases hcases with rfl | hc
  · decide
  · obtain ⟨d, hlt, rfl | rfl⟩ := exists_isDigit_of_mem hvalues hc
    · exact (hall d (by omega)).1
    · exact (hall d (by omega)).2

theorem Grouped.ascii {base : Nat} (hbase : base ≤ 16) {s : Text} {values : List Nat}
    (h : Grouped base s values) : ∀ c ∈ s, c.toNat < 128 :=
  fun c hc => (h.plain hbase c hc).1

/-- Groups of digits start with a digit. -/
theorem Grouped.exists_cons {base : Nat} {s : Text} {values : List Nat}
    (h : Grouped base s values) : ∃ c rest d, s = c :: rest ∧ IsDigit base c d := by
  obtain ⟨first, rest, hfirst, -, rfl, hvalues⟩ := grouped_iff_remaining.mp h
  obtain ⟨c, first, rfl⟩ := List.exists_cons_of_ne_nil (hfirst rfl)
  obtain ⟨d, -, hdigit, -, -⟩ := List.forall₂_cons_left_iff.mp hvalues
  exact ⟨c, _, d, rfl, hdigit⟩

/-- So a text that starts with another character is not made of groups of digits. -/
theorem not_grouped_cons {base : Nat} (hbase : base ≤ 16) {c : Char} (hc : digit? base c = none)
    {s : Text} {values : List Nat} : ¬ Grouped base (c :: s) values := by
  intro h
  obtain ⟨e, rest, d, hs, hdigit⟩ := h.exists_cons
  obtain ⟨rfl, -⟩ := List.cons.inj hs
  rw [(hdigit.digit?_eq hbase).1] at hc
  cases hc

/-- What follows a radix mark is read as groups of digits, after an underscore if there is one. -/
theorem readMarked_eq_some_iff {base : Nat} (hbase : base ≤ 16) {s : Text}
    (hascii : ∀ c ∈ s, c.toNat < 128) {n : Nat} :
    readMarked base s = some n ↔
      ∃ mark t values, (mark = [] ∨ mark = ['_']) ∧ s = mark ++ t ∧ Grouped base t values ∧
        n = positional base values := by
  constructor
  · intro h
    rw [readMarked.eq_def] at h
    split at h
    next rest =>
      obtain ⟨values, hvalues, hn⟩ := (readGroups_eq_some_iff hbase
        (List.forall_mem_cons.mp hascii).2).mp h
      exact ⟨['_'], rest, values, .inr rfl, rfl, hvalues, hn⟩
    next =>
      obtain ⟨values, hvalues, hn⟩ := (readGroups_eq_some_iff hbase hascii).mp h
      exact ⟨[], s, values, .inl rfl, rfl, hvalues, hn⟩
  · rintro ⟨mark, t, values, rfl | rfl, rfl, hvalues, hn⟩
    · obtain ⟨c, rest, d, rfl, hdigit⟩ := hvalues.exists_cons
      have hread := (readGroups_eq_some_iff hbase hascii).mpr ⟨values, hvalues, hn⟩
      rw [readMarked.eq_def]
      split
      next rest heq =>
        obtain ⟨rfl, -⟩ := List.cons.inj heq
        exact absurd rfl (hdigit.digit?_eq hbase).2
      next => exact hread
    · exact (readGroups_eq_some_iff hbase (List.forall_mem_cons.mp hascii).2).mpr
        ⟨values, hvalues, hn⟩

/-- Decimal digits are read as groups that are not too long. -/
theorem readDecimal_eq_some_iff {s : Text} (hascii : ∀ c ∈ s, c.toNat < 128) {n : Nat} :
    readDecimal s = some n ↔
      ∃ values, Grouped 10 s values ∧ values.length ≤ maxDigits ∧ n = positional 10 values := by
  rw [readDecimal, Option.ite_none_right_eq_some, readGroups_eq_some_iff (by decide) hascii]
  constructor
  · rintro ⟨hlength, values, hvalues, hn⟩
    rw [hvalues.digitCount_eq (by decide)] at hlength
    exact ⟨values, hvalues, hlength, hn⟩
  · rintro ⟨values, hvalues, hlength, hn⟩
    rw [← hvalues.digitCount_eq (by decide)] at hlength
    exact ⟨hlength, values, hvalues, hn⟩

/-! ## Spellings of a number -/

/-- The digits of a number have values that stand for it. -/
theorem exists_values {base : Nat} (hbase : 1 < base) (n : Nat) :
    ∃ values : List Nat, Nat.toDigits base n = values.map Nat.digitChar ∧
      (∀ d ∈ values, d < base) ∧ positional base values = n := by
  induction n using Nat.strongRecOn with
  | _ n ih =>
      rw [Nat.toDigits_eq_if hbase]
      by_cases hlt : n < base
      · rw [if_pos hlt]
        exact ⟨[n], rfl, by simpa using hlt, Nat.ofDigits_singleton⟩
      · rw [if_neg hlt]
        obtain ⟨values, hdigits, hvalues, hn⟩ := ih (n / base) (Nat.div_lt_self (by omega) hbase)
        refine ⟨values ++ [n % base], ?_, ?_, ?_⟩
        · rw [hdigits, List.map_append, List.map_singleton]
        · intro d hd
          rcases List.mem_append.mp hd with hd | hd
          · exact hvalues d hd
          · rw [List.mem_singleton.mp hd]
            exact Nat.mod_lt n (by omega)
        · rw [positional] at hn ⊢
          rw [List.reverse_append, List.reverse_singleton, List.singleton_append, Nat.ofDigits_cons,
            hn]
          exact Nat.mod_add_div n base

/-- The digits of a number, in either case, are one group that stands for it. -/
theorem exists_grouped_toDigits {base : Nat} (hbase : 1 < base) (n : Nat) {s : Text}
    (hs : s = Nat.toDigits base n ∨ s = (Nat.toDigits base n).map Char.toUpper) :
    ∃ values, Grouped base s values ∧ positional base values = n := by
  obtain ⟨values, hdigits, hvalues, hn⟩ := exists_values hbase n
  have hne : s ≠ [] := by
    rcases hs with rfl | rfl
    · exact Nat.toDigits_ne_nil
    · exact mt List.map_eq_nil_iff.mp Nat.toDigits_ne_nil
  have hjoin : s = Text.join ['_'] [s] := by simp [join_underscore]
  refine ⟨values, ⟨[s], List.cons_ne_nil _ _, by simpa using hne, hjoin, ?_⟩, hn⟩
  rw [List.flatten_singleton]
  rcases hs with rfl | rfl
  · rw [hdigits, List.forall₂_map_left_iff, List.forall₂_same]
    exact fun d hd => ⟨hvalues d hd, .inl rfl⟩
  · rw [hdigits, List.map_map, List.forall₂_map_left_iff, List.forall₂_same]
    exact fun d hd => ⟨hvalues d hd, .inr rfl⟩

end Numeral

namespace Immediate

/-- The letters that mark a radix, with the base that they stand for. -/
def radixLetters : List (Char × Nat) :=
  [('x', 16), ('X', 16), ('b', 2), ('B', 2), ('o', 8), ('O', 8)]

/-- The signs that may stand right in front of decimal digits, none among them, with the factor that
they stand for. -/
def signs : List (Text × Int) := [([], 1), (['+'], 1), (['-'], -1)]

/-- How an immediate is written without the minus sign that may stand apart, and its value: digits
of the radix that a letter marks, or decimal digits, not too many of them, after an optional
sign. -/
inductive Body : Text → Int → Prop
  | marked {letter : Char} {base : Nat} {mark s : Text} {values : List Nat}
      (hletter : (letter, base) ∈ radixLetters) (hmark : mark = [] ∨ mark = ['_'])
      (hdigits : Numeral.Grouped base s values) :
      Body ('0' :: letter :: (mark ++ s)) (Numeral.positional base values)
  | decimal {sign s : Text} {factor : Int} {values : List Nat} (hsign : (sign, factor) ∈ signs)
      (hdigits : Numeral.Grouped 10 s values) (hlength : values.length ≤ 4300) :
      Body (sign ++ s) (factor * Numeral.positional 10 values)

/-- How an immediate is written, and its value: blanks around it do not matter, and neither do
blanks after a minus sign in front. -/
def Written (s : Text) (value : Int) : Prop :=
  (∃ rest magnitude, Text.trim s = '-' :: rest ∧ Body (Text.trim rest) magnitude ∧
    value = -magnitude) ∨
  ((Text.trim s).head? ≠ some '-' ∧ Body (Text.trim s) value)

theorem base?_eq_some_iff {letter : Char} {base : Nat} :
    base? letter = some base ↔ (letter, base) ∈ radixLetters := by
  unfold base? radixLetters
  split <;> simp_all [eq_comm]

/-- A number that was read, taken as an integer and changed. -/
theorem map_cast_eq_some_iff {read : Option Nat} {f : Int → Int} {v : Int} :
    ((do let n ← read; pure (n : Int)) : Option Int).map f = some v ↔
      ∃ n : Nat, read = some n ∧ v = f n := by
  cases read with
  | none => simp
  | some n => simp [eq_comm]

/-- A sign and decimal digits are read as such. -/
theorem readSigned_eq_some_iff {s : Text} (hascii : ∀ c ∈ s, c.toNat < 128) {v : Int} :
    readSigned s = some v ↔
      ∃ sign factor t values, (sign, factor) ∈ signs ∧ s = sign ++ t ∧
        Numeral.Grouped 10 t values ∧ values.length ≤ 4300 ∧
        v = factor * Numeral.positional 10 values := by
  constructor
  · intro h
    rw [readSigned.eq_def] at h
    split at h
    all_goals obtain ⟨n, hn, rfl⟩ := map_cast_eq_some_iff.mp h
    next t =>
      obtain ⟨values, hvalues, hlength, rfl⟩ :=
        (Numeral.readDecimal_eq_some_iff (List.forall_mem_cons.mp hascii).2).mp hn
      exact ⟨['+'], 1, t, values, by simp [signs], rfl, hvalues, hlength, by simp⟩
    next t =>
      obtain ⟨values, hvalues, hlength, rfl⟩ :=
        (Numeral.readDecimal_eq_some_iff (List.forall_mem_cons.mp hascii).2).mp hn
      exact ⟨['-'], -1, t, values, by simp [signs], rfl, hvalues, hlength, by simp⟩
    next =>
      obtain ⟨values, hvalues, hlength, rfl⟩ := (Numeral.readDecimal_eq_some_iff hascii).mp hn
      exact ⟨[], 1, s, values, by simp [signs], rfl, hvalues, hlength, by simp⟩
  · rintro ⟨sign, factor, t, values, hsign, rfl, hvalues, hlength, rfl⟩
    have hread := (Numeral.readDecimal_eq_some_iff (hvalues.ascii (by decide))).mpr
      ⟨values, hvalues, hlength, rfl⟩
    simp only [signs, List.mem_cons, Prod.mk.injEq, List.not_mem_nil, or_false] at hsign
    rcases hsign with ⟨rfl, rfl⟩ | ⟨rfl, rfl⟩ | ⟨rfl, rfl⟩
    · -- without a sign the text starts with a digit
      rw [List.nil_append, readSigned.eq_def]
      split
      next => exact absurd hvalues (Numeral.not_grouped_cons (by decide) (by decide))
      next => exact absurd hvalues (Numeral.not_grouped_cons (by decide) (by decide))
      next =>
        rw [hread]
        simp
    · rw [List.singleton_append, readSigned, hread]
      simp
    · rw [List.singleton_append, readSigned, hread]
      simp

/-- No radix letter is a decimal digit or an underscore. -/
theorem not_grouped_of_base? {letter : Char} {base : Nat} (h : base? letter = some base)
    {s : Text} {values : List Nat} : ¬ Numeral.Grouped 10 ('0' :: letter :: s) values := by
  have hall : ∀ mark ∈ radixLetters, mark.1 ≠ '_' ∧ Numeral.digit? 10 mark.1 = none := by
    decide +kernel
  obtain ⟨hunderscore, hdigit⟩ := hall _ (base?_eq_some_iff.mp h)
  intro hgrouped
  rw [Numeral.grouped_iff_remaining, Numeral.remaining_cons (by decide)] at hgrouped
  obtain ⟨-, rest, -, -, hrest⟩ := hgrouped
  rw [Numeral.remaining_cons hunderscore] at hrest
  obtain ⟨d, -, -, hd, -⟩ := hrest
  rw [(hd.digit?_eq (by decide)).1] at hdigit
  cases hdigit

/-- The bases that letters mark. -/
theorem le_of_mem_radixLetters {letter : Char} {base : Nat} (h : (letter, base) ∈ radixLetters) :
    1 < base ∧ base ≤ 16 := by
  have hall : ∀ mark ∈ radixLetters, 1 < mark.2 ∧ mark.2 ≤ 16 := by decide
  exact hall _ h

/-- What is read is written. -/
theorem body_of_read? {s : Text} (hascii : ∀ c ∈ s, c.toNat < 128) {v : Int}
    (h : read? s = some v) : Body s v := by
  have hsigned : readSigned s = some v → Body s v := by
    intro hread
    obtain ⟨sign, factor, t, values, hsign, rfl, hvalues, hlength, rfl⟩ :=
      (readSigned_eq_some_iff hascii).mp hread
    exact .decimal hsign hvalues hlength
  rw [read?.eq_def] at h
  split at h
  next letter digits =>
    split at h
    next base hbase =>
      obtain ⟨n, hn, rfl⟩ := map_cast_eq_some_iff.mp h
      have hletter := base?_eq_some_iff.mp hbase
      have hdigits : ∀ c ∈ digits, c.toNat < 128 := fun c hc =>
        hascii c (List.mem_cons_of_mem _ (List.mem_cons_of_mem _ hc))
      obtain ⟨mark, t, values, hmark, rfl, hvalues, rfl⟩ :=
        (Numeral.readMarked_eq_some_iff (le_of_mem_radixLetters hletter).2 hdigits).mp hn
      exact .marked hletter hmark hvalues
    next => exact hsigned h
  next => exact hsigned h

/-- What is written is read. -/
theorem Body.read?_eq {s : Text} {v : Int} (h : Body s v) : read? s = some v := by
  cases h with
  | @marked letter base mark s values hletter hmark hdigits =>
      have hle := (le_of_mem_radixLetters hletter).2
      have hascii : ∀ c ∈ mark ++ s, c.toNat < 128 := by
        intro c hc
        rcases List.mem_append.mp hc with hc | hc
        · rcases hmark with rfl | rfl
          · cases hc
          · rw [List.mem_singleton.mp hc]
            decide
        · exact hdigits.ascii hle c hc
      have hread := (Numeral.readMarked_eq_some_iff hle hascii).mpr
        ⟨mark, s, values, hmark, rfl, hdigits, rfl⟩
      rw [read?, base?_eq_some_iff.mpr hletter]
      simp only
      rw [hread]
      rfl
  | @decimal sign s factor values hsign hdigits hlength =>
      have hascii : ∀ c ∈ sign ++ s, c.toNat < 128 := by
        have hall : ∀ row ∈ signs, ∀ c ∈ row.1, c.toNat < 128 := by decide
        intro c hc
        rcases List.mem_append.mp hc with hc | hc
        · exact hall _ hsign c hc
        · exact hdigits.ascii (by decide) c hc
      have hread := (readSigned_eq_some_iff hascii).mpr
        ⟨sign, factor, s, values, hsign, rfl, hdigits, hlength, rfl⟩
      rw [read?.eq_def]
      split
      next letter digits heq =>
        split
        next base hbase =>
          -- a letter for a base cannot follow the first digit of a decimal
          exfalso
          simp only [signs, List.mem_cons, Prod.mk.injEq, List.not_mem_nil, or_false] at hsign
          rcases hsign with ⟨rfl, -⟩ | ⟨rfl, -⟩ | ⟨rfl, -⟩
          · rw [List.nil_append] at heq
            exact not_grouped_of_base? hbase (heq ▸ hdigits)
          · cases heq
          · cases heq
        next => exact hread
      next => exact hread

/-- A minus sign that may stand apart negates the rest. -/
theorem parse_of_minus {s rest : Text} (hs : Text.trim s = '-' :: rest) {v : Int} :
    parse s = .ok v ↔ ∃ magnitude, read? (Text.trim rest) = some magnitude ∧ v = -magnitude := by
  unfold parse
  rw [hs]
  cases hread : read? (Text.trim rest) with
  | none => simp [hread]
  | some n => simp [hread, eq_comm]

/-- Any other text is read as a whole, without the blanks around it. -/
theorem parse_of_not_minus {s : Text} (hs : (Text.trim s).head? ≠ some '-') {v : Int} :
    parse s = .ok v ↔ read? (Text.trim s) = some v := by
  unfold parse
  split
  next hnil =>
    have hnone : read? [] = none := by decide
    simp [hnil, hnone]
  next rest hminus =>
    rw [hminus] at hs
    exact absurd rfl hs
  next => split <;> simp_all

/-- The value of an immediate is the one that the grammar gives it. -/
theorem parse_eq_ok_iff_written {s : Text} (hascii : ∀ c ∈ s, c.toNat < 128) {v : Int} :
    parse s = .ok v ↔ Written s v := by
  have htrim : ∀ c ∈ Text.trim s, c.toNat < 128 := fun c hc =>
    hascii c ((Text.trim_piece s).subset hc)
  constructor
  · intro h
    by_cases hminus : (Text.trim s).head? = some '-'
    · obtain ⟨rest, hs⟩ := List.head?_eq_some_iff.mp hminus
      obtain ⟨magnitude, hread, hv⟩ := (parse_of_minus hs).mp h
      refine .inl ⟨rest, magnitude, hs, body_of_read? ?_ hread, hv⟩
      intro c hc
      apply htrim
      rw [hs]
      exact List.mem_cons_of_mem _ ((Text.trim_piece rest).subset hc)
    · exact .inr ⟨hminus, body_of_read? htrim ((parse_of_not_minus hminus).mp h)⟩
  · rintro (⟨rest, magnitude, hs, hrest, hv⟩ | ⟨hminus, hs⟩)
    · exact (parse_of_minus hs).mpr ⟨magnitude, hrest.read?_eq, hv⟩
    · exact (parse_of_not_minus hminus).mpr hs.read?_eq

/-- A number in the radix of a letter, in either case, is read back, also after a minus sign. -/
theorem parse_toDigits (n : Nat) {letter : Char} {base : Nat}
    (hletter : (letter, base) ∈ radixLetters) {s : Text}
    (hs : s = Nat.toDigits base n ∨ s = (Nat.toDigits base n).map Char.toUpper) :
    parse ('0' :: letter :: s) = .ok n ∧ parse ('-' :: '0' :: letter :: s) = .ok (-n) := by
  obtain ⟨hlt, hle⟩ := le_of_mem_radixLetters hletter
  obtain ⟨values, hvalues, hn⟩ := Numeral.exists_grouped_toDigits hlt n hs
  have hbody : Body ('0' :: letter :: s) n := by
    rw [← hn]
    exact .marked hletter (.inl rfl) hvalues
  have hplain : ∀ c ∈ '0' :: letter :: s, isBlank c = false := by
    have hall : ∀ mark ∈ radixLetters, isBlank mark.1 = false := by decide
    intro c hc
    rcases List.mem_cons.mp hc with rfl | hc
    · decide
    · rcases List.mem_cons.mp hc with rfl | hc
      · exact hall _ hletter
      · exact (hvalues.plain hle c hc).2
  have htrim : Text.trim ('0' :: letter :: s) = '0' :: letter :: s :=
    Text.trim_eq_self_of_forall hplain
  have hminus : Text.trim ('-' :: '0' :: letter :: s) = '-' :: '0' :: letter :: s :=
    Text.trim_eq_self_of_forall (List.forall_mem_cons.mpr ⟨by decide, hplain⟩)
  constructor
  · rw [parse_of_not_minus (by simp [htrim]), htrim]
    exact hbody.read?_eq
  · rw [parse_of_minus hminus, htrim]
    exact ⟨n, hbody.read?_eq, rfl⟩

/-- A numeral with few enough digits is not too long to be read. -/
theorem tooLong_of_length {n : Int} (h : (Nat.toDigits 10 n.natAbs).length ≤ 4300) :
    Numeral.tooLong n = false := by
  have hpos : 0 < Numeral.maxDigits := by decide
  change _ ≤ Numeral.maxDigits at h
  rw [Numeral.tooLong, decide_eq_false_iff_not, Nat.not_le, Nat.pow_eq]
  -- the limit is kept apart, so that no power of ten with its digits is computed
  generalize Numeral.maxDigits = limit at hpos h ⊢
  exact (Nat.length_toDigits_le_iff (by decide) hpos).mp h

/-- An ASCII text is read as an integer exactly when the grammar gives it that value.  So the
numerals of integers of at most 4300 digits are read back, and so are the spellings of integers in
the other radixes, in either case and of any length. -/
theorem parse_grammar :
    (∀ s : Text, (∀ c ∈ s, c.toNat < 128) → ∀ v, parse s = .ok v ↔ Written s v) ∧
    (∀ n : Int, (Nat.toDigits 10 n.natAbs).length ≤ 4300 → parse (Numeral.ofInt n) = .ok n) ∧
    ∀ (n : Nat) (letter : Char) (base : Nat), (letter, base) ∈ radixLetters →
      ∀ s : Text, s = Nat.toDigits base n ∨ s = (Nat.toDigits base n).map Char.toUpper →
        parse ('0' :: letter :: s) = .ok n ∧ parse ('-' :: '0' :: letter :: s) = .ok (-n) := by
  refine ⟨?_, ?_, ?_⟩
  · intro s hascii v
    exact parse_eq_ok_iff_written hascii
  · intro n hlength
    exact parse_ofInt (tooLong_of_length hlength)
  · intro n letter base hletter s hs
    exact parse_toDigits n hletter hs

/-- Underscores, blanks and letters of both cases in one immediate, and two integers read back. -/
theorem parse_grammar_spaced :
    parse "\t- 0X_fF_0 ".toList = .ok (-4080) ∧ parse (Numeral.ofInt (-75)) = .ok (-75) ∧
      parse ('-' :: '0' :: 'B' :: Nat.toDigits 2 10) = .ok (-10) := by
  have hgrouped : Numeral.Grouped 16 "fF_0".toList [15, 15, 0] := by
    refine ⟨["fF".toList, "0".toList], by decide, by decide, by decide, ?_⟩
    refine .cons ⟨by decide, ?_⟩ (.cons ⟨by decide, ?_⟩ (.cons ⟨by decide, ?_⟩ .nil)) <;> decide
  have hbody : Body "0X_fF_0".toList 4080 :=
    .marked (by decide : ('X', 16) ∈ radixLetters) (.inr rfl) hgrouped
  refine ⟨?_, ?_, ?_⟩
  · refine (parse_grammar.1 _ (by decide) _).mpr ?_
    exact .inl ⟨" 0X_fF_0".toList, 4080, by decide, hbody, rfl⟩
  · exact parse_grammar.2.1 (-75) (by decide)
  · exact (parse_grammar.2.2 10 'B' 2 (by decide) _ (.inl rfl)).2

end Immediate

end RiscAsm

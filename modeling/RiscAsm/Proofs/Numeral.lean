import RiscAsm.Immediate
import RiscAsm.Proofs.Text.Trim

/-!
# Numerals read back

A decimal numeral that was written for an integer is read back as that integer, if it is not too
long (`parse_ofInt`, `eq_of_parse_ofInt`), and so are hexadecimal digits (`readGroups_hex`).  The
binary digits of a machine word are 32 digits with the value of the word (`length_binary`,
`ofDigitChars_binary`).  No parenthesis stands in an immediate (`Immediate.not_mem_of_accepts`).
-/

namespace RiscAsm

namespace Numeral

/-! ## Decimal digits -/

/-- An ASCII digit lies between the codes of `0` and `9`. -/
theorem toNat_of_isDigit {c : Char} (h : c.isDigit = true) : 48 ≤ c.toNat ∧ c.toNat ≤ 57 := by
  simp only [Char.isDigit, Bool.and_eq_true, decide_eq_true_eq] at h
  exact ⟨h.1, h.2⟩

/-- An ASCII digit has its usual value. -/
theorem digit?_of_isDigit {c : Char} (h : c.isDigit = true) :
    digit? 10 c = some (c.toNat - '0'.toNat) := by
  obtain ⟨hleast, hgreatest⟩ := toNat_of_isDigit h
  have hsmall : ('a' ≤ c && c ≤ 'z') = false := by
    rw [Bool.and_eq_false_iff, decide_eq_false_iff_not]
    left
    intro hle
    have h97 : 97 ≤ c.toNat := hle
    omega
  have hcapital : ('A' ≤ c && c ≤ 'Z') = false := by
    rw [Bool.and_eq_false_iff, decide_eq_false_iff_not]
    left
    intro hle
    have h65 : 65 ≤ c.toNat := hle
    omega
  have hdecimal : decimalDigit? c = some (c.toNat - 48) := by
    rw [decimalDigit?, decimalZeros, List.find?_cons_of_pos (by simp; omega)]
    rfl
  have hlt : c.toNat - 48 < 10 := by omega
  simp [digit?, hsmall, hcapital, hdecimal, hlt]

/-- Digits are read by their positional value. -/
theorem readGroupsAux_of_digits (value : Nat) (afterDigit : Bool) {s : Text}
    (hs : ∀ c ∈ s, c.isDigit = true) (hne : s ≠ [] ∨ afterDigit = true) :
    readGroupsAux 10 value afterDigit s = some (Nat.ofDigitChars 10 s value) := by
  induction s generalizing value afterDigit with
  | nil =>
      have h : afterDigit = true := hne.resolve_left (fun h => h rfl)
      rw [readGroupsAux, if_pos h, Nat.ofDigitChars_nil]
  | cons c s ih =>
      have hc := hs c List.mem_cons_self
      have hunderscore : (c == '_') = false := by
        rw [beq_eq_false_iff_ne]
        rintro rfl
        simp at hc
      rw [readGroupsAux, hunderscore, digit?_of_isDigit hc]
      simp only [Bool.false_eq_true, if_false]
      rw [ih _ true (fun d hd => hs d (List.mem_cons_of_mem c hd)) (Or.inr rfl),
        Nat.ofDigitChars_cons, Nat.mul_comm]

/-- The digits of a numeral are ASCII digits. -/
theorem isDigit_of_mem_ofNat {n : Nat} {c : Char} (h : c ∈ ofNat n) : c.isDigit = true :=
  Nat.isDigit_of_mem_toDigits (by decide) (by decide) h

/-- A numeral is read back. -/
theorem readGroups_ofNat (n : Nat) : readGroups 10 (ofNat n) = some n := by
  rw [readGroups, readGroupsAux_of_digits 0 false (fun c hc => isDigit_of_mem_ofNat hc)
    (Or.inl Nat.toDigits_ne_nil)]
  exact congrArg some Nat.ofDigitChars_ten_toDigits

/-- A numeral that can be read is read back. -/
theorem eq_of_readDecimal_ofNat {n k : Nat} (h : readDecimal (ofNat n) = some k) : k = n := by
  rw [readDecimal] at h
  split at h
  · rw [readGroups_ofNat] at h
    exact (Option.some.inj h).symm
  · simp at h

/-- A numeral that is not too long is read back. -/
theorem readDecimal_ofNat {n : Int} (h : tooLong n = false) :
    readDecimal (ofNat n.natAbs) = some n.natAbs := by
  have hpos : 0 < maxDigits := by decide
  rw [tooLong, decide_eq_false_iff_not, Nat.not_le, Nat.pow_eq] at h
  rw [readDecimal]
  -- the limit is kept apart, so that no power of ten with its digits is computed
  generalize maxDigits = limit at hpos h ⊢
  have hlength : (ofNat n.natAbs).length ≤ limit :=
    (Nat.length_toDigits_le_iff (by decide) hpos).mpr h
  have hcount : digitCount (ofNat n.natAbs) ≤ limit :=
    Nat.le_trans List.countP_le_length hlength
  rw [if_pos hcount, readGroups_ofNat]

/-- Small numbers are not too long. -/
theorem tooLong_of_small {n : Int} (hleast : -1048576 ≤ n) (hlt : n < 1048576) :
    tooLong n = false := by
  have hpow : (1048577 : Nat) ≤ 10 ^ 7 := by decide
  have hle : 10 ^ 7 ≤ 10 ^ maxDigits := Nat.pow_le_pow_right (by decide) (by decide)
  rw [tooLong, decide_eq_false_iff_not, Nat.pow_eq, Nat.not_le]
  omega

/-- The characters of a numeral: digits, after a minus sign perhaps. -/
theorem mem_ofInt {n : Int} {c : Char} (h : c ∈ ofInt n) : c = '-' ∨ c.isDigit = true := by
  cases n with
  | ofNat n => exact Or.inr (isDigit_of_mem_ofNat h)
  | negSucc n =>
      rcases List.mem_cons.mp h with h | h
      · exact Or.inl h
      · exact Or.inr (isDigit_of_mem_ofNat h)

/-- No numeral is empty. -/
theorem ofInt_ne_nil (n : Int) : ofInt n ≠ [] := by
  cases n with
  | ofNat n => exact Nat.toDigits_ne_nil
  | negSucc n => exact List.cons_ne_nil _ _

/-- Digits are no blanks. -/
theorem isBlank_of_isDigit {c : Char} (h : c.isDigit = true) : isBlank c = false := by
  obtain ⟨hleast, hgreatest⟩ := toNat_of_isDigit h
  simp only [isBlank, inRanges, blankRanges, List.any_cons, List.any_nil, Bool.or_false,
    Bool.or_eq_false_iff, Bool.and_eq_false_iff, decide_eq_false_iff_not]
  omega

/-! ## Binary digits -/

/-- A number that has no more digits than the width is written in exactly that many. -/
theorem length_padded {base width n : Nat} (h : (Nat.toDigits base n).length ≤ width) :
    (padded base width n).length = width := by
  rw [padded, List.leftpad, List.length_append, List.length_replicate]
  omega

/-- The binary digits of a machine word are 32. -/
theorem length_binary {n : Nat} (h : n < 4294967296) : (binary 32 n).length = 32 :=
  length_padded ((Nat.length_toDigits_le_iff (by decide) (by decide)).mpr h)

/-- The digits of a number in a base are those below the base. -/
theorem mem_toDigits {base n : Nat} (hbase : 1 < base) {c : Char} (h : c ∈ Nat.toDigits base n) :
    ∃ k < base, c = k.digitChar := by
  induction n using Nat.strongRecOn with
  | ind n ih =>
      rw [Nat.toDigits_eq_if hbase] at h
      split at h
      · rename_i hlt
        exact ⟨n, hlt, List.mem_singleton.mp h⟩
      · rename_i hge
        rcases List.mem_append.mp h with h | h
        · exact ih (n / base) (Nat.div_lt_self (by omega) hbase) h
        · exact ⟨n % base, Nat.mod_lt n (by omega), List.mem_singleton.mp h⟩

/-- The zeros in front of a number are digits too. -/
theorem mem_padded {base width n : Nat} (hbase : 1 < base) {c : Char}
    (h : c ∈ padded base width n) : ∃ k < base, c = k.digitChar := by
  rw [padded, List.leftpad] at h
  rcases List.mem_append.mp h with h | h
  · exact ⟨0, by omega, List.eq_of_mem_replicate h⟩
  · exact mem_toDigits hbase h

/-- Binary digits are zeros and ones. -/
theorem mem_binary {width n : Nat} {c : Char} (h : c ∈ binary width n) : c = '0' ∨ c = '1' := by
  have hdigit : ∀ k < 2, k.digitChar = '0' ∨ k.digitChar = '1' := by decide
  obtain ⟨k, hk, rfl⟩ := mem_padded (by decide) h
  exact hdigit k hk

/-- Binary digits have the value they were written for. -/
theorem ofDigitChars_binary (width n : Nat) : Nat.ofDigitChars 2 (binary width n) 0 = n := by
  rw [binary, padded, List.leftpad, Nat.ofDigitChars_append, Nat.ofDigitChars_replicate_zero,
    Nat.mul_zero, Nat.ofDigitChars_toDigits (by decide) (by decide)]

/-! ## Hexadecimal digits -/

theorem hex_ne_nil (width n : Nat) : hex width n ≠ [] := by
  rw [hex, padded, List.leftpad]
  simp [Nat.toDigits_ne_nil]

/-- Hexadecimal digits are no blanks. -/
theorem not_mem_hex {c : Char} (hc : isBlank c = true) (width n : Nat) : c ∉ hex width n := by
  have hdigit : ∀ k < 16, isBlank k.digitChar = false := by decide
  intro hmem
  obtain ⟨k, hk, rfl⟩ := mem_padded (by decide) hmem
  rw [hdigit k hk] at hc
  cases hc

/-- Hexadecimal digits in upper case are no blanks. -/
theorem not_mem_hexUpper {c : Char} (hc : isBlank c = true) (width n : Nat) :
    c ∉ hexUpper width n := by
  have hdigit : ∀ k < 16, isBlank k.digitChar.toUpper = false := by decide
  rw [hexUpper, List.mem_map]
  rintro ⟨d, hd, rfl⟩
  obtain ⟨k, hk, rfl⟩ := mem_padded (by decide) hd
  rw [hdigit k hk] at hc
  cases hc

/-- The value of digits in a base, after a value that was read before. -/
def digitsValue (base value : Nat) (s : Text) : Nat :=
  s.foldl (fun value c => value * base + (digit? base c).getD 0) value

/-- Digits of any base are read by their positional value. -/
theorem readGroupsAux_eq_digitsValue {base : Nat} (value : Nat) (afterDigit : Bool) {s : Text}
    (hs : ∀ c ∈ s, c ≠ '_' ∧ (digit? base c).isSome = true) (hne : s ≠ [] ∨ afterDigit = true) :
    readGroupsAux base value afterDigit s = some (digitsValue base value s) := by
  induction s generalizing value afterDigit with
  | nil =>
      have h : afterDigit = true := hne.resolve_left (fun h => h rfl)
      rw [readGroupsAux, if_pos h]
      rfl
  | cons c s ih =>
      rw [List.forall_mem_cons] at hs
      obtain ⟨d, hd⟩ := Option.isSome_iff_exists.mp hs.1.2
      rw [readGroupsAux, beq_eq_false_iff_ne.mpr hs.1.1, hd]
      simp only [Bool.false_eq_true, if_false]
      rw [ih _ true hs.2 (.inr rfl), digitsValue, digitsValue, List.foldl_cons, hd]
      rfl

theorem digit?_digitChar {k : Nat} (h : k < 16) :
    digit? 16 k.digitChar = some k ∧ k.digitChar ≠ '_' := by
  have hall : ∀ k < 16, digit? 16 k.digitChar = some k ∧ k.digitChar ≠ '_' := by decide
  exact hall k h

/-- The hexadecimal digits of a number have its value. -/
theorem digitsValue_toDigits (n : Nat) : digitsValue 16 0 (Nat.toDigits 16 n) = n := by
  induction n using Nat.strongRecOn with
  | ind n ih =>
      rw [Nat.toDigits_eq_if (by decide)]
      split
      · rename_i hlt
        simp [digitsValue, digit?_digitChar hlt]
      · rename_i hge
        have hdiv := ih (n / 16) (by omega)
        rw [digitsValue] at hdiv
        rw [digitsValue, List.foldl_append, hdiv, List.foldl_cons, List.foldl_nil,
          (digit?_digitChar (Nat.mod_lt n (by decide))).1, Option.getD_some]
        omega

/-- Hexadecimal digits are read back. -/
theorem readGroups_hex (width n : Nat) : readGroups 16 (hex width n) = some n := by
  have hdigits : ∀ c ∈ hex width n, c ≠ '_' ∧ (digit? 16 c).isSome = true := by
    intro c hc
    obtain ⟨k, hk, rfl⟩ := mem_padded (by decide) hc
    obtain ⟨hvalue, hne⟩ := digit?_digitChar hk
    exact ⟨hne, by rw [hvalue]; rfl⟩
  have hzeros : ∀ k, digitsValue 16 0 (List.replicate k '0') = 0 := by
    intro k
    induction k with
    | zero => rfl
    | succ k ih => exact ih
  have hvalue : digitsValue 16 0 (hex width n) = n := by
    have hz := hzeros (width - (Nat.toDigits 16 n).length)
    have hn := digitsValue_toDigits n
    unfold digitsValue at hz hn ⊢
    rw [hex, padded, List.leftpad, List.foldl_append, hz, hn]
  rw [readGroups, readGroupsAux_eq_digitsValue 0 false hdigits (.inl (hex_ne_nil width n)), hvalue]

/-- Digits that are spelled in another way with the same values are read alike. -/
theorem readGroupsAux_map {base : Nat} {f : Char → Char} (value : Nat) (afterDigit : Bool)
    {s : Text} (hs : ∀ c ∈ s, digit? base (f c) = digit? base c ∧ (f c == '_') = (c == '_')) :
    readGroupsAux base value afterDigit (s.map f) = readGroupsAux base value afterDigit s := by
  induction s generalizing value afterDigit with
  | nil => rfl
  | cons c s ih =>
      obtain ⟨⟨hdigit, hunderscore⟩, hs⟩ := List.forall_mem_cons.mp hs
      rw [List.map_cons, readGroupsAux, readGroupsAux, hdigit, hunderscore]
      simp only [ih _ _ hs]

/-- Hexadecimal digits in upper case are read back. -/
theorem readGroups_hexUpper (width n : Nat) : readGroups 16 (hexUpper width n) = some n := by
  have hupper : ∀ k < 16, digit? 16 k.digitChar.toUpper = digit? 16 k.digitChar ∧
      (k.digitChar.toUpper == '_') = (k.digitChar == '_') := by decide
  rw [← readGroups_hex width n, hexUpper]
  apply readGroupsAux_map
  intro c hc
  obtain ⟨k, hk, rfl⟩ := mem_padded (by decide) hc
  exact hupper k hk

/-- Numbers that are written so that each is read back are read back. -/
theorem mapM_readGroups {base : Nat} {write : Nat → Text}
    (h : ∀ n, readGroups base (write n) = some n) (numbers : List Nat) :
    (numbers.map write).mapM (readGroups base) = some numbers := by
  induction numbers with
  | nil => rfl
  | cons n numbers ih => simp [List.mapM_cons, h, ih]

/-! ## What numerals do not hold -/

/-- A parenthesis is no digit. -/
theorem digit?_parenthesis (base : Nat) {c : Char} (hc : c = '(' ∨ c = ')') :
    digit? base c = none := by
  have hnone : decimalDigit? '(' = none ∧ decimalDigit? ')' = none := by decide +kernel
  rcases hc with rfl | rfl <;> simp [digit?, hnone]

/-- Groups of digits hold no parenthesis. -/
theorem not_mem_of_readGroupsAux {base value : Nat} {afterDigit : Bool} {s : Text} {n : Nat}
    (h : readGroupsAux base value afterDigit s = some n) {c : Char} (hc : c = '(' ∨ c = ')') :
    c ∉ s := by
  induction s generalizing value afterDigit with
  | nil => simp
  | cons d s ih =>
      rw [readGroupsAux] at h
      rw [List.mem_cons, not_or]
      split at h
      · rename_i hunderscore
        split at h
        · refine ⟨?_, ih h⟩
          rintro rfl
          rcases hc with rfl | rfl <;> exact absurd hunderscore (by decide)
        · cases h
      · split at h
        · rename_i value hdigit
          refine ⟨?_, ih h⟩
          rintro rfl
          rw [digit?_parenthesis base hc] at hdigit
          cases hdigit
        · cases h

theorem not_mem_of_readDecimal {s : Text} (h : readDecimal s ≠ none) {c : Char}
    (hc : c = '(' ∨ c = ')') : c ∉ s := by
  obtain ⟨n, hn⟩ := Option.ne_none_iff_exists'.mp h
  rw [readDecimal] at hn
  split at hn
  · exact not_mem_of_readGroupsAux hn hc
  · cases hn

theorem not_mem_of_readMarked {base : Nat} {s : Text} (h : readMarked base s ≠ none) {c : Char}
    (hc : c = '(' ∨ c = ')') : c ∉ s := by
  obtain ⟨n, hn⟩ := Option.ne_none_iff_exists'.mp h
  unfold readMarked at hn
  split at hn
  · rw [List.mem_cons, not_or]
    exact ⟨by rcases hc with rfl | rfl <;> decide, not_mem_of_readGroupsAux hn hc⟩
  · exact not_mem_of_readGroupsAux hn hc

end Numeral

/-! ## Immediates -/

namespace Immediate

/-- Digits are read without a sign. -/
theorem readSigned_of_digits {s : Text} (hs : ∀ c ∈ s, c.isDigit = true) :
    readSigned s = (Numeral.readDecimal s).map fun n => (n : Int) := by
  unfold readSigned
  split
  · have h := hs '+' List.mem_cons_self
    simp at h
  · have h := hs '-' List.mem_cons_self
    simp at h
  · rfl

/-- Digits have no radix mark. -/
theorem read?_of_digits {s : Text} (hs : ∀ c ∈ s, c.isDigit = true) :
    read? s = (Numeral.readDecimal s).map fun n => (n : Int) := by
  unfold read?
  split
  · rename_i letter digits
    have hletter := hs letter (by simp)
    have hbase : base? letter = none := by
      unfold base?
      split <;> simp at hletter ⊢
    rw [hbase]
    exact readSigned_of_digits hs
  · exact readSigned_of_digits hs

/-- A numeral is an immediate if its digits are not too many. -/
theorem parse_ofInt_eq (n : Int) :
    parse (Numeral.ofInt n) =
      match Numeral.readDecimal (Numeral.ofNat n.natAbs) with
      | some _ => .ok n
      | none => .error (.invalidImmediate (Numeral.ofNat n.natAbs)) := by
  have hdigits : ∀ k, ∀ c ∈ Numeral.ofNat k, c.isDigit = true :=
    fun k c hc => Numeral.isDigit_of_mem_ofNat hc
  have htrim : ∀ k, Text.trim (Numeral.ofNat k) = Numeral.ofNat k :=
    fun k => Text.trim_eq_self_of_forall fun c hc => Numeral.isBlank_of_isDigit (hdigits k c hc)
  cases n with
  | ofNat k =>
      show parse (Numeral.ofNat k) = match Numeral.readDecimal (Numeral.ofNat k) with
        | some _ => .ok (k : Int)
        | none => .error (.invalidImmediate (Numeral.ofNat k))
      rw [parse, htrim]
      split
      · rename_i hnil
        exact absurd hnil Nat.toDigits_ne_nil
      · rename_i rest heq
        have hminus := hdigits k '-' (by simp [heq])
        simp at hminus
      · rw [read?_of_digits (hdigits k)]
        cases hread : Numeral.readDecimal (Numeral.ofNat k) with
        | none => rfl
        | some m =>
            obtain rfl := Numeral.eq_of_readDecimal_ofNat hread
            rfl
  | negSucc k =>
      have hsigned : Text.trim ('-' :: Numeral.ofNat (k + 1)) = '-' :: Numeral.ofNat (k + 1) := by
        apply Text.trim_eq_self_of_forall
        intro c hc
        rcases List.mem_cons.mp hc with rfl | hc
        · decide
        · exact Numeral.isBlank_of_isDigit (hdigits _ c hc)
      rw [Numeral.ofInt, parse, hsigned, Int.natAbs_negSucc]
      simp only [htrim, read?_of_digits (hdigits (k + 1))]
      cases hread : Numeral.readDecimal (Numeral.ofNat (k + 1)) with
      | none => rfl
      | some m =>
          obtain rfl := Numeral.eq_of_readDecimal_ofNat hread
          rfl

/-- A numeral that is not too long is read as the integer it was written for. -/
theorem parse_ofInt {n : Int} (h : Numeral.tooLong n = false) :
    parse (Numeral.ofInt n) = .ok n := by
  rw [parse_ofInt_eq, Numeral.readDecimal_ofNat h]

/-- A numeral that is accepted as an immediate stands for the integer it was written for. -/
theorem eq_of_parse_ofInt {n v : Int} (h : parse (Numeral.ofInt n) = .ok v) : v = n := by
  rw [parse_ofInt_eq] at h
  split at h
  · exact (Except.ok.inj h).symm
  · cases h

theorem not_mem_of_readSigned {s : Text} (h : readSigned s ≠ none) {c : Char}
    (hc : c = '(' ∨ c = ')') : c ∉ s := by
  unfold readSigned at h
  split at h
  · rw [List.mem_cons, not_or]
    exact ⟨by rcases hc with rfl | rfl <;> decide,
      Numeral.not_mem_of_readDecimal (fun hnone => h (by rw [hnone]; rfl)) hc⟩
  · rw [List.mem_cons, not_or]
    exact ⟨by rcases hc with rfl | rfl <;> decide,
      Numeral.not_mem_of_readDecimal (fun hnone => h (by rw [hnone]; rfl)) hc⟩
  · exact Numeral.not_mem_of_readDecimal (fun hnone => h (by rw [hnone]; rfl)) hc

theorem not_mem_of_read? {s : Text} (h : read? s ≠ none) {c : Char} (hc : c = '(' ∨ c = ')') :
    c ∉ s := by
  unfold read? at h
  split at h
  · rename_i letter digits
    split at h
    · rename_i base hbase
      have hdigits : c ∉ digits :=
        Numeral.not_mem_of_readMarked (fun hnone => h (by rw [hnone]; rfl)) hc
      have hletter : c ≠ letter := by
        rintro rfl
        rcases hc with rfl | rfl <;> cases hbase
      have hzero : c ≠ '0' := by rcases hc with rfl | rfl <;> decide
      simp [hdigits, hletter, hzero]
    · exact not_mem_of_readSigned h hc
  · exact not_mem_of_readSigned h hc

/-- An immediate holds no parenthesis. -/
theorem not_mem_of_accepts {s : Text} (h : accepts s = true) {c : Char} (hc : c = '(' ∨ c = ')') :
    c ∉ s := by
  have hplain : isBlank c = false ∧ c ≠ '-' := by rcases hc with rfl | rfl <;> decide
  intro hmem
  have htrim := Text.mem_trim hmem hplain.1
  unfold accepts parse at h
  split at h
  · cases h
  · rename_i rest heq
    rw [heq] at htrim
    have hrest : c ∈ Text.trim rest :=
      Text.mem_trim ((List.mem_cons.mp htrim).resolve_left hplain.2) hplain.1
    refine not_mem_of_read? (fun hnone => ?_) hc hrest
    simp [hnone, Except.isOk, Except.toBool] at h
  · refine not_mem_of_read? (fun hnone => ?_) hc htrim
    simp [hnone, Except.isOk, Except.toBool] at h

end Immediate

end RiscAsm

import RiscAsm.Buffer
import RiscAsm.Proofs.Result

/-!
# Theory of bytes and words

Words are laid out as four bytes each, the lowest first.  The bytes at the place of a word have the
word as their value (`wordAt_ofWords`), and bytes are known by the words at their places
(`ext_wordAt`).  A buffer can be made from every list of machine words (`Buffer.ofWords?_of_lt`).
-/

namespace RiscAsm

namespace Bytes

/-! ## Single bytes -/

theorem toNat_toUInt8 {n : Nat} (h : n < 256) : n.toUInt8.toNat = n := by
  rw [Nat.toUInt8_eq, UInt8.toNat_ofNat', Nat.mod_eq_of_lt (by omega)]

/-- A number becomes the byte that it is congruent to. -/
theorem toUInt8_eq {n : Nat} {b : UInt8} (h : n % 256 = b.toNat) : n.toUInt8 = b := by
  apply UInt8.toNat_inj.mp
  rw [Nat.toUInt8_eq, UInt8.toNat_ofNat']
  exact h

/-! ## The bytes of one word -/

theorem value_four (a b c d : UInt8) :
    value [a, b, c, d] =
      a.toNat + 256 * (b.toNat + 256 * (c.toNat + 256 * (d.toNat + 256 * 0))) := rfl

/-- The bytes of a word have its value. -/
theorem value_ofWord {w : Nat} (h : w < 4294967296) : value (ofWord w) = w := by
  rw [ofWord, value_four]
  simp only [Nat.toUInt8_eq, UInt8.toNat_ofNat']
  omega

/-- Four bytes are those of their value. -/
theorem ofWord_value (a b c d : UInt8) : ofWord (value [a, b, c, d]) = [a, b, c, d] := by
  have ha := a.toNat_lt
  have hb := b.toNat_lt
  have hc := c.toNat_lt
  have hd := d.toNat_lt
  rw [ofWord, value_four, toUInt8_eq (b := a) (by omega), toUInt8_eq (b := b) (by omega),
    toUInt8_eq (b := c) (by omega), toUInt8_eq (b := d) (by omega)]

/-! ## The bytes of words -/

/-- The word at a position, from zero on. -/
def wordAt (bytes : List UInt8) (i : Nat) : Nat := value ((bytes.drop (4 * i)).take 4)

theorem wordAt_zero (a b c d : UInt8) (bytes : List UInt8) :
    wordAt (a :: b :: c :: d :: bytes) 0 = value [a, b, c, d] := rfl

theorem wordAt_succ (a b c d : UInt8) (bytes : List UInt8) (i : Nat) :
    wordAt (a :: b :: c :: d :: bytes) (i + 1) = wordAt bytes i := rfl

theorem ofWords_cons (w : Nat) (words : List Nat) :
    ofWords (w :: words) = w.toUInt8 :: (w / 256).toUInt8 :: (w / 65536).toUInt8 ::
      (w / 16777216).toUInt8 :: ofWords words := rfl

theorem length_ofWords (words : List Nat) : (ofWords words).length = 4 * words.length := by
  induction words with
  | nil => rfl
  | cons w words ih =>
      rw [ofWords_cons]
      simp only [List.length_cons]
      omega

/-- Each word stands at its place. -/
theorem wordAt_ofWords {words : List Nat} {i w : Nat} (h : words[i]? = some w)
    (hw : w < 4294967296) : wordAt (ofWords words) i = w := by
  induction words generalizing i with
  | nil => simp at h
  | cons first words ih =>
      rw [ofWords_cons]
      cases i with
      | zero =>
          obtain rfl : first = w := by simpa using h
          rw [wordAt_zero]
          exact value_ofWord hw
      | succ i =>
          rw [wordAt_succ]
          exact ih (by simpa using h)

/-- Bytes are known by the words that stand in them. -/
theorem ext_wordAt {n : Nat} {bytes other : List UInt8} (hbytes : bytes.length = 4 * n)
    (hother : other.length = 4 * n) (h : ∀ i < n, wordAt bytes i = wordAt other i) :
    bytes = other := by
  induction n generalizing bytes other with
  | zero => rw [List.length_eq_zero_iff.mp hbytes, List.length_eq_zero_iff.mp hother]
  | succ n ih =>
      -- the lengths leave room for the four bytes of a first word
      match bytes, other, hbytes, hother with
      | a :: b :: c :: d :: rest, a' :: b' :: c' :: d' :: rest', hbytes, hother =>
          simp only [List.length_cons] at hbytes hother
          have hfirst : [a, b, c, d] = [a', b', c', d'] := by
            rw [← ofWord_value a b c d, ← ofWord_value a' b' c' d']
            exact congrArg ofWord (h 0 (by omega))
          have hrest : rest = rest' := by
            refine ih (by omega) (by omega) ?_
            intro i hi
            exact h (i + 1) (by omega)
          obtain ⟨rfl, rfl, rfl, rfl⟩ : a = a' ∧ b = b' ∧ c = c' ∧ d = d' := by simpa using hfirst
          rw [hrest]

end Bytes

/-! ## Buffers of words -/

theorem Buffer.ofWords?_of_lt {words : List Nat} (h : ∀ w ∈ words, w < 4294967296) :
    Buffer.ofWords? (words.map Int.ofNat) = some (Buffer.ofBytes (Bytes.ofWords words)) := by
  have hwords : (words.map Int.ofNat).mapM Buffer.word? = some words := by
    induction words with
    | nil => rfl
    | cons w words ih =>
        have hw : Buffer.word? (Int.ofNat w) = some w := if_pos (h w List.mem_cons_self)
        rw [List.map_cons, List.mapM_cons, hw, ih fun v hv => h v (List.mem_cons_of_mem w hv)]
        rfl
  rw [Buffer.ofWords?, hwords]
  rfl

end RiscAsm

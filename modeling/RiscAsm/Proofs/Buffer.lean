import RiscAsm.Proofs.Bytes
import RiscAsm.Proofs.Numeral

/-!
# Buffers and their words

A buffer can be made from integers exactly when all of them are machine words, and then these are
its words (`ofWords?_eq_some_iff`, `Bytes.toWords_ofWords`).  The words of any bytes lead back to
the bytes, with zeros after them that complete the last word (`Bytes.ofWords_toWords`).  So words
and bytes in whole words stand for each other (`ofWords?_inverse`).
-/

namespace RiscAsm

namespace Bytes

/-! ## Words of bytes -/

/-- What was gathered before stays in front. -/
theorem toWordsAux_eq (done : List Nat) (bytes : List UInt8) :
    toWordsAux done bytes = done.reverse ++ toWords bytes := by
  have haux : ∀ (bytes : List UInt8) (done base : List Nat),
      toWordsAux (done ++ base) bytes = base.reverse ++ toWordsAux done bytes := by
    intro bytes done base
    fun_induction toWordsAux done bytes with
    | case1 done => simp [toWordsAux]
    | case2 done a b c d rest ih => rw [toWordsAux, ← ih, List.cons_append]
    | case3 done short hne hshort =>
        rw [toWordsAux]
        · simp
        · exact hne
        · exact hshort
  exact haux bytes [] done

theorem toWords_cons (a b c d : UInt8) (rest : List UInt8) :
    toWords (a :: b :: c :: d :: rest) = value [a, b, c, d] :: toWords rest := by
  rw [toWords, toWordsAux, toWordsAux_eq]
  rfl

/-- Machine words are found again in their bytes. -/
theorem toWords_ofWords {words : List Nat} (h : ∀ w ∈ words, w < 4294967296) :
    toWords (ofWords words) = words := by
  induction words with
  | nil => rfl
  | cons w words ih =>
      obtain ⟨hw, hwords⟩ := List.forall_mem_cons.mp h
      have hvalue : value [w.toUInt8, (w / 256).toUInt8, (w / 65536).toUInt8,
          (w / 16777216).toUInt8] = w := value_ofWord hw
      rw [ofWords_cons, toWords_cons, ih hwords, hvalue]

/-- Zeros at the end do not change the number that bytes stand for. -/
theorem value_append_zeros (bytes : List UInt8) (n : Nat) :
    value (bytes ++ List.replicate n 0) = value bytes := by
  have hzeros : value (List.replicate n 0) = 0 := by
    induction n with
    | zero => rfl
    | succ n ih =>
        show (0 : UInt8).toNat + 256 * value (List.replicate n 0) = 0
        rw [ih]
        rfl
  induction bytes with
  | nil => exact hzeros
  | cons b bytes ih =>
      show b.toNat + 256 * value (bytes ++ List.replicate n 0) = b.toNat + 256 * value bytes
      rw [ih]

/-- The number of bytes that are missing to whole words after `n` bytes. -/
def missing (n : Nat) : Nat := ((-(n : Int)) % 4).toNat

/-- Bytes with zeros after them that complete the last word. -/
def completed (bytes : List UInt8) : List UInt8 :=
  bytes ++ List.replicate (missing bytes.length) 0

/-- Bytes in whole words are complete. -/
theorem completed_of_dvd {bytes : List UInt8} (h : 4 ∣ bytes.length) : completed bytes = bytes := by
  have hnone : missing bytes.length = 0 := by
    unfold missing
    omega
  rw [completed, hnone]
  exact List.append_nil bytes

theorem completed_cons (a b c d : UInt8) (rest : List UInt8) :
    completed (a :: b :: c :: d :: rest) = a :: b :: c :: d :: completed rest := by
  have hsame : missing (a :: b :: c :: d :: rest).length = missing rest.length := by
    simp only [missing, List.length_cons]
    omega
  rw [completed, hsame]
  rfl

/-- Fewer than four bytes are one word, which zeros complete. -/
theorem exists_completed {short : List UInt8} (hne : short ≠ []) (h : short.length < 4) :
    ∃ a b c d, completed short = [a, b, c, d] ∧ toWords short = [value [a, b, c, d]] := by
  have hword : ∀ short : List UInt8, toWords short = [value short] →
      toWords short = [value (completed short)] := by
    intro short hshort
    rw [hshort, completed, value_append_zeros]
  rcases short with _ | ⟨a, _ | ⟨b, _ | ⟨c, _ | ⟨d, rest⟩⟩⟩⟩
  · exact absurd rfl hne
  · exact ⟨a, 0, 0, 0, rfl, hword [a] rfl⟩
  · exact ⟨a, b, 0, 0, rfl, hword [a, b] rfl⟩
  · exact ⟨a, b, c, 0, rfl, hword [a, b, c] rfl⟩
  · simp only [List.length_cons] at h
    omega

/-- What holds of fewer than four bytes, and of bytes with one more word in front, holds of all
bytes. -/
@[elab_as_elim]
theorem induction_on_words {P : List UInt8 → Prop} (bytes : List UInt8) (nil : P [])
    (short : ∀ short, short ≠ [] → short.length < 4 → P short)
    (word : ∀ a b c d rest, P rest → P (a :: b :: c :: d :: rest)) : P bytes := by
  have haux : ∀ done : List Nat, P bytes := by
    intro done
    fun_induction toWordsAux done bytes with
    | case1 => exact nil
    | case2 done a b c d rest ih => exact word a b c d rest ih
    | case3 done last hne hlast =>
        refine short last hne ?_
        rcases last with _ | ⟨a, _ | ⟨b, _ | ⟨c, _ | ⟨d, rest⟩⟩⟩⟩
        · simp
        · simp
        · simp
        · simp
        · exact absurd rfl (hlast a b c d rest)
  exact haux []

/-- The words of bytes are the bytes, with zeros that complete the last word. -/
theorem ofWords_toWords (bytes : List UInt8) : ofWords (toWords bytes) = completed bytes := by
  have hword : ∀ (a b c d : UInt8) (words : List Nat),
      ofWords (value [a, b, c, d] :: words) = [a, b, c, d] ++ ofWords words := by
    intro a b c d words
    show ofWord (value [a, b, c, d]) ++ ofWords words = _
    rw [ofWord_value]
  induction bytes using induction_on_words with
  | nil => rfl
  | short short hne hlength =>
      obtain ⟨a, b, c, d, hcompleted, hwords⟩ := exists_completed hne hlength
      rw [hwords, hcompleted, hword]
      rfl
  | word a b c d rest ih =>
      rw [toWords_cons, hword, ih, completed_cons]
      rfl

/-- The words of bytes are machine words. -/
theorem lt_of_mem_toWords (bytes : List UInt8) : ∀ w ∈ toWords bytes, w < 4294967296 := by
  have hlt : ∀ a b c d : UInt8, value [a, b, c, d] < 4294967296 := by
    intro a b c d
    have ha := a.toNat_lt
    have hb := b.toNat_lt
    have hc := c.toNat_lt
    have hd := d.toNat_lt
    rw [value_four]
    omega
  induction bytes using induction_on_words with
  | nil => exact List.forall_mem_nil _
  | short short hne hlength =>
      obtain ⟨a, b, c, d, -, hwords⟩ := exists_completed hne hlength
      rw [hwords]
      exact List.forall_mem_singleton.mpr (hlt a b c d)
  | word a b c d rest ih =>
      rw [toWords_cons]
      exact List.forall_mem_cons.mpr ⟨hlt a b c d, ih⟩

end Bytes

/-! ## Words in hexadecimal -/

/-- Eight hexadecimal digits in lower case. -/
def IsHexWord (s : Text) : Prop := s.length = 8 ∧ ∀ c ∈ s, c ∈ "0123456789abcdef".toList

/-- A machine word is written with eight digits. -/
theorem isHexWord_hex {w : Nat} (h : w < 4294967296) : IsHexWord (Numeral.hex 8 w) := by
  have hdigit : ∀ k < 16, k.digitChar ∈ "0123456789abcdef".toList := by decide
  constructor
  · exact Numeral.length_padded ((Nat.length_toDigits_le_iff (by decide) (by decide)).mpr h)
  · intro c hc
    obtain ⟨k, hk, rfl⟩ := Numeral.mem_padded (by decide) hc
    exact hdigit k hk

namespace Buffer

/-! ## Buffers of words -/

/-- An integer in the range of machine words. -/
def IsWord (n : Int) : Prop := 0 ≤ n ∧ n < 4294967296

instance : DecidablePred IsWord := fun n => inferInstanceAs (Decidable (0 ≤ n ∧ n < 4294967296))

theorem word?_eq_some_iff {n : Int} {w : Nat} :
    word? n = some w ↔ n = Int.ofNat w ∧ w < 4294967296 := by
  cases n with
  | ofNat k =>
      rw [word?, Int.ofNat.injEq]
      split
      · rw [Option.some.injEq]
        omega
      · simp only [reduceCtorEq, false_iff]
        omega
  | negSucc k => simp [word?]

/-- Integers are taken as words when they are naturals in that range. -/
theorem mapM_word?_eq_some_iff {words : List Int} {ws : List Nat} :
    words.mapM word? = some ws ↔ words = ws.map Int.ofNat ∧ ∀ w ∈ ws, w < 4294967296 := by
  induction words generalizing ws with
  | nil =>
      rw [List.mapM_nil]
      constructor
      · intro h
        cases h
        exact ⟨rfl, List.forall_mem_nil _⟩
      · rintro ⟨h, -⟩
        rw [List.map_eq_nil_iff.mp h.symm]
        rfl
  | cons n words ih =>
      rw [List.mapM_cons]
      constructor
      · intro h
        obtain ⟨w, hw, h⟩ := Option.bind_eq_some_iff.mp h
        obtain ⟨rest, hrest, h⟩ := Option.bind_eq_some_iff.mp h
        cases h
        obtain ⟨rfl, hlt⟩ := word?_eq_some_iff.mp hw
        obtain ⟨rfl, hall⟩ := ih.mp hrest
        exact ⟨rfl, List.forall_mem_cons.mpr ⟨hlt, hall⟩⟩
      · rintro ⟨h, hall⟩
        rcases ws with _ | ⟨w, rest⟩
        · cases h
        · obtain ⟨hhead, htail⟩ := List.cons.inj h
          obtain ⟨hlt, hall⟩ := List.forall_mem_cons.mp hall
          rw [word?_eq_some_iff.mpr ⟨hhead, hlt⟩, ih.mpr ⟨htail, hall⟩]
          rfl

/-- The integers in the range of machine words are the naturals in it. -/
theorem forall_isWord_iff {words : List Int} :
    (∀ n ∈ words, IsWord n) ↔
      ∃ ws : List Nat, words = ws.map Int.ofNat ∧ ∀ w ∈ ws, w < 4294967296 := by
  constructor
  · intro h
    refine ⟨words.map Int.toNat, ?_, ?_⟩
    · have hcast : ∀ n ∈ words, (Int.ofNat ∘ Int.toNat) n = id n := by
        intro n hn
        exact Int.toNat_of_nonneg (h n hn).1
      rw [List.map_map, List.map_congr_left hcast, List.map_id]
    · intro w hw
      obtain ⟨n, hn, rfl⟩ := List.mem_map.mp hw
      obtain ⟨hnonneg, hlt⟩ := h n hn
      omega
  · rintro ⟨ws, rfl, hall⟩ n hn
    obtain ⟨w, hw, rfl⟩ := List.mem_map.mp hn
    have hlt := hall w hw
    exact ⟨Int.natCast_nonneg w, Int.ofNat_lt.mpr hlt⟩

/-- A buffer is made from integers exactly when they are naturals in the range of machine words. -/
theorem ofWords?_eq_some_iff {words : List Int} {b : Buffer} :
    ofWords? words = some b ↔ ∃ ws : List Nat, words = ws.map Int.ofNat ∧
      (∀ w ∈ ws, w < 4294967296) ∧ b = ofBytes (Bytes.ofWords ws) := by
  rw [ofWords?, Option.map_eq_some_iff]
  constructor
  · rintro ⟨ws, hws, rfl⟩
    obtain ⟨hwords, hall⟩ := mapM_word?_eq_some_iff.mp hws
    exact ⟨ws, hwords, hall, rfl⟩
  · rintro ⟨ws, hwords, hall, rfl⟩
    exact ⟨ws, mapM_word?_eq_some_iff.mpr ⟨hwords, hall⟩, rfl⟩

/-- What it means that a buffer holds words: it has four bytes for each, they are read from it, and
its hexadecimal texts have eight digits each and their values. -/
structure Holds (b : Buffer) (ws : List Nat) : Prop where
  size : b.size = .ok (4 * ws.length)
  words : b.words = .ok ws
  hexWords : ∃ texts, b.hexWords = .ok texts ∧ (∀ s ∈ texts, IsHexWord s) ∧
    texts.mapM (Numeral.readGroups 16) = some ws

/-- The bytes of machine words hold these words. -/
theorem holds_ofWords {ws : List Nat} (h : ∀ w ∈ ws, w < 4294967296) :
    Holds (ofBytes (Bytes.ofWords ws)) ws := by
  have hwords : (ofBytes (Bytes.ofWords ws)).words = .ok ws :=
    congrArg Except.ok (Bytes.toWords_ofWords h)
  constructor
  · exact congrArg Except.ok (Bytes.length_ofWords ws)
  · exact hwords
  · refine ⟨ws.map (Numeral.hex 8), ?_, ?_, Numeral.mapM_readGroups (Numeral.readGroups_hex 8) ws⟩
    · rw [hexWords, hwords]
      rfl
    · intro s hs
      obtain ⟨w, hw, rfl⟩ := List.mem_map.mp hs
      exact isHexWord_hex (h w hw)

/-- **Words and bytes stand for each other**: a buffer can be made from integers exactly when all of
them are machine words, and then it holds these words.  The words of any bytes make a buffer with
the bytes and the zeros that complete the last word, which are the same bytes if they are whole
words. -/
theorem ofWords?_inverse :
    (∀ words : List Int,
      ((∃ b, ofWords? words = some b) ↔ ∀ n ∈ words, IsWord n) ∧
        ∀ b, ofWords? words = some b → ∃ ws : List Nat, ws.map Int.ofNat = words ∧ Holds b ws) ∧
      ∀ bytes : List UInt8, ∃ ws : List Nat,
        (ofBytes bytes).words = .ok ws ∧
          ofWords? (ws.map Int.ofNat) = some (ofBytes (Bytes.completed bytes)) ∧
            (4 ∣ bytes.length → ofWords? (ws.map Int.ofNat) = some (ofBytes bytes)) := by
  constructor
  · intro words
    constructor
    · rw [forall_isWord_iff]
      constructor
      · rintro ⟨b, hb⟩
        obtain ⟨ws, hwords, hall, -⟩ := ofWords?_eq_some_iff.mp hb
        exact ⟨ws, hwords, hall⟩
      · rintro ⟨ws, hwords, hall⟩
        exact ⟨_, ofWords?_eq_some_iff.mpr ⟨ws, hwords, hall, rfl⟩⟩
    · intro b hb
      obtain ⟨ws, hwords, hall, rfl⟩ := ofWords?_eq_some_iff.mp hb
      exact ⟨ws, hwords.symm, holds_ofWords hall⟩
  · intro bytes
    have hback : ofWords? ((Bytes.toWords bytes).map Int.ofNat) =
        some (ofBytes (Bytes.completed bytes)) :=
      ofWords?_eq_some_iff.mpr ⟨Bytes.toWords bytes, rfl, Bytes.lt_of_mem_toWords bytes,
        congrArg ofBytes (Bytes.ofWords_toWords bytes).symm⟩
    refine ⟨Bytes.toWords bytes, rfl, hback, ?_⟩
    intro hdvd
    rw [hback, Bytes.completed_of_dvd hdvd]

/-- The greatest machine word and a small one make a buffer, and one more than the greatest does
not; five bytes lead back to themselves and three zeros. -/
theorem ofWords?_inverse_boundary :
    (∃ b, ofWords? [4294967295, 19] = some b ∧ Holds b [4294967295, 19]) ∧
      ¬ (∃ b, ofWords? [19, 4294967296] = some b) ∧
        ∃ ws : List Nat, (ofBytes [1, 2, 3, 4, 5]).words = .ok ws ∧
          ofWords? (ws.map Int.ofNat) = some (ofBytes [1, 2, 3, 4, 5, 0, 0, 0]) := by
  refine ⟨?_, ?_, ?_⟩
  · obtain ⟨b, hb⟩ := (ofWords?_inverse.1 [4294967295, 19]).1.mpr (by decide)
    obtain ⟨ws, hws, hholds⟩ := (ofWords?_inverse.1 _).2 b hb
    have heq : ws = [4294967295, 19] :=
      (List.map_inj_right fun _ _ => Int.ofNat.inj).mp hws
    exact ⟨b, hb, heq ▸ hholds⟩
  · rw [(ofWords?_inverse.1 [19, 4294967296]).1]
    decide
  · obtain ⟨ws, hwords, hback, -⟩ := ofWords?_inverse.2 [1, 2, 3, 4, 5]
    exact ⟨ws, hwords, hback⟩

end Buffer

end RiscAsm

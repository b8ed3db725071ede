import RiscAsm.Proofs.Bytes
import RiscAsm.Proofs.Text.LowerCase
import RiscAsm.Text.Utf8

/-!
# Decoding UTF-8

`Utf8.decode` reads back what `Utf8.encode` writes, and nothing else: bytes are decoded into a text
exactly when they are its encoding (`decode_eq_ok_iff`).  A first byte and those that finish its
character (`Spells`) are the encoding of this character, and the other way round.  So while bytes
are read, the ones before the character at hand are the encoding of the characters before it
(`Scan.Inv`).
-/

namespace RiscAsm.Utf8

open Bytes

/-! ## Characters and their bytes -/

/-- A number that is a character. -/
def IsScalar (n : Nat) : Prop := n < 0xD800 ∨ 0xE000 ≤ n ∧ n < 0x110000

theorem isScalar_toNat (c : Char) : IsScalar c.toNat := by
  have hvalid : c.toNat.isValidChar := c.valid
  unfold Nat.isValidChar at hvalid
  unfold IsScalar
  omega

theorem encodeChar_one {n : Nat} (h : n < 0x80) : encodeChar (Char.ofNat n) = [n.toUInt8] := by
  rw [encodeChar, toNat_ofNat_of_valid (.inl (by omega))]
  exact if_pos h

theorem encodeChar_two {n : Nat} (hleast : 0x80 ≤ n) (h : n < 0x800) :
    encodeChar (Char.ofNat n) = [(0xC0 + n / 0x40).toUInt8, (0x80 + n % 0x40).toUInt8] := by
  unfold encodeChar
  rw [toNat_ofNat_of_valid (.inl (by omega)), if_neg (by omega), if_pos h]

theorem encodeChar_three {n : Nat} (hn : IsScalar n) (hleast : 0x800 ≤ n) (h : n < 0x10000) :
    encodeChar (Char.ofNat n) =
      [(0xE0 + n / 0x1000).toUInt8, (0x80 + n / 0x40 % 0x40).toUInt8,
       (0x80 + n % 0x40).toUInt8] := by
  unfold encodeChar
  rw [toNat_ofNat_of_valid hn, if_neg (by omega), if_neg (by omega), if_pos h]

theorem encodeChar_four {n : Nat} (hleast : 0x10000 ≤ n) (h : n < 0x110000) :
    encodeChar (Char.ofNat n) =
      [(0xF0 + n / 0x40000).toUInt8, (0x80 + n / 0x1000 % 0x40).toUInt8,
       (0x80 + n / 0x40 % 0x40).toUInt8, (0x80 + n % 0x40).toUInt8] := by
  unfold encodeChar
  rw [toNat_ofNat_of_valid (.inr ⟨by omega, h⟩), if_neg (by omega), if_neg (by omega),
    if_neg (by omega)]

/-! ## First bytes -/

theorem lead?_one {b : Nat} (h : b < 0x80) : lead? b = some ⟨0, 0x80, 0xBF, b⟩ := by
  rw [lead?, if_pos h]

theorem lead?_two {b : Nat} (hleast : 0xC2 ≤ b) (h : b < 0xE0) :
    lead? b = some ⟨1, 0x80, 0xBF, b - 0xC0⟩ := by
  rw [lead?, if_neg (by omega), if_neg (by omega), if_pos h]

/-- After the first of three bytes, the second is such that the number needs three bytes and is no
surrogate. -/
theorem lead?_three {b : Nat} (hleast : 0xE0 ≤ b) (h : b < 0xF0) :
    ∃ least greatest, lead? b = some ⟨2, least, greatest, b - 0xE0⟩ ∧
      (b = 0xE0 ∧ least = 0xA0 ∨ b ≠ 0xE0 ∧ least = 0x80) ∧
      (b = 0xED ∧ greatest = 0x9F ∨ b ≠ 0xED ∧ greatest = 0xBF) := by
  rw [lead?, if_neg (by omega), if_neg (by omega), if_neg (by omega)]
  by_cases hlong : b = 0xE0
  · subst hlong
    exact ⟨0xA0, 0xBF, rfl, by omega, by omega⟩
  · by_cases hscalar : b = 0xED
    · subst hscalar
      exact ⟨0x80, 0x9F, rfl, by omega, by omega⟩
    · rw [if_neg hlong, if_neg hscalar, if_pos h]
      exact ⟨0x80, 0xBF, rfl, by omega, by omega⟩

/-- After the first of four bytes, the second is such that the number needs four bytes and is not
too great. -/
theorem lead?_four {b : Nat} (hleast : 0xF0 ≤ b) (h : b ≤ 0xF4) :
    ∃ least greatest, lead? b = some ⟨3, least, greatest, b - 0xF0⟩ ∧
      (b = 0xF0 ∧ least = 0x90 ∨ b ≠ 0xF0 ∧ least = 0x80) ∧
      (b = 0xF4 ∧ greatest = 0x8F ∨ b ≠ 0xF4 ∧ greatest = 0xBF) := by
  rw [lead?, if_neg (by omega), if_neg (by omega), if_neg (by omega), if_neg (by omega),
    if_neg (by omega), if_neg (by omega)]
  by_cases hlong : b = 0xF0
  · subst hlong
    exact ⟨0x90, 0xBF, rfl, by omega, by omega⟩
  · by_cases hscalar : b = 0xF4
    · subst hscalar
      exact ⟨0x80, 0x8F, rfl, by omega, by omega⟩
    · rw [if_neg hlong, if_pos (by omega)]
      exact ⟨0x80, 0xBF, rfl, by omega, by omega⟩

/-- No other byte starts a character. -/
theorem lead?_none {b : Nat} (h : 0x80 ≤ b ∧ b < 0xC2 ∨ 0xF4 < b) : lead? b = none := by
  unfold lead?
  rcases h with ⟨hleast, hlt⟩ | hlt
  · rw [if_neg (by omega), if_pos hlt]
  · rw [if_neg (by omega), if_neg (by omega), if_neg (by omega), if_neg (by omega),
      if_neg (by omega), if_neg (by omega), if_neg (by omega), if_neg (by omega), if_neg (by omega)]

/-! ## Bytes of a character at hand -/

/-- What is known of a character after one more byte. -/
def Lead.next (lead : Lead) (b : Nat) : Lead :=
  ⟨lead.follow - 1, 0x80, 0xBF, lead.bits * 64 + (b - 0x80)⟩

/-- The bytes finish the character at hand, whose number they make `n`. -/
def Spells : Lead → List UInt8 → Nat → Prop
  | lead, [], n => lead.follow = 0 ∧ n = lead.bits
  | lead, byte :: rest, n => lead.follow ≠ 0 ∧ lead.least ≤ byte.toNat ∧
      byte.toNat ≤ lead.greatest ∧ Spells (lead.next byte.toNat) rest n

theorem Spells.length_eq {lead : Lead} {rest : List UInt8} {n : Nat} (h : Spells lead rest n) :
    rest.length = lead.follow := by
  induction rest generalizing lead with
  | nil => exact h.1.symm
  | cons byte rest ih =>
      obtain ⟨hfollow, _, _, hrest⟩ := h
      have hlength : rest.length = lead.follow - 1 := ih hrest
      rw [List.length_cons]
      omega

/-- Bytes that spell a character are those it is encoded as. -/
theorem encodeChar_of_spells {byte : UInt8} {rest : List UInt8} {lead : Lead} {n : Nat}
    (hlead : lead? byte.toNat = some lead) (h : Spells lead rest n) :
    encodeChar (Char.ofNat n) = byte :: rest := by
  have hlength := h.length_eq
  by_cases hone : byte.toNat < 0x80
  · obtain rfl := Option.some.inj ((lead?_one hone).symm.trans hlead)
    obtain rfl := List.length_eq_zero_iff.1 hlength
    obtain rfl : n = byte.toNat := h.2
    rw [encodeChar_one hone, toUInt8_eq (b := byte) (by omega)]
  by_cases htwo : 0xC2 ≤ byte.toNat ∧ byte.toNat < 0xE0
  · obtain rfl := Option.some.inj ((lead?_two htwo.1 htwo.2).symm.trans hlead)
    obtain ⟨b, rfl⟩ := List.length_eq_one_iff.1 hlength
    simp only [Spells, Lead.next] at h
    rw [encodeChar_two (by omega) (by omega), toUInt8_eq (b := byte) (by omega),
      toUInt8_eq (b := b) (by omega)]
  by_cases hthree : 0xE0 ≤ byte.toNat ∧ byte.toNat < 0xF0
  · obtain ⟨least, greatest, heq, hlong, hsurrogate⟩ := lead?_three hthree.1 hthree.2
    obtain rfl := Option.some.inj (heq.symm.trans hlead)
    obtain ⟨b, c, rfl⟩ := List.length_eq_two.1 hlength
    simp only [Spells, Lead.next] at h
    -- the bounds of the second byte keep overlong forms and surrogates out
    have hscalar : IsScalar n := by
      unfold IsScalar
      omega
    rw [encodeChar_three hscalar (by omega) (by omega), toUInt8_eq (b := byte) (by omega),
      toUInt8_eq (b := b) (by omega), toUInt8_eq (b := c) (by omega)]
  by_cases hfour : 0xF0 ≤ byte.toNat ∧ byte.toNat ≤ 0xF4
  · obtain ⟨least, greatest, heq, hlong, hgreat⟩ := lead?_four hfour.1 hfour.2
    obtain rfl := Option.some.inj (heq.symm.trans hlead)
    obtain ⟨b, c, d, rfl⟩ := List.length_eq_three.1 hlength
    simp only [Spells, Lead.next] at h
    rw [encodeChar_four (by omega) (by omega), toUInt8_eq (b := byte) (by omega),
      toUInt8_eq (b := b) (by omega), toUInt8_eq (b := c) (by omega),
      toUInt8_eq (b := d) (by omega)]
  · rw [lead?_none (by omega)] at hlead
    cases hlead

/-- The bytes that a character is encoded as spell it. -/
theorem spells_encodeChar {n : Nat} (hn : IsScalar n) :
    ∃ byte rest lead, encodeChar (Char.ofNat n) = byte :: rest ∧ lead? byte.toNat = some lead ∧
      Spells lead rest n := by
  have hscalar := hn
  unfold IsScalar at hscalar
  by_cases hone : n < 0x80
  · have hbyte : n.toUInt8.toNat = n := toNat_toUInt8 (by omega)
    exact ⟨_, _, _, encodeChar_one hone, lead?_one (by omega), rfl, hbyte.symm⟩
  by_cases htwo : n < 0x800
  · have hfirst : (0xC0 + n / 0x40).toUInt8.toNat = _ := toNat_toUInt8 (by omega)
    have hlast : (0x80 + n % 0x40).toUInt8.toNat = _ := toNat_toUInt8 (by omega)
    refine ⟨_, _, _, encodeChar_two (by omega) htwo, lead?_two (by omega) (by omega), ?_⟩
    simp only [Spells, Lead.next, true_and]
    omega
  by_cases hthree : n < 0x10000
  · have hfirst : (0xE0 + n / 0x1000).toUInt8.toNat = _ := toNat_toUInt8 (by omega)
    have hmiddle : (0x80 + n / 0x40 % 0x40).toUInt8.toNat = _ := toNat_toUInt8 (by omega)
    have hlast : (0x80 + n % 0x40).toUInt8.toNat = _ := toNat_toUInt8 (by omega)
    obtain ⟨least, greatest, hlead, hlong, hsurrogate⟩ :=
      lead?_three (b := (0xE0 + n / 0x1000).toUInt8.toNat) (by omega) (by omega)
    refine ⟨_, _, _, encodeChar_three hn (by omega) hthree, hlead, ?_⟩
    simp only [Spells, Lead.next, true_and]
    omega
  · have hfirst : (0xF0 + n / 0x40000).toUInt8.toNat = _ := toNat_toUInt8 (by omega)
    have hsecond : (0x80 + n / 0x1000 % 0x40).toUInt8.toNat = _ := toNat_toUInt8 (by omega)
    have hthird : (0x80 + n / 0x40 % 0x40).toUInt8.toNat = _ := toNat_toUInt8 (by omega)
    have hlast : (0x80 + n % 0x40).toUInt8.toNat = _ := toNat_toUInt8 (by omega)
    obtain ⟨least, greatest, hlead, hlong, hgreat⟩ :=
      lead?_four (b := (0xF0 + n / 0x40000).toUInt8.toNat) (by omega) (by omega)
    refine ⟨_, _, _, encodeChar_four (by omega) (by omega), hlead, ?_⟩
    simp only [Spells, Lead.next, true_and]
    omega

/-- Every character is spelled by a first byte and those after it. -/
theorem exists_spells (c : Char) :
    ∃ byte rest lead, encodeChar c = byte :: rest ∧ lead? byte.toNat = some lead ∧
      Spells lead rest c.toNat := by
  have hspells := spells_encodeChar (isScalar_toNat c)
  rwa [Char.ofNat_toNat] at hspells

/-! ## Reading one byte -/

/-- The state after a byte with which the character at hand is as `lead` says. -/
def Scan.take (s : Scan) (offset : Nat) (lead : Lead) : Scan :=
  if lead.follow = 0 then ⟨Char.ofNat lead.bits :: s.done, s.position + 1, none⟩
  else ⟨s.done, s.position + 1, some ⟨offset, lead⟩⟩

theorem step_start {s : Scan} {byte : UInt8} {lead : Lead} (hs : s.pending = none)
    (hlead : lead? byte.toNat = some lead) : step s byte = .ok (s.take s.position lead) := by
  obtain ⟨done, position, pending⟩ := s
  obtain ⟨follow, least, greatest, bits⟩ := lead
  subst hs
  unfold step Scan.take
  simp only [hlead]
  cases follow with
  | zero => rfl
  | succ follow => rfl

theorem step_continue {s : Scan} {byte : UInt8} {offset : Nat} {lead : Lead}
    (hs : s.pending = some ⟨offset, lead⟩) (hleast : lead.least ≤ byte.toNat)
    (hgreatest : byte.toNat ≤ lead.greatest) :
    step s byte = .ok (s.take offset (lead.next byte.toNat)) := by
  unfold step Scan.take Lead.next
  simp only [hs, hleast, hgreatest, and_self, if_true]
  by_cases hlast : lead.follow ≤ 1
  · rw [if_pos hlast, if_pos (by omega)]
  · rw [if_neg hlast, if_neg (by omega)]

/-- What a byte that is accepted does. -/
theorem step_eq_ok {s next : Scan} {byte : UInt8} (h : step s byte = .ok next) :
    (s.pending = none ∧ ∃ lead, lead? byte.toNat = some lead ∧ next = s.take s.position lead) ∨
    ∃ offset lead, s.pending = some ⟨offset, lead⟩ ∧ lead.least ≤ byte.toNat ∧
      byte.toNat ≤ lead.greatest ∧ next = s.take offset (lead.next byte.toNat) := by
  cases hs : s.pending with
  | none =>
      cases hlead : lead? byte.toNat with
      | none => simp [step, hs, hlead] at h
      | some lead =>
          rw [step_start hs hlead] at h
          exact .inl ⟨rfl, lead, rfl, (Except.ok.inj h).symm⟩
  | some pending =>
      obtain ⟨offset, lead⟩ := pending
      by_cases hin : lead.least ≤ byte.toNat ∧ byte.toNat ≤ lead.greatest
      · rw [step_continue hs hin.1 hin.2] at h
        exact .inr ⟨offset, lead, rfl, hin.1, hin.2, (Except.ok.inj h).symm⟩
      · simp [step, hs, hin] at h

/-! ## Reading all bytes -/

/-- The bytes read so far are those of the finished characters and those of the one at hand, which
are the start of every character that it can become. -/
def Scan.Inv (bytes : List UInt8) (s : Scan) : Prop :=
  match s.pending with
  | none => bytes = encode s.done.reverse
  | some ⟨_, lead⟩ => lead.follow ≠ 0 ∧ ∃ q, bytes = encode s.done.reverse ++ q ∧
      ∀ rest n, Spells lead rest n → encodeChar (Char.ofNat n) = q ++ rest

theorem Scan.inv_take {q : List UInt8} {s : Scan} {lead : Lead} (offset : Nat)
    (h : ∀ rest n, Spells lead rest n → encodeChar (Char.ofNat n) = q ++ rest) :
    (s.take offset lead).Inv (encode s.done.reverse ++ q) := by
  unfold Scan.take
  by_cases hfollow : lead.follow = 0
  · rw [if_pos hfollow]
    show encode s.done.reverse ++ q = encode (Char.ofNat lead.bits :: s.done).reverse
    have hq : encodeChar (Char.ofNat lead.bits) = q ++ [] := h [] lead.bits ⟨hfollow, rfl⟩
    simp [encode, hq]
  · rw [if_neg hfollow]
    exact ⟨hfollow, q, rfl, h⟩

/-- A byte that is accepted keeps the invariant. -/
theorem Scan.Inv.step {bytes : List UInt8} {s next : Scan} {byte : UInt8} (h : s.Inv bytes)
    (hstep : Utf8.step s byte = .ok next) : next.Inv (bytes ++ [byte]) := by
  unfold Scan.Inv at h
  rcases step_eq_ok hstep with ⟨hs, lead, hlead, rfl⟩ | ⟨offset, lead, hs, hleast, hgreatest, rfl⟩
  · simp only [hs] at h
    subst h
    refine Scan.inv_take s.position ?_
    intro rest n hspells
    exact encodeChar_of_spells hlead hspells
  · simp only [hs] at h
    obtain ⟨hfollow, q, rfl, hq⟩ := h
    rw [List.append_assoc]
    refine Scan.inv_take offset ?_
    intro rest n hspells
    rw [hq (byte :: rest) n ⟨hfollow, hleast, hgreatest, hspells⟩, List.append_assoc]
    rfl

theorem Scan.Inv.foldlM {rest bytes : List UInt8} {s final : Scan} (h : s.Inv bytes)
    (hfinal : rest.foldlM Utf8.step s = .ok final) : final.Inv (bytes ++ rest) := by
  induction rest generalizing bytes s with
  | nil =>
      cases hfinal
      simpa using h
  | cons byte rest ih =>
      rw [List.foldlM_cons] at hfinal
      obtain ⟨next, hstep, hnext⟩ := Result.bind_eq_ok.1 hfinal
      have hall := ih (h.step hstep) hnext
      rwa [List.append_assoc] at hall

/-- Bytes that finish the character at hand are all accepted. -/
theorem foldlM_of_spells {lead : Lead} {rest : List UInt8} {n : Nat} (h : Spells lead rest n)
    (s : Scan) (offset : Nat) :
    ∃ position, rest.foldlM step (s.take offset lead) =
      .ok ⟨Char.ofNat n :: s.done, position, none⟩ := by
  induction rest generalizing lead s with
  | nil =>
      obtain ⟨hfollow, rfl⟩ := h
      refine ⟨s.position + 1, ?_⟩
      rw [Scan.take, if_pos hfollow]
      rfl
  | cons byte rest ih =>
      obtain ⟨hfollow, hleast, hgreatest, hrest⟩ := h
      rw [Scan.take, if_neg hfollow, List.foldlM_cons, step_continue rfl hleast hgreatest]
      exact ih hrest _

/-- The bytes of a character lead from the end of one character to the end of the next. -/
theorem foldlM_encodeChar {s : Scan} (hs : s.pending = none) (c : Char) :
    ∃ position, (encodeChar c).foldlM step s = .ok ⟨c :: s.done, position, none⟩ := by
  obtain ⟨byte, rest, lead, hc, hlead, hspells⟩ := exists_spells c
  obtain ⟨position, hrest⟩ := foldlM_of_spells hspells s s.position
  rw [Char.ofNat_toNat] at hrest
  refine ⟨position, ?_⟩
  rw [hc, List.foldlM_cons, step_start hs hlead]
  exact hrest

theorem foldlM_encode (text : Text) {s : Scan} (hs : s.pending = none) :
    ∃ position, (encode text).foldlM step s = .ok ⟨text.reverse ++ s.done, position, none⟩ := by
  induction text generalizing s with
  | nil =>
      obtain ⟨done, position, pending⟩ := s
      subst hs
      exact ⟨position, rfl⟩
  | cons c text ih =>
      obtain ⟨position, hc⟩ := foldlM_encodeChar hs c
      obtain ⟨last, htext⟩ := ih (s := ⟨c :: s.done, position, none⟩) rfl
      refine ⟨last, ?_⟩
      rw [encode, List.flatMap_cons, List.foldlM_append, hc, List.reverse_cons, List.append_assoc]
      exact htext

/-- Decoding takes exactly the encoding of a text to that text. -/
theorem decode_eq_ok_iff {bytes : List UInt8} {text : Text} :
    decode bytes = .ok text ↔ bytes = encode text := by
  unfold decode
  constructor
  · intro h
    obtain ⟨final, hfinal, hpending⟩ := Result.bind_eq_ok.1 h
    have hstart : Scan.Inv [] {} := rfl
    have hinv : final.Inv bytes := hstart.foldlM hfinal
    unfold Scan.Inv at hinv
    split at hpending
    · rename_i hnone
      simp only [hnone] at hinv
      obtain rfl := Except.ok.inj hpending
      exact hinv
    · cases hpending
  · rintro rfl
    obtain ⟨position, htext⟩ := foldlM_encode text (s := {}) rfl
    rw [htext]
    simp [bind, Except.bind, pure, Except.pure]

/-- A text has no more characters than bytes. -/
theorem length_le_encode (text : Text) : text.length ≤ (encode text).length := by
  induction text with
  | nil => exact Nat.le_refl 0
  | cons c text ih =>
      obtain ⟨byte, rest, lead, hc, -, -⟩ := exists_spells c
      rw [encode, List.flatMap_cons, hc, List.length_append, List.length_cons, List.length_cons]
      show text.length + 1 ≤ rest.length + 1 + (encode text).length
      omega

end RiscAsm.Utf8

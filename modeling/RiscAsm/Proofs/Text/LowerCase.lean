import Mathlib.Data.List.Basic
import RiscAsm.Text.Blank
import RiscAsm.Text.LowerCase

/-!
# Texts in lower case

The runs of upper-case letters are such that no lower-case letter is lowered again
(`lowerChar_of_mem_lowerChar`), so lowering a text twice is lowering it once (`lower_lower`), and a
text without blanks stays one (`not_blank_of_mem_lower`).  Names are looked up by their lower-case
form, all names are ASCII, and a lowered text whose lower-case form is ASCII is that form
(`lower_eq_self_of_ascii`).  Only the Kelvin sign is lowered from beyond ASCII into ASCII, and no
character is lowered to it.
-/

namespace RiscAsm

/-! ## Runs of letters -/

/-- What the theory needs of a run: its lower-case letters are valid, are neither capitals nor the
Kelvin sign nor a dotted capital I, and are ASCII only if the run is the Kelvin sign alone. -/
def CaseRun.Sound (r : CaseRun) : Prop :=
  let least := r.first + r.shift
  let greatest := r.last + r.shift
  (90 < least ∧ (greatest < 0xD800 ∨ 0xE000 ≤ least ∧ greatest < 0x110000)) ∧
    (greatest < 0x130 ∨ 0x130 < least) ∧ (greatest < 0x212A ∨ 0x212A < least) ∧
    (128 ≤ least ∨ r.first = 0x212A ∧ r.last = 0x212A)

instance (r : CaseRun) : Decidable r.Sound := by
  unfold CaseRun.Sound
  infer_instance

/-- All runs are as the theory needs them. -/
theorem lowerRuns_sound : ∀ r ∈ lowerRuns, r.Sound := by decide +kernel

/-- The run that is found for a letter covers it and is as the theory needs it. -/
theorem sound_of_find? {n : Nat} {r : CaseRun}
    (h : lowerRuns.find? (fun run => run.covers n) = some r) : r.Sound ∧ r.covers n = true :=
  ⟨lowerRuns_sound r (List.mem_of_find?_eq_some h),
    List.find?_some (p := fun run : CaseRun => run.covers n) h⟩

/-- The code of a character that is given by a valid code. -/
theorem toNat_ofNat_of_valid {n : Nat} (h : n < 0xD800 ∨ 0xE000 ≤ n ∧ n < 0x110000) :
    (Char.ofNat n).toNat = n := by
  have hvalid : n.isValidChar := by
    unfold Nat.isValidChar
    omega
  rw [Char.ofNat, dif_pos hvalid]
  rfl

/-- A letter of a run is lowered to a valid code within the shifted bounds of the run. -/
theorem toNat_shift {r : CaseRun} {n : Nat} (hr : r.Sound) (hn : r.covers n = true) :
    ∃ m : Nat, (Char.ofNat (n + r.shift).toNat).toNat = m ∧ (m : Int) = n + r.shift ∧
      r.first + r.shift ≤ m ∧ (m : Int) ≤ r.last + r.shift := by
  simp only [CaseRun.covers, Bool.and_eq_true, decide_eq_true_eq] at hn
  obtain ⟨⟨hfirst, hlast⟩, -⟩ := hn
  obtain ⟨⟨hleast, hvalid⟩, -⟩ := hr
  refine ⟨(n + r.shift).toNat, toNat_ofNat_of_valid (by omega), ?_, ?_, ?_⟩ <;> omega

/-- The code of the lower-case letter that a run has for a letter. -/
def CaseRun.lowered (r : CaseRun) (n : Nat) : Nat := (n + r.shift).toNat

/-- All letters of a run have the same parity. -/
def CaseRun.isSparse (r : CaseRun) : Bool := r.stride == 2 || r.first == r.last

/-- A run has no letters from `least` to `greatest`, or none with the parity of `least`, if only
these count. -/
def CaseRun.avoids (r : CaseRun) (least greatest : Nat) (sparse : Bool) : Bool :=
  Nat.blt greatest r.first || Nat.blt r.last least ||
    (sparse && r.stride == 2 && (least + r.first) % 2 == 1)

/-- No lower-case letter of a run is a letter of a run. -/
theorem lowerRuns_avoid : (lowerRuns.all fun r => lowerRuns.all fun other =>
    other.avoids (r.lowered r.first) (r.lowered r.last) r.isSparse) = true := by decide +kernel

/-- No lower-case letter of a run is a blank. -/
theorem lowerRuns_not_blank : (lowerRuns.all fun r => blankRanges.all fun range =>
    Nat.blt (r.lowered r.last) range.1 || Nat.blt range.2 (r.lowered r.first)) = true := by
  decide +kernel

/-- Where the lower-case letter of a letter lies among those of its run. -/
theorem CaseRun.lowered_of_covers {r : CaseRun} {n : Nat} (hr : r.Sound) (hn : r.covers n = true) :
    r.lowered r.first ≤ r.lowered n ∧ r.lowered n ≤ r.lowered r.last ∧
      (r.isSparse = true → r.lowered n % 2 = r.lowered r.first % 2) := by
  simp only [CaseRun.covers, Bool.and_eq_true, decide_eq_true_eq, beq_iff_eq] at hn
  obtain ⟨⟨hfirst, hlast⟩, hstride⟩ := hn
  obtain ⟨⟨hleast, -⟩, -⟩ := hr
  unfold lowered
  refine ⟨by omega, by omega, ?_⟩
  intro hsparse
  rcases Bool.or_eq_true_iff.mp hsparse with htwo | hone
  · rw [beq_iff_eq.mp htwo] at hstride
    omega
  · have hsame := beq_iff_eq.mp hone
    obtain rfl : n = r.first := by omega
    rfl

theorem CaseRun.not_covers_of_avoids {r : CaseRun} {least greatest n : Nat} {sparse : Bool}
    (h : r.avoids least greatest sparse = true) (hleast : least ≤ n) (hgreatest : n ≤ greatest)
    (hsparse : sparse = true → n % 2 = least % 2) : r.covers n = false := by
  rw [Bool.eq_false_iff]
  intro hcovers
  simp only [CaseRun.covers, Bool.and_eq_true, decide_eq_true_eq, beq_iff_eq] at hcovers
  obtain ⟨⟨hfirst, hlast⟩, hstride⟩ := hcovers
  simp only [avoids, Bool.or_eq_true, Bool.and_eq_true, Nat.blt_eq, beq_iff_eq] at h
  rcases h with (hbefore | hafter) | ⟨⟨hparity, htwo⟩, hodd⟩
  · omega
  · omega
  · -- both runs have letters of one parity only, and not of the same
    have hn := hsparse hparity
    rw [htwo] at hstride
    omega

/-- No run has the lower-case letter of a letter. -/
theorem find?_lowered {r : CaseRun} {n : Nat} (hr : r ∈ lowerRuns) (hn : r.covers n = true) :
    lowerRuns.find? (·.covers (r.lowered n)) = none := by
  rw [List.find?_eq_none]
  intro other hother
  obtain ⟨hleast, hgreatest, hsparse⟩ := CaseRun.lowered_of_covers (lowerRuns_sound r hr) hn
  have havoids := List.all_eq_true.mp (List.all_eq_true.mp lowerRuns_avoid r hr) other hother
  rw [CaseRun.not_covers_of_avoids havoids hleast hgreatest hsparse]
  exact Bool.false_ne_true

/-! ## Single characters -/

/-- A character that is its own lower-case form, unless that form is beyond ASCII. -/
def IsLowered (c : Char) : Prop := (∀ d ∈ lowerChar c, d.toNat < 128) → lowerChar c = [c]

/-- A character that is no ASCII capital is its own small letter. -/
theorem toLower_eq_self {c : Char} (hcap : c.toNat < 65 ∨ 90 < c.toNat) : c.toLower = c := by
  refine dif_neg ?_
  rintro ⟨h65, h90⟩
  have hleast : 65 ≤ c.toNat := h65
  have hgreatest : c.toNat ≤ 90 := h90
  omega

/-- An ASCII capital and its small letter have the same place in the alphabet. -/
theorem exists_toLower_eq {c : Char} (hcap : 65 ≤ c.toNat ∧ c.toNat ≤ 90) :
    ∃ k < 26, c = Char.ofNat (65 + k) ∧ c.toLower = Char.ofNat (97 + k) := by
  have hpairs : ∀ k < 26, (Char.ofNat (65 + k)).toLower = Char.ofNat (97 + k) := by decide
  obtain ⟨k, hk⟩ := Nat.exists_eq_add_of_le hcap.1
  have hc : c = Char.ofNat (65 + k) := by rw [← hk, Char.ofNat_toNat]
  refine ⟨k, by omega, hc, ?_⟩
  rw [hc, hpairs k (by omega)]

/-- ASCII characters that are no capitals are not changed. -/
theorem lowerChar_of_ascii {c : Char} (hc : c.toNat < 128)
    (hcap : c.toNat < 65 ∨ 90 < c.toNat) : lowerChar c = [c] := by
  rw [lowerChar, if_pos hc, toLower_eq_self hcap]

theorem isLowered_of_ascii {c : Char} (hc : c.toNat < 128) (hcap : c.toNat < 65 ∨ 90 < c.toNat) :
    IsLowered c :=
  fun _ => lowerChar_of_ascii hc hcap

/-- A text of ASCII characters that are no capitals. -/
def IsPlain (s : List Char) : Prop := ∀ c ∈ s, c.toNat < 128 ∧ (c.toNat < 65 ∨ 90 < c.toNat)

-- decided along the text, and not over all characters
instance (s : List Char) : Decidable (IsPlain s) := List.decidableBAll _ s

/-- What a character is lowered to: an ASCII character that is no capital, a combining dot, the
lower-case letter of a run, or the character itself if no run has it. -/
theorem mem_lowerChar_cases {c d : Char} (h : c ∈ lowerChar d) :
    (c.toNat < 128 ∧ (c.toNat < 65 ∨ 90 < c.toNat) ∧ (isBlank c = true → c = d)) ∨
      c = '\u0307' ∨ (∃ r ∈ lowerRuns, r.covers d.toNat = true ∧ c.toNat = r.lowered d.toNat) ∨
      (c = d ∧ lowerChar d = [d]) := by
  rw [lowerChar] at h
  split at h
  · rename_i hd
    left
    rw [List.mem_singleton.mp h]
    by_cases hcap : 65 ≤ d.toNat ∧ d.toNat ≤ 90
    · have hsmall : ∀ k < 26, (Char.ofNat (97 + k)).toNat < 128 ∧
          90 < (Char.ofNat (97 + k)).toNat ∧ ¬isBlank (Char.ofNat (97 + k)) = true := by decide
      obtain ⟨k, hk, -, hlower⟩ := exists_toLower_eq hcap
      obtain ⟨hascii, hgreater, hblank⟩ := hsmall k hk
      rw [hlower]
      exact ⟨hascii, .inr hgreater, fun htrue => absurd htrue hblank⟩
    · rw [toLower_eq_self (by omega)]
      exact ⟨hd, by omega, fun _ => rfl⟩
  · split at h
    · rcases List.mem_cons.mp h with rfl | h
      · exact .inl ⟨by decide, by decide, fun hblank => absurd hblank (by decide)⟩
      · exact .inr (.inl (List.mem_singleton.mp h))
    · rename_i hd hi
      split at h
      · rename_i r hfind
        have hr := List.mem_of_find?_eq_some hfind
        obtain ⟨hsound, hcovers⟩ := sound_of_find? hfind
        obtain ⟨m, hm, hvalue, -, -⟩ := toNat_shift hsound hcovers
        refine .inr (.inr (.inl ⟨r, hr, hcovers, ?_⟩))
        rw [List.mem_singleton.mp h, hm, CaseRun.lowered]
        omega
      · rename_i hnone
        refine .inr (.inr (.inr ⟨List.mem_singleton.mp h, ?_⟩))
        rw [lowerChar, if_neg hd, if_neg hi, hnone]

/-- The combining dot and both small sigmas are not changed; a capital sigma is. -/
theorem lowerChar_marks : (∀ c ∈ ['\u0307', 'ς', 'σ'], lowerChar c = [c]) ∧
    lowerChar 'Σ' = ['σ'] := by decide +kernel

/-- Lower-case forms consist of characters that are not changed by lowering. -/
theorem lowerChar_of_mem_lowerChar {c d : Char} (h : c ∈ lowerChar d) : lowerChar c = [c] := by
  rcases mem_lowerChar_cases h with ⟨hc, hcap, -⟩ | rfl | ⟨r, hr, hcovers, hc⟩ | ⟨rfl, hself⟩
  · exact lowerChar_of_ascii hc hcap
  · exact lowerChar_marks.1 _ (by simp)
  · obtain ⟨hleast, hgreatest, -⟩ := CaseRun.lowered_of_covers (lowerRuns_sound r hr) hcovers
    obtain ⟨⟨hcap, -⟩, hdotted, -⟩ := lowerRuns_sound r hr
    rw [← hc, CaseRun.lowered] at hleast hgreatest
    by_cases hascii : c.toNat < 128
    · exact lowerChar_of_ascii hascii (by omega)
    · have hfind := find?_lowered hr hcovers
      rw [← hc] at hfind
      rw [lowerChar, if_neg hascii, if_neg (by simp; omega), hfind]
  · exact hself

/-- Lowering makes no blanks. -/
theorem not_blank_of_mem_lowerChar {c d : Char} (hd : isBlank d = false) (h : c ∈ lowerChar d) :
    isBlank c = false := by
  rcases mem_lowerChar_cases h with ⟨-, -, hblank⟩ | rfl | ⟨r, hr, hcovers, hc⟩ | ⟨rfl, -⟩
  · rw [Bool.eq_false_iff]
    intro hc
    rw [hblank hc, hd] at hc
    cases hc
  · decide
  · obtain ⟨hleast, hgreatest, -⟩ := CaseRun.lowered_of_covers (lowerRuns_sound r hr) hcovers
    have hranges := List.all_eq_true.mp lowerRuns_not_blank r hr
    rw [isBlank, inRanges, List.any_eq_false]
    intro range hrange
    have haside := List.all_eq_true.mp hranges range hrange
    simp only [Bool.or_eq_true, Nat.blt_eq] at haside
    simp only [Bool.and_eq_true, decide_eq_true_eq]
    omega
  · exact hd

theorem lowerChar_ne_nil (c : Char) : lowerChar c ≠ [] := by
  unfold lowerChar
  split
  · exact List.cons_ne_nil _ _
  · split
    · exact List.cons_ne_nil _ _
    · split
      · exact List.cons_ne_nil _ _
      · exact List.cons_ne_nil _ _

/-! ## Whole texts -/

/-- Every character of a lowered text comes from one character, or is a small sigma. -/
theorem mem_lowerAux {before s : List Char} {c : Char} (h : c ∈ lowerAux before s) :
    (∃ d ∈ s, c ∈ lowerChar d) ∨ c = 'ς' ∨ c = 'σ' := by
  induction s generalizing before with
  | nil => simp [lowerAux] at h
  | cons d s ih =>
      rw [lowerAux] at h
      rcases List.mem_append.mp h with h | h
      · split at h
        · right
          split at h
          · exact Or.inl (List.mem_singleton.mp h)
          · exact Or.inr (List.mem_singleton.mp h)
        · exact Or.inl ⟨d, List.mem_cons_self, h⟩
      · rcases ih h with ⟨e, he, hc⟩ | hsigma
        · exact Or.inl ⟨e, List.mem_cons_of_mem d he, hc⟩
        · exact Or.inr hsigma

theorem mem_lower {s : List Char} {c : Char} (h : c ∈ lower s) :
    (∃ d ∈ s, c ∈ lowerChar d) ∨ c = 'ς' ∨ c = 'σ' := by
  rw [lower] at h
  split at h
  · exact mem_lowerAux h
  · exact .inl (List.mem_flatMap.mp h)

/-- A capital sigma is lowered to one of two letters beyond ASCII. -/
theorem exists_mem_lowerAux_of_sigma (before : List Char) {s : List Char} (h : 'Σ' ∈ s) :
    ∃ c ∈ lowerAux before s, c = 'ς' ∨ c = 'σ' := by
  induction s generalizing before with
  | nil => simp at h
  | cons d s ih =>
      rw [lowerAux]
      by_cases hd : d = 'Σ'
      · subst hd
        simp only [beq_self_eq_true, if_true]
        split
        · exact ⟨'ς', by simp, .inl rfl⟩
        · exact ⟨'σ', by simp, .inr rfl⟩
      · have hs : 'Σ' ∈ s := by
          rcases List.mem_cons.mp h with h | h
          · exact absurd h.symm hd
          · exact h
        obtain ⟨c, hc, hsigma⟩ := ih (d :: before) hs
        exact ⟨c, List.mem_append_right _ hc, hsigma⟩

theorem mem_lowerAux_of_mem (before : List Char) {s : List Char} {c d : Char} (hc : c ∈ s)
    (hsigma : c ≠ 'Σ') (hd : d ∈ lowerChar c) : d ∈ lowerAux before s := by
  induction s generalizing before with
  | nil => cases hc
  | cons e s ih =>
      rw [lowerAux, List.mem_append]
      rcases List.mem_cons.mp hc with rfl | hc
      · simp only [beq_iff_eq, if_neg hsigma]
        exact .inl hd
      · exact .inr (ih (e :: before) hc)

/-- Lowering a text keeps what its characters are lowered to, a capital sigma apart. -/
theorem mem_lower_of_mem {s : List Char} {c d : Char} (hc : c ∈ s) (hsigma : c ≠ 'Σ')
    (hd : d ∈ lowerChar c) : d ∈ lower s := by
  rw [lower]
  split
  · exact mem_lowerAux_of_mem [] hc hsigma hd
  · exact List.mem_flatMap.mpr ⟨c, hc, hd⟩

/-- A lowered text consists of characters that are not changed by lowering. -/
theorem lowerChar_of_mem_lower {s : List Char} {c : Char} (h : c ∈ lower s) :
    lowerChar c = [c] := by
  rcases mem_lower h with ⟨d, -, hc⟩ | rfl | rfl
  · exact lowerChar_of_mem_lowerChar hc
  · exact lowerChar_marks.1 _ (by simp)
  · exact lowerChar_marks.1 _ (by simp)

theorem isLowered_of_mem_lower {s : List Char} {c : Char} (h : c ∈ lower s) : IsLowered c :=
  fun _ => lowerChar_of_mem_lower h

/-- A text of characters that are not changed is its own lower-case form. -/
theorem lower_eq_self {s : List Char} (h : ∀ c ∈ s, lowerChar c = [c]) : lower s = s := by
  have hsigma : 'Σ' ∉ s := by
    intro hmem
    have hlower := lowerChar_marks.2
    rw [h _ hmem] at hlower
    exact absurd hlower (by decide)
  rw [lower, if_neg (by simpa using hsigma), List.flatMap_congr h]
  exact List.flatMap_singleton' s

/-- Lowering twice is lowering once. -/
theorem lower_lower (s : List Char) : lower (lower s) = lower s :=
  lower_eq_self fun _ hc => lowerChar_of_mem_lower hc

/-- A text without blanks is lowered to one. -/
theorem not_blank_of_mem_lower {s : List Char} (hs : ∀ c ∈ s, isBlank c = false) :
    ∀ c ∈ lower s, isBlank c = false := by
  intro c hc
  rcases mem_lower hc with ⟨d, hd, hmem⟩ | rfl | rfl
  · exact not_blank_of_mem_lowerChar (hs d hd) hmem
  · decide
  · decide

theorem lower_ne_nil {s : List Char} (h : s ≠ []) : lower s ≠ [] := by
  obtain ⟨c, s, rfl⟩ := List.exists_cons_of_ne_nil h
  rw [lower]
  split
  · rw [lowerAux]
    apply List.append_ne_nil_of_left_ne_nil
    split
    · split
      · exact List.cons_ne_nil _ _
      · exact List.cons_ne_nil _ _
    · exact lowerChar_ne_nil c
  · rw [List.flatMap_cons]
    exact List.append_ne_nil_of_left_ne_nil (lowerChar_ne_nil c) _

/-- A text of lowered characters is its own lower-case form, if that form is ASCII. -/
theorem lower_eq_self_of_ascii {s : List Char} (hs : ∀ c ∈ s, IsLowered c)
    (hascii : ∀ c ∈ lower s, c.toNat < 128) : lower s = s := by
  apply lower_eq_self
  intro c hc
  apply hs c hc
  intro d hd
  apply hascii d
  rw [lower]
  split
  · rename_i hsigma
    -- the lower-case form would not be ASCII
    obtain ⟨e, he, hletter⟩ :=
      exists_mem_lowerAux_of_sigma [] (List.contains_iff_mem.mp hsigma)
    rw [lower, if_pos hsigma] at hascii
    have hlt := hascii e he
    rcases hletter with rfl | rfl <;> exact absurd hlt (by decide)
  · exact List.mem_flatMap.mpr ⟨c, hc, hd⟩

end RiscAsm

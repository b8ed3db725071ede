import RiscAsm.Proofs.Text.LowerCase
import RiscAsm.Text.Basic

/-!
# Texts up to the case of letters

Two texts that differ only in the case of ASCII letters (`Text.SameLetters`) become one when all
capitals are made small (`Text.foldCase`).  A property of characters that does not tell a capital
from its small letter is one of the folded character (`apply_toLower`), so a text may be folded
before or after it is trimmed or its first word is taken (`foldCase_trim`, `foldCase_firstWord`),
and its full lower-case form is that of the folded text (`lower_foldCase`).
-/

namespace RiscAsm

/-! ## Characters -/

/-- What does not tell the capitals from their small letters does not see the case of a
character. -/
theorem apply_toLower {α : Type} {f : Char → α}
    (h : ∀ k < 26, f (Char.ofNat (97 + k)) = f (Char.ofNat (65 + k))) (c : Char) :
    f c.toLower = f c := by
  by_cases hcap : 65 ≤ c.toNat ∧ c.toNat ≤ 90
  · obtain ⟨k, hk, hc, hlower⟩ := exists_toLower_eq hcap
    rw [hlower, h k hk, ← hc]
  · rw [toLower_eq_self (by omega)]

/-- A character that is no letter is told apart from all others before and after. -/
theorem toLower_beq {d : Char}
    (h : ∀ k < 26, (Char.ofNat (97 + k) == d) = (Char.ofNat (65 + k) == d)) (c : Char) :
    (c.toLower == d) = (c == d) :=
  apply_toLower (f := (· == d)) h c

/-- Ranges that leave out the letters do not see the case of a character. -/
theorem inRanges_toLower {ranges : List (Nat × Nat)}
    (h : ∀ range ∈ ranges, range.2 < 65 ∨ (90 < range.1 ∧ range.2 < 97) ∨ 122 < range.1)
    (c : Char) : inRanges ranges c.toLower.toNat = inRanges ranges c.toNat := by
  have hout : ∀ n, 65 ≤ n ∧ n ≤ 90 ∨ 97 ≤ n ∧ n ≤ 122 → inRanges ranges n = false := by
    intro n hn
    rw [inRanges, List.any_eq_false]
    intro range hrange
    have haside := h range hrange
    simp only [Bool.and_eq_true, decide_eq_true_eq]
    omega
  refine apply_toLower (f := fun c => inRanges ranges c.toNat) ?_ c
  intro k hk
  rw [toNat_ofNat_of_valid (by omega), toNat_ofNat_of_valid (by omega), hout _ (by omega),
    hout _ (by omega)]

theorem isBlank_toLower (c : Char) : isBlank c.toLower = isBlank c :=
  inRanges_toLower (by decide) c

theorem lowerChar_toLower (c : Char) : lowerChar c.toLower = lowerChar c :=
  apply_toLower (by decide) c

namespace Text

/-! ## Folded texts -/

/-- A text with its ASCII capitals made small. -/
def foldCase (s : Text) : Text := s.map Char.toLower

/-- Two texts that differ only in the case of ASCII letters. -/
def SameLetters (s t : Text) : Prop := foldCase s = foldCase t

instance (s t : Text) : Decidable (SameLetters s t) :=
  inferInstanceAs (Decidable (foldCase s = foldCase t))

@[simp] theorem foldCase_nil : foldCase [] = [] := rfl

@[simp] theorem foldCase_cons (c : Char) (s : Text) :
    foldCase (c :: s) = c.toLower :: foldCase s := rfl

theorem foldCase_append (s t : Text) : foldCase (s ++ t) = foldCase s ++ foldCase t :=
  List.map_append

theorem foldCase_reverse (s : Text) : foldCase s.reverse = (foldCase s).reverse :=
  List.map_reverse

theorem isEmpty_foldCase (s : Text) : (foldCase s).isEmpty = s.isEmpty := by
  cases s with
  | nil => rfl
  | cons c s => rfl

/-- A text without ASCII capitals stays as it is. -/
theorem foldCase_eq_self {s : Text} (h : IsPlain s) : foldCase s = s := by
  have hself : ∀ c ∈ s, c.toLower = id c := fun c hc => toLower_eq_self (h c hc).2
  rw [foldCase, List.map_congr_left hself, List.map_id]

section Runs

variable {p : Char → Bool} (hp : ∀ c : Char, p c.toLower = p c)

include hp

theorem foldCase_takeWhile (s : Text) : foldCase (s.takeWhile p) = (foldCase s).takeWhile p := by
  have hcomp : p ∘ Char.toLower = p := funext hp
  rw [foldCase, foldCase, List.takeWhile_map, hcomp]

theorem foldCase_dropWhile (s : Text) : foldCase (s.dropWhile p) = (foldCase s).dropWhile p := by
  have hcomp : p ∘ Char.toLower = p := funext hp
  rw [foldCase, foldCase, List.dropWhile_map, hcomp]

end Runs

theorem foldCase_trimStart (s : Text) : foldCase (trimStart s) = trimStart (foldCase s) :=
  foldCase_dropWhile isBlank_toLower s

theorem foldCase_trim (s : Text) : foldCase (trim s) = trim (foldCase s) := by
  rw [trim, trim, trimEnd, trimEnd, foldCase_reverse, foldCase_trimStart, foldCase_reverse,
    foldCase_trimStart]

theorem foldCase_firstWord (s : Text) : foldCase (firstWord s) = firstWord (foldCase s) :=
  foldCase_takeWhile (fun c => congrArg (!·) (isBlank_toLower c)) s

theorem foldCase_afterFirstWord (s : Text) :
    foldCase (afterFirstWord s) = afterFirstWord (foldCase s) := by
  rw [afterFirstWord, afterFirstWord, foldCase_trimStart,
    foldCase_dropWhile fun c => congrArg (!·) (isBlank_toLower c)]

/-! ## The lower-case form -/

/-- What comes next has case before and after. -/
theorem casedAhead_foldCase (s : Text) : casedAhead (foldCase s) = casedAhead s := by
  have hskip : ∀ c : Char, inRanges caseIgnorableRanges c.toLower.toNat =
      inRanges caseIgnorableRanges c.toNat :=
    inRanges_toLower (by decide +kernel)
  have hcased : ∀ c : Char, inRanges casedRanges c.toLower.toNat = inRanges casedRanges c.toNat :=
    apply_toLower (f := fun c => inRanges casedRanges c.toNat) (by decide)
  rw [casedAhead, casedAhead, ← foldCase_dropWhile hskip]
  cases s.dropWhile fun c => inRanges caseIgnorableRanges c.toNat with
  | nil => rfl
  | cons c rest => exact hcased c

theorem lowerAux_foldCase (before s : Text) :
    lowerAux (foldCase before) (foldCase s) = lowerAux before s := by
  induction s generalizing before with
  | nil => rfl
  | cons c s ih =>
      have hrest :
          lowerAux (c.toLower :: foldCase before) (foldCase s) = lowerAux (c :: before) s :=
        ih (c :: before)
      rw [foldCase_cons, lowerAux, lowerAux, toLower_beq (by decide), casedAhead_foldCase,
        casedAhead_foldCase, lowerChar_toLower, hrest]

/-- The lower-case form of a text does not depend on the case of its letters. -/
theorem lower_foldCase (s : Text) : lower (foldCase s) = lower s := by
  have hcontains : (foldCase s).contains 'Σ' = s.contains 'Σ' := by
    induction s with
    | nil => rfl
    | cons c s ih =>
        rw [foldCase_cons, List.contains_cons, List.contains_cons, ih, Bool.beq_comm,
          toLower_beq (by decide), Bool.beq_comm]
  have hlower : (foldCase s).flatMap lowerChar = s.flatMap lowerChar := by
    rw [foldCase, List.flatMap_map]
    exact List.flatMap_congr fun c _ => lowerChar_toLower c
  rw [lower, lower, hcontains, hlower]
  split
  · exact lowerAux_foldCase [] s
  · rfl

end Text

end RiscAsm

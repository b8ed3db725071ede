import RiscAsm.Proofs.Operand.Memory
import RiscAsm.Proofs.Result
import RiscAsm.Proofs.Text.LowerCase
import RiscAsm.Proofs.Text.Trim

/-!
# Names of registers

A text that names a register is a word with blanks around it, and the word names the same register
(`RegisterFile.exists_word`), whatever the case of its letters is.
-/

namespace RiscAsm

/-- Blanks are not changed by lowering. -/
theorem lowerChar_of_isBlank {c : Char} (h : isBlank c = true) : lowerChar c = [c] := by
  have hall : ∀ range ∈ blankRanges, ∀ k < range.2 + 1 - range.1,
      lowerChar (Char.ofNat (range.1 + k)) = [Char.ofNat (range.1 + k)] := by decide +kernel
  exact of_isBlank (fun d => lowerChar d = [d]) hall h

/-- What is lowered to ASCII letters and digits is a word character, the Kelvin sign included. -/
theorem isWordChar_of_lowerChar {c : Char}
    (h : ∀ d ∈ lowerChar c, d.toNat < 128 ∧ d.isAlphanum = true) : isWordChar c = true := by
  unfold lowerChar at h
  split at h
  next hascii =>
    have hall : ∀ n < 128, (Char.ofNat n).toLower.isAlphanum = true →
        isWordChar (Char.ofNat n) = true := by decide +kernel
    have hone := hall c.toNat hascii
    rw [Char.ofNat_toNat] at hone
    exact hone (h _ (List.mem_singleton.mpr rfl)).2
  next hbeyond =>
    split at h
    next => exact absurd (h '\u0307' (by simp)).1 (by decide)
    next =>
      split at h
      next run hrun =>
        obtain ⟨hsound, hcovers⟩ := sound_of_find? hrun
        obtain ⟨m, hm, -, hleast, -⟩ := toNat_shift hsound hcovers
        obtain ⟨-, -, -, hkelvin⟩ := hsound
        have hlt := (h _ (List.mem_singleton.mpr rfl)).1
        rw [hm] at hlt
        simp only [CaseRun.covers, Bool.and_eq_true, decide_eq_true_eq] at hcovers
        have hc : c = Char.ofNat 0x212A := by
          rw [← Char.ofNat_toNat c]
          congr 1
          omega
        rw [hc]
        decide +kernel
      next => exact absurd (h c (List.mem_singleton.mpr rfl)).1 hbeyond

namespace RegisterFile

/-- The names of registers are ASCII words. -/
theorem names_plain : ∀ file : RegisterFile, ∀ entry ∈ file.names, entry.1 ≠ [] ∧
    ∀ c ∈ entry.1, c.toNat < 128 ∧ c.isAlphanum = true := by
  intro file
  cases file <;> decide +kernel

/-- Without a capital sigma, blanks around a text are blanks around its lower-case form. -/
theorem trim_lower {l s r : Text} (hl : ∀ c ∈ l, isBlank c = true) (hr : ∀ c ∈ r, isBlank c = true)
    (hsigma : 'Σ' ∉ l ++ s ++ r) : Text.trim (lower (l ++ s ++ r)) = Text.trim (lower s) := by
  have hblank : ∀ t : Text, (∀ c ∈ t, isBlank c = true) → t.flatMap lowerChar = t := by
    intro t ht
    rw [List.flatMap_congr fun c hc => lowerChar_of_isBlank (ht c hc)]
    exact List.flatMap_singleton' t
  have hs : 'Σ' ∉ s := fun h => hsigma (by simp [h])
  rw [lower, if_neg (by simpa using hsigma), lower, if_neg (by simpa using hs),
    List.flatMap_append, List.flatMap_append, hblank l hl, hblank r hr,
    Text.trim_append_of_blank_right _ hr, Text.trim_append_of_blank_left hl]

/-- Without a capital sigma, a text that does not start or end with a blank is lowered to one. -/
theorem trim_lower_of_trim {s : Text} (hs : Text.trim s = s) (hsigma : 'Σ' ∉ s) :
    Text.trim (lower s) = lower s := by
  have hlower : lower s = s.flatMap lowerChar := by rw [lower, if_neg (by simpa using hsigma)]
  by_cases hne : s = []
  · subst hne
    rfl
  · rw [hlower]
    apply Text.trim_eq_self
    · intro c hc
      obtain ⟨first, rest, rfl⟩ := List.exists_cons_of_ne_nil hne
      rw [List.flatMap_cons, List.head?_append_of_ne_nil _ (lowerChar_ne_nil first)] at hc
      have hfirst : isBlank first = false := Text.head?_trim (first :: rest) first (by rw [hs]; rfl)
      exact not_blank_of_mem_lowerChar hfirst (List.mem_of_head? hc)
    · intro c hc
      obtain ⟨front, last, rfl⟩ : ∃ front last, s = front ++ [last] :=
        ⟨_, _, (List.dropLast_concat_getLast hne).symm⟩
      rw [List.flatMap_append, List.flatMap_singleton,
        List.getLast?_append_of_ne_nil _ (lowerChar_ne_nil last)] at hc
      have hlast : isBlank last = false :=
        Text.getLast?_trim (front ++ [last]) last (by rw [hs]; simp)
      exact not_blank_of_mem_lowerChar hlast (List.mem_of_getLast? hc)

/-- A text with the name of a register has no capital sigma. -/
theorem not_mem_sigma_of_find? {file : RegisterFile} {name : Text} {n : Nat}
    (h : file.find? name = some n) : 'Σ' ∉ name := by
  obtain ⟨-, hplain⟩ := names_plain file _ (mem_of_lookup h)
  intro hmem
  obtain ⟨c, hc, hletter⟩ := exists_mem_lowerAux_of_sigma [] hmem
  have hbeyond : isBlank c = false ∧ ¬ c.toNat < 128 := by rcases hletter with rfl | rfl <;> decide
  have hlower : c ∈ lower name := by
    rw [lower, if_pos (by simpa using hmem)]
    exact hc
  exact hbeyond.2 (hplain c (Text.mem_trim hlower hbeyond.1)).1

/-- A text with the name of a register is a word with blanks around it, and the word is a name of
the same register. -/
theorem exists_word {file : RegisterFile} {name : Text} {n : Nat} (h : file.find? name = some n) :
    ∃ l word r, name = l ++ word ++ r ∧ (∀ c ∈ l, isBlank c = true) ∧
      (∀ c ∈ r, isBlank c = true) ∧ word ≠ [] ∧ (∀ c ∈ word, isWordChar c = true) ∧
      file.find? word = some n := by
  obtain ⟨l, r, hname, hl, hr⟩ := Text.exists_trim name
  have hsigma := not_mem_sigma_of_find? h
  have hfind : file.find? (Text.trim name) = some n := by
    rw [find?, ← trim_lower hl hr (by rwa [← hname]), ← hname]
    exact h
  have hword : Text.trim (lower (Text.trim name)) = lower (Text.trim name) :=
    trim_lower_of_trim (Text.trim_trim name) (not_mem_sigma_of_find? hfind)
  obtain ⟨hne, hplain⟩ := names_plain file _ (mem_of_lookup hfind)
  rw [hword] at hne hplain
  refine ⟨l, Text.trim name, r, hname, hl, hr, ?_, ?_, hfind⟩
  · intro hnil
    rw [hnil] at hne
    exact hne rfl
  · intro c hc
    apply isWordChar_of_lowerChar
    intro d hd
    apply hplain d
    refine mem_lower_of_mem hc ?_ hd
    rintro rfl
    exact not_mem_sigma_of_find? hfind hc

end RegisterFile

end RiscAsm

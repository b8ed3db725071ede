import Mathlib.Data.List.TakeWhile
import RiscAsm.Text.Basic

/-!
# Trimmed texts

Trimming takes blanks off both ends and nothing else.  The facts used by the rest of the theory:

* `exists_trim` : a text is its trimmed form with blanks on both sides;
* `trim_eq_self` : a text that neither starts nor ends with a blank is trimmed;
* `map_trim_splitOn_trim` : trimming a text first does not change its trimmed segments.
-/

namespace RiscAsm.Text

/-- What holds of all characters of a text is decided on the text, and not on all characters that
there are. -/
instance (priority := 2000) decidableForallMem (s : Text) (p : Char → Prop) [DecidablePred p] :
    Decidable (∀ c ∈ s, p c) :=
  List.decidableBAll p s

/-! ## Blanks around a text -/

/-- Dropping blanks at the start goes past a run of blanks. -/
theorem trimStart_append_of_blank {l : Text} (hl : ∀ c ∈ l, isBlank c = true) (s : Text) :
    trimStart (l ++ s) = trimStart s := by
  unfold trimStart
  rw [List.dropWhile_append_of_pos hl]

/-- A text that does not start with a blank keeps its start. -/
theorem trimStart_cons_of_not_blank {c : Char} (hc : isBlank c = false) (s : Text) :
    trimStart (c :: s) = c :: s := by
  unfold trimStart
  rw [List.dropWhile_cons_of_neg (by simp [hc])]

/-- Dropping blanks at the end, seen from the end. -/
theorem reverse_trimEnd (s : Text) : (trimEnd s).reverse = trimStart s.reverse := by
  rw [trimEnd, List.reverse_reverse]

/-- Dropping blanks at the end goes past a run of blanks. -/
theorem trimEnd_append_of_blank (s : Text) {r : Text} (hr : ∀ c ∈ r, isBlank c = true) :
    trimEnd (s ++ r) = trimEnd s := by
  unfold trimEnd
  rw [List.reverse_append, trimStart_append_of_blank]
  intro c hc
  exact hr c (List.mem_reverse.mp hc)

/-- A text is what is left of it after some blanks at the start. -/
theorem exists_trimStart (s : Text) :
    ∃ l, s = l ++ trimStart s ∧ ∀ c ∈ l, isBlank c = true := by
  refine ⟨s.takeWhile isBlank, (List.takeWhile_append_dropWhile).symm, ?_⟩
  intro c hc
  exact List.mem_takeWhile_imp hc

/-- A text is what is left of it before some blanks at the end. -/
theorem exists_trimEnd (s : Text) :
    ∃ r, s = trimEnd s ++ r ∧ ∀ c ∈ r, isBlank c = true := by
  obtain ⟨l, hs, hl⟩ := exists_trimStart s.reverse
  refine ⟨l.reverse, ?_, fun c hc => hl c (List.mem_reverse.mp hc)⟩
  have h := congrArg List.reverse hs
  rw [List.reverse_reverse, List.reverse_append] at h
  exact h

/-- A text is its trimmed form with blanks on both sides. -/
theorem exists_trim (s : Text) :
    ∃ l r, s = l ++ trim s ++ r ∧ (∀ c ∈ l, isBlank c = true) ∧ ∀ c ∈ r, isBlank c = true := by
  obtain ⟨l, hs, hl⟩ := exists_trimStart s
  obtain ⟨r, hr, hb⟩ := exists_trimEnd (trimStart s)
  refine ⟨l, r, ?_, hl, hb⟩
  rw [List.append_assoc, trim, ← hr]
  exact hs

/-! ## Trimmed texts -/

/-- A text of blanks has nothing left at its start. -/
theorem trimStart_eq_nil_iff {s : Text} : trimStart s = [] ↔ ∀ c ∈ s, isBlank c = true := by
  unfold trimStart
  rw [List.dropWhile_eq_nil_iff]

/-- What is left after dropping blanks at the start does not start with a blank. -/
theorem head?_trimStart (s : Text) : ∀ c ∈ (trimStart s).head?, isBlank c = false := by
  intro c hc
  have h := List.head?_dropWhile_not isBlank s
  rw [← trimStart, Option.mem_def.mp hc] at h
  simpa using h

/-- What is left after dropping blanks at the end does not end with a blank. -/
theorem getLast?_trimEnd (s : Text) : ∀ c ∈ (trimEnd s).getLast?, isBlank c = false := by
  intro c hc
  rw [← List.head?_reverse, reverse_trimEnd] at hc
  exact head?_trimStart _ c hc

/-- Dropping blanks at the end keeps a prefix. -/
theorem trimEnd_prefix (s : Text) : trimEnd s <+: s := by
  obtain ⟨r, hs, -⟩ := exists_trimEnd s
  exact ⟨r, hs.symm⟩

/-- A text trims to nothing exactly when it is all blanks. -/
theorem trim_eq_nil_iff {s : Text} : trim s = [] ↔ ∀ c ∈ s, isBlank c = true := by
  constructor
  · intro h c hc
    obtain ⟨l, r, hs, hl, hr⟩ := exists_trim s
    rw [h, List.append_nil] at hs
    rw [hs] at hc
    rcases List.mem_append.mp hc with hc | hc
    · exact hl c hc
    · exact hr c hc
  · intro h
    rw [trim, trimStart_eq_nil_iff.mpr h]
    rfl

/-- A text that does not start with a blank keeps its start. -/
theorem trimStart_eq_self {s : Text} (h : ∀ c ∈ s.head?, isBlank c = false) : trimStart s = s := by
  cases s with
  | nil => rfl
  | cons c s => exact trimStart_cons_of_not_blank (h c rfl) s

/-- A text that does not end with a blank keeps its end. -/
theorem trimEnd_eq_self {s : Text} (h : ∀ c ∈ s.getLast?, isBlank c = false) : trimEnd s = s := by
  have hrev : trimStart s.reverse = s.reverse := by
    apply trimStart_eq_self
    rw [List.head?_reverse]
    exact h
  rw [trimEnd, hrev, List.reverse_reverse]

/-- A text that neither starts nor ends with a blank is trimmed. -/
theorem trim_eq_self {s : Text} (hhead : ∀ c ∈ s.head?, isBlank c = false)
    (hlast : ∀ c ∈ s.getLast?, isBlank c = false) : trim s = s := by
  rw [trim, trimStart_eq_self hhead, trimEnd_eq_self hlast]

/-- A text without blanks is trimmed. -/
theorem trim_eq_self_of_forall {s : Text} (h : ∀ c ∈ s, isBlank c = false) : trim s = s := by
  apply trim_eq_self
  · intro c hc
    exact h c (List.mem_of_head? hc)
  · intro c hc
    exact h c (List.mem_of_getLast? hc)

/-- A trimmed text does not start with a blank. -/
theorem head?_trim (s : Text) : ∀ c ∈ (trim s).head?, isBlank c = false := by
  intro c hc
  obtain ⟨t, ht⟩ := trimEnd_prefix (trimStart s)
  refine head?_trimStart s c ?_
  rw [← ht, List.head?_append]
  rw [trim] at hc
  rw [Option.mem_def.mp hc]
  rfl

/-- A trimmed text does not end with a blank. -/
theorem getLast?_trim (s : Text) : ∀ c ∈ (trim s).getLast?, isBlank c = false :=
  getLast?_trimEnd (trimStart s)

/-- Trimming twice is trimming once. -/
theorem trim_trim (s : Text) : trim (trim s) = trim s :=
  trim_eq_self (head?_trim s) (getLast?_trim s)

/-- Trimming keeps all characters but blanks. -/
theorem mem_trim {s : Text} {c : Char} (hc : c ∈ s) (hblank : isBlank c = false) : c ∈ trim s := by
  obtain ⟨l, r, hs, hl, hr⟩ := exists_trim s
  rw [hs, List.mem_append, List.mem_append] at hc
  rcases hc with (hleft | hmem) | hright
  · simp [hl c hleft] at hblank
  · exact hmem
  · simp [hr c hright] at hblank

/-- Blanks at the start do not matter to the trimmed form. -/
theorem trim_append_of_blank_left {l : Text} (hl : ∀ c ∈ l, isBlank c = true) (s : Text) :
    trim (l ++ s) = trim s := by
  rw [trim, trimStart_append_of_blank hl, ← trim]

/-- Blanks at the end do not matter to the trimmed form. -/
theorem trim_append_of_blank_right (s : Text) {r : Text} (hr : ∀ c ∈ r, isBlank c = true) :
    trim (s ++ r) = trim s := by
  by_cases hs : ∀ c ∈ s, isBlank c = true
  · rw [trim_eq_nil_iff.mpr hs, trim_eq_nil_iff]
    intro c hc
    rcases List.mem_append.mp hc with hc | hc
    · exact hs c hc
    · exact hr c hc
  · have hne : (s.dropWhile isBlank).isEmpty = false := by
      rw [List.isEmpty_eq_false_iff]
      exact fun h => hs (trimStart_eq_nil_iff.mp h)
    have happend : trimStart (s ++ r) = trimStart s ++ r := by
      unfold trimStart
      rw [List.dropWhile_append, hne]
      rfl
    rw [trim, happend, trimEnd_append_of_blank _ hr, ← trim]

/-! ## Segments -/

/-- A blank in front of a text does not change its trimmed segments. -/
theorem map_trim_splitOn_cons {mark c : Char} (hmark : isBlank mark = false)
    (hc : isBlank c = true) (s : Text) :
    ((c :: s).splitOn mark).map trim = (s.splitOn mark).map trim := by
  have hne : (c == mark) = false := by
    rw [beq_eq_false_iff_ne]
    rintro rfl
    simp [hc] at hmark
  obtain ⟨first, rest, hsplit⟩ := List.exists_cons_of_ne_nil (List.splitOn_ne_nil mark s)
  have hfirst : trim (c :: first) = trim first :=
    trim_append_of_blank_left (l := [c]) (by simpa using hc) first
  rw [List.splitOn_cons_eq_if_modifyHead, hne, hsplit]
  simp [hfirst]

/-- A character after a text that is no mark goes to its last segment. -/
theorem exists_splitOn_concat {mark c : Char} (hne : c ≠ mark) (s : Text) :
    ∃ front last, s.splitOn mark = front ++ [last] ∧
      (s ++ [c]).splitOn mark = front ++ [last ++ [c]] := by
  induction s with
  | nil =>
      refine ⟨[], [], rfl, ?_⟩
      rw [List.nil_append, List.splitOn_eq_singleton]
      · rfl
      · simpa using hne.symm
  | cons a s ih =>
      obtain ⟨front, last, hs, hsc⟩ := ih
      rw [List.cons_append, List.splitOn_cons_eq_if_modifyHead, List.splitOn_cons_eq_if_modifyHead,
        hs, hsc]
      split
      · exact ⟨[] :: front, last, rfl, rfl⟩
      · cases front with
        | nil => exact ⟨[], a :: last, rfl, rfl⟩
        | cons first front => exact ⟨(a :: first) :: front, last, rfl, rfl⟩

/-- A blank at the end of a text does not change its trimmed segments. -/
theorem map_trim_splitOn_concat {mark c : Char} (hmark : isBlank mark = false)
    (hc : isBlank c = true) (s : Text) :
    ((s ++ [c]).splitOn mark).map trim = (s.splitOn mark).map trim := by
  have hne : c ≠ mark := by
    rintro rfl
    simp [hc] at hmark
  obtain ⟨front, last, hs, hsc⟩ := exists_splitOn_concat hne s
  have hlast : trim (last ++ [c]) = trim last :=
    trim_append_of_blank_right last (by simpa using hc)
  rw [hs, hsc]
  simp [hlast]

/-- Trimming a text first does not change its trimmed segments. -/
theorem map_trim_splitOn_trim {mark : Char} (hmark : isBlank mark = false) (s : Text) :
    ((trim s).splitOn mark).map trim = (s.splitOn mark).map trim := by
  have hleft : ∀ (l t : Text), (∀ c ∈ l, isBlank c = true) →
      ((l ++ t).splitOn mark).map trim = (t.splitOn mark).map trim := by
    intro l t hl
    induction l with
    | nil => rfl
    | cons c l ih =>
        rw [List.cons_append, map_trim_splitOn_cons hmark (hl c List.mem_cons_self),
          ih fun d hd => hl d (List.mem_cons_of_mem c hd)]
  have hright : ∀ (r t : Text), (∀ c ∈ r, isBlank c = true) →
      ((t ++ r).splitOn mark).map trim = (t.splitOn mark).map trim := by
    intro r
    induction r with
    | nil => intro t _; rw [List.append_nil]
    | cons c r ih =>
        intro t hr
        rw [← List.singleton_append, ← List.append_assoc,
          ih (t ++ [c]) fun d hd => hr d (List.mem_cons_of_mem c hd),
          map_trim_splitOn_concat hmark (hr c List.mem_cons_self)]
  obtain ⟨l, r, hs, hl, hr⟩ := exists_trim s
  have h := hright r (l ++ trim s) hr
  rw [← hs, hleft l _ hl] at h
  exact h.symm

end RiscAsm.Text

import Mathlib.Data.List.Infix
import RiscAsm.Proofs.Text.Trim

/-!
# Pieces of texts

A piece of a text stands in it without a gap (`<:+:`).  Trimming a text, dividing it at a mark and
joining texts all keep pieces: the trimmed text and the segments are pieces of the text that they
come from, and the parts are pieces of the text that they are joined to.  `pair_infix_append` says
which characters are neighbours in a text of two parts.
-/

namespace RiscAsm.Text

/-! ## Neighbours -/

/-- Two characters are neighbours in a text of two parts when they are in one part, or stand at the
seam. -/
theorem pair_infix_append {a b : Char} {s t : Text} :
    [a, b] <:+: s ++ t ↔
      [a, b] <:+: s ∨ [a, b] <:+: t ∨ (s.getLast? = some a ∧ t.head? = some b) := by
  rw [List.infix_append_iff]
  constructor
  · rintro (hs | ht | ⟨front, back, hpair, hfront, hback⟩)
    · exact .inl hs
    · exact .inr (.inl ht)
    · -- the pair is cut in one of three places
      match front, back, hpair with
      | [], back, hpair =>
          obtain rfl : [a, b] = back := hpair
          exact .inr (.inl hback.isInfix)
      | [first], back, hpair =>
          obtain ⟨rfl, rfl⟩ := List.cons.inj hpair
          obtain ⟨before, rfl⟩ := hfront
          obtain ⟨after, rfl⟩ := hback
          exact .inr (.inr ⟨List.getLast?_concat, rfl⟩)
      | first :: second :: rest, back, hpair =>
          simp only [List.cons_append, List.cons.injEq] at hpair
          obtain ⟨rfl, rfl, hnil⟩ := hpair
          rw [List.eq_nil_of_append_eq_nil hnil.symm |>.1] at hfront
          exact .inl hfront.isInfix
  · rintro (hs | ht | ⟨hlast, hhead⟩)
    · exact .inl hs
    · exact .inr (.inl ht)
    · obtain ⟨front, rfl⟩ := List.getLast?_eq_some_iff.mp hlast
      obtain ⟨back, rfl⟩ := List.head?_eq_some_iff.mp hhead
      exact .inr (.inr ⟨[a], [b], rfl, ⟨front, rfl⟩, ⟨back, rfl⟩⟩)

/-- No two neighbours are added by a character in between that is neither of them. -/
theorem pair_infix_append_cons {a b c : Char} (ha : c ≠ a) (hb : c ≠ b) {s t : Text} :
    [a, b] <:+: s ++ c :: t ↔ [a, b] <:+: s ∨ [a, b] <:+: t := by
  have hcons : [a, b] <:+: c :: t ↔ [a, b] <:+: t := by
    rw [List.infix_cons_iff, List.cons_prefix_cons]
    constructor
    · rintro (⟨hc, -⟩ | ht)
      · exact absurd hc.symm ha
      · exact ht
    · exact .inr
  rw [pair_infix_append, hcons]
  constructor
  · rintro (hs | ht | ⟨-, hhead⟩)
    · exact .inl hs
    · exact .inr ht
    · exact absurd (Option.some.inj hhead) hb
  · rintro (hs | ht)
    · exact .inl hs
    · exact .inr (.inl ht)

/-! ## Pieces by trimming, dividing and joining -/

/-- A trimmed text is a piece of the text. -/
theorem trim_piece (s : Text) : trim s <:+: s := by
  obtain ⟨l, r, hs, -, -⟩ := exists_trim s
  exact ⟨l, r, hs.symm⟩

/-- Texts are pieces of what they are joined to. -/
theorem infix_join {separator t : Text} {parts : List Text} (h : t ∈ parts) :
    t <:+: join separator parts := by
  induction parts with
  | nil => simp at h
  | cons first parts ih =>
      cases parts with
      | nil =>
          obtain rfl := List.mem_singleton.mp h
          exact ⟨[], [], by simp [join]⟩
      | cons second parts =>
          rw [join, List.intercalate_cons_cons, List.append_assoc, ← join]
          rcases List.mem_cons.mp h with rfl | hrest
          · exact (List.prefix_append ..).isInfix
          · have hjoined := ih hrest
            exact hjoined.trans ((List.suffix_append ..).trans (List.suffix_append ..)).isInfix

/-- A character of joined texts is in one of them, or in what was put between them. -/
theorem mem_join {separator : Text} {parts : List Text} {c : Char} (h : c ∈ join separator parts) :
    c ∈ separator ∨ ∃ t ∈ parts, c ∈ t := by
  induction parts with
  | nil => simp [join] at h
  | cons first parts ih =>
      cases parts with
      | nil => exact .inr ⟨first, List.mem_singleton_self first, by simpa [join] using h⟩
      | cons second parts =>
          rw [join, List.intercalate_cons_cons, List.append_assoc, ← join, List.mem_append,
            List.mem_append] at h
          rcases h with hfirst | hseparator | hrest
          · exact .inr ⟨first, List.mem_cons_self, hfirst⟩
          · exact .inl hseparator
          · refine (ih hrest).imp_right ?_
            rintro ⟨t, ht, hc⟩
            exact ⟨t, List.mem_cons_of_mem first ht, hc⟩

/-- A segment between marks is a piece of the text. -/
theorem infix_of_mem_splitOn {mark : Char} {s t : Text} (h : t ∈ s.splitOn mark) : t <:+: s := by
  have hjoined : join [mark] (s.splitOn mark) = s := List.intercalate_splitOn mark
  rw [← hjoined]
  exact infix_join h

/-- No mark is left in the segments between marks. -/
theorem not_mem_of_mem_splitOn {mark : Char} {s t : Text} (h : t ∈ s.splitOn mark) : mark ∉ t := by
  induction s generalizing t with
  | nil =>
      rw [List.splitOn_nil, List.mem_singleton] at h
      simp [h]
  | cons c s ih =>
      rw [List.splitOn_cons_eq_if_modifyHead] at h
      split at h
      · rcases List.mem_cons.mp h with rfl | hrest
        · simp
        · exact ih hrest
      · rename_i hc
        obtain ⟨first, rest, hsplit⟩ := List.exists_cons_of_ne_nil (List.splitOn_ne_nil mark s)
        rw [hsplit] at h ih
        rcases List.mem_cons.mp h with rfl | hrest
        · rw [List.mem_cons]
          rintro (rfl | hmem)
          · simp at hc
          · exact ih List.mem_cons_self hmem
        · exact ih (List.mem_cons_of_mem first hrest)

/-- Lines without line feeds that are joined are divided again. -/
theorem splitOn_joinLines {lines : List Text} (hne : lines ≠ []) (h : ∀ t ∈ lines, '\n' ∉ t) :
    (joinLines lines).splitOn '\n' = lines :=
  List.splitOn_intercalate '\n' h hne

end RiscAsm.Text

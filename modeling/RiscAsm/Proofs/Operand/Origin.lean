import RiscAsm.Proofs.Operand
import RiscAsm.Proofs.Text.Pieces

/-!
# Where operands come from

Dividing a text into operands only drops characters, and only separators are dropped between the
characters of one operand, where an offset is taken back before a parenthesis.  So the characters of
an operand are characters of the text, and neighbours in an operand are neighbours in the text
unless the second one is an opening parenthesis (`drawn_of_mem_tokenize`).
-/

namespace RiscAsm.Operand

/-- The characters of a text are found in a source, and so are its neighbours, unless the second one
is an opening parenthesis. -/
structure Drawn (source t : Text) : Prop where
  mem : ∀ c ∈ t, c ∈ source
  pair : ∀ a b, b ≠ '(' → [a, b] <:+: t → [a, b] <:+: source

namespace Drawn

variable {source t : Text}

theorem nil (source : Text) : Drawn source [] where
  mem := by simp
  pair := by
    intro a b _ hpair
    have hlength := hpair.length_le
    simp at hlength

/-- A piece of what is drawn is drawn. -/
theorem of_piece {piece : Text} (h : Drawn source t) (hpiece : piece <:+: t) :
    Drawn source piece where
  mem := fun c hc => h.mem c (hpiece.mem hc)
  pair := fun a b hb hpair => h.pair a b hb (hpair.trans hpiece)

/-- What is drawn from a piece of a text is drawn from the text. -/
theorem trans {whole : Text} (h : Drawn source t) (hsource : source <:+: whole) :
    Drawn whole t where
  mem := fun c hc => hsource.mem (h.mem c hc)
  pair := fun a b hb hpair => (h.pair a b hb hpair).trans hsource

/-- The next character of the source may be added where the last one was added, and a parenthesis
everywhere. -/
theorem concat {c : Char} (h : Drawn source t)
    (hseam : c = '(' ∨ ∀ last ∈ t.getLast?, source.getLast? = some last) :
    Drawn (source ++ [c]) (t ++ [c]) where
  mem := by
    intro d hd
    rw [List.mem_append] at hd ⊢
    exact hd.imp_left (h.mem d)
  pair := by
    intro a b hb hpair
    rw [Text.pair_infix_append] at hpair ⊢
    rcases hpair with hold | hone | ⟨hlast, hhead⟩
    · exact .inl (h.pair a b hb hold)
    · exact .inr (.inl hone)
    · rcases hseam with rfl | hseam
      · exact absurd (Option.some.inj hhead).symm hb
      · exact .inr (.inr ⟨hseam a hlast, hhead⟩)

end Drawn

namespace Scan

/-- What holds of the state after a part of the text: all operands are drawn from it, and the
operand at hand, unless it is empty, ends where the part ends. -/
structure Origin (source : Text) (s : Scan) : Prop where
  done : ∀ t ∈ s.done, Drawn source t
  current : Drawn source s.current.reverse
  last : ∀ c ∈ s.current.head?, source.getLast? = some c

theorem origin_init : Origin [] {} where
  done := by simp
  current := .nil []
  last := by simp

/-- Ending an operand keeps the origin of all operands. -/
theorem Origin.finish {source : Text} {s : Scan} (h : s.Origin source) :
    ∀ t ∈ s.finish.done, Drawn source t := by
  intro t ht
  by_cases hp : s.pending = []
  · rw [finish_of_not_pending hp] at ht
    exact h.done t ht
  · rw [finish_of_pending hp] at ht
    rcases List.mem_cons.mp ht with rfl | hold
    · exact h.current.of_piece (Text.trim_piece _)
    · exact h.done t hold

/-- Taking back an offset keeps the origin of all operands. -/
theorem Origin.rejoin {source : Text} {s : Scan} (h : s.Origin source) :
    (∀ t ∈ s.rejoin.done, Drawn source t) ∧ Drawn source s.rejoin.current.reverse := by
  rcases s.rejoin_cases with hr | ⟨last, earlier, -, -, hdone, hr⟩
  · rw [hr]
    exact ⟨h.done, h.current⟩
  · rw [hr]
    constructor
    · intro t ht
      exact h.done t (by rw [hdone]; exact List.mem_cons_of_mem last ht)
    · simpa using h.done last (by rw [hdone]; exact List.mem_cons_self)

/-- Every step keeps the origin of all operands. -/
theorem Origin.step {source : Text} {s : Scan} (h : s.Origin source) (c : Char) :
    (s.step c).Origin (source ++ [c]) := by
  have hgrow : source <:+: source ++ [c] := (List.prefix_append source [c]).isInfix
  rcases s.divides_or c with ⟨hc, hs⟩ | hnot
  · rw [step_of_isSeparator hc hs]
    refine ⟨fun t ht => (h.finish t ht).trans hgrow, ?_, ?_⟩
    · simp only [current_finish]
      exact .nil _
    · simp [current_finish]
  · rw [step_of_not_isSeparator hnot]
    by_cases hopen : c = '('
    · -- the operand at hand may be one that was taken back, but it goes on with a parenthesis
      obtain ⟨hdone, hcurrent⟩ := h.rejoin
      simp only [if_pos hopen]
      refine ⟨fun t ht => (hdone t ht).trans hgrow, ?_, by simp [push]⟩
      simpa [push] using hcurrent.concat (.inl hopen)
    · simp only [if_neg hopen]
      refine ⟨fun t ht => (h.done t ht).trans hgrow, ?_, by simp [push]⟩
      have hseam : ∀ last ∈ s.current.reverse.getLast?, source.getLast? = some last := by
        rw [List.getLast?_reverse]
        exact h.last
      simpa [push] using h.current.concat (.inr hseam)

/-- After any text all operands are drawn from what was read. -/
theorem Origin.foldl {source : Text} {s : Scan} (h : s.Origin source) (text : Text) :
    (text.foldl Scan.step s).Origin (source ++ text) := by
  induction text generalizing source s with
  | nil => simpa using h
  | cons c text ih => simpa using ih (h.step c)

end Scan

/-- Operands are drawn from the text that is divided. -/
theorem drawn_of_mem_tokenize {s t : Text} (h : t ∈ tokenize s) : Drawn s t := by
  rw [tokenize, List.mem_reverse] at h
  exact (Scan.origin_init.foldl s).finish t h

end RiscAsm.Operand

import Mathlib.Data.List.Basic
import RiscAsm.Text.Basic

/-!
# Finding and replacing

How the first position of a pattern and the replacement of a pattern go along a text: at each
character the pattern stands there or it does not (`find?_cons`, `replace_append`, `replace_cons`).
To replace a single character by another is to replace each character on its own
(`replace_singleton`).
-/

namespace RiscAsm.Text

/-! ## The first position of a pattern -/

theorem findFrom?_eq_map (pattern : Text) (start : Nat) (s : Text) :
    findFrom? pattern start s = (find? pattern s).map (· + start) := by
  have haux : ∀ first, findFrom? pattern (first + start) s =
      (findFrom? pattern first s).map (· + start) := by
    intro first
    induction s generalizing first with
    | nil =>
        rw [findFrom?, findFrom?]
        split <;> rfl
    | cons c s ih =>
        rw [findFrom?, findFrom?]
        split
        · rfl
        · rw [Nat.add_right_comm, ih]
  rw [find?, ← haux, Nat.zero_add]

/-- A pattern stands at the front of a text, or it is looked for after the first character. -/
theorem find?_cons (pattern : Text) (c : Char) (s : Text) :
    find? pattern (c :: s) =
      if pattern.isPrefixOf (c :: s) then some 0 else (find? pattern s).map (· + 1) := by
  rw [find?, findFrom?, findFrom?_eq_map pattern (0 + 1) s]

/-! ## Replacement -/

/-- What was gathered before stays in front. -/
theorem replaceAux_append (old new done base : Text) (skip : Nat) (s : Text) :
    replaceAux old new (done ++ base) skip s = base.reverse ++ replaceAux old new done skip s := by
  induction s generalizing done skip with
  | nil => simp [replaceAux]
  | cons c s ih =>
      cases skip with
      | succ skip =>
          rw [replaceAux, replaceAux]
          exact ih done skip
      | zero =>
          rw [replaceAux, replaceAux]
          split
          · rw [← List.append_assoc, ih]
          · rw [← List.cons_append, ih]

theorem replaceAux_eq (old new done s : Text) :
    replaceAux old new done 0 s = done.reverse ++ replace old new s :=
  replaceAux_append old new [] done 0 s

/-- The characters that are left out have no influence. -/
theorem replaceAux_length (old new done skipped s : Text) :
    replaceAux old new done skipped.length (skipped ++ s) = replaceAux old new done 0 s := by
  induction skipped with
  | nil => rfl
  | cons c skipped ih => exact ih

/-- An occurrence at the front is replaced. -/
theorem replace_append {old : Text} (h : old ≠ []) (new s : Text) :
    replace old new (old ++ s) = new ++ replace old new s := by
  obtain ⟨c, rest, rfl⟩ := List.exists_cons_of_ne_nil h
  have hfront : (c :: rest).isPrefixOf (c :: rest ++ s) = true := by
    rw [List.isPrefixOf_iff_prefix]
    exact List.prefix_append ..
  rw [List.cons_append] at hfront ⊢
  rw [replace, replaceAux, if_pos hfront]
  show replaceAux (c :: rest) new (new.reverse ++ []) rest.length (rest ++ s) = _
  rw [replaceAux_length, replaceAux_eq, List.append_nil, List.reverse_reverse]

/-- A character at which no occurrence starts is kept. -/
theorem replace_cons {old : Text} {c : Char} {s : Text} (h : ¬ old <+: c :: s) (new : Text) :
    replace old new (c :: s) = c :: replace old new s := by
  have hfront : ¬ old.isPrefixOf (c :: s) = true := by rwa [List.isPrefixOf_iff_prefix]
  rw [replace, replaceAux, if_neg hfront, replaceAux_eq]
  rfl

/-- A single character is replaced wherever it stands. -/
theorem replace_singleton (a b : Char) (s : Text) :
    replace [a] [b] s = s.map fun c => if c = a then b else c := by
  induction s with
  | nil => rfl
  | cons c s ih =>
      rw [List.map_cons, ← ih]
      split
      · next hc =>
          subst hc
          exact replace_append (List.cons_ne_nil c []) [b] s
      · next hc =>
          apply replace_cons
          rw [List.cons_prefix_cons]
          exact fun h => hc h.1.symm

end RiscAsm.Text

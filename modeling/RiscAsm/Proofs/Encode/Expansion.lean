import RiscAsm.Proofs.Encode.Legible
import RiscAsm.Proofs.Operand.Last
import RiscAsm.Proofs.Pseudo

/-!
# Pseudo-instructions mean their expansions

Writing the expansion of a line as a line and encoding that comes to the same as encoding the line
itself (`encode_expansion`).  The one way in which a written expansion may be read as something else
is an operand that is left open, which takes in what follows it; but nothing that is left open has a
word, neither before it is written (`closed_of_encodeReal`) nor after it is read again
(`closed_of_forall_tokenize`).
-/

namespace RiscAsm

namespace Operand

/-! ## Open parentheses are never lost -/

namespace Scan

/-- A step counts the parentheses that are open. -/
theorem depth_step (s : Scan) (c : Char) : (s.step c).depth = s.depth + nesting c := by
  rcases s.divides_or c with ⟨hc, hs⟩ | hnot
  · rw [step_of_isSeparator hc hs, nesting_of_isSeparator hc, Int.add_zero]
    exact s.depth_finish
  · rw [step_of_not_isSeparator hnot]

theorem depth_foldl_step (s : Scan) (text : Text) :
    (text.foldl Scan.step s).depth = s.depth + nestingOf text := by
  induction text generalizing s with
  | nil => simp
  | cons c text ih => rw [List.foldl_cons, ih, depth_step, nestingOf_cons, Int.add_assoc]

end Scan

theorem nestingOf_trim (s : Text) : nestingOf (Text.trim s) = nestingOf s := by
  obtain ⟨l, r, hs, hl, hr⟩ := Text.exists_trim s
  have hsum := congrArg nestingOf hs
  rw [nestingOf_append, nestingOf_append, nestingOf_of_blank hl, nestingOf_of_blank hr] at hsum
  omega

/-- A text whose operands are all closed is closed itself: a parenthesis that is left open at the
end stands in the last operand. -/
theorem closed_of_forall_tokenize {s : Text} (h : ∀ t ∈ tokenize s, Closed t) : Closed s := by
  have hdepth := Scan.depth_foldl_step {} s
  have hinv := inv_scan s
  rw [tokenize] at h
  generalize s.foldl Scan.step {} = last at h hdepth hinv
  have hcurrent : nestingOf last.pending = nestingOf s := by
    rw [Scan.pending, nestingOf_trim, ← hinv.depth, hdepth]
    exact Int.zero_add _
  by_cases hp : last.pending = []
  · rw [Closed, ← hcurrent, hp]
    rfl
  · rw [Scan.finish_of_pending hp] at h
    rw [Closed, ← hcurrent]
    exact h last.pending (List.mem_reverse.mpr List.mem_cons_self)

theorem nestingOf_joinComma_cons (t : Text) (ts : List Text) :
    nestingOf (Text.joinComma (t :: ts)) = nestingOf t + nestingOf (Text.joinComma ts) := by
  cases ts with
  | nil =>
      have hnone : nestingOf (Text.joinComma []) = 0 := rfl
      simp [hnone]
  | cons u ts =>
      have hcomma : nesting ',' = 0 ∧ nesting ' ' = 0 := by decide
      rw [joinComma_cons_cons, nestingOf_append, nestingOf_cons, nestingOf_cons, hcomma.1, hcomma.2,
        Int.zero_add, Int.zero_add]

/-- Parentheses that are left open in equal numbers do not cancel out. -/
theorem nestingOf_joinComma {n : Int} {ts : List Text}
    (h : ∀ t ∈ ts, nestingOf t = 0 ∨ nestingOf t = n) :
    ∃ k : Nat, nestingOf (Text.joinComma ts) = k * n ∧ (k = 0 → ∀ t ∈ ts, nestingOf t = 0) := by
  induction ts with
  | nil => exact ⟨0, (Int.zero_mul n).symm, by simp⟩
  | cons t ts ih =>
      obtain ⟨ht, hts⟩ := List.forall_mem_cons.mp h
      obtain ⟨k, hjoined, hnone⟩ := ih hts
      rw [nestingOf_joinComma_cons, hjoined]
      rcases ht with ht | ht
      · exact ⟨k, by omega, fun hk => List.forall_mem_cons.mpr ⟨ht, hnone hk⟩⟩
      · refine ⟨k + 1, ?_, by simp⟩
        rw [ht, Int.natCast_succ, Int.add_mul, Int.one_mul, Int.add_comm]

/-- Joined operands that are closed as a whole are closed each, if only one of them, perhaps
repeated, may be left open. -/
theorem closed_of_closed_joinComma {ts : List Text} (h : Closed (Text.joinComma ts))
    (hsame : ∀ t ∈ ts, ∀ u ∈ ts, ¬ Closed t → ¬ Closed u → t = u) : ∀ t ∈ ts, Closed t := by
  by_contra hopen
  push Not at hopen
  obtain ⟨t, ht, hnot⟩ := hopen
  have hvalues : ∀ u ∈ ts, nestingOf u = 0 ∨ nestingOf u = nestingOf t := by
    intro u hu
    by_cases hu' : Closed u
    · exact .inl hu'
    · exact .inr (by rw [hsame t ht u hu hnot hu'])
  obtain ⟨k, hjoined, hnone⟩ := nestingOf_joinComma hvalues
  rw [Closed, hjoined] at h
  rcases Int.mul_eq_zero.mp h with hk | hzero
  · exact hnot (hnone (by omega) t ht)
  · exact hnot hzero

end Operand

namespace Encode

/-! ## The same outcome -/

/-- Two lines are encoded alike: they have the same word, or both fail with encoding diagnostics. -/
def SameOutcome (p : Profile) (line line' : Text) : Prop :=
  (∃ w, encode p line = .ok w ∧ encode p line' = .ok w) ∨
    ∃ reason reason', encode p line = .error (.diagnostic { kind := .encoding, reason }) ∧
      encode p line' = .error (.diagnostic { kind := .encoding, reason := reason' })

/-- Lines that have the same words are encoded alike, since nothing but a diagnostic takes the place
of a word. -/
theorem sameOutcome_of_iff {p : Profile} {line line' : Text}
    (h : ∀ w, encodeWord p line = .ok w ↔ encodeWord p line' = .ok w) :
    SameOutcome p line line' := by
  cases hline : encode p line with
  | ok w =>
      have hword := encode_eq_ok.mp hline
      exact .inl ⟨w, hline, encode_eq_ok.mpr ((h w).mp hword)⟩
  | error failure =>
      obtain ⟨reason, rfl⟩ := encode_eq_error hline
      cases hline' : encode p line' with
      | ok w =>
          rw [encode_eq_ok.mpr ((h w).mpr (encode_eq_ok.mp hline'))] at hline
          cases hline
      | error failure' =>
          obtain ⟨reason', rfl⟩ := encode_eq_error hline'
          exact .inr ⟨reason, reason', hline, hline'⟩

/-! ## Expansions -/

variable {p : Profile} {line : Text} {s r : Statement}

/-- What is left to do for a line that was read. -/
theorem encodeWord_of_parse (hparse : Statement.parse line = .ok s) :
    encodeWord p line = (Pseudo.real s >>= encodeReal p) := by
  rw [encodeWord, hparse]
  rfl

theorem encodeWord_of_real (hparse : Statement.parse line = .ok s) (hreal : Pseudo.real s = .ok r) :
    encodeWord p line = encodeReal p r := by
  rw [encodeWord_of_parse hparse, hreal]
  rfl

/-- The operands of the real instruction of a line can stand as operands, and only one of them may
be left open: the last operand of the line, wherever it was put. -/
theorem operands_real (hparse : Statement.parse line = .ok s) (hreal : Pseudo.real s = .ok r) :
    (∀ t ∈ r.operands, Operand.IsOperand t) ∧
      ∀ t ∈ r.operands, ∀ u ∈ r.operands, ¬ Operand.Closed t → ¬ Operand.Closed u → t = u := by
  obtain ⟨hoperands, hclosed⟩ := Statement.operands_of_parse hparse
  have hlast : ∀ t ∈ r.operands, ¬ Operand.Closed t → s.operands.getLast? = some t := by
    intro t ht hopen
    have hmem := (Pseudo.mem_real hreal ht).resolve_left fun hfixed => hopen hfixed.2
    have hne := List.ne_nil_of_mem hmem
    rw [← List.dropLast_concat_getLast hne, List.mem_append, List.mem_singleton] at hmem
    rcases hmem with hmem | rfl
    · exact absurd (hclosed t hmem) hopen
    · exact List.getLast?_eq_some_getLast hne
  constructor
  · intro t ht
    rcases Pseudo.mem_real hreal ht with hfixed | hmem
    · exact hfixed.1
    · exact hoperands t hmem
  · intro t ht u hu hopen hopen'
    exact Option.some.inj ((hlast t ht hopen).symm.trans (hlast u hu hopen'))

/-- An expansion without open operands is read back from how it is written. -/
theorem parse_render_real (hparse : Statement.parse line = .ok s) (hreal : Pseudo.real s = .ok r)
    (hclosed : ∀ t ∈ r.operands, Operand.Closed t) : Statement.parse r.render = .ok r := by
  obtain ⟨hne, hblank, hlower⟩ := Pseudo.mnemonic_real hparse hreal
  have hread := Statement.parse_render hne hblank (operands_real hparse hreal).1 fun t ht =>
    hclosed t (List.dropLast_subset _ ht)
  rwa [hlower] at hread

/-- A written expansion that has a word has no open operand. -/
theorem closed_of_encodeWord_render {w : Nat} (hparse : Statement.parse line = .ok s)
    (hreal : Pseudo.real s = .ok r) (h : encodeWord p r.render = .ok w) :
    ∀ t ∈ r.operands, Operand.Closed t := by
  obtain ⟨hne, hblank, hlower⟩ := Pseudo.mnemonic_real hparse hreal
  obtain ⟨hoperands, hsame⟩ := operands_real hparse hreal
  have hread := Statement.parse_render_eq hne hblank hoperands
  rw [hlower] at hread
  have hagain : Pseudo.real ⟨r.mnemonic, Operand.tokenize (Text.joinComma r.operands)⟩ =
      .ok (Pseudo.expandShort ⟨r.mnemonic, Operand.tokenize (Text.joinComma r.operands)⟩) := by
    rw [Pseudo.real, Pseudo.isPseudo_real hreal]
    rfl
  rw [encodeWord_of_real hread hagain] at h
  have hclosed := closed_of_encodeReal
    ((Pseudo.real_yields ((Statement.parse_yields _).ok hread)).ok hagain) h
  refine Operand.closed_of_closed_joinComma (Operand.closed_of_forall_tokenize ?_) hsame
  exact fun t ht => hclosed t (Pseudo.mem_expandShort_of_mem ht)

/-- A written expansion has the words that the line has. -/
theorem encodeWord_render_iff (hparse : Statement.parse line = .ok s)
    (hreal : Pseudo.real s = .ok r) (w : Nat) :
    encodeWord p line = .ok w ↔ encodeWord p r.render = .ok w := by
  have hsame : (∀ t ∈ r.operands, Operand.Closed t) →
      encodeWord p line = encodeWord p r.render := by
    intro hclosed
    rw [encodeWord_of_real hparse hreal,
      encodeWord_of_real (parse_render_real hparse hreal hclosed) (Pseudo.real_of_real hreal)]
  constructor
  · intro h
    rw [← hsame, h]
    rw [encodeWord_of_real hparse hreal] at h
    exact closed_of_encodeReal
      ((Pseudo.real_yields ((Statement.parse_yields _).ok hparse)).ok hreal) h
  · intro h
    rw [hsame (closed_of_encodeWord_render hparse hreal h), h]

/-- A fault of an expansion is reported in its own words. -/
theorem encode_of_expand_error {fault : Fault} (hparse : Statement.parse line = .ok s)
    (hpseudo : Pseudo.isPseudo s.mnemonic = true)
    (h : Pseudo.expand s.mnemonic s.operands = .error fault) :
    encode p line = .error (.diagnostic { kind := .encoding, reason := fault.reason }) ∧
      ((∃ kind, fault.failure = .diagnostic { kind, reason := fault.reason }) ∨
        fault.failure = .value fault.reason) := by
  have hreal : Pseudo.real s = .error fault := by
    rw [Pseudo.real, hpseudo]
    exact h
  have hne : fault ≠ .missingField :=
    (Pseudo.real_yields ((Statement.parse_yields _).ok hparse)).ne_bad hreal
  have hword : encodeWord p line = .error fault := by
    rw [encodeWord_of_parse hparse, hreal]
    rfl
  have hfamily : fault.family ≠ .missing := by
    cases fault with
    | missingField => exact absurd rfl hne
    | _ => exact FaultFamily.noConfusion
  have hencode : encode p line = .error fault.encodingFailure := by
    rw [encode, hword]
    rfl
  rw [hencode, Fault.encodingFailure, Fault.failure]
  cases hcase : fault.family with
  | parse => exact ⟨rfl, .inl ⟨.parse, rfl⟩⟩
  | encoding => exact ⟨rfl, .inl ⟨.encoding, rfl⟩⟩
  | value => exact ⟨rfl, .inr rfl⟩
  | missing => exact absurd hcase hfamily

end Encode

open Encode

/-- **Pseudo-instructions mean their expansions**: what a line is expanded to is no
pseudo-instruction, and written as a line it is encoded as the line is.  A line that cannot be
expanded fails with an encoding diagnostic, in the words of the fault. -/
theorem encode_expansion {p : Profile} {line : Text} {s : Statement}
    (hparse : Statement.parse line = .ok s) :
    (∀ r, Pseudo.real s = .ok r →
      Pseudo.isPseudo r.mnemonic = false ∧ SameOutcome p line r.render) ∧
    ∀ fault, Pseudo.isPseudo s.mnemonic = true →
      Pseudo.expand s.mnemonic s.operands = .error fault →
      encode p line = .error (.diagnostic { kind := .encoding, reason := fault.reason }) ∧
        ((∃ kind, fault.failure = .diagnostic { kind, reason := fault.reason }) ∨
          fault.failure = .value fault.reason) := by
  constructor
  · intro r hreal
    exact ⟨Pseudo.isPseudo_real hreal, sameOutcome_of_iff (encodeWord_render_iff hparse hreal)⟩
  · intro fault hpseudo hfault
    exact encode_of_expand_error hparse hpseudo hfault

/-- An operand that is written twice, in another case, an open operand that takes in what follows
it, and a constant that is too wide. -/
theorem encode_expansion_doubled :
    SameOutcome .auto "FMV.S fa0 FT1".toList "fsgnj.s fa0, FT1, FT1".toList ∧
      SameOutcome .auto "jr (a0".toList "jalr x0, (a0, 0".toList ∧
      encode .auto "li a0, 2048".toList = .error (.diagnostic
        { kind := .encoding
          reason := "LI immediate 2048 does not fit in 12 bits; use lui and addi".toList }) := by
  have hmove : Statement.parse "FMV.S fa0 FT1".toList =
      .ok ⟨"fmv.s".toList, ["fa0".toList, "FT1".toList]⟩ := by decide +kernel
  have hjump : Statement.parse "jr (a0".toList = .ok ⟨"jr".toList, ["(a0".toList]⟩ := by
    decide +kernel
  have hload : Statement.parse "li a0, 2048".toList =
      .ok ⟨"li".toList, ["a0".toList, "2048".toList]⟩ := by decide +kernel
  refine ⟨((encode_expansion hmove).1 _ rfl).2, ((encode_expansion hjump).1 _ rfl).2, ?_⟩
  exact ((encode_expansion hload).2 (.wideLoadImmediate 2048) (by decide) (by decide +kernel)).1

end RiscAsm

import RiscAsm.Proofs.Assemble.Branch
import RiscAsm.Proofs.Label

/-!
# References to labels

Whatever can be defined as a label can be referred to.  A label name is no number, a single operand
and free of comments, so it comes out as it is where it is written as the last operand of a branch
or a jump.  There it is found in the table of every program that defines it (`Label.Resolves`), and
what is reported as undefined is always another name (`undefined_of_assembleText`).  The main
statement is `Label.referenceable`.
-/

namespace RiscAsm

namespace Label

/-! ## Names as operands -/

/-- What is split off a line as a label is a name. -/
theorem isName_of_split {line : SourceLine} {index : Option Int} {name rest : Text}
    (h : split line index = .ok (some name, rest)) : isName name = true := by
  unfold split at h
  split at h
  · cases h
  · dsimp only at h
    split at h
    · cases h
    · split at h
      · rename_i hname
        obtain ⟨hsome, -⟩ := Prod.mk.inj (Except.ok.inj h)
        rwa [Option.some.inj hsome] at hname
      · cases h

/-- No comment starts within a name. -/
theorem uncommented_of_isName {name : Text} (h : isName name = true) :
    Source.Uncommented name := by
  have hne : ∀ c, isNameRest c = false → c ∉ name := by
    intro c hc hmem
    rw [isNameRest_of_mem h hmem] at hc
    cases hc
  exact ⟨hne '#' (by decide), fun hpair => hne '/' (by decide) (hpair.mem List.mem_cons_self)⟩

/-- A name is a single operand. -/
theorem tokenize_of_isName {name : Text} (h : isName name = true) :
    Operand.tokenize name = [name] := by
  have hlast := @Operand.tokenize_last_operand [] name [] (isWord_of_isName h) rfl rfl nofun
  rwa [List.nil_append, List.append_nil] at hlast

/-- A name that is written after operands is read as the last operand. -/
theorem parse_render_of_isName {name : Text} (h : isName name = true) {m : Text} {ops : List Text}
    (hne : m ≠ []) (hm : ∀ c ∈ m, isBlank c = false)
    (hops : ∀ t ∈ ops, Operand.IsOperand t ∧ Operand.Closed t) :
    Statement.parse (Statement.render ⟨m, ops ++ [name]⟩) = .ok ⟨lower m, ops ++ [name]⟩ := by
  refine Statement.parse_render hne hm ?_ ?_
  · rw [List.forall_mem_append]
    exact ⟨fun t ht => (hops t ht).1, List.forall_mem_singleton.mpr (isWord_of_isName h).isOperand⟩
  · rw [List.dropLast_concat]
    exact fun t ht => (hops t ht).2

end Label

/-! ## Undefined labels -/

/-- A failure reports a name as undefined. -/
def Failure.Misses (failure : Failure) (name : Text) : Prop :=
  ∃ d, failure = .diagnostic d ∧ d.kind = .undefinedLabel ∧
    d.reason = "Undefined label: ".toList ++ name

/-- Only names that are not in the table are reported as undefined in the second pass. -/
theorem misses_of_emit {settings : Settings} {labels : LabelTable} {entry : SourceLine × Nat}
    {d : Diagnostic} (h : emit settings labels entry = .error (.diagnostic d))
    (hkind : d.kind = .undefinedLabel) :
    ∃ name, labels.get? name = none ∧ (Failure.diagnostic d).Misses name := by
  rcases Result.bind_eq_error.mp h with hpatch | ⟨text, -, hencode⟩
  · obtain ⟨name, hnone, hfailure⟩ := patch_eq_error hpatch
    obtain rfl := Diagnostic.eq_of_failure_eq hfailure.symm
    exact ⟨name, hnone, _, rfl, rfl, rfl⟩
  · split at hencode
    · exact absurd hencode Result.pure_ne_error
    · rename_i cause hcause
      -- what the encoder reports is of another kind
      obtain ⟨reason, rfl⟩ := encode_eq_error hcause
      have hlocated := Except.error.inj hencode
      rw [locateFailure] at hlocated
      obtain rfl := Diagnostic.eq_of_failure_eq hlocated
      cases hkind

/-- No label is reported as undefined in the first pass. -/
theorem Layout.Refuses.kind_ne {l : Layout} {line : SourceLine} {name : Text} {d : Diagnostic}
    (h : l.Refuses line name (.diagnostic d)) : d.kind ≠ .undefinedLabel := by
  have hreports : ∀ kind, kind ≠ .undefinedLabel →
      (Failure.diagnostic d).Reports kind line l.nextIndex → d.kind ≠ .undefinedLabel := by
    rintro kind hkind ⟨other, hother, rfl, -⟩
    rwa [Diagnostic.eq_of_failure_eq hother.symm]
  rcases h with ⟨-, hsyntax⟩ | ⟨-, offset, -, hshort, hlong⟩
  · exact hreports .labelSyntax nofun hsyntax
  · cases hoffset : Numeral.tooLong offset with
    | false => exact hreports .duplicateLabel nofun (hshort hoffset)
    | true => cases hlong hoffset

/-- A program whose report is about an undefined label has clean lines and does not define it. -/
theorem undefined_of_assembleText {settings : Settings} {text : Text} {d : Diagnostic}
    (h : assembleText settings text = .error (.diagnostic d)) (hkind : d.kind = .undefinedLabel) :
    ∃ name, name ∉ (programLines settings text).flatMap SourceLine.labels ∧
      (Failure.diagnostic d).Misses name := by
  by_cases hclean : Clean (programLines settings text)
  · rw [assembleText_eq, firstPass_eq_none_iff.mpr ⟨hclean, rfl⟩] at h
    rcases Result.bind_eq_error.mp h with hsecond | ⟨emitted, -, hpure⟩
    · obtain ⟨-, entry, -, hemit, -⟩ := Result.mapM_eq_error hsecond
      obtain ⟨name, hnone, hmisses⟩ := misses_of_emit hemit hkind
      refine ⟨name, ?_, hmisses⟩
      rw [← names_labelsOf]
      exact lookup_eq_none_iff_not_mem.mp hnone
    · exact absurd hpure Result.pure_ne_error
  · obtain ⟨before, line, after, hlines, hbefore, hfirst⟩ := exists_first_not clean_nil hclean
    obtain ⟨l, failure, hpass, good, bad, -, -, -, hrefuses⟩ :=
      firstPass_of_first_not_clean hlines hbefore hfirst
    rw [assembleText_eq, hpass] at h
    obtain rfl := Except.error.inj h
    exact absurd hkind hrefuses.kind_ne

/-! ## Defined labels -/

/-- A label that a program with clean lines defines is in its table, four bytes for each instruction
on the lines before. -/
theorem get?_labelsOf {lines before after : List SourceLine} {defining : SourceLine} {name : Text}
    (hclean : Clean lines) (hlines : lines = before ++ defining :: after)
    (hname : name ∈ defining.labels) :
    (labelsOf lines).get? name = some (4 * (instructionsOf before).length) := by
  have hdistinct : (labelsOf lines).names.Nodup := by
    rw [names_labelsOf]
    exact hclean.2
  have hentry : (name, ((instructionsOf before).length : Int) * instructionWidth) ∈
      (labelsOf lines).entries :=
    Layout.mem_entries_ofLines.mpr ⟨before, defining, after, hlines, hname, rfl⟩
  rw [LabelTable.get?, lookup_of_mem hdistinct hentry, Int.mul_comm]
  rfl

namespace Label

/-- A program finds a name at an offset: the table has the offset, every branch or jump that ends
with the name is rewritten with the number which the offset stands for, and the name is not reported
as undefined. -/
structure Resolves (settings : Settings) (text name : Text) (offset : Int) : Prop where
  entry : ∀ layout, firstPass settings text = (layout, none) →
    layout.labels.get? name = some offset
  patched : ∀ layout, firstPass settings text = (layout, none) →
    ∀ (line : SourceLine) (index : Nat) (s : Statement), Statement.parse line.text = .ok s →
      Encode.takesLabel s.mnemonic s.operands.length = true → s.operands.getLast? = some name →
      patch settings layout.labels line index =
        .ok (s.retarget (branchTarget settings.branches (offsetOf index) offset)).render
  defined : ∀ failure, assembleText settings text = .error failure → ¬ failure.Misses name

/-- **Every label that can be defined can be referred to.**  What is split off a line as a label is
no number, a single operand and free of comments, and after other operands it is read as the last
one.  Every program in which the name stands before a colon finds it, at the offset of the
instruction that follows. -/
theorem referenceable {line : SourceLine} {index : Option Int} {name rest : Text}
    (h : split line index = .ok (some name, rest)) :
    Immediate.accepts name = false ∧ Operand.tokenize name = [name] ∧
    Source.stripComment name = name ∧
    (∀ (m : Text) (ops : List Text), m ≠ [] → (∀ c ∈ m, isBlank c = false) →
      (∀ t ∈ ops, Operand.IsOperand t ∧ Operand.Closed t) →
      Statement.parse (Statement.render ⟨m, ops ++ [name]⟩) = .ok ⟨lower m, ops ++ [name]⟩) ∧
    ∀ (settings : Settings) (text : Text) (before : List SourceLine) (defining : SourceLine)
      (after : List SourceLine), programLines settings text = before ++ defining :: after →
      name ∈ defining.labels →
      Resolves settings text name (4 * (instructionsOf before).length) := by
  have hname := isName_of_split h
  have hnumber := not_accepts_of_isName hname
  have hwhole := Source.stripComment_eq_self (uncommented_of_isName hname)
  refine ⟨hnumber, tokenize_of_isName hname, hwhole, fun m ops => parse_render_of_isName hname, ?_⟩
  intro settings text before defining after hlines hmem
  have hget : ∀ layout, firstPass settings text = (layout, none) →
      layout.labels.get? name = some (4 * (instructionsOf before).length : Int) := by
    intro layout hpass
    obtain ⟨hclean, rfl⟩ := firstPass_eq_none_iff.mp hpass
    exact get?_labelsOf hclean hlines hmem
  refine ⟨hget, ?_, ?_⟩
  · intro layout hpass line index s hparse htakes hlast
    have hlabel : labelOperand? s = some name :=
      labelOperand?_eq_some.mpr ⟨htakes, hlast, hnumber⟩
    exact patch_eq_ok_iff.mpr (.inr ⟨s, name, _, hparse, hlabel, hget layout hpass, rfl⟩)
  · rintro failure hfailure ⟨d, rfl, hkind, hreason⟩
    -- the reason tells the name, and the name that is reported is on no line
    obtain ⟨missing, hmissing, d', hd, -, hreason'⟩ := undefined_of_assembleText hfailure hkind
    cases hd
    obtain rfl : missing = name := List.append_cancel_left (hreason'.symm.trans hreason)
    rw [hlines] at hmissing
    exact hmissing (List.mem_flatMap.mpr ⟨defining, by simp, hmem⟩)

/-- A name that looks like a register after a point, defined beside another on the second line. -/
theorem referenceable_dotted :
    split ⟨2, ".x1$: a: beqz a0, .x1$".toList⟩ none =
      .ok (some ".x1$".toList, "a: beqz a0, .x1$".toList) ∧
    Immediate.accepts ".x1$".toList = false ∧
    Resolves { branches := .relative } "nop\n.x1$: a: beqz a0, .x1$".toList ".x1$".toList 4 := by
  have hsplit : split ⟨2, ".x1$: a: beqz a0, .x1$".toList⟩ none =
      .ok (some ".x1$".toList, "a: beqz a0, .x1$".toList) := by decide +kernel
  obtain ⟨hnumber, -, -, -, hresolves⟩ := referenceable hsplit
  exact ⟨hsplit, hnumber, hresolves { branches := .relative } _ [⟨1, "nop".toList⟩]
    ⟨2, ".x1$: a: beqz a0, .x1$".toList⟩ [] (by decide +kernel) (by decide +kernel)⟩

end Label

end RiscAsm

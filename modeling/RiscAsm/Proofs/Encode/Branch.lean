import RiscAsm.Proofs.Encode.Denotation

/-!
# Encoded branches and jumps

`Word.target?` reads the offset of a branch or a jump off a machine word.  Where the last operand of
a line is a place in the program (`Encode.takesLabel`), the word of the line is a branch or a jump,
and its offset is the number that is written there (`target?_of_encodeWord`).
-/

namespace RiscAsm

/-- The offset that a word of a branch or a jump holds, in two's complement. -/
def Word.target? (w : Nat) : Option Int :=
  if Word.opcode w = 0x63 then some (Word.immediateB w)
  else if Word.opcode w = 0x6F then some (Word.immediateJ w)
  else none

/-- Instructions with an offset from a place in the program. -/
def Instruction.Branches (instr : Instruction) : Prop := instr.format = .b ∨ instr.format = .j

instance (instr : Instruction) : Decidable instr.Branches := inferInstanceAs (Decidable (_ ∨ _))

/-- A template that passes the last of `count` operands on as the offset of a branch or a jump. -/
def Pseudo.Expansion.Branches (count : Nat) : Pseudo.Expansion → Prop
  | .template target arity slots =>
    arity = count ∧ slots.getLast? = some (.operand (count - 1)) ∧
      ∃ instr ∈ Instruction.table.lookup target, instr.Branches
  | .loadImmediate => False

instance (count : Nat) : (e : Pseudo.Expansion) → Decidable (e.Branches count)
  | .template .. => inferInstanceAs (Decidable (_ ∧ _ ∧ _))
  | .loadImmediate => inferInstanceAs (Decidable False)

/-- A mnemonic as it is written in the tables: not empty, ASCII, and without blanks. -/
def IsMnemonic (m : Text) : Prop := m ≠ [] ∧ ∀ c ∈ m, c.toNat < 128 ∧ isBlank c = false

instance (m : Text) : Decidable (IsMnemonic m) :=
  @instDecidableAnd _ _ inferInstance (List.decidableBAll _ m)

/-- The pseudo-instructions for jumps are templates of branches and jumps. -/
theorem Pseudo.jumps_branch : ∀ jump ∈ Pseudo.jumps, IsMnemonic jump.1 ∧
    ∃ e ∈ Pseudo.table.lookup jump.1, e.Branches jump.2 := by decide +kernel

/-- Branches and jumps are no pseudo-instructions, and no memory ordering is split off them. -/
theorem Instruction.table_branches : ∀ row ∈ Instruction.table, row.2.Branches →
    IsMnemonic row.1 ∧ row.1 ≠ "jalr".toList ∧ Pseudo.isPseudo row.1 = false ∧
      Encode.splitOrdering row.1 = (row.1, 0) := by decide +kernel

namespace Encode

/-! ## Places that take labels -/

/-- A mnemonic in lower case that takes a label is a pseudo-instruction for a jump, or a branch or a
jump of the table. -/
theorem takesLabel_cases {m : Text} {count : Nat} (hm : ∀ c ∈ m, IsLowered c)
    (h : takesLabel m count = true) :
    lower m = m ∧ IsMnemonic m ∧ ((m, count) ∈ Pseudo.jumps ∨
      ∃ instr, Instruction.table.lookup m = some instr ∧ instr.Branches) := by
  unfold takesLabel labelCounts at h
  cases hjump : Pseudo.jumps.lookup (lower m) with
  | some arity =>
      have hmem := mem_of_lookup hjump
      have hname := (Pseudo.jumps_branch _ hmem).1
      have hlower : lower m = m := lower_eq_self_of_ascii hm fun c hc => (hname.2 c hc).1
      rw [hlower] at hmem hname
      simp only [hjump, List.any_cons, List.any_nil, Bool.or_false, beq_iff_eq] at h
      obtain rfl : arity = count := by omega
      exact ⟨hlower, hname, .inl hmem⟩
  | none =>
      simp only [hjump] at h
      cases hfind : Instruction.find? m with
      | none => simp [hfind] at h
      | some instr =>
          obtain ⟨hmem, hlower⟩ := Instruction.find?_eq_some hm hfind
          have hbranches : instr.Branches := by
            rw [hfind, Option.map_some] at h
            unfold Instruction.Branches
            split at h
            · rename_i hformat
              exact .inl (Option.some.inj hformat)
            · rename_i hformat
              exact .inr (Option.some.inj hformat)
            · simp at h
          rw [Instruction.find?, hlower] at hfind
          exact ⟨hlower, (Instruction.table_branches _ hmem hbranches).1,
            .inr ⟨instr, hfind, hbranches⟩⟩

/-- The instruction that a line with a place in the program stands for is a branch or a jump, with
the same place as its last operand. -/
theorem real_of_takesLabel {s r : Statement} {last : Text} (hs : ∀ c ∈ s.mnemonic, IsLowered c)
    (htakes : takesLabel s.mnemonic s.operands.length = true)
    (hlast : s.operands.getLast? = some last) (h : Pseudo.real s = .ok r) :
    r.operands.getLast? = some last ∧
      ∃ instr, Instruction.table.lookup r.mnemonic = some instr ∧ instr.Branches := by
  obtain ⟨hlower, -, hjump | ⟨instr, hrow, hbranches⟩⟩ := takesLabel_cases hs htakes
  · -- a pseudo-instruction for a jump
    obtain ⟨-, e, he, hbranches⟩ := Pseudo.jumps_branch _ hjump
    cases e with
    | loadImmediate => exact absurd hbranches id
    | template target arity slots =>
        obtain ⟨harity, hslots, instr, hinstr, hformat⟩ := hbranches
        have hpseudo : Pseudo.isPseudo s.mnemonic = true := by
          rw [Pseudo.isPseudo, Pseudo.find?, hlower, Option.mem_def.mp he, Option.isSome_some]
        rw [Pseudo.real, if_pos hpseudo, Pseudo.expand] at h
        simp only [hlower, Option.mem_def.mp he, harity] at h
        obtain rfl := Except.ok.inj h
        refine ⟨?_, instr, hinstr, hformat⟩
        rw [List.getLast?_map, hslots, Option.map_some, Pseudo.fill, List.getD_eq_getElem?_getD,
          ← List.getLast?_eq_getElem?, hlast, Option.getD_some]
  · -- an instruction of the table
    obtain ⟨-, hjalr, hpseudo, -⟩ := Instruction.table_branches _ (mem_of_lookup hrow) hbranches
    rw [Pseudo.real, if_neg (by simp [hpseudo])] at h
    obtain rfl := Except.ok.inj h
    unfold Pseudo.expandShort
    split
    · rename_i target htarget
      rw [htarget] at hlast
      split
      · exact ⟨hlast, instr, hrow, hbranches⟩
      · rw [htarget]
        exact ⟨hlast, instr, hrow, hbranches⟩
    · exact ⟨hlast, instr, hrow, hbranches⟩

/-! ## Offsets -/

theorem eq_branch_of_format? {form : Form} (h : form.format? = some .b) : form = .branch := by
  cases form with
  | branch => rfl
  | _ => cases h

theorem eq_jump_of_format? {form : Form} (h : form.format? = some .j) : form = .jump := by
  cases form with
  | jump => rfl
  | _ => cases h

/-- The form of the operands of a branch or a jump. -/
theorem formOf_of_branches {m : Text} {instr : Instruction} (hs : Instruction.Sound m instr)
    (hbranches : instr.Branches) : formOf m instr = .branch ∨ formOf m instr = .jump := by
  rcases hbranches with hb | hj
  · exact .inl (eq_branch_of_format? (hs.format.trans (congrArg some hb)))
  · exact .inr (eq_jump_of_format? (hs.format.trans (congrArg some hj)))

/-- Their last operand is a number. -/
theorem eq_number_of_branches {m : Text} {instr : Instruction} {roles : List Role} {role : Role}
    {count : Nat} (hs : Instruction.Sound m instr) (hbranches : instr.Branches)
    (h : (formOf m instr).shape? instr count = some (roles ++ [role])) : role = .number := by
  have hmem := Form.mem_shapes h
  rcases formOf_of_branches hs hbranches with hform | hform
  · rw [hform] at hmem
    simpa using congrArg List.getLast? (List.mem_singleton.mp hmem)
  · rw [hform] at hmem
    simpa using congrArg List.getLast? (List.mem_singleton.mp hmem)

/-- They have no rounding mode. -/
theorem rounds_of_branches {m : Text} {instr : Instruction} (hs : Instruction.Sound m instr)
    (hbranches : instr.Branches) : (formOf m instr).rounds = false := by
  rcases formOf_of_branches hs hbranches with hform | hform
  · rw [hform]
    rfl
  · rw [hform]
    rfl

/-- The operands of a branch or a jump end with its offset. -/
theorem imm_of_readOperands {m last : Text} {instr : Instruction} {operands : List Text}
    {f : Fields} (hs : Instruction.Sound m instr) (hbranches : instr.Branches)
    (hlast : operands.getLast? = some last) (h : readOperands m instr operands = .ok f) :
    Immediate.parse last = .ok f.imm := by
  obtain ⟨before, rfl⟩ := List.getLast?_eq_some_iff.mp hlast
  obtain ⟨roles, role, g, v, hshape, -, hv, rfl⟩ :=
    (readOperands_concat hs (rounds_of_branches hs hbranches)).mp h
  obtain rfl := eq_number_of_branches hs hbranches hshape
  obtain ⟨imm, himm, hv⟩ := Result.bind_eq_ok.mp hv
  rw [Result.pure_eq_ok] at hv
  subst hv
  exact himm

/-- The offset of a branch or a jump is read off its word. -/
theorem target?_of_carries {w : Nat} {instr : Instruction} {d : Denotation}
    (hs : Instruction.Sound d.mnemonic instr) (hbranches : instr.Branches)
    (h : Instruction.Carries w instr d) : Word.target? w = some d.fields.imm := by
  have hopcode := h.fixed.opcode
  have hfields := h.fields
  rcases hbranches with hb | hj
  · rw [hs.branch hb] at hopcode
    rw [Instruction.canonical_of_ne_u hs (by simp [hb])] at hfields
    rw [← hfields, Word.target?, if_pos (by omega)]
    simp only [Instruction.unpack, hb]
  · rw [hs.jump hj] at hopcode
    rw [Instruction.canonical_of_ne_u hs (by simp [hj])] at hfields
    rw [← hfields, Word.target?, if_neg (by omega), if_pos (by omega)]
    simp only [Instruction.unpack, hj]

/-- The instruction that a line with a place in the program stands for, once it is read. -/
theorem Reads.of_takesLabel {s r : Statement} {last : Text} {instr : Instruction} {d : Denotation}
    (hreads : Reads r instr d) (hs : ∀ c ∈ s.mnemonic, IsLowered c)
    (htakes : takesLabel s.mnemonic s.operands.length = true)
    (hlast : s.operands.getLast? = some last) (hreal : Pseudo.real s = .ok r) :
    r.operands.getLast? = some last ∧ instr.Branches := by
  obtain ⟨hlast', instr', hrow, hbranches⟩ := real_of_takesLabel hs htakes hlast hreal
  obtain ⟨-, -, -, hplain⟩ := Instruction.table_branches _ (mem_of_lookup hrow) hbranches
  have hname : r.mnemonic = d.mnemonic := (Prod.mk.inj (hplain.symm.trans hreads.split)).1
  rw [hname] at hrow
  obtain rfl := Option.some.inj (hrow.symm.trans hreads.row)
  exact ⟨hlast', hbranches⟩

/-- The word of a line with a place in the program is a branch or a jump to the number that is
written there. -/
theorem target?_of_encodeWord {p : Profile} {line last : Text} {s : Statement} {w : Nat}
    (hparse : Statement.parse line = .ok s)
    (htakes : takesLabel s.mnemonic s.operands.length = true)
    (hlast : s.operands.getLast? = some last) (h : encodeWord p line = .ok w) :
    ∃ v, Immediate.parse last = .ok v ∧ Word.target? w = some v := by
  have hs := (Statement.parse_yields line).ok hparse
  obtain ⟨s', hs', h⟩ := Result.bind_eq_ok.mp h
  obtain rfl := Except.ok.inj (hparse.symm.trans hs')
  obtain ⟨r, hreal, hword⟩ := Result.bind_eq_ok.mp h
  obtain ⟨instr, d, hreads, hcarries⟩ :=
    (encodeReal_yields p ((Pseudo.real_yields hs).ok hreal)).ok hword
  obtain ⟨hlast', hbranches⟩ := hreads.of_takesLabel hs htakes hlast hreal
  have hsound := Instruction.sound_of_mem (mem_of_lookup hreads.row)
  exact ⟨d.fields.imm, imm_of_readOperands hsound hbranches hlast' hreads.operands,
    target?_of_carries hsound hbranches hcarries⟩

end Encode

end RiscAsm

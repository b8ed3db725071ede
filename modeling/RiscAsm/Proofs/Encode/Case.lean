import RiscAsm.Proofs.Encode.Expansion
import RiscAsm.Proofs.Operand.Case

/-!
# Encoding up to the case of letters

Every operand goes through one of the readers: as a register, a number, a memory operand, a set of
accesses, a control and status register or a rounding mode.  A change of operands that none of them
sees (`Unseen`) does not change what an instruction reads (`Unseen.readOperands`), nor its word
(`Unseen.encodeReal`).  Making capitals small is such a change (`unseen_foldCase`), and expansions
keep it (`Pseudo.toOption_real_foldOperands`); so lines that differ only in the case of letters are
encoded alike (`encode_sameLetters`).
-/

namespace RiscAsm

open Result (toOption_bind_congr toOption_bind_map)
open Text (foldCase foldCase_trim lower_foldCase)

/-- A loop has the same result when each of its rounds has. -/
theorem Result.toOption_foldlM_congr {ε α β : Type} {f g : α → β → Except ε α}
    (h : ∀ a b, (f a b).toOption = (g a b).toOption) (a : α) (l : List β) :
    (l.foldlM f a).toOption = (l.foldlM g a).toOption := by
  induction l generalizing a with
  | nil => rfl
  | cons b l ih =>
      rw [List.foldlM_cons, List.foldlM_cons]
      exact toOption_bind_congr (h a b) ih

namespace Encode

/-! ## Changes that no reader sees -/

/-- A change of operands that no reader sees. -/
structure Unseen (change : Text → Text) : Prop where
  register : ∀ (file : RegisterFile) (s : Text),
    (file.parse (change s)).toOption = (file.parse s).toOption
  immediate : ∀ s, (Immediate.parse (change s)).toOption = (Immediate.parse s).toOption
  /-- Of a memory operand the register is changed alike. -/
  memory : ∀ s, (Operand.parseMemory (change s)).toOption =
    (Operand.parseMemory s).toOption.map fun memory => ⟨memory.offset, change memory.register⟩
  accesses : ∀ s, (fenceSet (change s)).toOption = (fenceSet s).toOption
  status : ∀ s, (csrNumber (change s)).toOption = (csrNumber s).toOption
  rounding : ∀ s, Instruction.roundingModes.lookup (lower (change s)) =
    Instruction.roundingModes.lookup (lower s)

namespace Unseen

variable {change : Text → Text} (h : Unseen change)

include h

theorem integerRegister (s : Text) :
    (Encode.integerRegister (change s)).toOption = (Encode.integerRegister s).toOption :=
  toOption_bind_congr (h.register .integer s) fun _ => rfl

theorem atomicAddress (m s : Text) :
    (Encode.atomicAddress m (change s)).toOption = (Encode.atomicAddress m s).toOption := by
  refine toOption_bind_map (h.memory s) fun memory _ => ?_
  simp only
  split
  · rfl
  · exact h.integerRegister memory.register

theorem splitRounding (instr : Instruction) (operands : List Text) (count : Nat) :
    (Encode.splitRounding instr (operands.map change) count).toOption =
      (Encode.splitRounding instr operands count).toOption.map fun found =>
        (found.1.map change, found.2) := by
  unfold Encode.splitRounding
  rw [List.length_map]
  split
  · rfl
  · next hroom =>
      -- there is a last operand, which is read as the rounding mode
      have hne : operands ≠ [] := by
        rintro rfl
        simp at hroom
      have hlast : (operands.map change).getLastD [] = change (operands.getLastD []) := by
        rw [List.getLastD_eq_getLast?, List.getLastD_eq_getLast?, List.getLast?_map,
          List.getLast?_eq_some_getLast hne]
        rfl
      simp only [hlast, h.rounding]
      cases Instruction.roundingModes.lookup (lower (operands.getLastD [])) with
      | none => rfl
      | some mode => simp [Except.toOption, List.map_dropLast]

/-- The same is read in every role. -/
theorem read (m s : Text) (role : Role) :
    (role.read m (change s)).toOption = (role.read m s).toOption := by
  cases role with
  | register file field => exact toOption_bind_congr (h.register file s) fun _ => rfl
  | number | constant => exact toOption_bind_congr (h.immediate s) fun _ => rfl
  | status => exact toOption_bind_congr (h.status s) fun _ => rfl
  | before | after => exact toOption_bind_congr (h.accesses s) fun _ => rfl
  | address =>
      -- the base register of an address is read after the address
      refine toOption_bind_map (h.memory s) fun memory _ => ?_
      exact toOption_bind_congr (h.integerRegister memory.register) fun _ => rfl
  | base => exact toOption_bind_congr (h.atomicAddress m s) fun _ => rfl

theorem readRoles (m : Text) (roles : List Role) (operands : List Text) (f : Fields) :
    (Encode.readRoles m roles (operands.map change) f).toOption =
      (Encode.readRoles m roles operands f).toOption := by
  induction roles generalizing operands f with
  | nil => rfl
  | cons role roles ih =>
      cases operands with
      | nil => rfl
      | cons s operands => exact toOption_bind_congr (h.read m s role) fun v => ih operands _

theorem split (instr : Instruction) (operands : List Text) (form : Form) :
    (form.split instr (operands.map change)).toOption =
      (form.split instr operands).toOption.map fun found => (found.1.map change, found.2) := by
  cases form with
  | fused => exact h.splitRounding instr operands 4
  | floating => exact h.splitRounding instr operands instr.files.length
  | _ => rfl

/-- **Readers**: operands that are changed without a reader seeing it are read as the same fields.
-/
theorem readOperands {m : Text} {instr : Instruction} (hs : Instruction.Sound m instr)
    (operands : List Text) :
    (Encode.readOperands m instr (operands.map change)).toOption =
      (Encode.readOperands m instr operands).toOption := by
  rw [readOperands_eq hs, readOperands_eq hs]
  refine toOption_bind_map (h.split instr operands (formOf m instr)) fun found _ => ?_
  unfold Form.readIn
  rw [List.length_map]
  cases (formOf m instr).shape? instr found.1.length with
  | none => rfl
  | some roles => exact h.readRoles m roles found.1 _

/-- A real instruction has the same word. -/
theorem encodeReal (p : Profile) {s : Statement} (hs : ∀ c ∈ s.mnemonic, IsLowered c) :
    (Encode.encodeReal p { s with operands := s.operands.map change }).toOption =
      (Encode.encodeReal p s).toOption := by
  unfold Encode.encodeReal
  cases hfind : Instruction.find? (splitOrdering s.mnemonic).1 with
  | none => simp only [hfind]
  | some instr =>
      have hrow := (Instruction.find?_eq_some (splitOrdering_spec hs rfl).1 hfind).1
      simp only [hfind]
      split
      · rfl
      · exact toOption_bind_congr (h.readOperands (Instruction.sound_of_mem hrow) s.operands)
          fun _ => rfl

end Unseen

/-- No reader sees the case of letters. -/
theorem unseen_foldCase : Unseen foldCase where
  register := RegisterFile.toOption_parse_foldCase
  immediate := Immediate.toOption_parse_foldCase
  memory := Operand.toOption_parseMemory_foldCase
  accesses := by
    intro s
    rw [fenceSet, fenceSet, lower_foldCase]
    apply Result.toOption_foldlM_congr
    intro mask c
    split <;> rfl
  status := by
    intro s
    rw [csrNumber, csrNumber, ← foldCase_trim, lower_foldCase]
    cases Instruction.csrNames.lookup (lower (Text.trim s)) with
    | none => exact Immediate.toOption_parse_foldCase s
    | some number => rfl
  rounding := by
    intro s
    rw [lower_foldCase]

end Encode

/-! ## Expansions -/

namespace Pseudo

/-- A slot whose text, if it is fixed, has no capitals. -/
def Slot.Plain : Slot → Prop
  | .fixed content => IsPlain content
  | .operand _ => True

instance : (slot : Slot) → Decidable slot.Plain
  | .fixed content => inferInstanceAs (Decidable (IsPlain content))
  | .operand _ => inferInstanceAs (Decidable True)

/-- An expansion whose fixed texts have no capitals. -/
def Expansion.Plain : Expansion → Prop
  | .template _ _ slots => ∀ slot ∈ slots, slot.Plain
  | .loadImmediate => True

instance : (e : Expansion) → Decidable e.Plain
  | .template _ _ slots => inferInstanceAs (Decidable (∀ slot ∈ slots, slot.Plain))
  | .loadImmediate => inferInstanceAs (Decidable True)

theorem table_plain : ∀ entry ∈ table, entry.2.Plain := by decide +kernel

/-- Folded operands fill the slots with folded texts. -/
theorem fill_foldCase (operands : List Text) {slot : Slot} (h : slot.Plain) :
    fill (operands.map foldCase) slot = foldCase (fill operands slot) := by
  cases slot with
  | fixed content => exact (Text.foldCase_eq_self h).symm
  | operand number =>
      rw [fill, fill, List.getD_eq_getElem?_getD, List.getD_eq_getElem?_getD, List.getElem?_map]
      cases operands[number]? with
      | none => rfl
      | some operand => rfl

/-- Written integers have no capitals. -/
theorem foldCase_ofInt (n : Int) : foldCase (Numeral.ofInt n) = Numeral.ofInt n := by
  apply Text.foldCase_eq_self
  intro c hc
  rcases Numeral.mem_ofInt hc with rfl | hdigit
  · decide
  · obtain ⟨hleast, hgreatest⟩ := Numeral.toNat_of_isDigit hdigit
    omega

theorem toOption_expandLoadImmediate_foldCase (name : Text) (operands : List Text) :
    (expandLoadImmediate name (operands.map foldCase)).toOption =
      (expandLoadImmediate name operands).toOption.map Statement.foldOperands := by
  rcases operands with _ | ⟨rd, _ | ⟨constant, _ | ⟨c, rest⟩⟩⟩
  · rfl
  · rfl
  · have hconstant := Immediate.toOption_parse_foldCase constant
    show (expandLoadImmediate name [foldCase rd, foldCase constant]).toOption = _
    rw [expandLoadImmediate, expandLoadImmediate]
    rcases Result.toOption_cases hconstant with ⟨value, hx, hy⟩ | ⟨fault, fault', hx, hy⟩
    · rw [hx, hy]
      show (if -2048 ≤ value ∧ value ≤ 2047 then _ else _ : Except Fault Statement).toOption =
        Option.map _
          (if -2048 ≤ value ∧ value ≤ 2047 then _ else _ : Except Fault Statement).toOption
      split
      · show some (Statement.mk _ [foldCase rd, "x0".toList, Numeral.ofInt value]) =
          some (Statement.mk _ [foldCase rd, foldCase "x0".toList, foldCase (Numeral.ofInt value)])
        rw [foldCase_ofInt]
        rfl
      · rfl
    · rw [hx, hy]
      rfl
  · rfl

theorem toOption_expand_foldCase (m : Text) (operands : List Text) :
    (expand m (operands.map foldCase)).toOption =
      (expand m operands).toOption.map Statement.foldOperands := by
  unfold expand
  cases hlookup : table.lookup (lower m) with
  | none => simp only [hlookup]; rfl
  | some expansion =>
      have hplain := table_plain _ (mem_of_lookup hlookup)
      cases expansion with
      | loadImmediate =>
          simp only [hlookup]
          exact toOption_expandLoadImmediate_foldCase (lower m) operands
      | template target arity slots =>
          have hslots : slots.map (fill (operands.map foldCase)) =
              (slots.map (fill operands)).map foldCase := by
            rw [List.map_map]
            exact List.map_congr_left fun slot hslot => fill_foldCase operands (hplain slot hslot)
          simp only [hlookup, List.length_map, hslots]
          split
          · rfl
          · rfl

/-- Short forms are completed alike. -/
theorem expandShort_foldOperands (s : Statement) :
    expandShort s.foldOperands = (expandShort s).foldOperands := by
  obtain ⟨m, operands⟩ := s
  rcases operands with _ | ⟨target, _ | ⟨c, rest⟩⟩
  · rfl
  · show (if m = "jal".toList then Statement.mk m ["ra".toList, foldCase target]
      else if m = "jalr".toList then ⟨m, ["ra".toList, foldCase target, "0".toList]⟩
      else ⟨m, [foldCase target]⟩) =
        (if m = "jal".toList then Statement.mk m ["ra".toList, target]
          else if m = "jalr".toList then ⟨m, ["ra".toList, target, "0".toList]⟩
          else ⟨m, [target]⟩).foldOperands
    split
    · rfl
    · split
      · rfl
      · rfl
  · rfl

/-- A folded statement stands for the folded real instruction. -/
theorem toOption_real_foldOperands (s : Statement) :
    (real s.foldOperands).toOption = (real s).toOption.map Statement.foldOperands := by
  unfold real
  show (if isPseudo s.mnemonic then expand s.mnemonic (s.operands.map foldCase)
    else .ok (expandShort s.foldOperands)).toOption = _
  split
  · exact toOption_expand_foldCase s.mnemonic s.operands
  · rw [expandShort_foldOperands]
    rfl

end Pseudo

namespace Encode

/-- A folded line has the word of the line. -/
theorem toOption_encodeWord_foldCase (p : Profile) (line : Text) :
    (encodeWord p (foldCase line)).toOption = (encodeWord p line).toOption := by
  rw [encodeWord, encodeWord, Statement.parse_foldCase]
  cases hparse : Statement.parse line with
  | error fault => rfl
  | ok s =>
      show (Pseudo.real s.foldOperands >>= encodeReal p).toOption =
        (Pseudo.real s >>= encodeReal p).toOption
      refine toOption_bind_map (Pseudo.toOption_real_foldOperands s) fun r hreal => ?_
      exact unseen_foldCase.encodeReal p
        ((Pseudo.real_yields ((Statement.parse_yields line).ok hparse)).ok hreal)

/-- **Letter case**: lines that differ only in the case of letters are encoded alike. -/
theorem encode_sameLetters (p : Profile) {line line' : Text} (h : Text.SameLetters line line') :
    SameOutcome p line line' := by
  have hsame : (encodeWord p line).toOption = (encodeWord p line').toOption := by
    rw [← toOption_encodeWord_foldCase, h, toOption_encodeWord_foldCase]
  apply sameOutcome_of_iff
  intro w
  rw [← Result.toOption_eq_some, hsame, Result.toOption_eq_some]

/-- Case does not matter in mnemonics and their orderings, registers, radix marks and hexadecimal
digits, control and status registers, rounding modes and sets of accesses. -/
theorem encode_sameLetters_mixed :
    (encode .auto "amoadd.w.aqrl a0, t1, 0x0(sp)".toList = .ok 0x0661252F ∧
      SameOutcome .auto "AmoAdd.W.AqRl A0, T1, 0X0(Sp)".toList
        "amoadd.w.aqrl a0, t1, 0x0(sp)".toList) ∧
      SameOutcome .auto "CSRRW A0, MStatus, T0".toList "csrrw a0, mstatus, t0".toList ∧
      SameOutcome .auto "addi a0, a0, 0X7Ff".toList "ADDI A0, A0, 0x7fF".toList ∧
      SameOutcome .auto "FADD.s fa0, FA1, fa2, Rtz".toList "fadd.S Fa0, fa1, FA2, rTZ".toList ∧
      SameOutcome .auto "fence RW, w".toList "FENCE rw, W".toList ∧
      SameOutcome .auto "li A0, 0xG".toList "LI a0, 0Xg".toList :=
  ⟨⟨by decide +kernel, encode_sameLetters .auto (by decide)⟩, encode_sameLetters .auto (by decide),
    encode_sameLetters .auto (by decide), encode_sameLetters .auto (by decide),
    encode_sameLetters .auto (by decide), encode_sameLetters .auto (by decide)⟩

end Encode

end RiscAsm

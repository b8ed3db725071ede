import RiscAsm.Proofs.Encode.Roles
import RiscAsm.Proofs.Instruction.Decode

/-!
# Theory of reading operands

Reading the operands of an instruction of the table gives fields that suit the instruction
(`readOperands_yields`): the fields before any operand is read do, and every role leaves them so
(`suits_put`).  Packing such fields never lacks a code (`pack_yields`).  Both are stated with
`Yields`, which says of a step what its result is like and that it does not fail for want of a field
in the description of the instruction.
-/

namespace RiscAsm

/-- The result of a step, if it has one, has the property `P`, and the step does not fail for a
missing field. -/
abbrev Yields {α : Type} (P : α → Prop) (x : Except Fault α) : Prop :=
  Result.Meets Fault.missingField P x

/-! ## Checks -/

/-- Mentioning numbers does not make a field missing. -/
theorem mentioning_ne_missingField {numbers : List Int} {f : Fault} (h : f ≠ .missingField) :
    Fault.mentioning numbers f ≠ .missingField := by
  rw [Fault.mentioning]
  split
  · simp
  · exact h

theorem needed_yields {field : Option Int} (h : field.isSome = true) :
    Yields (fun value => field = some value) (needed field) := by
  obtain ⟨value, rfl⟩ := Option.isSome_iff_exists.mp h
  rfl

/-- A range check lets values of the range pass. -/
theorem checkRange_yields {field : Text} {bits value least greatest : Int} {isSigned : Bool}
    (hrange : fieldRange? bits isSigned = some (least, greatest)) :
    Yields (fun _ => least ≤ value ∧ value ≤ greatest) (checkRange field bits isSigned value) := by
  rw [checkRange, hrange]
  simp only
  split
  · assumption
  · exact mentioning_ne_missingField (by simp)

theorem checkEven_yields {use : OffsetUse} {offset : Int} :
    Yields (fun _ => True) (Instruction.checkEven use offset) := by
  rw [Instruction.checkEven]
  split
  · trivial
  · exact mentioning_ne_missingField (by simp)

/-! ## Packing -/

namespace Instruction

open Encode (formOf)

variable {m : Text} {instr : Instruction} {f : Fields}

theorem packIField_yields {d s field : Int} (h : instr.funct3.isSome = true) :
    Yields (fun _ => True) (instr.packIField d s field) :=
  (needed_yields h).bind fun _ _ _ => trivial

theorem packINumber_yields {d s imm : Int} (h : instr.funct3.isSome = true) :
    Yields (fun _ => True) (instr.packINumber d s imm) :=
  (checkRange_yields rfl).bind fun _ _ _ => packIField_yields h

/-- Packing fields that suit an instruction never lacks a code, and the word holds the fields. -/
theorem pack_yields {shiftBits : Int} (hs : Sound m instr) (hf : Suits m instr f)
    (hlower : lower m = m) (hbits : shiftBits = 5 ∨ shiftBits = 6) :
    Yields (Packed m instr f) (instr.pack m shiftBits f) := by
  refine Result.Meets.of_ok (P := fun _ => True) ?_ fun w hw =>
    packed_of_pack hs hf hlower hbits hw
  -- only a code can be missing, and a sound description has those that its format asks for
  rw [pack]
  cases hformat : instr.format with
  | r =>
      have hor : (f.funct3.or instr.funct3).isSome = true := by
        rw [Option.isSome_or, Bool.or_eq_true, hf.rounds]
        exact (hs.funct3_or_rounds hformat).symm
      refine (needed_yields hor).bind fun _ _ _ => ?_
      exact (needed_yields (hs.funct7_some (.inl hformat))).bind fun _ _ _ => trivial
  | r4 =>
      have hrounds : f.funct3.isSome = true := hf.rounds.trans (hs.rounds hformat)
      refine (needed_yields hrounds).bind fun _ _ _ => ?_
      exact (needed_yields (hs.funct7_some (.inr (.inl hformat)))).bind fun _ _ _ => trivial
  | i =>
      have hsome := hs.funct3_some (.inl hformat)
      show Yields _ (instr.packI m shiftBits f)
      rw [packI, hlower]
      split
      · exact packINumber_yields hsome
      · rename_i huse
        refine (checkRange_yields (fieldRange?_shiftBits hbits)).bind fun _ _ _ => ?_
        refine (needed_yields (hs.funct7_some (.inr (.inr huse)))).bind fun _ _ _ => ?_
        exact packIField_yields hsome
      · exact (checkRange_yields rfl).bind fun _ _ _ => packIField_yields hsome
      · exact packINumber_yields hsome
  | s =>
      have hsome := hs.funct3_some (.inr (.inl hformat))
      refine (checkRange_yields rfl).bind fun _ _ _ => ?_
      exact (needed_yields hsome).bind fun _ _ _ => trivial
  | b =>
      have hsome := hs.funct3_some (.inr (.inr hformat))
      refine checkEven_yields.bind fun _ _ _ => ?_
      refine (checkRange_yields rfl).bind fun _ _ _ => ?_
      exact (needed_yields hsome).bind fun _ _ _ => trivial
  | u =>
      show Yields _ (instr.packU f)
      rw [packU]
      cases decide (f.imm < 0) with
      | false => exact (checkRange_yields rfl).bind fun _ _ _ => trivial
      | true => exact (checkRange_yields rfl).bind fun _ _ _ => trivial
  | j =>
      refine checkEven_yields.bind fun _ _ _ => ?_
      exact (checkRange_yields rfl).bind fun _ _ _ => trivial
  | unknown name => exact Fault.noConfusion

end Instruction

/-! ## Readers -/

theorem Immediate.parse_yields (s : Text) : Yields (fun _ => True) (Immediate.parse s) := by
  rw [Immediate.parse]
  split
  · exact Fault.noConfusion
  · simp only
    split
    · trivial
    · exact Fault.noConfusion
  · split
    · trivial
    · exact Fault.noConfusion

/-- The names of both register files stand for the numbers below 32. -/
theorem RegisterFile.lt_of_mem_names :
    ∀ file : RegisterFile, ∀ entry ∈ file.names, entry.2 < 32 := by
  intro file
  cases file with
  | integer => decide +kernel
  | float => decide +kernel

theorem RegisterFile.parse_yields (file : RegisterFile) (name : Text) :
    Yields (fun n => n < 32) (file.parse name) := by
  unfold RegisterFile.parse
  cases hfind : file.find? name with
  | some n => exact lt_of_mem_names file _ (mem_of_lookup hfind)
  | none =>
      cases file with
      | integer => exact Fault.noConfusion
      | float => exact Fault.noConfusion

theorem Operand.parseMemory_yields (s : Text) : Yields (fun _ => True) (Operand.parseMemory s) := by
  rw [Operand.parseMemory]
  split
  · exact Fault.noConfusion
  · rename_i offsetText register _
    have hoffset : Yields (fun _ => True) (Operand.parseOffset offsetText) := by
      rw [Operand.parseOffset]
      split
      · trivial
      · exact Immediate.parse_yields offsetText
    refine hoffset.bind fun offset _ _ => ?_
    split
    · trivial
    · exact Fault.noConfusion

namespace Encode

open Instruction (Sound Suits rs2_eq_none)
open Word (Fits)

/-- The number of a register fits into its field. -/
theorem fits_of_lt {n : Nat} (h : n < 32) : Fits 5 n := by
  simp only [Fits, Word.span, Nat.pow_eq, Nat.reducePow]
  omega

theorem integerRegister_yields (name : Text) : Yields (Fits 5) (integerRegister name) :=
  (RegisterFile.parse_yields .integer name).bind fun _ _ hn => fits_of_lt hn

theorem fenceSet_yields (s : Text) : Yields (fun _ => True) (fenceSet s) := by
  unfold fenceSet
  refine Result.Meets.foldlM ?_ trivial (lower s)
  intro mask c _
  split
  all_goals first | trivial | exact Fault.noConfusion

theorem csrNumber_yields (s : Text) : Yields (fun _ => True) (csrNumber s) := by
  rw [csrNumber]
  split
  · trivial
  · exact Immediate.parse_yields s

theorem atomicAddress_yields (m address : Text) : Yields (Fits 5) (atomicAddress m address) := by
  refine (Operand.parseMemory_yields address).bind fun memory _ _ => ?_
  split
  · exact mentioning_ne_missingField (by simp)
  · exact integerRegister_yields memory.register

/-- The rounding mode in the place of a free function code, or the function code. -/
theorem splitRounding_yields {m : Text} {instr : Instruction} (hs : Sound m instr)
    (operands : List Text) (count : Nat) :
    Yields (fun found => Fits 3 (found.2.getD Instruction.dynamicRounding) ∧
        ∀ code ∈ instr.funct3, found.2.getD Instruction.dynamicRounding = code)
      (splitRounding instr operands count) := by
  rw [splitRounding]
  split
  · cases hcode : instr.funct3 with
    | none => exact ⟨(by decide : Fits 3 Instruction.dynamicRounding), by simp⟩
    | some code => exact ⟨hs.funct3_fits code hcode, by simp⟩
  · rename_i hfree
    simp only [Bool.or_eq_true, not_or, Bool.not_eq_true, Option.isSome_eq_false_iff,
      Option.isNone_iff_eq_none] at hfree
    simp only
    split
    · rename_i mode hmode
      refine ⟨?_, by simp [hfree.1]⟩
      have hfits : ∀ entry ∈ Instruction.roundingModes, Fits 3 entry.2 := by decide
      exact hfits _ (mem_of_lookup hmode)
    · exact Fault.noConfusion

/-! ## Operands -/

/-- System instructions have no operands. -/
theorem formOf_of_system {m : Text} {instr : Instruction} {value : Int}
    (h : ImmediateUse.of m = .system value) : formOf m instr = .none := by
  rw [formOf, Instruction.of_eq_system.mp h]
  rfl

/-- The zero register fits. -/
theorem fits_zero : Fits 5 0 := by decide

/-- The fields before any operand is read suit an instruction without rounding. -/
theorem suits_default {m : Text} {instr : Instruction} (hs : Sound m instr)
    (hrounds : (formOf m instr).rounds = false) : Suits m instr {} where
  only := by cases instr.format <;> rfl
  rd := fits_zero
  rs1 := fits_zero
  rs2 := fits_zero
  rs3 := fits_zero
  rounds := hrounds.symm
  rounding := by simp
  source := by
    rw [rs2_eq_none hs (by intro hform; rw [hform] at hrounds; cases hrounds)]
    simp
  system := fun _ _ => rfl

/-- So do the fields with a rounding mode, for an instruction that rounds. -/
theorem suits_rounding {m : Text} {instr : Instruction} (hs : Sound m instr)
    (hrounds : (formOf m instr).rounds = true) {c : Int}
    (hc : Fits 3 c ∧ ∀ code ∈ instr.funct3, c = code) :
    Suits m instr { rs2 := instr.rs2.getD 0, funct3 := some c } where
  only := by
    have hformat := hs.format
    cases hform : formOf m instr with
    | fused | floating =>
        rw [hform] at hformat
        rw [← Option.some.inj hformat]
        rfl
    | _ =>
        rw [hform] at hrounds
        cases hrounds
  rd := fits_zero
  rs1 := fits_zero
  rs2 := by
    cases hcode : instr.rs2 with
    | none => exact fits_zero
    | some code => exact hs.rs2_fits code hcode
  rs3 := fits_zero
  rounds := hrounds.symm
  rounding := by
    rintro mode ⟨⟩
    exact hc
  source := by
    intro code hcode
    rw [Option.mem_def.mp hcode]
    rfl
  system := by
    intro value huse
    rw [formOf_of_system huse] at hrounds
    cases hrounds

/-- The formats that have room for what a role gives. -/
def Role.room : Role → List Format
  | .register _ .rd => [.r, .r4, .i, .u, .j]
  | .register _ .rs1 | .constant | .base => [.r, .r4, .i, .s, .b]
  | .register _ .rs2 => [.r, .r4, .s, .b]
  | .register _ .rs3 => [.r4]
  | .address => [.i, .s, .b]
  | .number | .status | .before | .after => [.i, .s, .b, .u, .j]

/-- What a role gives is in fields that the format has room for. -/
theorem Role.only_put (role : Role) (v : Int × Int) (f : Fields) :
    ∀ format ∈ role.room, f.only format = f → (role.put v f).only format = role.put v f := by
  intro format hformat hf
  rw [← hf]
  revert format
  cases role with
  | register file field => cases field <;> simp [room, put, RegisterField.put, Fields.only]
  | _ => simp [room, put, Fields.only]

/-- An instruction has room for a role: its format has, and neither its second source nor all of
its fields are fixed. -/
@[mk_iff]
structure Role.Within (m : Text) (instr : Instruction) (role : Role) : Prop where
  room : instr.format ∈ role.room
  source : ∀ file, role = .register file .rs2 → instr.rs2 = none
  form : formOf m instr ≠ .none

/-- An instruction has room for the roles of its operands. -/
theorem within_of_mem_shapes {m : Text} {instr : Instruction} (hs : Sound m instr) :
    ∀ roles ∈ (formOf m instr).shapes instr, ∀ role ∈ roles, role.Within m instr := by
  have hformat := hs.format
  have hfree := rs2_eq_none hs
  simp only [Role.within_iff]
  cases hform : formOf m instr with
  | none | other => simp [Form.shapes]
  | csr constant =>
      rw [hform, Form.format?, Option.some.injEq] at hformat
      cases constant <;>
        simp [Form.shapes, Form.shapes.integer, Form.shapes.source, Role.room, ← hformat]
  | floating =>
      rw [hform, Form.format?, Option.some.injEq] at hformat
      by_cases hcount : instr.files.length = 3
      · simp [Form.shapes, Form.shapes.slot, Role.room, hcount, ← hformat, hfree]
      · simp [Form.shapes, Form.shapes.slot, Role.room, hcount, ← hformat]
  | _ =>
      rw [hform, Form.format?, Option.some.injEq] at hformat
      have hnone := hfree (by simp [hform])
      simp [Form.shapes, Form.shapes.integer, Form.shapes.slot, Role.room, ← hformat, hnone]

/-- Fields that suit an instruction still do when one more operand is read. -/
theorem suits_put {m : Text} {instr : Instruction} {f : Fields} {role : Role} {v : Int × Int}
    (hrole : role.Within m instr) (hv : Fits 5 v.1) (hf : Suits m instr f) :
    Suits m instr (role.put v f) := by
  have honly := role.only_put v f _ hrole.room hf.only
  have hsystem : ∀ value, ImmediateUse.of m = .system value → role.put v f = {} :=
    fun _ huse => absurd (formOf_of_system huse) hrole.form
  obtain ⟨-, hrd, hrs1, hrs2, hrs3, hrounds, hrounding, hsource, -⟩ := hf
  cases role with
  | register file field =>
      cases field with
      | rd => exact ⟨honly, hv, hrs1, hrs2, hrs3, hrounds, hrounding, hsource, hsystem⟩
      | rs1 => exact ⟨honly, hrd, hv, hrs2, hrs3, hrounds, hrounding, hsource, hsystem⟩
      | rs2 =>
          have hfree : ∀ code ∈ instr.rs2, v.1 = code := by
            rw [hrole.source file rfl]
            simp
          exact ⟨honly, hrd, hrs1, hv, hrs3, hrounds, hrounding, hfree, hsystem⟩
      | rs3 => exact ⟨honly, hrd, hrs1, hrs2, hv, hrounds, hrounding, hsource, hsystem⟩
  | constant | address | base =>
      exact ⟨honly, hrd, hv, hrs2, hrs3, hrounds, hrounding, hsource, hsystem⟩
  | number | status | before | after =>
      exact ⟨honly, hrd, hrs1, hrs2, hrs3, hrounds, hrounding, hsource, hsystem⟩

/-- What an operand is read as fits into the field of a register. -/
theorem Role.read_yields (m s : Text) (role : Role) :
    Yields (fun v => Fits 5 v.1) (role.read m s) := by
  cases role with
  | register file field =>
      exact (RegisterFile.parse_yields file s).bind fun _ _ hn => fits_of_lt hn
  | number => exact (Immediate.parse_yields s).bind fun _ _ _ => fits_zero
  | constant =>
      refine (Immediate.parse_yields s).bind fun n _ _ => ?_
      exact (checkRange_yields rfl).bind fun _ _ hn => ⟨hn.1, Int.lt_add_one_of_le hn.2⟩
  | status => exact (csrNumber_yields s).bind fun _ _ _ => fits_zero
  | before | after => exact (fenceSet_yields s).bind fun _ _ _ => fits_zero
  | address =>
      refine (Operand.parseMemory_yields s).bind fun memory _ _ => ?_
      exact (integerRegister_yields memory.register).bind fun _ _ hn => hn
  | base => exact (atomicAddress_yields m s).bind fun _ _ hn => hn

/-- Reading operands in their roles keeps fields that suit an instruction. -/
theorem readRoles_yields {m : Text} {instr : Instruction} {roles : List Role}
    (hroles : ∀ role ∈ roles, role.Within m instr) (operands : List Text) {f : Fields}
    (hf : Suits m instr f) :
    Yields (Suits m instr) (readRoles m roles operands f) := by
  induction roles generalizing operands f with
  | nil => exact hf
  | cons role roles ih =>
      obtain ⟨hrole, hroles⟩ := List.forall_mem_cons.mp hroles
      cases operands with
      | nil => exact hf
      | cons s operands =>
          refine (role.read_yields m s).bind fun v _ hv => ?_
          exact ih hroles operands (suits_put hrole hv hf)

/-- The fields before any operand is read suit their instruction. -/
theorem split_yields {m : Text} {instr : Instruction} (hs : Sound m instr) (operands : List Text) :
    Yields (fun found => Suits m instr ((formOf m instr).start instr found.2))
      ((formOf m instr).split instr operands) := by
  cases hform : formOf m instr with
  | fused =>
      have hmode := splitRounding_yields hs operands 4
      exact hmode.of_ok fun found h => suits_rounding hs (by rw [hform]; rfl) (hmode.ok h)
  | floating =>
      have hmode := splitRounding_yields hs operands instr.files.length
      exact hmode.of_ok fun found h => suits_rounding hs (by rw [hform]; rfl) (hmode.ok h)
  | fence =>
      -- a fence without operands orders all accesses
      have hformat := hs.format
      rw [hform, Form.format?, Option.some.injEq] at hformat
      have hnumber : Role.Within m instr .number :=
        ⟨by simp [Role.room, ← hformat], by simp, by simp [hform]⟩
      exact suits_put (v := (0, 0xFF)) hnumber fits_zero (suits_default hs (by rw [hform]; rfl))
  | _ => exact suits_default hs (by rw [hform]; rfl)

/-- The operands of an instruction of the table give fields that suit it. -/
theorem readOperands_yields {m : Text} {instr : Instruction} (hs : Sound m instr)
    (operands : List Text) : Yields (Suits m instr) (readOperands m instr operands) := by
  rw [readOperands_eq hs]
  refine (split_yields hs operands).bind fun found _ hstart => ?_
  unfold Form.readIn
  split
  · rename_i roles hshape
    exact readRoles_yields (within_of_mem_shapes hs roles (Form.mem_shapes hshape)) _ hstart
  · exact Fault.noConfusion

end Encode

end RiscAsm

import RiscAsm.Proofs.Instruction.Table
import RiscAsm.Proofs.Result

/-!
# Roles of operands

Every operand of an instruction has a role (`Role`): it is read as a register, a number, an address
or the like, and what is read goes into certain fields.  A form of operands says which roles its
operands have, for each number of operands that it takes (`Form.shapes`).  Reading the operands of
an instruction is reading each of them in its role (`readOperands_eq`), so what holds of every role
holds of all instructions.
-/

namespace RiscAsm

namespace Encode

open Instruction (Sound)

/-! ## Roles -/

/-- The fields for registers. -/
inductive RegisterField where
  | rd | rs1 | rs2 | rs3
  deriving DecidableEq, Repr

/-- What an operand is read as. -/
inductive Role where
  | register (file : RegisterFile) (field : RegisterField)
  | number
  /-- A constant in place of the first source register. -/
  | constant
  /-- A control and status register. -/
  | status
  /-- The accesses before a fence. -/
  | before
  /-- The accesses after a fence. -/
  | after
  /-- An offset and a base register. -/
  | address
  /-- A base register without an offset. -/
  | base
  deriving DecidableEq, Repr

/-- The value for a register field and the value for the immediate that are read from an operand;
the one that its role does not have is zero. -/
def Role.read (m s : Text) : Role → Except Fault (Int × Int)
  | .register file _ => do
    let n ← file.parse s
    return (n, 0)
  | .number => do
    let imm ← Immediate.parse s
    return (0, imm)
  | .constant => do
    let n ← Immediate.parse s
    checkRange "CSR immediate".toList 5 false n
    return (n, 0)
  | .status => do
    let number ← csrNumber s
    return (0, number)
  | .before | .after => do
    let mask ← fenceSet s
    return (0, mask)
  | .address => do
    let memory ← Operand.parseMemory s
    let n ← integerRegister memory.register
    return (n, memory.offset)
  | .base => do
    let n ← atomicAddress m s
    return (n, 0)

/-- The fields with a number in the field for a register. -/
def RegisterField.put (n : Int) (f : Fields) : RegisterField → Fields
  | .rd => { f with rd := n }
  | .rs1 => { f with rs1 := n }
  | .rs2 => { f with rs2 := n }
  | .rs3 => { f with rs3 := n }

/-- The fields with what was read from an operand. -/
def Role.put (v : Int × Int) (f : Fields) : Role → Fields
  | .register _ field => field.put v.1 f
  | .number | .status => { f with imm := v.2 }
  | .constant | .base => { f with rs1 := v.1 }
  | .before => { f with imm := (v.2.toNat <<< 4 : Nat) }
  | .after => { f with imm := (f.imm.toNat ||| v.2.toNat : Nat) }
  | .address => { f with rs1 := v.1, imm := v.2 }

/-- Reads operands in their roles, one after the other. -/
def readRoles (m : Text) : List Role → List Text → Fields → Except Fault Fields
  | role :: roles, s :: operands, f => do
    let v ← role.read m s
    readRoles m roles operands (role.put v f)
  | _, _, f => .ok f

/-- The operand after others is read last. -/
theorem readRoles_append {m s : Text} {role : Role} {roles : List Role} {operands : List Text}
    (hlength : roles.length = operands.length) (f : Fields) :
    readRoles m (roles ++ [role]) (operands ++ [s]) f = readRoles m roles operands f >>= fun f =>
      role.read m s >>= fun v => .ok (role.put v f) := by
  induction roles generalizing operands f with
  | nil =>
      obtain rfl := List.length_eq_zero_iff.mp hlength.symm
      rfl
  | cons first roles ih =>
      obtain ⟨t, operands, rfl⟩ := List.exists_of_length_succ operands hlength.symm
      simp only [List.cons_append, readRoles, bind_assoc]
      congr 1
      funext v
      exact ih (by simpa using hlength) _

/-! ## Forms -/

/-- The roles of the operands of a form, for each number of operands that it takes. -/
def Form.shapes (instr : Instruction) : Form → List (List Role)
  | .none => [[]]
  | .fence => [[], [.before, .after]]
  | .csr constant => [[integer .rd, .status, source constant]]
  | .loadReserved => [[integer .rd, .base]]
  | .atomic => [[integer .rd, integer .rs2, .base]]
  | .fused => [[slot 0 .rd, slot 1 .rs1, slot 2 .rs2, slot 3 .rs3]]
  | .floating =>
    if instr.files.length = 3 then [[slot 0 .rd, slot 1 .rs1, slot 2 .rs2]]
    else [[slot 0 .rd, slot 1 .rs1]]
  | .registers => [[integer .rd, integer .rs1, integer .rs2]]
  | .load => [[slot 0 .rd, .address]]
  | .jumpRegister => [[integer .rd, .address], [integer .rd, integer .rs1, .number]]
  | .immediate => [[integer .rd, integer .rs1, .number]]
  | .store => [[slot 0 .rs2, .address]]
  | .branch => [[integer .rs1, integer .rs2, .number]]
  | .upper | .jump => [[integer .rd, .number]]
  | .other => []
where
  integer (field : RegisterField) : Role := .register .integer field
  source : Bool → Role
    | false => integer .rs1
    | true => .constant
  slot (position : Nat) (field : RegisterField) : Role := .register (instr.fileOf position) field

/-- The roles of so many operands of a form. -/
def Form.shape? (instr : Instruction) (form : Form) (count : Nat) : Option (List Role) :=
  (form.shapes instr).find? fun roles => roles.length == count

theorem Form.mem_shapes {instr : Instruction} {form : Form} {count : Nat} {roles : List Role}
    (h : form.shape? instr count = some roles) : roles ∈ form.shapes instr :=
  List.mem_of_find?_eq_some h

theorem Form.length_shape {instr : Instruction} {form : Form} {count : Nat} {roles : List Role}
    (h : form.shape? instr count = some roles) : roles.length = count := by
  simpa using List.find?_some h

/-- Takes a rounding mode off the operands of a form that has room for one. -/
def Form.split (instr : Instruction) (operands : List Text) :
    Form → Except Fault (List Text × Option Int)
  | .fused => splitRounding instr operands 4
  | .floating => splitRounding instr operands instr.files.length
  | _ => .ok (operands, Option.none)

/-- The fields before any operand is read. -/
def Form.start (instr : Instruction) (rounding : Option Int) : Form → Fields
  | .fence => { imm := 0xFF }
  | .fused | .floating =>
    { rs2 := instr.rs2.getD 0, funct3 := some (rounding.getD Instruction.dynamicRounding) }
  | _ => {}

/-- How many operands a form asks for when it is given another number, and their names. -/
def Form.expected (instr : Instruction) : Form → Nat × String
  | .none => (0, "none")
  | .fence => (2, "pred, succ")
  | .csr _ => (3, "rd, csr, source")
  | .loadReserved => (2, "rd, (rs1)")
  | .atomic => (3, "rd, rs2, (rs1)")
  | .fused => (4, "rd, rs1, rs2, rs3")
  | .floating =>
    (instr.files.length, if instr.files.length = 3 then "rd, rs1, rs2" else "rd, rs1")
  | .registers => (3, "rd, rs1, rs2")
  | .load => (2, "rd, offset(rs1)")
  | .jumpRegister | .immediate => (3, "rd, rs1, imm")
  | .store => (2, "rs2, offset(rs1)")
  | .branch => (3, "rs1, rs2, offset")
  | .upper => (2, "rd, imm")
  | .jump => (2, "rd, offset")
  | .other => (0, "")

/-- Reads operands in the roles that a form gives to so many of them. -/
def Form.readIn (m : Text) (instr : Instruction) (form : Form) (operands : List Text)
    (rounding : Option Int) : Except Fault Fields :=
  match form.shape? instr operands.length with
  | some roles => readRoles m roles operands (form.start instr rounding)
  | Option.none =>
    .error (.operandCount m (form.expected instr).1 (form.expected instr).2.toList operands.length)

/-! ## Form by form

The numbers of operands that a form does not take are refused in both ways of reading; for those
that it takes, both are the same sequence of readers. -/

section

variable {m : Text} {instr : Instruction}

/-- Reading the operands of an instruction of a form is reading each in its role. -/
def Form.ReadsInRoles (m : Text) (instr : Instruction) (form : Form) : Prop :=
  ∀ operands, readOperands m instr operands =
    form.split instr operands >>= fun found => form.readIn m instr found.1 found.2

theorem readsInRoles_none (hform : formOf m instr = .none) : Form.none.ReadsInRoles m instr := by
  intro operands
  unfold readOperands
  rw [hform]
  rcases operands with _ | ⟨_, _⟩
  · rfl
  · rfl

theorem readsInRoles_fence (hform : formOf m instr = .fence) : Form.fence.ReadsInRoles m instr := by
  intro operands
  unfold readOperands
  rw [hform]
  rcases operands with _ | ⟨before, _ | ⟨after, _ | ⟨_, _⟩⟩⟩
  · rfl
  · rfl
  · show _ = readRoles m [.before, .after] [before, after] _
    simp only [readRoles, Role.read, bind_assoc, pure_bind]
    rfl
  · rfl

/-- The forms with two operands. -/
theorem readsInRoles_pair {form : Form} (hform : formOf m instr = form)
    (hpair : form ∈ [.loadReserved, .load, .store, .upper, .jump]) :
    form.ReadsInRoles m instr := by
  intro operands
  unfold readOperands
  rw [hform]
  simp only [List.mem_cons, List.not_mem_nil, or_false] at hpair
  rcases hpair with rfl | rfl | rfl | rfl | rfl
  all_goals
    rcases operands with _ | ⟨first, _ | ⟨second, _ | ⟨_, _⟩⟩⟩
    · rfl
    · rfl
    · show _ = readRoles m _ [first, second] _
      simp only [readRoles, Form.shapes.integer, Form.shapes.slot, Role.read, registerAt,
        integerRegister, bind_assoc, pure_bind]
      rfl
    · rfl

/-- The forms with three operands, of which none is a status register. -/
theorem readsInRoles_triple {form : Form} (hform : formOf m instr = form)
    (htriple : form ∈ [.atomic, .registers, .immediate, .branch]) :
    form.ReadsInRoles m instr := by
  intro operands
  unfold readOperands
  rw [hform]
  simp only [List.mem_cons, List.not_mem_nil, or_false] at htriple
  rcases htriple with rfl | rfl | rfl | rfl
  all_goals
    rcases operands with _ | ⟨first, _ | ⟨second, _ | ⟨third, _ | ⟨_, _⟩⟩⟩⟩
    · rfl
    · rfl
    · rfl
    · show _ = readRoles m _ [first, second, third] _
      simp only [readRoles, Form.shapes.integer, Role.read, integerRegister, bind_assoc, pure_bind]
      rfl
    · rfl

theorem readsInRoles_csr {constant : Bool} (hform : formOf m instr = .csr constant) :
    (Form.csr constant).ReadsInRoles m instr := by
  intro operands
  unfold readOperands
  rw [hform]
  rcases operands with _ | ⟨first, _ | ⟨second, _ | ⟨third, _ | ⟨_, _⟩⟩⟩⟩
  · rfl
  · rfl
  · rfl
  · show _ = readRoles m _ [first, second, third] _
    cases constant with
    | false =>
        simp only [readRoles, Form.shapes.integer, Form.shapes.source, Role.read, integerRegister,
          bind_assoc, pure_bind, Bool.false_eq_true, if_false]
        rfl
    | true =>
        simp only [readRoles, Form.shapes.integer, Form.shapes.source, Role.read, integerRegister,
          bind_assoc, pure_bind, if_true]
        rfl
  · rfl

/-- The jump to a register takes an address, or a base register and an offset. -/
theorem readsInRoles_jumpRegister (hform : formOf m instr = .jumpRegister) :
    Form.jumpRegister.ReadsInRoles m instr := by
  intro operands
  unfold readOperands
  rw [hform]
  rcases operands with _ | ⟨first, _ | ⟨second, _ | ⟨third, _ | ⟨_, _⟩⟩⟩⟩
  · rfl
  · rfl
  · show _ = readRoles m _ [first, second] _
    simp only [readRoles, Form.shapes.integer, Role.read, integerRegister, bind_assoc, pure_bind]
    rfl
  · show _ = readRoles m _ [first, second, third] _
    simp only [readRoles, Form.shapes.integer, Role.read, integerRegister, bind_assoc, pure_bind]
    rfl
  · rfl

theorem readsInRoles_fused (hform : formOf m instr = .fused) : Form.fused.ReadsInRoles m instr := by
  intro operands
  unfold readOperands
  rw [hform]
  refine bind_congr fun ⟨rest, rounding⟩ => ?_
  rcases rest with _ | ⟨first, _ | ⟨second, _ | ⟨third, _ | ⟨fourth, _ | ⟨_, _⟩⟩⟩⟩⟩
  · rfl
  · rfl
  · rfl
  · rfl
  · show _ = readRoles m _ [first, second, third, fourth] _
    simp only [readRoles, Form.shapes.slot, Role.read, registerAt, bind_assoc, pure_bind]
    rfl
  · rfl

/-- A floating-point operation has two sources, or one and a fixed code in place of the other. -/
theorem readsInRoles_floating (hs : Sound m instr) (hform : formOf m instr = .floating) :
    Form.floating.ReadsInRoles m instr := by
  intro operands
  unfold readOperands
  rw [hform]
  refine bind_congr fun ⟨rest, rounding⟩ => ?_
  by_cases hcount : instr.files.length = 3
  · simp only [Form.readIn, Form.shape?, Form.shapes, Form.expected, if_pos hcount]
    rcases rest with _ | ⟨first, _ | ⟨second, _ | ⟨third, _ | ⟨_, _⟩⟩⟩⟩
    · rfl
    · rfl
    · rfl
    · show _ = readRoles m _ [first, second, third] _
      simp only [readRoles, Form.shapes.slot, Role.read, registerAt, bind_assoc, pure_bind]
      rfl
    · rfl
  · simp only [Form.readIn, Form.shape?, Form.shapes, Form.expected, if_neg hcount]
    rcases rest with _ | ⟨first, _ | ⟨second, _ | ⟨_, _⟩⟩⟩
    · rfl
    · rfl
    · obtain ⟨code, hcode⟩ := Option.isSome_iff_exists.mp (hs.rs2_some.mpr ⟨hform, hcount⟩)
      show _ = readRoles m _ [first, second] _
      simp only [readRoles, Form.shapes.slot, Role.read, Form.start, registerAt, needed, hcode,
        bind_assoc, pure_bind]
      rfl
    · rfl

end

/-- **Operands are read in their roles**: a rounding mode is taken off, and the other operands have
the roles that the form gives to so many of them. -/
theorem readOperands_eq {m : Text} {instr : Instruction} (hs : Sound m instr)
    (operands : List Text) :
    readOperands m instr operands =
      (formOf m instr).split instr operands >>= fun found =>
        (formOf m instr).readIn m instr found.1 found.2 := by
  cases hform : formOf m instr with
  | none => exact readsInRoles_none hform operands
  | fence => exact readsInRoles_fence hform operands
  | csr constant => exact readsInRoles_csr hform operands
  | loadReserved | load | store | upper | jump => exact readsInRoles_pair hform (by decide) operands
  | atomic | registers | immediate | branch => exact readsInRoles_triple hform (by decide) operands
  | jumpRegister => exact readsInRoles_jumpRegister hform operands
  | fused => exact readsInRoles_fused hform operands
  | floating => exact readsInRoles_floating hs hform operands
  | other =>
      have hformat := hs.format
      rw [hform] at hformat
      cases hformat

/-- Operands are read when there are roles for so many of them and each is read in its role. -/
theorem readOperands_eq_ok_iff {m : Text} {instr : Instruction} (hs : Sound m instr)
    {operands : List Text} {f : Fields} :
    readOperands m instr operands = .ok f ↔
      ∃ found roles, (formOf m instr).split instr operands = .ok found ∧
        (formOf m instr).shape? instr found.1.length = some roles ∧
        readRoles m roles found.1 ((formOf m instr).start instr found.2) = .ok f := by
  rw [readOperands_eq hs, Result.bind_eq_ok]
  refine exists_congr fun found => ?_
  unfold Form.readIn
  cases (formOf m instr).shape? instr found.1.length with
  | none => simp
  | some roles => simp

/-- No operand is taken off as a rounding mode where the form has none. -/
theorem Form.split_of_not_rounds {form : Form} (h : form.rounds = false) (instr : Instruction)
    (operands : List Text) : form.split instr operands = .ok (operands, Option.none) := by
  cases form with
  | fused | floating => cases h
  | _ => rfl

/-- **The last operand** of a form without rounding has the last of the roles, and it is read after
all others. -/
theorem readOperands_concat {m s : Text} {instr : Instruction} {before : List Text} {f : Fields}
    (hs : Sound m instr) (hrounds : (formOf m instr).rounds = false) :
    readOperands m instr (before ++ [s]) = .ok f ↔
      ∃ roles role g v, (formOf m instr).shape? instr (before.length + 1) = some (roles ++ [role]) ∧
        readRoles m roles before ((formOf m instr).start instr none) = .ok g ∧
        role.read m s = .ok v ∧ role.put v g = f := by
  simp only [readOperands_eq_ok_iff hs, Form.split_of_not_rounds hrounds]
  constructor
  · rintro ⟨found, roles, hfound, hshape, hread⟩
    obtain rfl := Except.ok.inj hfound
    have hlength := Form.length_shape hshape
    rw [List.length_append, List.length_singleton] at hshape hlength
    obtain rfl | ⟨roles, role, rfl⟩ := List.eq_nil_or_concat roles
    · cases hlength
    rw [List.concat_eq_append] at hshape hread hlength
    rw [readRoles_append (by simpa using hlength)] at hread
    obtain ⟨g, hg, hread⟩ := Result.bind_eq_ok.mp hread
    obtain ⟨v, hv, hput⟩ := Result.bind_eq_ok.mp hread
    exact ⟨roles, role, g, v, hshape, hg, hv, Except.ok.inj hput⟩
  · rintro ⟨roles, role, g, v, hshape, hg, hv, rfl⟩
    have hlength := Form.length_shape hshape
    refine ⟨_, roles ++ [role], rfl, by simpa using hshape, ?_⟩
    rw [readRoles_append (by simpa using hlength), hg]
    show (role.read m s >>= fun v => .ok (role.put v g)) = _
    rw [hv]
    rfl

end Encode

end RiscAsm

import RiscAsm.Proofs.Encode.Branch
import RiscAsm.Proofs.Instruction.Codes
import RiscAsm.Proofs.Operand.Address

/-!
# Instructions printed and encoded

The operands of an instruction are printed in the order that its codes ask for: registers by their
numbers, immediates in decimal, and the rounding modes, memory orderings and sets of accesses by
their names (`Arguments`).  What is printed is read back (`Arguments.readOperands_print`) and has
its word, whose fields stand where the instruction manual has them (`encode_print`).
-/

namespace RiscAsm

open Encode (readOperands splitOrdering shiftBits)

/-! ## Printed operands -/

/-- A set of memory accesses that is not empty. -/
structure AccessSet where
  input : Bool
  output : Bool
  read : Bool
  write : Bool
  nonempty : (input || output || read || write) = true

namespace AccessSet

/-- The letters of the accesses in a set. -/
def letters (s : AccessSet) : Text :=
  (if s.input then ['i'] else []) ++ (if s.output then ['o'] else []) ++
    (if s.read then ['r'] else []) ++ (if s.write then ['w'] else [])

/-- The bits of the accesses in a set. -/
def mask (s : AccessSet) : Nat :=
  s.input.toNat * 8 + s.output.toNat * 4 + s.read.toNat * 2 + s.write.toNat

theorem mask_le (s : AccessSet) : s.mask ≤ 15 := by
  have hinput := s.input.toNat_le
  have houtput := s.output.toNat_le
  have hread := s.read.toNat_le
  have hwrite := s.write.toNat_le
  rw [mask]
  omega

end AccessSet

/-- A control and status register, as it is written: by its number or by its name. -/
inductive Csr where
  | numbered (number : Fin 4096)
  | named (entry : Text × Int) (mem : entry ∈ Instruction.csrNames)

namespace Csr

/-- How the register is written. -/
def text : Csr → Text
  | numbered number => Numeral.ofInt number.val
  | named entry _ => entry.1

/-- The number of the register. -/
def value : Csr → Int
  | numbered number => number.val
  | named entry _ => entry.2

/-- There are 4096 numbers for control and status registers. -/
theorem value_bounds (status : Csr) : 0 ≤ status.value ∧ status.value ≤ 4095 := by
  cases status with
  | numbered number =>
      have hlt := number.isLt
      show 0 ≤ (number.val : Int) ∧ (number.val : Int) ≤ 4095
      omega
  | named entry hmem =>
      have hnames : ∀ entry ∈ Instruction.csrNames, 0 ≤ entry.2 ∧ entry.2 ≤ 4095 := by
        decide +kernel
      exact hnames entry hmem

end Csr

/-- What an operand can say. -/
inductive Piece where
  | register (file : RegisterFile) (n : Fin 32)
  | number (n : Int)
  | address (offset : Option Int) (base : Fin 32)
  | accesses (set : AccessSet)
  | csr (status : Csr)
  | rounding (mode : {mode : Text × Int // mode ∈ Instruction.roundingModes})

/-- How an operand is written. -/
def Piece.text : Piece → Text
  | .register file n => file.numbered n
  | .number n => Numeral.ofInt n
  | .address offset base =>
    Operand.address ((offset.map Numeral.ofInt).getD []) (RegisterFile.integer.numbered base)
  | .accesses set => set.letters
  | .csr status => status.text
  | .rounding mode => mode.val.1

/-- Everything that the operands and the endings of an instruction can say.  What an instruction has
no room for is not printed. -/
structure Arguments where
  rd : Fin 32 := 0
  rs1 : Fin 32 := 0
  rs2 : Fin 32 := 0
  rs3 : Fin 32 := 0
  imm : Int := 0
  csr : Csr := .numbered 0
  /-- A rounding mode, unless the one that is set while the program runs is meant. -/
  rounding : Option {mode : Text × Int // mode ∈ Instruction.roundingModes} := none
  /-- A memory ordering, if one is asked for. -/
  ordering : Option {ending : Text × Nat // ending ∈ Instruction.orderings} := none
  /-- The accesses before and after a fence, unless all are meant. -/
  accesses : Option (AccessSet × AccessSet) := none
  /-- Whether the target of a jump to a register is written as an address. -/
  asAddress : Bool := true

namespace Arguments

/-- The ending for a memory ordering, with its code. -/
def ending (a : Arguments) (instr : Instruction) : Text × Nat :=
  if instr.isAtomic then (a.ordering.map Subtype.val).getD ([], 0) else ([], 0)

/-- The operand for a rounding mode, where there is room for one. -/
def roundingPieces (a : Arguments) (instr : Instruction) : List Piece :=
  if instr.funct3 = none then a.rounding.toList.map .rounding else []

/-- The rounding mode, or the function code in its place. -/
def roundingCode (a : Arguments) (instr : Instruction) : Int :=
  instr.funct3.getD ((a.rounding.map fun mode => mode.val.2).getD 0b111)

/-- The operands of an instruction in order. -/
def pieces (a : Arguments) (instr : Instruction) : List Piece :=
  let x (n : Fin 32) : Piece := .register .integer n
  let slot (position : Nat) (n : Fin 32) : Piece := .register (instr.fileOf position) n
  match instr.formByCode with
  | .none | .other => []
  | .fence =>
    match a.accesses with
    | none => []
    | some (before, after) => [.accesses before, .accesses after]
  | .csr constant => [x a.rd, .csr a.csr, if constant then .number a.rs1.val else x a.rs1]
  | .loadReserved => [x a.rd, .address none a.rs1]
  | .atomic => [x a.rd, x a.rs2, .address none a.rs1]
  | .fused => [slot 0 a.rd, slot 1 a.rs1, slot 2 a.rs2, slot 3 a.rs3] ++ a.roundingPieces instr
  | .floating =>
    (if instr.files.length = 3 then [slot 0 a.rd, slot 1 a.rs1, slot 2 a.rs2]
      else [slot 0 a.rd, slot 1 a.rs1]) ++ a.roundingPieces instr
  | .registers => [x a.rd, x a.rs1, x a.rs2]
  | .load => [slot 0 a.rd, .address (some a.imm) a.rs1]
  | .jumpRegister =>
    if a.asAddress then [x a.rd, .address (some a.imm) a.rs1] else [x a.rd, x a.rs1, .number a.imm]
  | .immediate => [x a.rd, x a.rs1, .number a.imm]
  | .store => [slot 0 a.rs2, .address (some a.imm) a.rs1]
  | .branch => [x a.rs1, x a.rs2, .number a.imm]
  | .upper | .jump => [x a.rd, .number a.imm]

/-- The operands as they are written. -/
def operands (a : Arguments) (instr : Instruction) : List Text := (a.pieces instr).map Piece.text

/-- The operand fields that the operands of an instruction stand for. -/
def fields (a : Arguments) (instr : Instruction) : Fields :=
  match instr.formByCode with
  | .none | .other => {}
  | .fence =>
    { imm := (a.accesses.map fun (before, after) => before.mask * 16 + after.mask).getD 255 }
  | .csr _ => { rd := a.rd.val, rs1 := a.rs1.val, imm := a.csr.value }
  | .loadReserved => { rd := a.rd.val, rs1 := a.rs1.val }
  | .atomic | .registers => { rd := a.rd.val, rs1 := a.rs1.val, rs2 := a.rs2.val }
  | .fused =>
    { rd := a.rd.val, rs1 := a.rs1.val, rs2 := a.rs2.val, rs3 := a.rs3.val,
      funct3 := some (a.roundingCode instr) }
  | .floating =>
    { rd := a.rd.val, rs1 := a.rs1.val, rs2 := instr.rs2.getD a.rs2.val,
      funct3 := some (a.roundingCode instr) }
  | .load | .jumpRegister | .immediate => { rd := a.rd.val, rs1 := a.rs1.val, imm := a.imm }
  | .store | .branch => { rs1 := a.rs1.val, rs2 := a.rs2.val, imm := a.imm }
  | .upper | .jump => { rd := a.rd.val, imm := a.imm }

/-- An instruction with its operands as a line. -/
def print (a : Arguments) (m : Text) (instr : Instruction) : Text :=
  Statement.render ⟨m ++ (a.ending instr).1, a.operands instr⟩

end Arguments

/-! ## Printed lines are read back -/

/-- An ending is taken off a mnemonic if it is the only one that can be. -/
theorem Encode.splitOrdering_append {m : Text} {instr : Instruction} {ending : Text × Nat}
    (hfind : Instruction.find? m = some instr) (hroom : instr.isAtomic = true ∨ ending = ([], 0))
    (hending : ending ∈ ([], 0) :: Instruction.orderings)
    (hdrop : ∀ e ∈ Instruction.orderings,
      Text.dropEnding? e.1 (m ++ ending.1) = if e = ending then some m else none) :
    splitOrdering (m ++ ending.1) = (m, ending.2) := by
  unfold splitOrdering
  simp only
  rcases List.mem_cons.mp hending with rfl | hmem
  · -- without an ending there is nothing to take off
    have hnone : ∀ e ∈ Instruction.orderings, e ≠ ([], 0) := by decide
    rw [List.findSome?_eq_none_iff.mpr]
    · rw [List.append_nil]
      rfl
    · intro e he
      rw [hdrop e he, if_neg (hnone e he)]
      rfl
  · have hatomic : instr.isAtomic = true := by
      rcases hroom with hatomic | rfl
      · exact hatomic
      · exact absurd hmem (by decide)
    obtain ⟨before, after, hsplit, hbefore⟩ := List.eq_append_cons_of_mem hmem
    rw [hsplit, List.findSome?_append, List.findSome?_eq_none_iff.mpr, List.findSome?_cons,
      hdrop ending hmem, if_pos rfl]
    · simp [hfind, hatomic]
    · intro e he
      have hne : e ≠ ending := by
        rintro rfl
        exact hbefore he
      rw [hdrop e (by rw [hsplit]; exact List.mem_append_left _ he), if_neg hne]
      rfl

namespace Instruction

variable {m : Text} {instr : Instruction} {ending : Text × Nat}

/-- A mnemonic of the table, with an ending for a memory ordering if it is an atomic operation, is a
mnemonic that no pseudo-instruction has, and only this ending can be taken off it. -/
theorem table_spelled (h : (m, instr) ∈ table) (hending : ending ∈ ([], 0) :: orderings)
    (hroom : instr.isAtomic = true ∨ ending = ([], 0)) :
    IsMnemonic (m ++ ending.1) ∧ Pseudo.table.lookup (m ++ ending.1) = none ∧
      ∀ e ∈ orderings,
        Text.dropEnding? e.1 (m ++ ending.1) = if e = ending then some m else none := by
  have hrows : ∀ row ∈ table, ∀ ending ∈ ([], 0) :: orderings,
      (row.2.isAtomic = true ∨ ending = ([], 0)) →
      IsMnemonic (row.1 ++ ending.1) ∧ Pseudo.table.lookup (row.1 ++ ending.1) = none ∧
        ∀ e ∈ orderings,
          Text.dropEnding? e.1 (row.1 ++ ending.1) = if e = ending then some row.1 else none := by
    decide +kernel
  exact hrows _ h ending hending hroom

/-- Mnemonics of the table with an ending are in lower case. -/
theorem lower_spelled (h : (m, instr) ∈ table) (hending : ending ∈ ([], 0) :: orderings) :
    lower (m ++ ending.1) = m ++ ending.1 := by
  have hendings : ∀ ending ∈ ([], 0) :: orderings, IsPlain ending.1 := by decide
  have hplain : ∀ c ∈ m ++ ending.1, c.toNat < 128 ∧ (c.toNat < 65 ∨ 90 < c.toNat) := by
    rw [List.forall_mem_append]
    exact ⟨(sound_of_mem h).plain, hendings ending hending⟩
  exact lower_eq_self fun c hc => lowerChar_of_ascii (hplain c hc).1 (hplain c hc).2

end Instruction

namespace Arguments

variable (a : Arguments) {m : Text} {instr : Instruction}

/-- Only atomic operations have an ending. -/
theorem ending_mem (instr : Instruction) : a.ending instr ∈ ([], 0) :: Instruction.orderings ∧
    (instr.isAtomic = true ∨ a.ending instr = ([], 0)) := by
  rw [ending]
  split
  · rename_i hatomic
    refine ⟨?_, .inl hatomic⟩
    cases a.ordering with
    | none => exact List.mem_cons_self
    | some ending => exact List.mem_cons_of_mem _ ending.property
  · exact ⟨List.mem_cons_self, .inr rfl⟩

/-- The code of an ordering has two bits, and there is none but for atomic operations. -/
theorem ending_lt : (a.ending instr).2 = 0 ∨ (a.ending instr).2 < 4 ∧ instr.isAtomic = true := by
  have hcodes : ∀ ending ∈ ([], 0) :: Instruction.orderings, ending.2 < 4 := by decide
  obtain ⟨hmem, hatomic | hnone⟩ := a.ending_mem instr
  · exact .inr ⟨hcodes _ hmem, hatomic⟩
  · exact .inl (by rw [hnone])

end Arguments

namespace Piece

open Operand (IsOperand Closed IsLettered IsWord)

/-- The letters of a set of accesses are a word. -/
theorem isWord_letters (set : AccessSet) : IsWord set.letters := by
  have hletters : ∀ (input output read write : Bool)
      (h : (input || output || read || write) = true),
      AccessSet.letters ⟨input, output, read, write, h⟩ ≠ [] ∧
        IsLettered (AccessSet.letters ⟨input, output, read, write, h⟩) := by
    decide +kernel
  obtain ⟨hne, hlettered⟩ := hletters set.input set.output set.read set.write set.nonempty
  exact hlettered.isWord hne

/-- The names of control and status registers and of rounding modes are words. -/
theorem isWord_of_mem {entry : Text × Int}
    (h : entry ∈ Instruction.csrNames ∨ entry ∈ Instruction.roundingModes) : IsWord entry.1 := by
  have hnames : ∀ entry ∈ Instruction.csrNames ++ Instruction.roundingModes,
      entry.1 ≠ [] ∧ IsLettered entry.1 := by
    decide +kernel
  obtain ⟨hne, hlettered⟩ := hnames entry (List.mem_append.mpr h)
  exact hlettered.isWord hne

/-- Every operand is written as one operand that closes its parentheses. -/
theorem isOperand_text (piece : Piece) : IsOperand piece.text ∧ Closed piece.text := by
  have hword : ∀ {s : Text}, IsWord s → IsOperand s ∧ Closed s := fun h => ⟨h.isOperand, h.closed⟩
  cases piece with
  | register file n => exact hword (file.isWord_numbered n)
  | number n => exact Operand.isOperand_ofInt n
  | address offset base =>
      refine Operand.isOperand_address ?_ (RegisterFile.isWord_numbered .integer base)
      cases offset with
      | none => exact List.forall_mem_nil _
      | some offset => exact fun _ hc => Operand.plain_of_mem_ofInt hc
  | accesses set => exact hword (isWord_letters set)
  | csr status =>
      cases status with
      | numbered number => exact Operand.isOperand_ofInt number.val
      | named entry hmem => exact hword (isWord_of_mem (.inl hmem))
  | rounding mode => exact hword (isWord_of_mem (.inr mode.property))

end Piece

namespace Arguments

variable (a : Arguments) {m : Text} {instr : Instruction}

/-- A printed line is read back. -/
theorem parse_print (h : (m, instr) ∈ Instruction.table) :
    Statement.parse (a.print m instr) = .ok ⟨m ++ (a.ending instr).1, a.operands instr⟩ := by
  obtain ⟨hmem, hroom⟩ := a.ending_mem instr
  obtain ⟨⟨hne, hchars⟩, -, -⟩ := Instruction.table_spelled h hmem hroom
  have hpieces : ∀ t ∈ a.operands instr, Operand.IsOperand t ∧ Operand.Closed t := by
    intro t ht
    obtain ⟨piece, -, rfl⟩ := List.mem_map.mp ht
    exact piece.isOperand_text
  rw [print, Statement.parse_render hne (fun c hc => (hchars c hc).2) (fun t ht => (hpieces t ht).1)
    (fun t ht => (hpieces t (List.dropLast_subset _ ht)).2), Instruction.lower_spelled h hmem]

/-- No instruction of the table has only one operand. -/
theorem length_operands_ne_one (instr : Instruction) : (a.operands instr).length ≠ 1 := by
  rw [operands, List.length_map, pieces]
  cases instr.formByCode with
  | fence => cases a.accesses <;> simp
  | jumpRegister => cases a.asAddress <;> simp
  | floating => by_cases hthree : instr.files.length = 3 <;> simp [hthree]
  | _ => simp

/-- A printed line is no pseudo-instruction and has no short form. -/
theorem real_print (h : (m, instr) ∈ Instruction.table) :
    Pseudo.real ⟨m ++ (a.ending instr).1, a.operands instr⟩ =
      .ok ⟨m ++ (a.ending instr).1, a.operands instr⟩ := by
  obtain ⟨hmem, hroom⟩ := a.ending_mem instr
  obtain ⟨-, hpseudo, -⟩ := Instruction.table_spelled h hmem hroom
  have hreal : Pseudo.isPseudo (m ++ (a.ending instr).1) = false := by
    rw [Pseudo.isPseudo, Pseudo.find?, Instruction.lower_spelled h hmem, hpseudo]
    rfl
  rw [Pseudo.real, if_neg (by simp [hreal]),
    Pseudo.expandShort_eq_self (a.length_operands_ne_one instr)]

/-- The ordering of a printed line is taken off its mnemonic. -/
theorem splitOrdering_print (h : (m, instr) ∈ Instruction.table) :
    splitOrdering (m ++ (a.ending instr).1) = (m, (a.ending instr).2) := by
  obtain ⟨hmem, hroom⟩ := a.ending_mem instr
  obtain ⟨-, -, hdrop⟩ := Instruction.table_spelled h hmem hroom
  have hfind : Instruction.find? m = some instr := by
    rw [Instruction.find?, Instruction.lower_of_mem h, Instruction.lookup_table_of_mem h]
  exact Encode.splitOrdering_append hfind hroom hmem hdrop

end Arguments

/-! ### Operands -/

namespace Encode

open Instruction (HasRoom)

theorem fenceSet_letters (set : AccessSet) : fenceSet set.letters = .ok set.mask := by
  have hsets : ∀ (input output read write : Bool) (h : (input || output || read || write) = true),
      fenceSet (AccessSet.letters ⟨input, output, read, write, h⟩) =
        .ok (AccessSet.mask ⟨input, output, read, write, h⟩) := by
    decide +kernel
  exact hsets set.input set.output set.read set.write set.nonempty

/-- No control and status register has a numeral as its name. -/
theorem lookup_csrNames_ofNat (n : Nat) :
    Instruction.csrNames.lookup (lower (Text.trim (Numeral.ofNat n))) = none := by
  have hdigits : ∀ c ∈ Numeral.ofNat n, c.isDigit = true := fun c hc =>
    Numeral.isDigit_of_mem_ofNat hc
  have htrim : Text.trim (Numeral.ofNat n) = Numeral.ofNat n :=
    Text.trim_eq_self_of_forall fun c hc => Numeral.isBlank_of_isDigit (hdigits c hc)
  have hlower : lower (Numeral.ofNat n) = Numeral.ofNat n := by
    refine lower_eq_self fun c hc => ?_
    obtain ⟨-, hgreatest⟩ := Numeral.toNat_of_isDigit (hdigits c hc)
    exact lowerChar_of_ascii (by omega) (by omega)
  rw [htrim, hlower, lookup_eq_none_iff_not_mem]
  intro hmem
  obtain ⟨entry, hentry, hname⟩ := List.mem_map.mp hmem
  have hletters : ∀ entry ∈ Instruction.csrNames, entry.1.all Char.isDigit = false := by
    decide +kernel
  have hall : (Numeral.ofNat n).all Char.isDigit = true := List.all_eq_true.mpr hdigits
  rw [← hname, hletters entry hentry] at hall
  cases hall

/-- Control and status registers are read by their names and by their numbers. -/
theorem csrNumber_text (status : Csr) : csrNumber status.text = .ok status.value := by
  cases status with
  | named entry hmem =>
      have hnames : ∀ entry ∈ Instruction.csrNames,
          Instruction.csrNames.lookup (lower (Text.trim entry.1)) = some entry.2 := by
        decide +kernel
      rw [Csr.text, csrNumber, hnames entry hmem]
      rfl
  | numbered number =>
      have hlt := number.isLt
      have hlong : Numeral.tooLong number.val = false :=
        Numeral.tooLong_of_small (by omega) (by omega)
      rw [Csr.text, csrNumber, show Numeral.ofInt number.val = Numeral.ofNat number.val from rfl,
        lookup_csrNames_ofNat]
      exact Immediate.parse_ofInt hlong

/-- A rounding mode is read, and its omission is the mode that is set while the program runs. -/
theorem splitRounding_pieces (a : Arguments) (instr : Instruction) (pieces : List Piece)
    {count : Nat} (hcount : pieces.length = count) :
    ∃ rounding, splitRounding instr ((pieces ++ a.roundingPieces instr).map Piece.text) count =
        .ok (pieces.map Piece.text, rounding) ∧
      rounding.getD Instruction.dynamicRounding = a.roundingCode instr := by
  subst hcount
  unfold splitRounding Arguments.roundingPieces Arguments.roundingCode
  cases hcode : instr.funct3 with
  | some code => exact ⟨some code, by simp, rfl⟩
  | none =>
      cases a.rounding with
      | none => exact ⟨none, by simp, rfl⟩
      | some mode =>
          have hmodes : ∀ mode ∈ Instruction.roundingModes,
              Instruction.roundingModes.lookup (lower mode.1) = some mode.2 := by
            decide +kernel
          have hlookup := hmodes mode.val mode.property
          refine ⟨some mode.val.2, ?_, rfl⟩
          simp [Piece.text, hlookup]

section Roles

variable (m : Text)

theorem read_register (file : RegisterFile) (field : RegisterField) (n : Fin 32) :
    (Role.register file field).read m (Piece.register file n).text = .ok (n.val, 0) := by
  rw [Role.read, Piece.text, RegisterFile.parse_numbered]
  rfl

theorem read_number {n : Int} (h : Numeral.tooLong n = false) :
    Role.number.read m (Piece.number n).text = .ok (0, n) := by
  rw [Role.read, Piece.text, Immediate.parse_ofInt h]
  rfl

/-- The numbers of registers are the constants that fit in their place. -/
theorem read_constant (n : Fin 32) :
    Role.constant.read m (Piece.number n.val).text = .ok (n.val, 0) := by
  have hlt := n.isLt
  have hshort : Numeral.tooLong n.val = false := Numeral.tooLong_of_small (by omega) (by omega)
  have hbits : fieldRange? 5 false = some (0, 31) := rfl
  have hrange : checkRange "CSR immediate".toList 5 false n.val = .ok () :=
    (checkRange_eq_ok_iff hbits).mpr ⟨by omega, by omega⟩
  rw [Role.read, Piece.text, Immediate.parse_ofInt hshort]
  show (checkRange _ 5 false n.val >>= fun _ => _) = _
  rw [hrange]
  rfl

theorem read_status (status : Csr) :
    Role.status.read m (Piece.csr status).text = .ok (0, status.value) := by
  rw [Role.read, Piece.text, csrNumber_text]
  rfl

theorem read_accesses {role : Role} (h : role = .before ∨ role = .after) (set : AccessSet) :
    role.read m (Piece.accesses set).text = .ok (0, set.mask) := by
  rcases h with rfl | rfl
  · rw [Role.read, Piece.text, fenceSet_letters]
    rfl
  · rw [Role.read, Piece.text, fenceSet_letters]
    rfl

theorem read_address {offset : Int} (h : Numeral.tooLong offset = false) (n : Fin 32) :
    Role.address.read m (Piece.address (some offset) n).text = .ok (n.val, offset) := by
  rw [Role.read, Piece.text, Option.map_some, Option.getD_some, Operand.parseMemory_address h]
  show (integerRegister (RegisterFile.integer.numbered n) >>= fun _ => _) = _
  rw [integerRegister, RegisterFile.parse_numbered]
  rfl

theorem read_base (n : Fin 32) : Role.base.read m (Piece.address none n).text = .ok (n.val, 0) := by
  rw [Role.read, Piece.text, Option.map_none, Option.getD_none, atomicAddress,
    Operand.parseMemory_bare]
  show (integerRegister (RegisterFile.integer.numbered n) >>= fun _ => _) = _
  rw [integerRegister, RegisterFile.parse_numbered]
  rfl

variable {m}

/-- Printed operands are read one after the other. -/
theorem readRoles_piece {role : Role} {roles : List Role} {piece : Piece} {pieces : List Piece}
    {v : Int × Int} {f g : Fields} (h : role.read m piece.text = .ok v)
    (hrest : readRoles m roles (pieces.map Piece.text) (role.put v f) = .ok g) :
    readRoles m (role :: roles) ((piece :: pieces).map Piece.text) f = .ok g :=
  Result.bind_eq_ok.mpr ⟨v, h, hrest⟩

/-- Operands are read when those beside a rounding mode are read in the roles for so many of them.
-/
theorem readOperands_of_roles {instr : Instruction} {form : Form} {operands rest : List Text}
    {rounding : Option Int} {roles : List Role} {f : Fields} (h : (m, instr) ∈ Instruction.table)
    (hcode : instr.formByCode = form) (hsplit : form.split instr operands = .ok (rest, rounding))
    (hshape : form.shape? instr rest.length = some roles)
    (hread : readRoles m roles rest (form.start instr rounding) = .ok f) :
    readOperands m instr operands = .ok f := by
  subst hcode
  rw [readOperands_eq_ok_iff (Instruction.sound_of_mem h), Instruction.formOf_eq_formByCode h]
  exact ⟨_, roles, hsplit, hshape, hread⟩

end Roles

end Encode

namespace Arguments

open Encode
open Instruction (HasRoom)

variable (a : Arguments) {m : Text} {instr : Instruction} {p : Profile}

/-- The printed operands of an instruction are read back. -/
def ReadBack (m : Text) (instr : Instruction) : Prop :=
  readOperands m instr (a.operands instr) = .ok (a.fields instr)

theorem readBack_none (h : (m, instr) ∈ Instruction.table) (hcode : instr.formByCode = .none) :
    a.ReadBack m instr := by
  unfold ReadBack operands pieces fields
  rw [hcode]
  exact readOperands_of_roles h hcode rfl rfl rfl

/-- The sets of accesses of a fence lie side by side in its immediate. -/
theorem readBack_fence (h : (m, instr) ∈ Instruction.table) (hcode : instr.formByCode = .fence) :
    a.ReadBack m instr := by
  unfold ReadBack operands pieces fields
  rw [hcode]
  cases a.accesses with
  | none => exact readOperands_of_roles h hcode rfl rfl rfl
  | some sets =>
      have hafter : sets.2.mask < 2 ^ 4 := Nat.lt_succ_of_le sets.2.mask_le
      have himm : ((sets.1.mask <<< 4 ||| sets.2.mask : Nat) : Int) =
          sets.1.mask * 16 + sets.2.mask := by
        rw [← Nat.shiftLeft_add_eq_or_of_lt hafter, Nat.shiftLeft_eq]
        exact Int.natCast_add ..
      refine readOperands_of_roles h hcode rfl rfl ?_
      refine readRoles_piece (read_accesses m (.inl rfl) sets.1) ?_
      refine readRoles_piece (read_accesses m (.inr rfl) sets.2) ?_
      exact congrArg (fun imm : Int => (.ok { imm } : Except Fault Fields)) himm

theorem readBack_csr {constant : Bool} (h : (m, instr) ∈ Instruction.table)
    (hcode : instr.formByCode = .csr constant) : a.ReadBack m instr := by
  unfold ReadBack operands pieces fields
  rw [hcode]
  refine readOperands_of_roles h hcode rfl rfl ?_
  refine readRoles_piece (read_register ..) (readRoles_piece (read_status m a.csr) ?_)
  cases constant with
  | true => exact readRoles_piece (read_constant m a.rs1) rfl
  | false => exact readRoles_piece (read_register ..) rfl

theorem readBack_loadReserved (h : (m, instr) ∈ Instruction.table)
    (hcode : instr.formByCode = .loadReserved) : a.ReadBack m instr := by
  unfold ReadBack operands pieces fields
  rw [hcode]
  refine readOperands_of_roles h hcode rfl rfl ?_
  exact readRoles_piece (read_register ..) (readRoles_piece (read_base m a.rs1) rfl)

theorem readBack_atomic (h : (m, instr) ∈ Instruction.table) (hcode : instr.formByCode = .atomic) :
    a.ReadBack m instr := by
  unfold ReadBack operands pieces fields
  rw [hcode]
  refine readOperands_of_roles h hcode rfl rfl ?_
  refine readRoles_piece (read_register ..) (readRoles_piece (read_register ..) ?_)
  exact readRoles_piece (read_base m a.rs1) rfl

theorem readBack_fused (h : (m, instr) ∈ Instruction.table) (hcode : instr.formByCode = .fused) :
    a.ReadBack m instr := by
  unfold ReadBack operands pieces fields
  rw [hcode]
  obtain ⟨rounding, hsplit, hmode⟩ := splitRounding_pieces a instr
    [.register (instr.fileOf 0) a.rd, .register (instr.fileOf 1) a.rs1,
      .register (instr.fileOf 2) a.rs2, .register (instr.fileOf 3) a.rs3] (rfl : _ = 4)
  rw [← hmode]
  refine readOperands_of_roles h hcode hsplit rfl ?_
  refine readRoles_piece (read_register ..) (readRoles_piece (read_register ..) ?_)
  exact readRoles_piece (read_register ..) (readRoles_piece (read_register ..) rfl)

/-- A floating-point operation with two sources. -/
theorem readBack_floating_two (h : (m, instr) ∈ Instruction.table)
    (hcode : instr.formByCode = .floating) (hthree : instr.files.length = 3) :
    a.ReadBack m instr := by
  unfold ReadBack operands pieces fields
  rw [hcode]
  obtain ⟨rounding, hsplit, hmode⟩ := splitRounding_pieces a instr
    [.register (instr.fileOf 0) a.rd, .register (instr.fileOf 1) a.rs1,
      .register (instr.fileOf 2) a.rs2] hthree.symm
  have hnone := Instruction.rs2_eq_none (Instruction.sound_of_mem h) fun _ => hthree
  simp only [if_pos hthree, ← hmode, hnone]
  refine readOperands_of_roles h hcode hsplit
    (by simp only [Form.shape?, Form.shapes, if_pos hthree]; rfl) ?_
  refine readRoles_piece (read_register ..) (readRoles_piece (read_register ..) ?_)
  exact readRoles_piece (read_register ..) rfl

/-- A floating-point operation with one source, and a fixed code in place of the other. -/
theorem readBack_floating_one (h : (m, instr) ∈ Instruction.table)
    (hcode : instr.formByCode = .floating) (htwo : instr.files.length = 2) :
    a.ReadBack m instr := by
  unfold ReadBack operands pieces fields
  rw [hcode]
  obtain ⟨rounding, hsplit, hmode⟩ := splitRounding_pieces a instr
    [.register (instr.fileOf 0) a.rd, .register (instr.fileOf 1) a.rs1] htwo.symm
  have hne : instr.files.length ≠ 3 := by omega
  have hform := (Instruction.formOf_eq_formByCode h).trans hcode
  obtain ⟨code, hcode2⟩ := Option.isSome_iff_exists.mp
    ((Instruction.sound_of_mem h).rs2_some.mpr ⟨hform, hne⟩)
  simp only [if_neg hne, ← hmode, hcode2]
  refine readOperands_of_roles h hcode hsplit
    (by simp only [Form.shape?, Form.shapes, if_neg hne]; rfl) ?_
  rw [Form.start, hcode2]
  exact readRoles_piece (read_register ..) (readRoles_piece (read_register ..) rfl)

theorem readBack_registers (h : (m, instr) ∈ Instruction.table)
    (hcode : instr.formByCode = .registers) : a.ReadBack m instr := by
  unfold ReadBack operands pieces fields
  rw [hcode]
  refine readOperands_of_roles h hcode rfl rfl ?_
  refine readRoles_piece (read_register ..) (readRoles_piece (read_register ..) ?_)
  exact readRoles_piece (read_register ..) rfl

/-- The forms with a register and an address. -/
theorem readBack_address (h : (m, instr) ∈ Instruction.table)
    (hcode : instr.formByCode = .load ∨ instr.formByCode = .store)
    (hshort : Numeral.tooLong a.imm = false) : a.ReadBack m instr := by
  unfold ReadBack operands pieces fields
  rcases hcode with hcode | hcode
  all_goals
    rw [hcode]
    refine readOperands_of_roles h hcode rfl rfl ?_
    exact readRoles_piece (read_register ..) (readRoles_piece (read_address m hshort a.rs1) rfl)

theorem readBack_jumpRegister (h : (m, instr) ∈ Instruction.table)
    (hcode : instr.formByCode = .jumpRegister) (hshort : Numeral.tooLong a.imm = false) :
    a.ReadBack m instr := by
  unfold ReadBack operands pieces fields
  rw [hcode]
  cases a.asAddress with
  | true =>
      refine readOperands_of_roles h hcode rfl rfl ?_
      exact readRoles_piece (read_register ..) (readRoles_piece (read_address m hshort a.rs1) rfl)
  | false =>
      refine readOperands_of_roles h hcode rfl rfl ?_
      refine readRoles_piece (read_register ..) (readRoles_piece (read_register ..) ?_)
      exact readRoles_piece (read_number m hshort) rfl

/-- The forms with two registers and a number. -/
theorem readBack_registers_number (h : (m, instr) ∈ Instruction.table)
    (hcode : instr.formByCode = .immediate ∨ instr.formByCode = .branch)
    (hshort : Numeral.tooLong a.imm = false) : a.ReadBack m instr := by
  unfold ReadBack operands pieces fields
  rcases hcode with hcode | hcode
  all_goals
    rw [hcode]
    refine readOperands_of_roles h hcode rfl rfl ?_
    refine readRoles_piece (read_register ..) (readRoles_piece (read_register ..) ?_)
    exact readRoles_piece (read_number m hshort) rfl

/-- The forms with a register and a number. -/
theorem readBack_register_number (h : (m, instr) ∈ Instruction.table)
    (hcode : instr.formByCode = .upper ∨ instr.formByCode = .jump)
    (hshort : Numeral.tooLong a.imm = false) : a.ReadBack m instr := by
  unfold ReadBack operands pieces fields
  rcases hcode with hcode | hcode
  all_goals
    rw [hcode]
    refine readOperands_of_roles h hcode rfl rfl ?_
    exact readRoles_piece (read_register ..) (readRoles_piece (read_number m hshort) rfl)

/-- Printed operands are read back. -/
theorem readOperands_print (h : (m, instr) ∈ Instruction.table) (hroom : instr.HasRoom p a.imm) :
    readOperands m instr (a.operands instr) = .ok (a.fields instr) := by
  have hlong : instr.formByCode ∈ Instruction.immediateForms → Numeral.tooLong a.imm = false := by
    intro hmem
    obtain ⟨hleast, hlt⟩ := hroom.bounds hmem
    exact Numeral.tooLong_of_small hleast hlt
  cases hcode : instr.formByCode with
  | none => exact a.readBack_none h hcode
  | fence => exact a.readBack_fence h hcode
  | csr constant => exact a.readBack_csr h hcode
  | loadReserved => exact a.readBack_loadReserved h hcode
  | atomic => exact a.readBack_atomic h hcode
  | fused => exact a.readBack_fused h hcode
  | floating =>
      rcases Instruction.length_files h hcode with hthree | htwo
      · exact a.readBack_floating_two h hcode hthree
      · exact a.readBack_floating_one h hcode htwo
  | registers => exact a.readBack_registers h hcode
  | load => exact a.readBack_address h (.inl hcode) (hlong (by rw [hcode]; decide))
  | store => exact a.readBack_address h (.inr hcode) (hlong (by rw [hcode]; decide))
  | jumpRegister => exact a.readBack_jumpRegister h hcode (hlong (by rw [hcode]; decide))
  | immediate => exact a.readBack_registers_number h (.inl hcode) (hlong (by rw [hcode]; decide))
  | branch => exact a.readBack_registers_number h (.inr hcode) (hlong (by rw [hcode]; decide))
  | upper => exact a.readBack_register_number h (.inl hcode) (hlong (by rw [hcode]; decide))
  | jump => exact a.readBack_register_number h (.inr hcode) (hlong (by rw [hcode]; decide))
  | other =>
      have hformat := (Instruction.sound_of_mem h).format
      rw [Instruction.formOf_eq_formByCode h, hcode] at hformat
      cases hformat

/-- The immediate of printed operands is in the range of the format. -/
theorem inRange_print (h : (m, instr) ∈ Instruction.table) (hroom : instr.HasRoom p a.imm) :
    instr.InRange m (shiftBits p m) (a.fields instr).imm := by
  unfold HasRoom at hroom
  unfold fields
  -- the I format has several uses for its immediate, the others have one
  cases hcode : instr.formByCode with
  | none =>
      rw [Instruction.inRange_iff_of_i h hcode rfl, Instruction.useByCode, hcode]
      split_ifs <;> simp
  | fence =>
      rw [Instruction.inRange_iff_of_i h hcode rfl, Instruction.useByCode, hcode]
      cases a.accesses with
      | none =>
          show -2048 ≤ (255 : Int) ∧ (255 : Int) ≤ 2047
          decide
      | some sets =>
          have hbefore := sets.1.mask_le
          have hafter := sets.2.mask_le
          simp only [Option.map_some, Option.getD_some]
          omega
  | csr constant =>
      rw [Instruction.inRange_iff_of_i h hcode rfl, Instruction.useByCode, hcode]
      exact a.csr.value_bounds
  | load | jumpRegister =>
      rw [Instruction.inRange_iff_of_i h hcode rfl, Instruction.useByCode, hcode]
      simp only [hcode] at hroom ⊢
      omega
  | immediate =>
      rw [Instruction.inRange_iff_of_i h hcode rfl, Instruction.useByCode, hcode]
      simp only [hcode] at hroom ⊢
      cases hshifts : instr.shiftsByCode with
      | true =>
          have hwidth := Instruction.span_shiftBits h hshifts p
          simp only [hshifts, if_true] at hroom ⊢
          omega
      | false =>
          simp only [hshifts, Bool.false_eq_true, if_false] at hroom ⊢
          omega
  | store | branch | upper | jump =>
      simp only [Instruction.InRange, Instruction.format_eq h hcode rfl, hcode] at hroom ⊢
      omega
  | other =>
      have hknown := (Instruction.sound_of_mem h).format
      rw [Instruction.formOf_eq_formByCode h, hcode] at hknown
      cases hknown
  | _ => simp only [Instruction.InRange, Instruction.format_eq h hcode rfl]

end Arguments

open Instruction (HasRoom Laid)

/-- **Printed instructions have the layout of the manual**: under a profile that admits an
instruction of the table, the line with any registers, rounding mode, memory ordering, control and
status register and sets of accesses, and any immediate that there is room for, has a word of 32
bits.  Its fields are the codes of the instruction and what was printed. -/
theorem encode_print {p : Profile} {m : Text} {instr : Instruction}
    (hrow : (m, instr) ∈ Instruction.table) (hadmits : p.admits instr.isa = true) (a : Arguments)
    (hroom : instr.HasRoom p a.imm) :
    ∃ w < 4294967296, encode p (a.print m instr) = .ok w ∧
      instr.Laid m (a.fields instr) (a.ending instr).2 w := by
  have hs := Instruction.sound_of_mem hrow
  have hlower := Instruction.lower_of_mem hrow
  have hbits := Encode.shiftBits_eq p m
  have hread := a.readOperands_print hrow hroom
  have hsuits := (Encode.readOperands_yields hs _).ok hread
  have hrange := a.inRange_print hrow hroom
  obtain ⟨v, hpack⟩ := (Instruction.exists_pack_iff (hsuits.complete hs hlower) hbits).mpr hrange
  have hdescribes : Encode.Describes (a.print m instr) instr
      ⟨m, (a.ending instr).2, a.fields instr⟩ :=
    ⟨_, _, a.parse_print hrow, a.real_print hrow,
      ⟨a.splitOrdering_print hrow, Instruction.lookup_table_of_mem hrow, hread⟩⟩
  have hcarries : Instruction.Carries (v ||| (a.ending instr).2 <<< 25) instr
      ⟨m, (a.ending instr).2, a.fields instr⟩ :=
    (Instruction.packed_of_pack hs hsuits hlower hbits hpack).carries hs a.ending_lt
  refine ⟨_, hcarries.lt, encode_eq_ok_iff.mpr ⟨instr, _, v, hdescribes, hadmits, hpack, rfl⟩,
    hcarries.laid hrow hsuits ?_⟩
  intro hformat
  simp only [Instruction.InRange, hformat] at hrange
  omega

/-- An atomic operation with both orderings, a store below its base register, and a fused operation
with a rounding mode: the sources stand in another order in the line than in the word. -/
theorem encode_print_sources :
    (∃ w < 4294967296, encode .auto "amoadd.w.aqrl x5, x6, (x7)".toList = .ok w ∧
      (Word.opcode w : Int) = 0x2F ∧ (Word.rd w : Int) = 5 ∧ (Word.rs1 w : Int) = 7 ∧
      (Word.rs2 w : Int) = 6 ∧ some 2 = some (Word.funct3 w : Int) ∧
      some 3 = some (Word.funct7 w : Int)) ∧
    (∃ w < 4294967296, encode .rv64i "sd x31, -2048(x2)".toList = .ok w ∧
      (Word.opcode w : Int) = 0x23 ∧ (Word.rs1 w : Int) = 2 ∧ (Word.rs2 w : Int) = 31 ∧
      some 3 = some (Word.funct3 w : Int) ∧ Word.immediateS w = -2048) ∧
    ∃ w < 4294967296, encode .rv32i "fmadd.s f1, f2, f3, f4, rtz".toList = .ok w ∧
      (Word.opcode w : Int) = 0x43 ∧ (Word.rd w : Int) = 1 ∧ (Word.rs1 w : Int) = 2 ∧
      (Word.rs2 w : Int) = 3 ∧ (Word.rs3 w : Int) = 4 ∧ some 1 = some (Word.funct3 w : Int) ∧
      some 0 = some (Word.precision w : Int) := by
  let amoadd : Instruction :=
    { opcode := 0x2F, format := .r, funct3 := some 2, funct7 := some 0, isa := .rv32a }
  let sd : Instruction := { opcode := 0x23, format := .s, funct3 := some 3, isa := .rv64i }
  let fmadd : Instruction :=
    { opcode := 0x43, format := .r4, funct7 := some 0, isa := .rv32f,
      files := [.float, .float, .float, .float] }
  have hrows : ("amoadd.w".toList, amoadd) ∈ Instruction.table ∧
      ("sd".toList, sd) ∈ Instruction.table ∧
      ("fmadd.s".toList, fmadd) ∈ Instruction.table := by
    decide +kernel
  obtain ⟨hamoadd, hsd, hfmadd⟩ := hrows
  have hordered := encode_print hamoadd (by decide : Profile.admits .auto _ = true)
    { rd := 5, rs1 := 7, rs2 := 6, ordering := some ⟨(".aqrl".toList, 3), by decide⟩ } trivial
  have hstored := encode_print hsd (by decide : Profile.admits .rv64i _ = true)
    { rs1 := 2, rs2 := 31, imm := -2048 } ⟨by decide, by decide⟩
  have hfused := encode_print hfmadd (by decide : Profile.admits .rv32i _ = true)
    { rd := 1, rs1 := 2, rs2 := 3, rs3 := 4, rounding := some ⟨("rtz".toList, 1), by decide⟩ }
    trivial
  exact ⟨hordered, hstored, hfused⟩

end RiscAsm

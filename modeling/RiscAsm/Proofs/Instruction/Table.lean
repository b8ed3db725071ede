import Mathlib.Data.List.Nodup
import Mathlib.Data.List.Pairwise
import Mathlib.Tactic.MkIffOfInductiveProp
import RiscAsm.Encode
import RiscAsm.Proofs.Instruction.Fields
import RiscAsm.Proofs.Text.LowerCase

/-!
# Theory of the instruction table

What holds of every row of the table: its description has the codes that its format and the form of
its operands ask for, and they fit into their fields (`Instruction.Sound`).  Every row fixes some
bit fields of its words, and two different rows disagree on one of them (`eq_of_matches`), so a word
belongs to one row at most.
-/

namespace RiscAsm

namespace Encode

/-- The format of the instructions with operands of a form. -/
def Form.format? : Form → Option Format
  | .none | .fence | .csr _ | .load | .jumpRegister | .immediate => some .i
  | .loadReserved | .atomic | .floating | .registers => some .r
  | .fused => some .r4
  | .store => some .s
  | .branch => some .b
  | .upper => some .u
  | .jump => some .j
  | .other => Option.none

/-- Whether the operands of a form say how results are rounded. -/
def Form.rounds : Form → Bool
  | .fused | .floating => true
  | _ => false

end Encode

namespace Instruction

open Encode (formOf splitOrdering)
open Word (Fits)

/-! ## Rows are sound -/

/-- The description of a mnemonic has the codes that its words need. -/
@[mk_iff]
structure Sound (m : Text) (instr : Instruction) : Prop where
  plain : IsPlain m
  opcode : Fits 7 instr.opcode
  format : (formOf m instr).format? = some instr.format
  atomic : instr.isAtomic = true → instr.format = .r ∧ (formOf m instr).rounds = false
  funct3_fits : ∀ c ∈ instr.funct3, Fits 3 c
  funct3_some : instr.format = .i ∨ instr.format = .s ∨ instr.format = .b →
    instr.funct3.isSome = true
  funct3_or_rounds : instr.format = .r →
    instr.funct3.isSome = true ∨ (formOf m instr).rounds = true
  rounds : instr.format = .r4 → (formOf m instr).rounds = true
  funct3_none : instr.format = .r4 ∨ instr.format = .u ∨ instr.format = .j → instr.funct3 = none
  funct7_fits : ∀ c ∈ instr.funct7, Fits 7 c ∧ (instr.format = .r4 → Fits 2 c) ∧
    (instr.isAtomic = true → c % 4 = 0) ∧ (ImmediateUse.of m = .shift → c % 2 = 0)
  funct7_some : instr.format = .r ∨ instr.format = .r4 ∨ ImmediateUse.of m = .shift →
    instr.funct7.isSome = true
  rs2_fits : ∀ c ∈ instr.rs2, Fits 5 c
  rs2_some : instr.rs2.isSome = true ↔ formOf m instr = .floating ∧ instr.files.length ≠ 3
  upper : instr.format = .u ↔ m = "lui".toList ∨ m = "auipc".toList
  branch : instr.format = .b → instr.opcode = 0x63
  jump : instr.format = .j → instr.opcode = 0x6F

instance (m : Text) (instr : Instruction) : Decidable (Sound m instr) :=
  decidable_of_iff' _ (sound_iff m instr)

/-- Every row of the table is sound. -/
theorem table_sound : ∀ row ∈ table, Sound row.1 row.2 := by decide +kernel

theorem sound_of_mem {m : Text} {instr : Instruction} (h : (m, instr) ∈ table) : Sound m instr :=
  table_sound (m, instr) h

/-! ## Looking up mnemonics -/

/-- A mnemonic in lower case is looked up as it is. -/
theorem find?_eq_some {m : Text} {instr : Instruction} (hm : ∀ c ∈ m, IsLowered c)
    (h : find? m = some instr) : (m, instr) ∈ table ∧ lower m = m := by
  have hmem := mem_of_lookup h
  have hlower := lower_eq_self_of_ascii hm fun c hc => ((sound_of_mem hmem).plain c hc).1
  rw [hlower] at hmem
  exact ⟨hmem, hlower⟩

/-- The mnemonics of the table are in lower case. -/
theorem lower_of_mem {m : Text} {instr : Instruction} (h : (m, instr) ∈ table) : lower m = m := by
  apply lower_eq_self
  intro c hc
  obtain ⟨hascii, hcapital⟩ := (sound_of_mem h).plain c hc
  exact lowerChar_of_ascii hascii hcapital

/-- The mnemonics of the table are distinct. -/
theorem table_nodup : (table.map Prod.fst).Nodup := by
  -- the mnemonics are compared as numbers in base 128
  have hkeys : ((table.map Prod.fst).map fun m =>
      m.foldl (fun key c => key * 128 + c.toNat) 0).Nodup := by
    decide +kernel
  exact List.Nodup.of_map _ hkeys

/-- A mnemonic of the table is looked up with its description. -/
theorem lookup_table_of_mem {m : Text} {instr : Instruction} (h : (m, instr) ∈ table) :
    table.lookup m = some instr :=
  lookup_of_mem table_nodup h

/-! ## Fixed fields -/

/-- A bit field of a word and its content. -/
structure Pin where
  width : Nat
  shift : Nat
  value : Int
  deriving DecidableEq, Repr

/-- A word has the content that a pin says. -/
def Pin.Holds (p : Pin) (w : Nat) : Prop := (Word.bits p.width p.shift w : Int) = p.value

/-- Two pins say different things of one field. -/
def Pin.Clashes (p q : Pin) : Prop := p.width = q.width ∧ p.shift = q.shift ∧ p.value ≠ q.value

instance (p : Pin) (w : Nat) : Decidable (p.Holds w) := inferInstanceAs (Decidable (_ = _))

instance (p q : Pin) : Decidable (p.Clashes q) := inferInstanceAs (Decidable (_ ∧ _))

/-- Pins that clash do not hold together. -/
theorem Pin.Clashes.not_holds {p q : Pin} {w : Nat} (h : p.Clashes q) (hp : p.Holds w) :
    ¬ q.Holds w := by
  obtain ⟨hwidth, hshift, hvalue⟩ := h
  intro hq
  rw [Holds, hwidth, hshift, hq] at hp
  exact hvalue hp.symm

/-- The pin of the 7-bit function code: all of it, or the part beside a memory ordering, a third
source or a shift amount.  System instructions have a fixed immediate in its place. -/
def codePin? (m : Text) (instr : Instruction) : Option Pin :=
  match instr.format with
  | .r => instr.funct7.map fun c => if instr.isAtomic then ⟨5, 27, c / 4⟩ else ⟨7, 25, c⟩
  | .r4 => instr.funct7.map fun c => ⟨2, 25, c⟩
  | .i =>
    match ImmediateUse.of m with
    | .system value => some ⟨12, 20, value⟩
    | .shift => instr.funct7.map fun c => ⟨6, 26, c / 2⟩
    | _ => none
  | _ => none

/-- A word has the fields that an instruction fixes. -/
@[mk_iff]
structure Matches (m : Text) (instr : Instruction) (w : Nat) : Prop where
  opcode : (Word.opcode w : Int) = instr.opcode
  funct3 : ∀ c ∈ instr.funct3, (Word.funct3 w : Int) = c
  code : ∀ p ∈ codePin? m instr, p.Holds w
  rs2 : ∀ c ∈ instr.rs2, (Word.rs2 w : Int) = c

instance (m : Text) (instr : Instruction) (w : Nat) : Decidable (Matches m instr w) :=
  decidable_of_iff' _ (matches_iff m instr w)

/-- Two rows fix some field differently. -/
def Row.Clashes (a b : Row) : Prop :=
  a.2.opcode = b.2.opcode →
    (∃ c ∈ a.2.funct3, ∃ d ∈ b.2.funct3, c ≠ d) ∨
    (∃ p ∈ codePin? a.1 a.2, ∃ q ∈ codePin? b.1 b.2, p.Clashes q) ∨
    (∃ c ∈ a.2.rs2, ∃ d ∈ b.2.rs2, c ≠ d)

instance (a b : Row) : Decidable (a.Clashes b) := inferInstanceAs (Decidable (_ → _))

/-- No two rows of the table describe the same words. -/
theorem table_pairwise_clashes : table.Pairwise Row.Clashes := by decide +kernel

/-- Rows that clash have no word in common. -/
theorem Row.Clashes.not_matches {a b : Row} {w : Nat} (h : a.Clashes b) (ha : Matches a.1 a.2 w) :
    ¬ Matches b.1 b.2 w := by
  intro hb
  rcases h (ha.opcode.symm.trans hb.opcode) with
    ⟨c, hc, d, hd, hne⟩ | ⟨p, hp, q, hq, hclash⟩ | ⟨c, hc, d, hd, hne⟩
  · exact hne ((ha.funct3 c hc).symm.trans (hb.funct3 d hd))
  · exact hclash.not_holds (ha.code p hp) (hb.code q hq)
  · exact hne ((ha.rs2 c hc).symm.trans (hb.rs2 d hd))

/-- A word has the fields of one row at most. -/
theorem eq_of_matches {a b : Row} {w : Nat} (ha : a ∈ table) (hb : b ∈ table)
    (hwa : Matches a.1 a.2 w) (hwb : Matches b.1 b.2 w) : a = b := by
  let apart (a b : Row) : Prop := Matches a.1 a.2 w → ¬ Matches b.1 b.2 w
  have hpair : table.Pairwise apart :=
    table_pairwise_clashes.imp fun hclash hmatches => hclash.not_matches hmatches
  have hsymm : Std.Symm apart := ⟨fun _ _ h hb ha => h ha hb⟩
  by_contra hne
  exact hpair.forall ha hb hne hwa hwb

end Instruction

end RiscAsm

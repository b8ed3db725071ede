import RiscAsm.Proofs.Encode.Expansion
import RiscAsm.Proofs.Encode.Printed
import RiscAsm.Proofs.Operand.Separators
import RiscAsm.Proofs.Register

/-!
# Spellings of memory operands

A memory operand may be written with blanks in all of its gaps.  Dividing a line removes those
before the opening parenthesis and after the closing one (`Operand.tokenize_spacedAddress`), and the
rest does not matter when the operand is read (`Operand.memoryParts?_spacedAddress`).  So all
spellings of an operand are encoded alike, and a jump to a register may also be written with its
base and its offset apart (`encode_spelling`).
-/

namespace RiscAsm

namespace Operand

/-! ## Operands with commas after them -/

/-- Entries that can be written before another operand. -/
def Leads (entries : List Entry) : Prop :=
  ∀ e ∈ entries, IsOperand e.operand ∧ Closed e.operand ∧ e.gap ≠ [] ∧
    ∀ c ∈ e.gap, isSeparator c = true

theorem Leads.spaced {entries : List Entry} (h : Leads entries) {last : Text}
    (hlast : IsOperand last) (hclosed : Closed last) : Spaced [] (entries ++ [⟨last, []⟩]) where
  lead := by simp
  operand := List.forall_mem_append.mpr ⟨fun e he => (h e he).1, by simpa using hlast⟩
  closed := List.forall_mem_append.mpr ⟨fun e he => (h e he).2.1, by simpa using hclosed⟩
  gap := List.forall_mem_append.mpr ⟨fun e he => (h e he).2.2.2, by simp⟩
  gap_ne_nil := by
    rw [List.dropLast_concat]
    exact fun e he => (h e he).2.2.1

/-- Entries with commas in their gaps are parted. -/
theorem parted_of_commas {entries : List Entry} (h : ∀ e ∈ entries.dropLast, ',' ∈ e.gap) :
    Parted entries := by
  induction entries with
  | nil => exact .nil
  | cons e entries ih =>
      cases entries with
      | nil => exact .singleton e
      | cons next entries =>
          obtain ⟨he, hrest⟩ := List.forall_mem_cons.mp h
          exact List.isChain_cons.mpr ⟨fun _ _ _ _ => he, ih hrest⟩

theorem written_append (entries : List Entry) (last : Text) :
    written (entries ++ [⟨last, []⟩]) = written entries ++ last := by
  simp [written, Entry.text]

/-- An operand after entries with commas in their gaps comes out by itself. -/
theorem tokenize_of_commas {entries : List Entry} {last : Text} (h : Leads entries)
    (hcommas : ∀ e ∈ entries, ',' ∈ e.gap) (hlast : IsOperand last) (hclosed : Closed last) :
    tokenize (written entries ++ last) = entries.map Entry.operand ++ [last] := by
  have hread := tokenize_written (h.spaced hlast hclosed)
  rw [List.nil_append, written_append] at hread
  rw [hread, merged_of_parted (parted_of_commas (by simpa using hcommas)), List.map_append]
  rfl

/-- The entries of operands that are joined with commas. -/
def entriesOf (operands : List Text) : List Entry := operands.map fun t => ⟨t, [',', ' ']⟩

theorem joinComma_concat (operands : List Text) (last : Text) :
    Text.joinComma (operands ++ [last]) = written (entriesOf operands) ++ last := by
  induction operands with
  | nil => simp [entriesOf, written]
  | cons t operands ih =>
      have hcons : written (entriesOf (t :: operands)) ++ last =
          t ++ ',' :: ' ' :: (written (entriesOf operands) ++ last) := by
        simp [entriesOf, written, Entry.text]
      rw [hcons, ← ih, List.cons_append]
      cases operands with
      | nil => rw [List.nil_append, joinComma_cons_cons]
      | cons u operands => rw [List.cons_append, joinComma_cons_cons]

/-- An entry with a comma, a space and more blanks after it. -/
theorem leads_singleton {t w : Text} (ht : IsOperand t ∧ Closed t)
    (hw : ∀ c ∈ w, isBlank c = true) : Leads [⟨t, ',' :: ' ' :: w⟩] := by
  refine List.forall_mem_singleton.mpr ⟨ht.1, ht.2, List.cons_ne_nil _ _, ?_⟩
  simp only [List.forall_mem_cons]
  refine ⟨by decide, by decide, fun c hc => ?_⟩
  rw [isSeparator, hw c hc, Bool.or_true]

theorem leads_entriesOf {operands : List Text} (h : ∀ t ∈ operands, IsOperand t ∧ Closed t) :
    Leads (entriesOf operands) := by
  intro e he
  obtain ⟨t, ht, rfl⟩ := List.mem_map.mp he
  exact leads_singleton (h t ht) (List.forall_mem_nil _) _ List.mem_cons_self

theorem comma_mem_entriesOf (operands : List Text) : ∀ e ∈ entriesOf operands, ',' ∈ e.gap := by
  intro e he
  obtain ⟨t, -, rfl⟩ := List.mem_map.mp he
  exact List.mem_cons_self

theorem map_operand_entriesOf (operands : List Text) :
    (entriesOf operands).map Entry.operand = operands := by
  rw [entriesOf, List.map_map]
  exact List.map_id operands

/-! ## Addresses after other operands -/

/-- An offset and its base come out as one operand, whether blanks part them or not. -/
theorem tokenize_offset {before : List Text} {offset base w : Text}
    (hbefore : ∀ t ∈ before, IsOperand t ∧ Closed t)
    (hoffset : IsOperand offset ∧ Closed offset) (haccepts : Immediate.accepts offset = true)
    (hbase : IsOperand base ∧ Closed base) (hopen : base.head? = some '(')
    (hw : ∀ c ∈ w, isBlank c = true)
    (hjoined : IsOperand (offset ++ base) ∧ Closed (offset ++ base)) :
    tokenize (Text.joinComma (before ++ [offset ++ (w ++ base)])) = before ++ [offset ++ base] := by
  rw [joinComma_concat]
  by_cases hnil : w = []
  · subst hnil
    rw [List.nil_append, tokenize_of_commas (leads_entriesOf hbefore) (comma_mem_entriesOf before)
      hjoined.1 hjoined.2, map_operand_entriesOf]
  · have hleads : Leads (entriesOf before ++ [⟨offset, w⟩]) := by
      refine List.forall_mem_append.mpr ⟨leads_entriesOf hbefore, ?_⟩
      refine List.forall_mem_singleton.mpr ⟨hoffset.1, hoffset.2, hnil, fun c hc => ?_⟩
      rw [isSeparator, hw c hc, Bool.or_true]
    have hcomma : ',' ∉ w := by
      intro hmem
      exact absurd (hw ',' hmem) (by decide)
    have hjoins : Entry.joins ⟨offset, w⟩ ⟨base, []⟩ = true :=
      Entry.joins_iff.mpr ⟨haccepts, hcomma, hopen⟩
    have hparted : Parted (entriesOf before) :=
      parted_of_commas fun e he => comma_mem_entriesOf before e (List.dropLast_subset _ he)
    have hread := tokenize_written (hleads.spaced hbase.1 hbase.2)
    rw [List.nil_append, List.append_assoc, List.singleton_append,
      merged_of_joins hjoins hparted .nil, map_operand_entriesOf, List.map_nil] at hread
    rw [← hread]
    simp [written, Entry.text]

/-- A base without an offset comes out by itself after the blanks before it. -/
theorem tokenize_base {before : List Text} {base w : Text} (hne : before ≠ [])
    (hbefore : ∀ t ∈ before, IsOperand t ∧ Closed t) (hbase : IsOperand base ∧ Closed base)
    (hw : ∀ c ∈ w, isBlank c = true) :
    tokenize (Text.joinComma (before ++ [w ++ base])) = before ++ [base] := by
  obtain ⟨front, t, rfl⟩ : ∃ front t, before = front ++ [t] :=
    ⟨_, _, (List.dropLast_concat_getLast hne).symm⟩
  obtain ⟨hfront, ht⟩ := List.forall_mem_append.mp hbefore
  have hleads : Leads (entriesOf front ++ [⟨t, ',' :: ' ' :: w⟩]) :=
    List.forall_mem_append.mpr
      ⟨leads_entriesOf hfront, leads_singleton (ht t List.mem_cons_self) hw⟩
  have hcommas : ∀ e ∈ entriesOf front ++ [⟨t, ',' :: ' ' :: w⟩], ',' ∈ e.gap :=
    List.forall_mem_append.mpr ⟨comma_mem_entriesOf front, by simp⟩
  have hread := tokenize_of_commas hleads hcommas hbase.1 hbase.2
  rw [List.map_append, map_operand_entriesOf] at hread
  rw [joinComma_concat]
  refine Eq.trans (congrArg tokenize ?_) hread
  simp [entriesOf, written, Entry.text]

/-- An offset as it can be written before a base in parentheses: none, or one that is accepted as an
immediate. -/
def IsWrittenOffset (offset : Text) : Prop :=
  offset = [] ∨ IsOffset offset ∧ Immediate.accepts offset = true

theorem IsOffset.plain {offset : Text} (h : IsOffset offset) :
    ∀ c ∈ offset, isSeparator c = false ∧ nesting c = 0 := by
  obtain ⟨sign, digits, hsign, hdigits, rfl⟩ := h
  refine List.forall_mem_append.mpr ⟨?_, fun c hc => plain_of_isWordChar (hdigits c hc)⟩
  rcases hsign with rfl | rfl <;> decide

theorem IsWrittenOffset.isOffset {offset : Text} (h : IsWrittenOffset offset) :
    IsOffset offset := by
  rcases h with rfl | h
  · exact ⟨[], [], .inl rfl, by simp, rfl⟩
  · exact h.1

variable {before : List Text} {offset register w₁ w₂ w₃ w₄ : Text}

/-- Dividing removes the blanks of an address that stand outside its parentheses. -/
theorem tokenize_spacedAddress (hne : before ≠ []) (hbefore : ∀ t ∈ before, IsOperand t ∧ Closed t)
    (hoffset : IsWrittenOffset offset) (hregister : ∀ c ∈ register, isWordChar c = true)
    (h₁ : ∀ c ∈ w₁, isBlank c = true) (h₂ : ∀ c ∈ w₂, isBlank c = true)
    (h₃ : ∀ c ∈ w₃, isBlank c = true) :
    tokenize (Text.joinComma (before ++ [spacedAddress offset w₁ w₂ register w₃ []])) =
      before ++ [spacedAddress offset [] w₂ register w₃ []] := by
  have hblank : ∀ {w : Text}, (∀ c ∈ w, isBlank c = true) → ∀ c ∈ w, nesting c = 0 := by
    intro w hw c hc
    apply nesting_of_isSeparator
    rw [isSeparator, hw c hc, Bool.or_true]
  have hinner : ∀ c ∈ w₂ ++ (register ++ w₃), nesting c = 0 :=
    List.forall_mem_append.mpr ⟨hblank h₂, List.forall_mem_append.mpr
      ⟨fun c hc => (plain_of_isWordChar (hregister c hc)).2, hblank h₃⟩⟩
  have hbase := isOperand_spacedAddress (List.forall_mem_nil _) hinner
  have hjoined := isOperand_spacedAddress hoffset.isOffset.plain hinner
  rcases hoffset with rfl | ⟨hoffset, haccepts⟩
  · exact tokenize_base hne hbefore hbase h₁
  · have hnonempty : offset ≠ [] := by
      rintro rfl
      exact absurd haccepts (by decide)
    have hword : IsOperand offset ∧ Closed offset :=
      ⟨IsWord.isOperand ⟨hnonempty, hoffset.plain⟩, IsWord.closed ⟨hnonempty, hoffset.plain⟩⟩
    exact tokenize_offset hbefore hword haccepts hbase rfl h₁ hjoined

end Operand

/-! ## Lines -/

namespace Statement

open Operand

variable {m : Text}

/-- A line of a mnemonic, entries and one more operand, which may have blanks after it. -/
theorem parse_written {entries : List Entry} {last right : Text} (hm : m ≠ [])
    (hblank : ∀ c ∈ m, isBlank c = false) (hne : entries ≠ []) (hentries : Leads entries)
    (hlast : last ≠ []) (hend : ∀ c ∈ last.getLast?, isBlank c = false)
    (hright : ∀ c ∈ right, isBlank c = true) :
    parse (m ++ ' ' :: (written entries ++ (last ++ right))) =
      .ok ⟨lower m, tokenize (written entries ++ last)⟩ := by
  have htrim : Text.trim (written entries ++ last) = written entries ++ last := by
    obtain ⟨e, entries, rfl⟩ := List.exists_cons_of_ne_nil hne
    have he := (hentries e List.mem_cons_self).1
    apply Text.trim_eq_self
    · rw [written_cons, List.append_assoc, List.head?_append_of_ne_nil _ he.ne_nil]
      exact head?_of_unbroken he.unbroken
    · rw [List.getLast?_append_of_ne_nil _ hlast]
      exact hend
  have hparts : Parts [] m [' '] (written entries ++ last) right :=
    { left := List.forall_mem_nil _
      mnemonic_ne_nil := hm
      mnemonic := hblank
      gap_ne_nil := List.cons_ne_nil _ _
      gap := List.forall_mem_singleton.mpr (by decide)
      rest_ne_nil := List.append_ne_nil_of_right_ne_nil _ hlast
      rest := htrim
      right := hright }
  rw [← hparts.parse_eq]
  simp

variable {before : List Text} {offset register w₁ w₂ w₃ w₄ : Text}

/-- A line that ends with an address, however it is spelled. -/
theorem parse_spacedAddress (hm : m ≠ []) (hblank : ∀ c ∈ m, isBlank c = false)
    (hne : before ≠ []) (hbefore : ∀ t ∈ before, IsOperand t ∧ Closed t)
    (hoffset : IsWrittenOffset offset) (hregister : ∀ c ∈ register, isWordChar c = true)
    (hw : ∀ w ∈ [w₁, w₂, w₃, w₄], ∀ c ∈ w, isBlank c = true) :
    parse (render ⟨m, before ++ [spacedAddress offset w₁ w₂ register w₃ w₄]⟩) =
      .ok ⟨lower m, before ++ [spacedAddress offset [] w₂ register w₃ []]⟩ := by
  have hspaced : spacedAddress offset w₁ w₂ register w₃ w₄ =
      spacedAddress offset w₁ w₂ register w₃ [] ++ w₄ := by simp [spacedAddress]
  have hrender : render ⟨m, before ++ [spacedAddress offset w₁ w₂ register w₃ w₄]⟩ =
      m ++ ' ' :: (written (entriesOf before) ++
        (spacedAddress offset w₁ w₂ register w₃ [] ++ w₄)) := by
    rw [render, joinComma_concat, hspaced]
    simp
  have hentries : entriesOf before ≠ [] := by simpa [entriesOf] using hne
  have hend : ∀ c ∈ (spacedAddress offset w₁ w₂ register w₃ []).getLast?, isBlank c = false := by
    have hsplit : spacedAddress offset w₁ w₂ register w₃ [] =
        (offset ++ (w₁ ++ '(' :: (w₂ ++ (register ++ w₃)))) ++ [')'] := by simp [spacedAddress]
    rw [hsplit, List.getLast?_concat]
    intro c hc
    obtain rfl := Option.some.inj (Option.mem_def.mp hc)
    decide
  rw [hrender, parse_written hm hblank hentries (leads_entriesOf hbefore)
    (by simp [spacedAddress]) hend (hw w₄ (by simp)), ← joinComma_concat,
    tokenize_spacedAddress hne hbefore hoffset hregister (hw w₁ (by simp)) (hw w₂ (by simp))
      (hw w₃ (by simp))]

/-- A line that ends with a base and an offset apart, with blanks around the base. -/
theorem parse_apart {t word : Text} (hm : m ≠ []) (hblank : ∀ c ∈ m, isBlank c = false)
    (ht : IsOperand t ∧ Closed t) (hword : IsOperand word ∧ Closed word)
    (hoffset : IsOperand offset ∧ Closed offset) (h₂ : ∀ c ∈ w₂, isBlank c = true)
    (h₃ : ∀ c ∈ w₃, isBlank c = true) :
    parse (render ⟨m, [t, w₂ ++ word ++ w₃, offset]⟩) = .ok ⟨lower m, [t, word, offset]⟩ := by
  have hrender : render ⟨m, [t, w₂ ++ word ++ w₃, offset]⟩ = m ++ ' ' ::
      (written [⟨t, ',' :: ' ' :: w₂⟩, ⟨word, w₃ ++ [',', ' ']⟩] ++ (offset ++ [])) := by
    simp [render, joinComma_cons_cons, written, Entry.text]
  have hleads : Leads [⟨t, ',' :: ' ' :: w₂⟩, ⟨word, w₃ ++ [',', ' ']⟩] := by
    refine List.forall_mem_cons.mpr ⟨leads_singleton ht h₂ _ List.mem_cons_self, ?_⟩
    refine List.forall_mem_singleton.mpr ⟨hword.1, hword.2, by simp, ?_⟩
    refine List.forall_mem_append.mpr ⟨fun c hc => ?_, by decide⟩
    rw [isSeparator, h₃ c hc, Bool.or_true]
  have hend : ∀ c ∈ offset.getLast?, isBlank c = false :=
    getLast?_of_closed hoffset.1.unbroken hoffset.2
  rw [hrender, parse_written hm hblank (List.cons_ne_nil _ _) hleads hoffset.1.ne_nil hend
    (List.forall_mem_nil _), tokenize_of_commas hleads (by simp) hoffset.1 hoffset.2]
  rfl

end Statement

/-! ## Words -/

/-- Blanks around a register are blanks inside the parentheses. -/
theorem Operand.spacedAddress_padded (offset w₁ w₂ l word r w₃ w₄ : Text) :
    spacedAddress offset w₁ w₂ (l ++ word ++ r) w₃ w₄ =
      spacedAddress offset w₁ (w₂ ++ l) word (r ++ w₃) w₄ := by
  simp [spacedAddress]

/-- The parts of an address with blanks inside its parentheses only. -/
theorem Operand.memoryParts?_inner {offset word w₂ w₃ : Text} (hoffset : IsWrittenOffset offset)
    (hne : word ≠ []) (hword : ∀ c ∈ word, isWordChar c = true)
    (h₂ : ∀ c ∈ w₂, isBlank c = true) (h₃ : ∀ c ∈ w₃, isBlank c = true) :
    memoryParts? (spacedAddress offset [] w₂ word w₃ []) = some (offset, word) := by
  have hblank : ∀ w ∈ [[], [], w₂, w₃, []], ∀ c ∈ w, isBlank c = true := by
    simpa using ⟨h₂, h₃⟩
  exact memoryParts?_spacedAddress hoffset.isOffset hne hword hblank

/-- An address is no immediate. -/
theorem Operand.accepts_spacedAddress (offset w₁ w₂ register w₃ w₄ : Text) :
    Immediate.accepts (spacedAddress offset w₁ w₂ register w₃ w₄) = false := by
  rw [← Bool.not_eq_true]
  intro haccepts
  refine Immediate.not_mem_of_accepts haccepts (.inl rfl) ?_
  simp [spacedAddress]

/-- A text that has no blanks in lower case has none. -/
theorem isBlank_of_lower {m : Text} (h : ∀ c ∈ lower m, isBlank c = false) :
    ∀ c ∈ m, isBlank c = false := by
  intro c hc
  rw [← Bool.not_eq_true]
  intro hblank
  have hsigma : c ≠ 'Σ' := by
    rintro rfl
    exact absurd hblank (by decide +kernel)
  have hmem : c ∈ lower m :=
    mem_lower_of_mem hc hsigma (by rw [lowerChar_of_isBlank hblank]; exact List.mem_cons_self)
  rw [h c hmem] at hblank
  cases hblank

namespace Encode

/-- The mnemonics of instructions that take an address, in any case: loads, stores, jumps to
registers, and atomic operations with or without an ending for an ordering. -/
def AddressesMemory (m : Text) : Prop :=
  ∃ row ∈ Instruction.table, ∃ ending ∈ ([], 0) :: Instruction.orderings,
    (row.2.isAtomic = true ∨ ending = ([], 0)) ∧ lower m = row.1 ++ ending.1 ∧
    (row.1 ∈ Instruction.loads ∨ row.2.format = .s ∨ row.2.isAtomic = true ∨
      row.1 = "jalr".toList)

instance (m : Text) : Decidable (AddressesMemory m) := List.decidableBEx _ _

/-- The forms of operands that end with an address. -/
def addressForms : List Form := [.load, .store, .loadReserved, .atomic, .jumpRegister]

theorem formOf_jalr : ∀ row ∈ Instruction.table, row.1 = "jalr".toList →
    formOf row.1 row.2 = .jumpRegister := by decide +kernel

/-- What encoding makes of a mnemonic that takes an address. -/
structure Addressing (m : Text) : Prop where
  ne_nil : m ≠ []
  isBlank : ∀ c ∈ m, isBlank c = false
  isPseudo : Pseudo.isPseudo (lower m) = false
  form : ∀ instr, Instruction.table.lookup (splitOrdering (lower m)).1 = some instr →
    formOf (splitOrdering (lower m)).1 instr ∈ addressForms

theorem AddressesMemory.addressing {m : Text} (h : AddressesMemory m) : Addressing m := by
  have hforms : ∀ row ∈ Instruction.table,
      (row.1 ∈ Instruction.loads ∨ row.2.format = .s ∨ row.2.isAtomic = true ∨
        row.1 = "jalr".toList) → formOf row.1 row.2 ∈ addressForms := by decide +kernel
  obtain ⟨⟨base, instr⟩, hrow, ending, hending, hroom, hlower, haddress⟩ := h
  obtain ⟨⟨hne, hplain⟩, hpseudo, hdrop⟩ := Instruction.table_spelled hrow hending hroom
  have hfind : Instruction.find? base = some instr := by
    rw [Instruction.find?, Instruction.lower_of_mem hrow, Instruction.lookup_table_of_mem hrow]
  have hsplit : splitOrdering (lower m) = (base, ending.2) := by
    rw [hlower, splitOrdering_append hfind hroom hending hdrop]
  rw [← hlower] at hne hplain hpseudo
  refine ⟨?_, isBlank_of_lower fun c hc => (hplain c hc).2, ?_, ?_⟩
  · rintro rfl
    exact hne rfl
  · rw [Pseudo.isPseudo, Pseudo.find?, lower_lower, hpseudo]
    rfl
  · intro instr' hlookup
    rw [hsplit, Instruction.lookup_table_of_mem hrow] at hlookup
    obtain rfl := Option.some.inj hlookup
    rw [hsplit]
    exact hforms _ hrow haddress

/-- Operands of the forms with an address end with an address or, for a jump, with a number. -/
theorem mem_of_addressForms {m : Text} {instr : Instruction} {roles : List Role} {role : Role}
    {count : Nat} (hform : formOf m instr ∈ addressForms)
    (h : (formOf m instr).shape? instr count = some (roles ++ [role])) :
    role ∈ [Role.address, .base, .number] := by
  have hlast : ∀ form ∈ addressForms, ∀ shape ∈ form.shapes instr, ∀ last ∈ shape.getLast?,
      last ∈ [Role.address, .base, .number] := by
    simp [addressForms, Form.shapes]
  exact hlast _ hform _ (Form.mem_shapes h) role (by simp)

/-- Operands that end with an address are read by what the address is. -/
theorem readOperands_address {m : Text} {instr : Instruction} (before : List Text) {s s' : Text}
    {f : Fields} (hsound : Instruction.Sound m instr) (hform : formOf m instr ∈ addressForms)
    (hsame : Operand.parseMemory s = Operand.parseMemory s')
    (hs : Immediate.accepts s = false) (hs' : Immediate.accepts s' = false) :
    readOperands m instr (before ++ [s]) = .ok f ↔
      readOperands m instr (before ++ [s']) = .ok f := by
  have hfails : ∀ t, Immediate.accepts t = false → ∃ fault, Immediate.parse t = .error fault := by
    intro t ht
    cases hparse : Immediate.parse t with
    | ok v => simp [Immediate.accepts, hparse, Except.isOk, Except.toBool] at ht
    | error fault => exact ⟨fault, rfl⟩
  obtain ⟨fault, hs⟩ := hfails s hs
  obtain ⟨fault', hs'⟩ := hfails s' hs'
  have hrounds : ∀ form ∈ addressForms, form.rounds = false := by decide
  rw [readOperands_concat hsound (hrounds _ hform), readOperands_concat hsound (hrounds _ hform)]
  refine exists_congr fun roles => exists_congr fun role => exists_congr fun g =>
    exists_congr fun v => and_congr_right fun hshape => ?_
  have hrole := mem_of_addressForms hform hshape
  simp only [List.mem_cons, List.not_mem_nil, or_false] at hrole
  rcases hrole with rfl | rfl | rfl
  · rw [Role.read, Role.read, hsame]
  · rw [Role.read, Role.read, atomicAddress, atomicAddress, hsame]
  · -- neither of them is a number
    simp only [Role.read, hs, hs', Result.bind_eq_ok]
    simp

/-- A jump whose base and offset are apart is read as one with an address. -/
theorem readOperands_apart {m : Text} {instr : Instruction} {rd s offset register : Text}
    (hform : formOf m instr = .jumpRegister)
    (hparts : Operand.memoryParts? s = some (offset, register))
    (hne : offset ≠ []) (haccepts : Immediate.accepts offset = true)
    (hname : Register.isName register = true) :
    readOperands m instr [rd, s] = readOperands m instr [rd, register, offset] := by
  have hoffset : Operand.parseOffset offset = Immediate.parse offset := by
    rw [Operand.parseOffset, if_neg]
    simp only [Bool.or_eq_true, beq_iff_eq, not_or]
    refine ⟨hne, ?_⟩
    rintro rfl
    exact absurd haccepts (by decide)
  obtain ⟨v, hv⟩ : ∃ v, Immediate.parse offset = .ok v := by
    cases hparse : Immediate.parse offset with
    | ok v => exact ⟨v, rfl⟩
    | error fault => simp [Immediate.accepts, hparse, Except.isOk, Except.toBool] at haccepts
  have hmemory := Operand.parseMemory_of_parts hparts (hoffset.trans hv) hname
  unfold readOperands
  simp only [hform, hmemory, hv]
  rfl

/-- Lines of one mnemonic whose operands are read alike are encoded alike. -/
theorem sameOutcome_of_readOperands {p : Profile} {line line' m : Text} {ops ops' : List Text}
    (hparse : Statement.parse line = .ok ⟨m, ops⟩) (hparse' : Statement.parse line' = .ok ⟨m, ops'⟩)
    (hreal : Pseudo.isPseudo m = false) (hops : 1 < ops.length) (hops' : 1 < ops'.length)
    (h : ∀ instr f, Instruction.table.lookup (splitOrdering m).1 = some instr →
      (readOperands (splitOrdering m).1 instr ops = .ok f ↔
        readOperands (splitOrdering m).1 instr ops' = .ok f)) : SameOutcome p line line' := by
  have hself : ∀ operands : List Text, 1 < operands.length →
      Pseudo.real ⟨m, operands⟩ = .ok ⟨m, operands⟩ := by
    intro operands hlength
    rw [Pseudo.real, hreal, Pseudo.expandShort_eq_self (Nat.ne_of_gt hlength)]
    rfl
  have hlowered := (Statement.parse_yields line).ok hparse
  have hreads : ∀ instr d, Reads ⟨m, ops⟩ instr d ↔ Reads ⟨m, ops'⟩ instr d := by
    intro instr d
    have hsame : ∀ hsplit : splitOrdering m = (d.mnemonic, d.ordering), _ := fun hsplit =>
      hsplit ▸ h instr d.fields
    constructor
    · intro hreads
      exact ⟨hreads.split, hreads.row, (hsame hreads.split hreads.row).mp hreads.operands⟩
    · intro hreads
      exact ⟨hreads.split, hreads.row, (hsame hreads.split hreads.row).mpr hreads.operands⟩
  apply sameOutcome_of_iff
  intro w
  rw [encodeWord_of_real hparse (hself ops hops), encodeWord_of_real hparse' (hself ops' hops'),
    encodeReal_eq_ok_iff hlowered, encodeReal_eq_ok_iff ((Statement.parse_yields line').ok hparse')]
  simp only [hreads]

variable {p : Profile} {m offset word w₁ w₂ w₃ w₄ v₁ v₂ v₃ v₄ : Text} {before : List Text}

/-- An address is encoded alike with any blanks in its gaps. -/
theorem sameOutcome_spacedAddress (hm : Addressing m) (hne : before ≠ [])
    (hbefore : ∀ t ∈ before, Operand.IsOperand t ∧ Operand.Closed t)
    (hoffset : Operand.IsWrittenOffset offset) (hnonempty : word ≠ [])
    (hword : ∀ c ∈ word, isWordChar c = true)
    (hw : ∀ w ∈ [w₁, w₂, w₃, w₄], ∀ c ∈ w, isBlank c = true)
    (hv : ∀ v ∈ [v₁, v₂, v₃, v₄], ∀ c ∈ v, isBlank c = true) :
    SameOutcome p
      (Statement.render ⟨m, before ++ [Operand.spacedAddress offset w₁ w₂ word w₃ w₄]⟩)
      (Statement.render ⟨m, before ++ [Operand.spacedAddress offset v₁ v₂ word v₃ v₄]⟩) := by
  have hmany : ∀ t, 1 < (before ++ [t]).length := by
    intro t
    have := List.length_pos_of_ne_nil hne
    simpa using this
  have hparse := Statement.parse_spacedAddress hm.ne_nil hm.isBlank hne hbefore hoffset hword hw
  have hparse' := Statement.parse_spacedAddress hm.ne_nil hm.isBlank hne hbefore hoffset hword hv
  refine sameOutcome_of_readOperands hparse hparse' hm.isPseudo (hmany _) (hmany _) ?_
  intro instr f hlookup
  refine readOperands_address before (Instruction.sound_of_mem (mem_of_lookup hlookup))
    (hm.form instr hlookup) ?_ (Operand.accepts_spacedAddress ..) (Operand.accepts_spacedAddress ..)
  rw [Operand.parseMemory, Operand.parseMemory,
    Operand.memoryParts?_inner hoffset hnonempty hword (hw w₂ (by simp)) (hw w₃ (by simp)),
    Operand.memoryParts?_inner hoffset hnonempty hword (hv v₂ (by simp)) (hv v₃ (by simp))]

/-- A jump to a register is encoded alike with an address and with a base and an offset apart. -/
theorem sameOutcome_apart {rd : Text} (hm : Addressing m) (hjalr : lower m = "jalr".toList)
    (hrd : Operand.IsOperand rd ∧ Operand.Closed rd) (hoffset : Operand.IsWrittenOffset offset)
    (hsome : offset ≠ []) (hnonempty : word ≠ []) (hword : ∀ c ∈ word, isWordChar c = true)
    (hname : Register.isName word = true) (h₂ : ∀ c ∈ w₂, isBlank c = true)
    (h₃ : ∀ c ∈ w₃, isBlank c = true) :
    SameOutcome p (Statement.render ⟨m, [rd, Operand.spacedAddress offset [] w₂ word w₃ []]⟩)
      (Statement.render ⟨m, [rd, w₂ ++ word ++ w₃, offset]⟩) := by
  have hplain : Operand.IsWord offset := ⟨hsome, hoffset.isOffset.plain⟩
  have hbase : Operand.IsWord word :=
    ⟨hnonempty, fun c hc => Operand.plain_of_isWordChar (hword c hc)⟩
  have haccepts : Immediate.accepts offset = true := (hoffset.resolve_left hsome).2
  have hblank : ∀ w ∈ [[], w₂, w₃, []], ∀ c ∈ w, isBlank c = true := by
    simpa using ⟨h₂, h₃⟩
  have hparse := Statement.parse_spacedAddress hm.ne_nil hm.isBlank (List.cons_ne_nil rd [])
    (List.forall_mem_singleton.mpr hrd) hoffset hword hblank
  have hparse' := Statement.parse_apart hm.ne_nil hm.isBlank hrd ⟨hbase.isOperand, hbase.closed⟩
    ⟨hplain.isOperand, hplain.closed⟩ h₂ h₃
  refine sameOutcome_of_readOperands hparse hparse' hm.isPseudo ?_ ?_ ?_
  · simp
  · simp
  · intro instr f hlookup
    have hsplit : (splitOrdering (lower m)).1 = "jalr".toList := by
      rw [hjalr]
      decide +kernel
    rw [hsplit] at hlookup ⊢
    have hform : formOf "jalr".toList instr = .jumpRegister :=
      formOf_jalr _ (mem_of_lookup hlookup) rfl
    rw [List.singleton_append, readOperands_apart hform
      (Operand.memoryParts?_inner hoffset hnonempty hword h₂ h₃) hsome haccepts hname]

end Encode

open Encode

/-- **Memory operands are spelled freely**: with blanks in all of its gaps, an address after the
other operands of a load, a store, an atomic operation or a jump to a register is encoded as it is
without them, and a jump to a register may be written with its base and its offset apart. -/
theorem encode_spelling {m offset r w₁ w₂ w₃ w₄ : Text} {before : List Text} (p : Profile)
    (hm : AddressesMemory m) (hne : before ≠ [])
    (hbefore : ∀ t ∈ before, Operand.IsOperand t ∧ Operand.Closed t)
    (hoffset : Operand.IsWrittenOffset offset) (hname : Register.isName r = true)
    (hblank : ∀ w ∈ [w₁, w₂, w₃, w₄], ∀ c ∈ w, isBlank c = true) :
    SameOutcome p
        (Statement.render ⟨m, before ++ [Operand.spacedAddress offset w₁ w₂ r w₃ w₄]⟩)
        (Statement.render ⟨m, before ++ [Operand.address offset r]⟩) ∧
      ∀ rd, lower m = "jalr".toList → offset ≠ [] → Operand.IsOperand rd → Operand.Closed rd →
        SameOutcome p (Statement.render ⟨m, [rd, Operand.address offset r]⟩)
          (Statement.render ⟨m, [rd, r, offset]⟩) := by
  obtain ⟨n, hn⟩ := Option.isSome_iff_exists.mp hname
  obtain ⟨l, word, e, rfl, hl, he, hnonempty, hword, hfind⟩ := RegisterFile.exists_word hn
  have hcompact : Operand.address offset (l ++ word ++ e) =
      Operand.spacedAddress offset [] l word e [] := by
    rw [Operand.address_eq_spacedAddress, Operand.spacedAddress_padded, List.nil_append,
      List.append_nil]
  rw [hcompact, Operand.spacedAddress_padded]
  simp only [List.forall_mem_cons] at hblank
  obtain ⟨h₁, h₂, h₃, h₄, -⟩ := hblank
  constructor
  · apply sameOutcome_spacedAddress hm.addressing hne hbefore hoffset hnonempty hword
    · simp only [List.forall_mem_cons, List.forall_mem_append]
      exact ⟨h₁, ⟨h₂, hl⟩, ⟨he, h₃⟩, h₄, List.forall_mem_nil _⟩
    · simpa using ⟨hl, he⟩
  · intro rd hjalr hsome hrd hclosed
    have hnames : Register.isName word = true := by
      rw [Register.isName, hfind]
      rfl
    exact sameOutcome_apart hm.addressing hjalr ⟨hrd, hclosed⟩ hoffset hsome hnonempty hword hnames
      hl he

/-- Blanks of other kinds around a register in upper case, and a jump in both of its forms. -/
theorem encode_spelling_spaced :
    SameOutcome .rv32i "lw a0, -4 \u2003( SP\t) ".toList "lw a0, -4(SP)".toList ∧
      encode .rv32i "lw a0, -4(SP)".toList = .ok 0xFFC12503 ∧
      SameOutcome .rv32i "JALR ra, 0x10(t0)".toList "JALR ra, t0, 0x10".toList := by
  have hload : AddressesMemory "lw".toList := by decide +kernel
  have hjump : AddressesMemory "JALR".toList := by decide +kernel
  have hbefore : ∀ t ∈ ["a0".toList], Operand.IsOperand t ∧ Operand.Closed t := by decide +kernel
  have hoffset : Operand.IsWrittenOffset "-4".toList :=
    .inr ⟨⟨['-'], ['4'], .inr rfl, by decide, rfl⟩, by decide +kernel⟩
  have hradix : Operand.IsWrittenOffset "0x10".toList :=
    .inr ⟨⟨[], "0x10".toList, .inl rfl, by decide, rfl⟩, by decide +kernel⟩
  have hblank : ∀ w ∈ [" \u2003".toList, " ".toList, "\t".toList, " ".toList],
      ∀ c ∈ w, isBlank c = true := by decide +kernel
  refine ⟨?_, by decide +kernel, ?_⟩
  · have hname : Register.isName "SP".toList = true := by decide +kernel
    exact (encode_spelling .rv32i hload (List.cons_ne_nil _ []) hbefore hoffset hname hblank).1
  · have hname : Register.isName "t0".toList = true := by decide +kernel
    exact (encode_spelling .rv32i hjump (List.cons_ne_nil _ []) hbefore hradix hname hblank).2
      "ra".toList (by decide +kernel) (by decide) (by decide +kernel) (by decide +kernel)

end RiscAsm

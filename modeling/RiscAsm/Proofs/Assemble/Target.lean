import RiscAsm.Proofs.Assemble.Branch
import RiscAsm.Proofs.Instruction.Codes
import RiscAsm.Proofs.Label
import RiscAsm.Proofs.Pseudo

/-!
# Targets written as numbers and as labels

Two descriptions tell where a line may end with a place in the program: the numbers of operands with
which a mnemonic takes a label (`Encode.takesLabel`), and the templates, short forms and formats
that the encoder goes through.  They agree: a line that is encoded as a branch or a jump takes a
label (`takesLabel_of_reads`), and its word depends on its last operand only through the number that
is read there (`encode_withLast`).  So a label may stand for any target that can be written as a
number, and a label that was not replaced is never encoded (`branch_target_agreement`).
-/

namespace RiscAsm

/-- The statement with another last operand. -/
def Statement.withLast (s : Statement) (last : Text) : Statement :=
  { s with operands := s.operands.dropLast ++ [last] }

/-- The slots that the operands of a template are made from. -/
def Pseudo.Expansion.slots : Pseudo.Expansion → List Pseudo.Slot
  | .template _ _ slots => slots
  | .loadImmediate => []

/-- A pseudo-instruction that stands for a branch or a jump is one that takes a label. -/
theorem Pseudo.table_branches : ∀ entry ∈ Pseudo.table,
    ∀ instr ∈ Instruction.table.lookup entry.2.target, instr.Branches →
      ∃ count ∈ Pseudo.jumps.lookup entry.1, entry.2.Branches count := by decide +kernel

/-- The last operand of a pseudo-instruction that takes a label is used only once. -/
theorem Pseudo.jumps_once : ∀ jump ∈ Pseudo.jumps, ∀ e ∈ Pseudo.table.lookup jump.1,
    ∀ slot ∈ e.slots.dropLast, slot ≠ .operand (jump.2 - 1) := by decide +kernel

/-- An expansion has the mnemonic of its template, which asks for a number of operands. -/
theorem Pseudo.expand_eq_ok {m : Text} {ops : List Text} {r : Statement}
    (h : Pseudo.expand m ops = .ok r) :
    ∃ e, Pseudo.table.lookup (lower m) = some e ∧ r.mnemonic = e.target ∧
      ∀ count, e.Branches count → ops.length = count := by
  rcases Pseudo.expand_cases h with ⟨slots, target, hlookup, rfl⟩ |
    ⟨rd, constant, value, hlookup, -, -, rfl⟩
  · exact ⟨_, hlookup, rfl, fun _ hbranches => hbranches.1⟩
  · exact ⟨_, hlookup, rfl, fun _ hbranches => absurd hbranches id⟩

/-- Apart from jumps to registers, only a jump with one operand has a short form. -/
theorem Pseudo.expandShort_cases {s : Statement} (hjalr : s.mnemonic ≠ "jalr".toList) :
    Pseudo.expandShort s = s ∨
      ∃ target, s.operands = [target] ∧
        Pseudo.expandShort s = ⟨s.mnemonic, ["ra".toList, target]⟩ := by
  unfold Pseudo.expandShort
  split
  · rename_i target hone
    split
    · exact .inr ⟨target, hone, rfl⟩
    · exact .inl rfl
  · exact .inl rfl

namespace Encode

open Instruction (Sound)

/-! ## Branches take labels -/

/-- No ordering is split off a branch or a jump. -/
theorem Reads.mnemonic_eq {r : Statement} {instr : Instruction} {d : Denotation}
    (h : Reads r instr d) (hbranches : instr.Branches) : d.mnemonic = r.mnemonic := by
  rcases splitOrdering_cases h.split with ⟨hsame, -⟩ | ⟨ending, other, -, -, hfind, hatomic⟩
  · exact hsame
  · have hmem := mem_of_lookup h.row
    rw [Instruction.find?, Instruction.lower_of_mem hmem, h.row] at hfind
    obtain rfl := Option.some.inj hfind
    have hr := ((Instruction.sound_of_mem hmem).atomic hatomic).1
    rw [Instruction.Branches, hr] at hbranches
    rcases hbranches with hb | hj
    · cases hb
    · cases hj

/-- A branch has three operands and a jump has two. -/
theorem length_of_readOperands {m : Text} {instr : Instruction} {operands : List Text} {f : Fields}
    (hs : Sound m instr) (h : readOperands m instr operands = .ok f) :
    (instr.format = .b → operands.length = 3) ∧ (instr.format = .j → operands.length = 2) := by
  obtain ⟨found, roles, hsplit, hshape, -⟩ := (readOperands_eq_ok_iff hs).mp h
  have hroles := Form.mem_shapes hshape
  have hlength := Form.length_shape hshape
  constructor
  · intro hb
    rw [eq_branch_of_format? (hs.format.trans (congrArg some hb))] at hsplit hroles
    obtain rfl := Except.ok.inj hsplit
    obtain rfl := List.mem_singleton.mp hroles
    exact hlength.symm
  · intro hj
    rw [eq_jump_of_format? (hs.format.trans (congrArg some hj))] at hsplit hroles
    obtain rfl := Except.ok.inj hsplit
    obtain rfl := List.mem_singleton.mp hroles
    exact hlength.symm

/-- The table of pseudo-instructions has a row for each that takes a label. -/
theorem lookup_jumps_eq_none {m : Text} (h : Pseudo.isPseudo m = false) :
    Pseudo.jumps.lookup (lower m) = none := by
  cases hjump : Pseudo.jumps.lookup (lower m) with
  | none => rfl
  | some count =>
      obtain ⟨-, e, he, -⟩ := Pseudo.jumps_branch _ (mem_of_lookup hjump)
      rw [Pseudo.isPseudo, Pseudo.find?, Option.mem_def.mp he] at h
      cases h

/-- A label is taken only where there is an operand. -/
theorem exists_last_of_takesLabel {m : Text} {operands : List Text}
    (h : takesLabel m operands.length = true) : ∃ last, operands.getLast? = some last := by
  have hjumps : ∀ jump ∈ Pseudo.jumps, jump.2 ≠ 0 := by decide
  cases operands with
  | cons first rest => exact ⟨_, List.getLast?_eq_some_getLast (List.cons_ne_nil first rest)⟩
  | nil =>
      unfold takesLabel labelCounts at h
      split at h
      · rename_i count hlookup
        simp only [List.length_nil, List.any_cons, List.any_nil, Bool.or_false, beq_iff_eq] at h
        exact absurd (Int.natCast_eq_zero.mp h) (hjumps _ (mem_of_lookup hlookup))
      · split at h <;> cases h

/-- A pseudo-instruction that stands for a branch or a jump takes a label. -/
theorem takesLabel_of_expand {s r : Statement} {instr : Instruction}
    (hexpand : Pseudo.expand s.mnemonic s.operands = .ok r)
    (hrow : Instruction.table.lookup r.mnemonic = some instr) (hbranches : instr.Branches) :
    takesLabel s.mnemonic s.operands.length = true := by
  obtain ⟨e, hlookup, htarget, hlengths⟩ := Pseudo.expand_eq_ok hexpand
  rw [htarget] at hrow
  obtain ⟨count, hcount, he⟩ :=
    Pseudo.table_branches _ (mem_of_lookup hlookup) instr hrow hbranches
  have hlength := hlengths count he
  simp only [takesLabel, labelCounts, Option.mem_def.mp hcount, hlength, List.any_cons,
    List.any_nil, beq_self_eq_true, Bool.or_false]

/-- A line that stands for a branch or a jump takes a label. -/
theorem takesLabel_of_reads {s r : Statement} {instr : Instruction} {d : Denotation}
    (hreal : Pseudo.real s = .ok r) (hreads : Reads r instr d) (hbranches : instr.Branches) :
    takesLabel s.mnemonic s.operands.length = true := by
  have hmem := mem_of_lookup hreads.row
  have hname := hreads.mnemonic_eq hbranches
  unfold Pseudo.real at hreal
  split at hreal
  · exact takesLabel_of_expand hreal (hname ▸ hreads.row) hbranches
  · -- an instruction of the table, perhaps in its short form
    rename_i hpseudo
    obtain rfl := Except.ok.inj hreal
    rw [Pseudo.mnemonic_expandShort] at hname
    obtain ⟨-, hjalr, -, -⟩ := Instruction.table_branches _ hmem hbranches
    obtain ⟨hthree, htwo⟩ :=
      length_of_readOperands (Instruction.sound_of_mem hmem) hreads.operands
    rw [hname] at hjalr
    have hfind : Instruction.find? s.mnemonic = some instr := by
      rw [← hname, Instruction.find?, Instruction.lower_of_mem hmem, hreads.row]
    simp only [takesLabel, labelCounts, lookup_jumps_eq_none (by simpa using hpseudo), hfind,
      Option.map_some]
    rcases hbranches with hb | hj
    · have hlength := hthree hb
      rcases Pseudo.expandShort_cases hjalr with hsame | ⟨target, -, hshort⟩
      · rw [hsame] at hlength
        simp [hb, hlength]
      · rw [hshort] at hlength
        cases hlength
    · have hlength := htwo hj
      rcases Pseudo.expandShort_cases hjalr with hsame | ⟨target, hone, -⟩
      · rw [hsame] at hlength
        simp [hj, hlength]
      · simp [hj, hone]

end Encode

/-! ## Words depend on the number that is read -/

theorem Statement.length_withLast {s : Statement} (h : s.operands ≠ []) (new : Text) :
    (s.withLast new).operands.length = s.operands.length := by
  have hpos := List.length_pos_iff.mpr h
  rw [withLast, List.length_append, List.length_dropLast, List.length_singleton]
  omega

/-- A slot for another operand than the last is filled as before. -/
theorem Pseudo.fill_dropLast {ops : List Text} {slot : Pseudo.Slot}
    (hslot : slot ≠ .operand (ops.length - 1)) (new : Text) :
    Pseudo.fill (ops.dropLast ++ [new]) slot = Pseudo.fill ops slot := by
  cases slot with
  | fixed content => rfl
  | operand number =>
      have hne : number ≠ ops.length - 1 := fun h => hslot (by rw [h])
      simp only [Pseudo.fill, List.getD_eq_getElem?_getD]
      by_cases hlt : number < ops.length - 1
      · rw [List.getElem?_append_left (by simpa using hlt), List.getElem?_dropLast, if_pos hlt]
      · rw [List.getElem?_eq_none (by simp; omega), List.getElem?_eq_none (by omega)]

/-- A template with the last operand in its last slot, and there only, passes a new one on. -/
theorem Pseudo.map_fill_dropLast {ops : List Text} {slots : List Pseudo.Slot}
    (hlast : slots.getLast? = some (.operand (ops.length - 1)))
    (honce : ∀ slot ∈ slots.dropLast, slot ≠ .operand (ops.length - 1)) (new : Text) :
    slots.map (Pseudo.fill (ops.dropLast ++ [new])) =
      (slots.map (Pseudo.fill ops)).dropLast ++ [new] := by
  obtain ⟨front, rfl⟩ := List.getLast?_eq_some_iff.mp hlast
  rw [List.dropLast_concat] at honce
  have hfront : front.map (Pseudo.fill (ops.dropLast ++ [new])) = front.map (Pseudo.fill ops) :=
    List.map_congr_left fun slot hslot => Pseudo.fill_dropLast (honce slot hslot) new
  have hnew : Pseudo.fill (ops.dropLast ++ [new]) (.operand (ops.length - 1)) = new := by
    rw [← List.length_dropLast]
    simp [Pseudo.fill]
  rw [List.map_append, List.map_append, hfront, List.map_singleton, List.map_singleton, hnew,
    List.dropLast_concat]

/-- The target of a jump in its short form is its last operand. -/
theorem Pseudo.expandShort_withLast {s : Statement} (hjalr : s.mnemonic ≠ "jalr".toList)
    (hops : s.operands ≠ []) (new : Text) :
    Pseudo.expandShort (s.withLast new) = (Pseudo.expandShort s).withLast new := by
  by_cases hone : s.operands.length = 1
  · obtain ⟨m, ops⟩ := s
    obtain ⟨target, rfl⟩ := List.length_eq_one_iff.mp hone
    simp only [Statement.withLast, Pseudo.expandShort, List.dropLast_singleton, List.nil_append]
    split
    · rfl
    · rfl
  · have hlength := Statement.length_withLast hops new
    rw [Pseudo.expandShort_eq_self hone, Pseudo.expandShort_eq_self (hlength ▸ hone)]

namespace Encode

open Instruction (Sound)

/-- Another last operand of a line that takes a label is passed on to the instruction that the line
stands for. -/
theorem real_withLast {s r : Statement} (hs : ∀ c ∈ s.mnemonic, IsLowered c)
    (htakes : takesLabel s.mnemonic s.operands.length = true) (hops : s.operands ≠ [])
    (h : Pseudo.real s = .ok r) (new : Text) :
    Pseudo.real (s.withLast new) = .ok (r.withLast new) := by
  obtain ⟨hlower, -, hjump | ⟨instr, hrow, hbranches⟩⟩ := takesLabel_cases hs htakes
  · -- a pseudo-instruction for a jump
    obtain ⟨-, e, he, hbranches⟩ := Pseudo.jumps_branch _ hjump
    have honce := Pseudo.jumps_once _ hjump e he
    cases e with
    | loadImmediate => exact absurd hbranches id
    | template target arity slots =>
        obtain ⟨rfl, hslots, -⟩ := hbranches
        have hpseudo : Pseudo.isPseudo s.mnemonic = true := by
          rw [Pseudo.isPseudo, Pseudo.find?, hlower, Option.mem_def.mp he, Option.isSome_some]
        have hexpand : ∀ ops : List Text, ops.length = s.operands.length →
            Pseudo.real ⟨s.mnemonic, ops⟩ = .ok ⟨target, slots.map (Pseudo.fill ops)⟩ := by
          intro ops hlength
          rw [Pseudo.real, if_pos hpseudo, Pseudo.expand]
          simp only [hlower, Option.mem_def.mp he, hlength, if_true]
        have hr := hexpand s.operands rfl
        obtain rfl := Except.ok.inj (hr.symm.trans h)
        have hmap : slots.map (Pseudo.fill (s.withLast new).operands) = _ :=
          Pseudo.map_fill_dropLast hslots honce new
        refine (hexpand _ (Statement.length_withLast hops new)).trans ?_
        rw [hmap]
        rfl
  · -- an instruction of the table
    obtain ⟨-, hjalr, hpseudo, -⟩ := Instruction.table_branches _ (mem_of_lookup hrow) hbranches
    rw [Pseudo.real, if_neg (by simp [hpseudo])] at h
    obtain rfl := Except.ok.inj h
    rw [Pseudo.real, if_neg (by simp [Statement.withLast, hpseudo])]
    congr 1
    exact Pseudo.expandShort_withLast hjalr hops new

/-- The operands of a branch or a jump are read alike when the same is read from their ends. -/
theorem readOperands_dropLast {m last new : Text} {instr : Instruction} {operands : List Text}
    (hs : Sound m instr) (hbranches : instr.Branches) (hlast : operands.getLast? = some last)
    (hsame : Immediate.parse new = Immediate.parse last) {f : Fields} :
    readOperands m instr (operands.dropLast ++ [new]) = .ok f ↔
      readOperands m instr operands = .ok f := by
  obtain ⟨front, rfl⟩ := List.getLast?_eq_some_iff.mp hlast
  have hrounds := rounds_of_branches hs hbranches
  rw [List.dropLast_concat, readOperands_concat hs hrounds, readOperands_concat hs hrounds]
  refine exists_congr fun roles => exists_congr fun role => exists_congr fun g =>
    exists_congr fun v => and_congr_right fun hshape => ?_
  rw [eq_number_of_branches hs hbranches hshape, Role.read, Role.read, hsame]

/-- The word of a line that takes a label depends on its last operand only through the number that
is read there. -/
theorem encode_withLast {p : Profile} {line line' last new : Text} {s : Statement} {w : Nat}
    (hparse : Statement.parse line = .ok s)
    (hparse' : Statement.parse line' = .ok (s.withLast new))
    (htakes : takesLabel s.mnemonic s.operands.length = true)
    (hlast : s.operands.getLast? = some last)
    (hsame : Immediate.parse new = Immediate.parse last) (h : encode p line = .ok w) :
    encode p line' = .ok w := by
  have hs := (Statement.parse_yields line).ok hparse
  have hops : s.operands ≠ [] := by
    rintro hnil
    rw [hnil] at hlast
    cases hlast
  obtain ⟨instr, d, v, ⟨s', r, hs', hreal, hreads⟩, hrest⟩ := encode_eq_ok_iff.mp h
  obtain rfl := Except.ok.inj (hparse.symm.trans hs')
  obtain ⟨hlast', hbranches⟩ := hreads.of_takesLabel hs htakes hlast hreal
  have hsound := Instruction.sound_of_mem (mem_of_lookup hreads.row)
  refine encode_eq_ok_iff.mpr ⟨instr, d, v, ⟨_, _, hparse', real_withLast hs htakes hops hreal new,
    ⟨hreads.split, hreads.row, ?_⟩⟩, hrest⟩
  exact (readOperands_dropLast hsound hbranches hlast' hsame).mpr hreads.operands

end Encode

open Encode

/-! ## Labels in place of numbers -/

/-- A branch or a jump that has a word leads to a number that can be written. -/
theorem tooLong_of_pack {instr : Instruction} {m : Text} {f : Fields} {bits : Int} {w : Nat}
    (hrow : (m, instr) ∈ Instruction.table) (hf : instr.Suits m f) (hbits : bits = 5 ∨ bits = 6)
    (hbranches : instr.Branches) (h : instr.pack m bits f = .ok w) :
    Numeral.tooLong f.imm = false := by
  have hcodes : instr.Complete m bits f :=
    hf.complete (Instruction.sound_of_mem hrow) (Instruction.lower_of_mem hrow)
  have hrange := (Instruction.exists_pack_iff hcodes hbits).mp ⟨w, h⟩
  rcases hbranches with hb | hj
  · simp only [Instruction.InRange, hb] at hrange
    exact Numeral.tooLong_of_small (by omega) (by omega)
  · simp only [Instruction.InRange, hj] at hrange
    exact Numeral.tooLong_of_small (by omega) (by omega)

/-- A label that stands for the number at the end of a line may take its place. -/
theorem encodesTo_withLast {settings : Settings} {labels : LabelTable} {line : Text}
    {line' : SourceLine} {s : Statement} {last name : Text} {v : Int} {index w : Nat}
    (hparse : Statement.parse line = .ok s) (h : encode settings.profile line = .ok w)
    (htakes : takesLabel s.mnemonic s.operands.length = true)
    (hlast : s.operands.getLast? = some last) (hv : Immediate.parse last = .ok v)
    (hlong : Numeral.tooLong v = false) (habsolute : settings.branches = .absolute)
    (hname : Immediate.accepts name = false) (hget : labels.get? name = some v)
    (hparse' : Statement.parse line'.text = .ok (s.withLast name)) :
    EncodesTo settings labels line' index w := by
  have hops : s.operands ≠ [] := by
    intro hnil
    rw [hnil] at hlast
    cases hlast
  have hlabel : labelOperand? (s.withLast name) = some name := by
    refine labelOperand?_eq_some.mpr ⟨?_, List.getLast?_concat, hname⟩
    rw [Statement.length_withLast hops]
    exact htakes
  -- the number takes the place of the label, which took the place of the number
  have hnumber : (s.withLast name).retarget v = s.withLast (Numeral.ofInt v) := by
    simp [Statement.retarget, Statement.withLast]
  refine ⟨((s.withLast name).retarget v).render, ?_, ?_⟩
  · refine patch_eq_ok_iff.mpr (.inr ⟨_, name, v, hparse', hlabel, hget, ?_⟩)
    rw [habsolute]
    rfl
  · have hread := Statement.parse_render_retarget hparse' v
    rw [hnumber] at hread ⊢
    exact encode_withLast hparse hread htakes hlast ((Immediate.parse_ofInt hlong).trans hv.symm) h

/-- A name of a label can be written in place of the last operand. -/
theorem Statement.parse_render_withLast {line name : Text} {s : Statement}
    (h : Statement.parse line = .ok s) (hname : Label.isName name = true) :
    Statement.parse (s.withLast name).render = .ok (s.withLast name) := by
  obtain ⟨hoperands, hclosed⟩ :=
    Statement.operands_concat h (Label.isWord_of_isName hname).isOperand
  exact Statement.parse_render_of_parse h hoperands hclosed

/-- **Branches with numbers and with labels agree**: a line that is encoded as a branch or a jump
takes a label, and its word leads to the number that is read from its last operand.  Any label can
be written there instead, and where it stands for the same number in a program with absolute
branches, the line has the same word.  Conversely, a line that takes a label but ends with no number
fails with an encoding diagnostic. -/
theorem branch_target_agreement {p : Profile} {line : Text} {s : Statement}
    (hparse : Statement.parse line = .ok s) :
    (∀ w instr d, encode p line = .ok w → Describes line instr d → instr.Branches →
      takesLabel s.mnemonic s.operands.length = true ∧
      ∃ last v, s.operands.getLast? = some last ∧ Immediate.parse last = .ok v ∧
        Word.target? w = some v ∧
        (∀ name, Label.isName name = true → Immediate.accepts name = false ∧
          Statement.parse (s.withLast name).render = .ok (s.withLast name)) ∧
        ∀ (settings : Settings) (labels : LabelTable) (name : Text) (line' : SourceLine)
          (index : Nat), settings.profile = p → settings.branches = .absolute →
          Immediate.accepts name = false → labels.get? name = some v →
          Statement.parse line'.text = .ok (s.withLast name) →
          EncodesTo settings labels line' index w) ∧
    ∀ last, takesLabel s.mnemonic s.operands.length = true → s.operands.getLast? = some last →
      Immediate.accepts last = false →
      ∃ reason, encode p line = .error (.diagnostic { kind := .encoding, reason }) := by
  constructor
  · intro w instr d hword hdescribes hbranches
    obtain ⟨instr', d', packed, hdescribes', -, hpack, -⟩ := encode_eq_ok_iff.mp hword
    obtain ⟨rfl, rfl⟩ := hdescribes.unique hdescribes'
    obtain ⟨s', r, hs', hreal, hreads⟩ := hdescribes
    obtain rfl := Except.ok.inj (hparse.symm.trans hs')
    have htakes := takesLabel_of_reads hreal hreads hbranches
    obtain ⟨last, hlast⟩ := exists_last_of_takesLabel htakes
    obtain ⟨v, hv, htarget⟩ := target?_of_encodeWord hparse htakes hlast (encode_eq_ok.mp hword)
    refine ⟨htakes, last, v, hlast, hv, htarget, ?_, ?_⟩
    · intro name hname
      exact ⟨Label.not_accepts_of_isName hname, Statement.parse_render_withLast hparse hname⟩
    intro settings labels name line' index hprofile habsolute hname hget hparse'
    have hmem := mem_of_lookup hreads.row
    have hsound := Instruction.sound_of_mem hmem
    -- the number is the immediate that was packed, so it is small
    have hlong : Numeral.tooLong v = false := by
      obtain ⟨hlast', -⟩ :=
        hreads.of_takesLabel ((Statement.parse_yields line).ok hparse) htakes hlast hreal
      have himm := imm_of_readOperands hsound hbranches hlast' hreads.operands
      obtain rfl := Except.ok.inj (hv.symm.trans himm)
      exact tooLong_of_pack hmem ((readOperands_yields hsound _).ok hreads.operands)
        (shiftBits_eq p d.mnemonic) hbranches hpack
    subst hprofile
    exact encodesTo_withLast hparse hword htakes hlast hv hlong habsolute hname hget hparse'
  · intro last htakes hlast hnumber
    cases hword : encode p line with
    | error failure =>
        obtain ⟨reason, rfl⟩ := encode_eq_error hword
        exact ⟨reason, rfl⟩
    | ok w =>
        obtain ⟨v, hv, -⟩ := target?_of_encodeWord hparse htakes hlast (encode_eq_ok.mp hword)
        rw [Immediate.accepts, hv] at hnumber
        cases hnumber

/-- A branch back in a pseudo-instruction, with a number and with a label, and a jump in its short
form to a label that was not replaced. -/
theorem branch_target_agreement_short :
    encode .rv32i "BGTZ x5, -8".toList = .ok 0xFE504CE3 ∧
      takesLabel "bgtz".toList 2 = true ∧ Word.target? 0xFE504CE3 = some (-8) ∧
      EncodesTo { profile := .rv32i, branches := .absolute } ⟨[("back".toList, -8)]⟩
        ⟨7, "bgtz x5 back".toList⟩ 3 0xFE504CE3 ∧
      ∃ reason, encode .auto "jal back".toList =
        .error (.diagnostic { kind := .encoding, reason }) := by
  have hparse : Statement.parse "BGTZ x5, -8".toList =
      .ok ⟨"bgtz".toList, ["x5".toList, "-8".toList]⟩ := by decide +kernel
  have hword : encode .rv32i "BGTZ x5, -8".toList = .ok 0xFE504CE3 := by decide +kernel
  have hdescribes : Describes "BGTZ x5, -8".toList
      { opcode := 0x63, format := .b, funct3 := some 4 }
      ⟨"blt".toList, 0, { rs1 := 0, rs2 := 5, imm := -8 }⟩ :=
    ⟨_, ⟨"blt".toList, ["x0".toList, "x5".toList, "-8".toList]⟩, hparse, by decide +kernel,
      ⟨by decide +kernel, by decide +kernel, by decide +kernel⟩⟩
  obtain ⟨htakes, last, v, hlast, hv, htarget, -, hlabel⟩ :=
    (branch_target_agreement hparse).1 _ _ _ hword hdescribes (.inl rfl)
  have hback : Word.target? 0xFE504CE3 = some (-8) := by decide
  obtain rfl := Option.some.inj (hback.symm.trans htarget)
  have hshort : Statement.parse "jal back".toList = .ok ⟨"jal".toList, ["back".toList]⟩ := by
    decide +kernel
  exact ⟨hword, htakes, htarget,
    hlabel _ _ "back".toList _ _ rfl rfl (by decide +kernel) rfl (by decide +kernel),
    (branch_target_agreement hshort).2 _ (by decide +kernel) rfl (by decide +kernel)⟩

end RiscAsm

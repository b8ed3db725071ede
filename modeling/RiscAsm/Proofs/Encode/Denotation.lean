import RiscAsm.Diagnostic
import RiscAsm.Proofs.Encode.Operands
import RiscAsm.Proofs.Numeral

/-!
# What machine words denote

An instruction line denotes a mnemonic of the table, a memory ordering and operand fields
(`Denotes`): those that are left when pseudo-instructions and short forms are expanded and the
ordering is split off.  The word of a line is below `2 ^ 32` and is read back as what the line
denotes (`encodeWord_yields`).  So lines with equal words denote the same instruction
(`same_of_encode_eq`), and encoding gives 32 binary digits or a plain encoding diagnostic and
nothing else (`encodeBits_total`).
-/

namespace RiscAsm

/-! ## Mnemonics in lower case -/

/-- The mnemonic that takes the place of a pseudo-instruction. -/
def Pseudo.Expansion.target : Pseudo.Expansion → Text
  | .template mnemonic _ _ => mnemonic
  | .loadImmediate => "addi".toList

/-- Pseudo-instructions stand for mnemonics in lower case. -/
theorem Pseudo.isLowered_target {entry : Text × Pseudo.Expansion} (h : entry ∈ Pseudo.table) :
    ∀ c ∈ entry.2.target, IsLowered c := by
  have hplain : ∀ entry ∈ Pseudo.table, IsPlain entry.2.target := by decide +kernel
  intro c hc
  obtain ⟨hascii, hcapital⟩ := hplain entry h c hc
  exact isLowered_of_ascii hascii hcapital

/-- The mnemonic of a line is in lower case. -/
theorem Statement.parse_yields (s : Text) :
    Yields (fun written => ∀ c ∈ written.mnemonic, IsLowered c) (Statement.parse s) := by
  unfold Statement.parse
  split
  · exact Fault.noConfusion
  · exact fun c hc => isLowered_of_mem_lower hc

/-- The expansion of a line is in lower case, if the line is. -/
theorem Pseudo.real_yields {s : Statement} (hs : ∀ c ∈ s.mnemonic, IsLowered c) :
    Yields (fun expanded => ∀ c ∈ expanded.mnemonic, IsLowered c) (Pseudo.real s) := by
  unfold Pseudo.real
  split
  · unfold Pseudo.expand
    simp only
    split
    · exact Fault.noConfusion
    · rename_i hfind
      unfold Pseudo.expandLoadImmediate
      split
      · rename_i rd constant _
        refine (Immediate.parse_yields constant).bind fun value _ _ => ?_
        split
        · exact Pseudo.isLowered_target (mem_of_lookup hfind)
        · exact mentioning_ne_missingField (by simp)
      · exact Fault.noConfusion
    · rename_i hfind
      split
      · exact Pseudo.isLowered_target (mem_of_lookup hfind)
      · exact Fault.noConfusion
  · unfold Pseudo.expandShort
    split
    · split
      · exact hs
      · split
        · exact hs
        · exact hs
    · exact hs

/-- Only statements with one operand have a short form. -/
theorem Pseudo.expandShort_eq_self {s : Statement} (h : s.operands.length ≠ 1) :
    Pseudo.expandShort s = s := by
  unfold Pseudo.expandShort
  split
  · rename_i target hone
    exact absurd (congrArg List.length hone) h
  · rfl

namespace Encode

open Instruction (Carries decode?)

/-- A mnemonic stays as it is, unless an ending for an ordering leaves an atomic operation. -/
theorem splitOrdering_cases {m base : Text} {ordering : Nat}
    (h : splitOrdering m = (base, ordering)) :
    (base = m ∧ ordering = 0) ∨
      ∃ ending instr, (ending, ordering) ∈ Instruction.orderings ∧
        Text.dropEnding? ending m = some base ∧ Instruction.find? base = some instr ∧
        instr.isAtomic = true := by
  unfold splitOrdering at h
  simp only at h
  generalize hfound : Instruction.orderings.findSome? _ = found at h
  cases found with
  | none =>
      obtain ⟨rfl, rfl⟩ := Prod.mk.inj (h : (m, 0) = (base, ordering))
      exact .inl ⟨rfl, rfl⟩
  | some result =>
      obtain ⟨entry, hmem, hentry⟩ := List.exists_of_findSome?_eq_some hfound
      simp only [Option.bind_eq_bind, Option.bind_eq_some_iff] at hentry
      obtain ⟨rest, hrest, instr, hfind, hatomic⟩ := hentry
      split at hatomic
      · rename_i hinstr
        obtain ⟨rfl, rfl⟩ := Prod.mk.inj ((Option.some.inj hatomic).trans h)
        exact .inr ⟨entry.1, instr, hmem, hrest, hfind, hinstr⟩
      · cases hatomic

/-- An ordering is split off only if the rest is an atomic operation. -/
theorem splitOrdering_spec {m base : Text} {ordering : Nat} (hm : ∀ c ∈ m, IsLowered c)
    (h : splitOrdering m = (base, ordering)) :
    (∀ c ∈ base, IsLowered c) ∧ (ordering = 0 ∨ ordering < 4 ∧
      ∀ instr, Instruction.find? base = some instr → instr.isAtomic = true) := by
  rcases splitOrdering_cases h with ⟨rfl, rfl⟩ | ⟨ending, instr, hmem, hdrop, hfind, hatomic⟩
  · exact ⟨hm, .inl rfl⟩
  · have hcodes : ∀ entry ∈ Instruction.orderings, entry.2 < 4 := by decide
    refine ⟨?_, .inr ⟨hcodes _ hmem, ?_⟩⟩
    · unfold Text.dropEnding? at hdrop
      split at hdrop
      · obtain rfl := Option.some.inj hdrop
        exact fun c hc => hm c (List.mem_of_mem_take hc)
      · cases hdrop
    · intro other hother
      obtain rfl := Option.some.inj (hfind.symm.trans hother)
      exact hatomic

theorem shiftBits_eq (p : Profile) (m : Text) : shiftBits p m = 5 ∨ shiftBits p m = 6 := by
  rw [shiftBits]
  split
  · exact .inl rfl
  · exact .inr rfl

/-! ## Words and what they denote -/

/-- A statement without pseudo-instructions is the instruction `d`, described by `instr`. -/
structure Reads (s : Statement) (instr : Instruction) (d : Denotation) : Prop where
  split : splitOrdering s.mnemonic = (d.mnemonic, d.ordering)
  row : Instruction.table.lookup d.mnemonic = some instr
  operands : readOperands d.mnemonic instr s.operands = .ok d.fields

/-- An instruction line denotes `d`: it is `d` when it is parsed and expanded. -/
def Denotes (line : Text) (d : Denotation) : Prop :=
  ∃ written expanded instr, Statement.parse line = .ok written ∧
    Pseudo.real written = .ok expanded ∧ Reads expanded instr d

/-- A line denotes one instruction at most. -/
theorem Denotes.unique {line : Text} {a b : Denotation} (ha : Denotes line a)
    (hb : Denotes line b) : a = b := by
  obtain ⟨m, ordering, f⟩ := a
  obtain ⟨m', ordering', f'⟩ := b
  obtain ⟨written, expanded, instr, hparse, hreal, hsplit, hrow, hread⟩ := ha
  obtain ⟨written', expanded', instr', hparse', hreal', hsplit', hrow', hread'⟩ := hb
  obtain rfl := Except.ok.inj (hparse.symm.trans hparse')
  obtain rfl := Except.ok.inj (hreal.symm.trans hreal')
  obtain ⟨rfl, rfl⟩ := Prod.mk.inj (hsplit.symm.trans hsplit')
  obtain rfl := Option.some.inj (hrow.symm.trans hrow')
  obtain rfl := Except.ok.inj (hread.symm.trans hread')
  rfl

/-- The word of a statement holds the instruction that the statement is. -/
theorem encodeReal_yields (p : Profile) {s : Statement} (hs : ∀ c ∈ s.mnemonic, IsLowered c) :
    Yields (fun w => ∃ instr d, Reads s instr d ∧ Carries w instr d) (encodeReal p s) := by
  unfold encodeReal
  cases hsplit : splitOrdering s.mnemonic with
  | mk m ordering =>
      obtain ⟨hm, hordering⟩ := splitOrdering_spec hs hsplit
      simp only
      cases hfind : Instruction.find? m with
      | none => exact Fault.noConfusion
      | some instr =>
          obtain ⟨hmem, hlower⟩ := Instruction.find?_eq_some hm hfind
          have hsound := Instruction.sound_of_mem hmem
          have hrow : Instruction.table.lookup m = some instr := by
            rwa [Instruction.find?, hlower] at hfind
          simp only
          split
          · exact Fault.noConfusion
          · refine (readOperands_yields hsound s.operands).bind fun f hread hf => ?_
            refine (Instruction.pack_yields hsound hf hlower (shiftBits_eq p m)).bind
              fun w _ hpacked => ?_
            refine ⟨instr, ⟨m, ordering, f⟩, ⟨hsplit, hrow, hread⟩, hpacked.carries hsound ?_⟩
            exact hordering.imp id fun hand => ⟨hand.1, hand.2 instr hfind⟩

/-- The word of a line is below `2 ^ 32` and is read back as the instruction that it denotes. -/
theorem encodeWord_yields (p : Profile) (line : Text) :
    Yields (fun w => w < 4294967296 ∧ ∃ d, Denotes line d ∧ decode? w = some d.canonical)
      (encodeWord p line) := by
  refine (Statement.parse_yields line).bind fun written hparse hwritten => ?_
  refine (Pseudo.real_yields hwritten).bind fun expanded hreal hexpanded => ?_
  refine (encodeReal_yields p hexpanded).of_ok fun w hw => ?_
  obtain ⟨instr, d, hreads, hcarries⟩ := (encodeReal_yields p hexpanded).ok hw
  exact ⟨hcarries.lt, d, ⟨written, expanded, instr, hparse, hreal, hreads⟩,
    hcarries.decode?_eq (mem_of_lookup hreads.row)⟩

/-! ## What profiles make of a line -/

/-- What a profile makes of a statement: the instruction that the statement is, if its instruction
set is admitted, packed with the bits for shift amounts. -/
theorem encodeReal_eq_ok_iff {p : Profile} {s : Statement} {w : Nat}
    (hs : ∀ c ∈ s.mnemonic, IsLowered c) :
    encodeReal p s = .ok w ↔
      ∃ instr d v, Reads s instr d ∧ p.admits instr.isa = true ∧
        instr.pack d.mnemonic (shiftBits p d.mnemonic) d.fields = .ok v ∧
        w = v ||| d.ordering <<< 25 := by
  unfold encodeReal
  constructor
  · intro h
    cases hsplit : splitOrdering s.mnemonic with
    | mk m ordering =>
        rw [hsplit] at h
        simp only at h
        split at h
        · cases h
        · rename_i instr hfind
          obtain ⟨-, hlower⟩ := Instruction.find?_eq_some (splitOrdering_spec hs hsplit).1 hfind
          rw [Instruction.find?, hlower] at hfind
          split at h
          · cases h
          · rename_i hadmits
            obtain ⟨f, hread, h⟩ := Result.bind_eq_ok.mp h
            obtain ⟨v, hpack, h⟩ := Result.bind_eq_ok.mp h
            exact ⟨instr, ⟨m, ordering, f⟩, v, ⟨hsplit, hfind, hread⟩, by simpa using hadmits,
              hpack, (Result.pure_eq_ok.mp h).symm⟩
  · rintro ⟨instr, ⟨m, ordering, f⟩, v, ⟨hsplit, hrow, hread⟩, hadmits, hpack, rfl⟩
    have hfind : Instruction.find? m = some instr := by
      rw [Instruction.find?, Instruction.lower_of_mem (mem_of_lookup hrow), hrow]
    rw [hsplit]
    simp only [hfind, hadmits]
    exact Result.bind_eq_ok.mpr ⟨f, hread, Result.bind_eq_ok.mpr ⟨v, hpack, rfl⟩⟩

/-- An instruction line is the instruction `d`, which `instr` describes. -/
def Describes (line : Text) (instr : Instruction) (d : Denotation) : Prop :=
  ∃ written expanded, Statement.parse line = .ok written ∧
    Pseudo.real written = .ok expanded ∧ Reads expanded instr d

theorem Describes.row {line : Text} {instr : Instruction} {d : Denotation}
    (h : Describes line instr d) : Instruction.table.lookup d.mnemonic = some instr := by
  obtain ⟨written, expanded, -, -, hreads⟩ := h
  exact hreads.row

theorem Describes.denotes {line : Text} {instr : Instruction} {d : Denotation}
    (h : Describes line instr d) : Denotes line d := by
  obtain ⟨written, expanded, hparse, hreal, hreads⟩ := h
  exact ⟨written, expanded, instr, hparse, hreal, hreads⟩

/-- A line is one instruction at most, with one description. -/
theorem Describes.unique {line : Text} {instr instr' : Instruction} {d d' : Denotation}
    (h : Describes line instr d) (h' : Describes line instr' d') : instr = instr' ∧ d = d' := by
  obtain rfl := h.denotes.unique h'.denotes
  exact ⟨Option.some.inj (h.row.symm.trans h'.row), rfl⟩

end Encode

open Encode

theorem encode_eq_ok {p : Profile} {line : Text} {w : Nat} :
    encode p line = .ok w ↔ encodeWord p line = .ok w := by
  rw [encode, Result.mapError_eq_ok]

/-- What a profile makes of a line. -/
theorem encode_eq_ok_iff {p : Profile} {line : Text} {w : Nat} :
    encode p line = .ok w ↔
      ∃ instr d v, Describes line instr d ∧ p.admits instr.isa = true ∧
        instr.pack d.mnemonic (shiftBits p d.mnemonic) d.fields = .ok v ∧
        w = v ||| d.ordering <<< 25 := by
  rw [encode_eq_ok, encodeWord]
  constructor
  · intro h
    obtain ⟨written, hparse, h⟩ := Result.bind_eq_ok.mp h
    obtain ⟨expanded, hreal, h⟩ := Result.bind_eq_ok.mp h
    have hlowered := (Pseudo.real_yields ((Statement.parse_yields line).ok hparse)).ok hreal
    obtain ⟨instr, d, v, hreads, hrest⟩ := (encodeReal_eq_ok_iff hlowered).mp h
    exact ⟨instr, d, v, ⟨written, expanded, hparse, hreal, hreads⟩, hrest⟩
  · rintro ⟨instr, d, v, ⟨written, expanded, hparse, hreal, hreads⟩, hrest⟩
    have hlowered := (Pseudo.real_yields ((Statement.parse_yields line).ok hparse)).ok hreal
    exact Result.bind_eq_ok.mpr ⟨written, hparse, Result.bind_eq_ok.mpr ⟨expanded, hreal,
      (encodeReal_eq_ok_iff hlowered).mpr ⟨instr, d, v, hreads, hrest⟩⟩⟩

/-! ## Equal words -/

/-- Two instructions agree in their mnemonic, their memory ordering and all operand fields; upper
immediates agree as far as a word keeps them. -/
structure Denotation.Same (a b : Denotation) : Prop where
  mnemonic : a.mnemonic = b.mnemonic
  ordering : a.ordering = b.ordering
  rd : a.fields.rd = b.fields.rd
  rs1 : a.fields.rs1 = b.fields.rs1
  rs2 : a.fields.rs2 = b.fields.rs2
  rs3 : a.fields.rs3 = b.fields.rs3
  funct3 : a.fields.funct3 = b.fields.funct3
  imm : if a.mnemonic = "lui".toList ∨ a.mnemonic = "auipc".toList
    then a.fields.imm % 1048576 = b.fields.imm % 1048576 else a.fields.imm = b.fields.imm

/-- Instructions that are equal in canonical form are the same. -/
theorem Denotation.same_of_canonical_eq {a b : Denotation} (h : a.canonical = b.canonical) :
    a.Same b := by
  obtain ⟨m, ordering, f⟩ := a
  obtain ⟨m', ordering', f'⟩ := b
  simp only [canonical, Denotation.mk.injEq] at h
  obtain ⟨rfl, rfl, hfields⟩ := h
  unfold Fields.canonical at hfields
  split at hfields
  · rename_i hupper
    simp only [Fields.mk.injEq] at hfields
    obtain ⟨hrd, hrs1, hrs2, himm, hrs3, hfunct3⟩ := hfields
    exact ⟨rfl, rfl, hrd, hrs1, hrs2, hrs3, hfunct3, by simpa only [if_pos hupper] using himm⟩
  · rename_i hupper
    subst hfields
    exact ⟨rfl, rfl, rfl, rfl, rfl, rfl, rfl, by simp only [if_neg hupper]⟩

/-- **Machine words are unambiguous**: lines that encode to the same word, under whatever profiles,
denote the same instruction. -/
theorem same_of_encode_eq {p q : Profile} {s t : Text} {w : Nat} (hs : encode p s = .ok w)
    (ht : encode q t = .ok w) :
    (∃ a, Denotes s a) ∧ (∃ b, Denotes t b) ∧
      ∀ a b, Denotes s a → Denotes t b → a.Same b := by
  obtain ⟨-, d, hd, hdecode⟩ := (encodeWord_yields p s).ok (encode_eq_ok.mp hs)
  obtain ⟨-, e, he, hdecode'⟩ := (encodeWord_yields q t).ok (encode_eq_ok.mp ht)
  refine ⟨⟨d, hd⟩, ⟨e, he⟩, ?_⟩
  intro a b ha hb
  obtain rfl := ha.unique hd
  obtain rfl := hb.unique he
  exact Denotation.same_of_canonical_eq (Option.some.inj (hdecode.symm.trans hdecode'))

/-- An upper immediate may be written with or without sign: both lines denote the same load. -/
theorem same_of_encode_eq_upper :
    encode .rv32i "lui a0, -1".toList = .ok 0xFFFFF537 ∧
      encode .auto "LUI x10 0xfffff".toList = .ok 0xFFFFF537 ∧
      ∀ a b, Denotes "lui a0, -1".toList a → Denotes "LUI x10 0xfffff".toList b → a.Same b := by
  have hs : encode .rv32i "lui a0, -1".toList = .ok 0xFFFFF537 := by decide +kernel
  have ht : encode .auto "LUI x10 0xfffff".toList = .ok 0xFFFFF537 := by decide +kernel
  exact ⟨hs, ht, (same_of_encode_eq hs ht).2.2⟩

/-! ## Encoding as binary digits -/

/-- A line that is not encoded gives a plain encoding diagnostic. -/
theorem encode_eq_error {p : Profile} {line : Text} {failure : Failure}
    (h : encode p line = .error failure) :
    ∃ reason, failure = .diagnostic { kind := .encoding, reason } := by
  obtain ⟨f, hword, rfl⟩ := Result.mapError_eq_error.mp h
  cases f with
  | missingField => exact absurd rfl ((encodeWord_yields p line).ne_bad hword)
  | _ => exact ⟨_, rfl⟩

/-- **Encoding is total**: every line has a word below `2 ^ 32` and is encoded as its 32 binary
digits, or fails with an encoding diagnostic that names no place. -/
theorem encodeBits_total (p : Profile) (line : Text) :
    (∃ w digits, encodeWord p line = .ok w ∧ w < 4294967296 ∧ encodeBits p line = .ok digits ∧
      digits.length = 32 ∧ (∀ c ∈ digits, c = '0' ∨ c = '1') ∧
      Nat.ofDigitChars 2 digits 0 = w) ∨
    ∃ reason, encodeBits p line = .error (.diagnostic
      { kind := .encoding, reason, line := none, text := none, index := none }) := by
  rw [encodeBits]
  cases hencode : encode p line with
  | ok w =>
      have hword := encode_eq_ok.mp hencode
      obtain ⟨hlt, -⟩ := (encodeWord_yields p line).ok hword
      exact .inl ⟨w, Numeral.binary 32 w, hword, hlt, rfl, Numeral.length_binary hlt,
        fun c hc => Numeral.mem_binary hc, Numeral.ofDigitChars_binary 32 w⟩
  | error failure =>
      obtain ⟨reason, rfl⟩ := encode_eq_error hencode
      exact .inr ⟨reason, rfl⟩

end RiscAsm

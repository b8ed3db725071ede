import RiscAsm.Proofs.Assemble.Outcome

/-!
# The order of profiles

A profile decides two things: which instruction sets are admitted, and how many bits a shift amount
has.  Both grow from `rv32i` to `rv64i`, and `auto` decides them as `rv64i` does.  So what the
narrow profile encodes has the same word under every profile, and what only the wide ones encode
needs wide registers: it belongs to an instruction set for them, or shifts by 32 or more
(`profile_order`).
-/

namespace RiscAsm

/-! ## Instruction sets -/

namespace Isa

/-- Instruction sets that exist for wide registers only. -/
def Wide (isa : Isa) : Prop := "RV64".toList <+: isa.name

instance (isa : Isa) : Decidable isa.Wide := inferInstanceAs (Decidable (_ <+: _))

end Isa

namespace Profile

/-- The profiles for wide registers admit all instruction sets. -/
theorem admits_of_ne {p : Profile} (hp : p ≠ .rv32i) (isa : Isa) : p.admits isa = true := by
  cases p with
  | auto => rfl
  | rv32i => exact absurd rfl hp
  | rv64i => cases isa <;> rfl

/-- The narrow profile admits the other instruction sets. -/
theorem admits_rv32i_iff {isa : Isa} : rv32i.admits isa = true ↔ ¬ isa.Wide := by
  cases isa <;> decide

end Profile

/-! ## Shift amounts -/

namespace Instruction

variable {m : Text} {instr : Instruction} {f : Fields} {w : Nat}

/-- The immediate of an instruction is a shift amount. -/
def Shifts (m : Text) (instr : Instruction) : Prop :=
  instr.format = .i ∧ ImmediateUse.of (lower m) = .shift

/-- The shifts whose amount has more bits where registers are wide. -/
def growingShifts : List Text := ["slli", "srli", "srai"].map String.toList

/-- A shift is packed after its amount was checked. -/
theorem pack_of_shifts (h : Shifts m instr) (bits : Int) :
    instr.pack m bits f = checkRange "shift amount".toList bits false f.imm >>= fun _ =>
      needed instr.funct7 >>= fun code =>
        instr.packIField f.rd f.rs1 (shiftField code f.imm) := by
  obtain ⟨hformat, huse⟩ := h
  rw [pack, hformat]
  simp only [packI, huse]

/-- Instructions that are no shifts are packed in one way. -/
theorem pack_of_not_shifts (h : ¬ Shifts m instr) (bits bits' : Int) :
    instr.pack m bits f = instr.pack m bits' f := by
  unfold pack
  cases hformat : instr.format with
  | i =>
      show instr.packI m bits f = instr.packI m bits' f
      unfold packI
      cases huse : ImmediateUse.of (lower m) with
      | shift => exact absurd ⟨hformat, huse⟩ h
      | _ => rfl
  | _ => rfl

/-- Another number of bits for shift amounts gives the same word, as long as the amount fits. -/
theorem pack_of_pack {bits bits' : Int} (hbits : bits = 5 ∨ bits = 6)
    (hbits' : bits' = 5 ∨ bits' = 6) (h : instr.pack m bits f = .ok w)
    (hfits : Shifts m instr → f.imm ≤ (Word.span bits.toNat : Int) - 1 →
      f.imm ≤ (Word.span bits'.toNat : Int) - 1) : instr.pack m bits' f = .ok w := by
  by_cases hshifts : Shifts m instr
  · rw [pack_of_shifts hshifts] at h ⊢
    obtain ⟨u, hcheck, hrest⟩ := Result.bind_eq_ok.mp h
    obtain ⟨hleast, hgreatest⟩ := mem_of_checkRange hcheck (fieldRange?_shiftBits hbits)
    refine Result.bind_eq_ok.mpr ⟨(), ?_, hrest⟩
    rw [checkRange_eq_ok_iff (fieldRange?_shiftBits hbits')]
    exact ⟨hleast, hfits hshifts hgreatest⟩
  · rwa [pack_of_not_shifts hshifts bits' bits]

/-- The amount of a shift that is packed is in its range. -/
theorem amount_of_pack {bits : Int} (hbits : bits = 5 ∨ bits = 6) (hshifts : Shifts m instr)
    (h : instr.pack m bits f = .ok w) : f.imm ≤ (Word.span bits.toNat : Int) - 1 := by
  rw [pack_of_shifts hshifts] at h
  obtain ⟨u, hcheck, -⟩ := Result.bind_eq_ok.mp h
  exact (mem_of_checkRange hcheck (fieldRange?_shiftBits hbits)).2

/-- The growing shifts of the table are shifts. -/
theorem shifts_of_mem_growingShifts (hrow : table.lookup m = some instr)
    (hm : m ∈ growingShifts) : Shifts m instr := by
  have hrows : ∀ row ∈ table, row.1 ∈ growingShifts → row.2.format = .i := by decide +kernel
  have huse : ∀ m ∈ growingShifts, ImmediateUse.of (lower m) = .shift := by decide +kernel
  exact ⟨hrows _ (mem_of_lookup hrow) hm, huse m hm⟩

/-- A shift is a growing one, unless its name ends with the mark of narrow operations. -/
theorem mem_growingShifts (hlower : lower m = m) (hshifts : Shifts m instr)
    (hlast : m.getLast? ≠ some 'w') : m ∈ growingShifts := by
  have hgrow : ∀ m ∈ constantShifts, m.getLast? ≠ some 'w' → m ∈ growingShifts := by decide
  obtain ⟨-, huse⟩ := hshifts
  rw [hlower] at huse
  unfold ImmediateUse.of at huse
  split at huse
  · cases huse
  · split at huse
    · rename_i hmem
      exact hgrow m (by simpa using hmem) hlast
    · split at huse <;> cases huse

end Instruction

/-! ## Instructions -/

namespace Encode

theorem shiftBits_rv32i (m : Text) : shiftBits .rv32i m = 5 := by
  simp [shiftBits]

/-- The profiles for wide registers have one more bit for shift amounts, except for the operations
on narrow values. -/
theorem shiftBits_of_ne {p : Profile} (hp : p ≠ .rv32i) (m : Text) :
    shiftBits p m = if m.getLast? = some 'w' then 5 else 6 := by
  have hbeq : (p == .rv32i) = false := by simpa using hp
  simp [shiftBits, hbeq]

end Encode

open Encode

/-- The profiles for wide registers agree on every line, in words and in faults. -/
theorem encode_of_ne {p q : Profile} (hp : p ≠ .rv32i) (hq : q ≠ .rv32i) (line : Text) :
    encode p line = encode q line := by
  have hreal : ∀ s, encodeReal p s = encodeReal q s := by
    intro s
    simp only [encodeReal, shiftBits_of_ne hp, shiftBits_of_ne hq, Profile.admits_of_ne hp,
      Profile.admits_of_ne hq]
    rfl
  simp only [encode, encodeWord, hreal]

/-- What the narrow profile encodes has the same word under every profile. -/
theorem encode_of_encode_rv32i {line : Text} {w : Nat} (h : encode .rv32i line = .ok w)
    (p : Profile) : encode p line = .ok w := by
  by_cases hp : p = .rv32i
  · rwa [hp]
  · obtain ⟨instr, d, v, hdescribes, -, hpack, rfl⟩ := encode_eq_ok_iff.mp h
    refine encode_eq_ok_iff.mpr
      ⟨instr, d, v, hdescribes, Profile.admits_of_ne hp instr.isa, ?_, rfl⟩
    rw [shiftBits_rv32i] at hpack
    rw [shiftBits_of_ne hp]
    split
    · exact hpack
    · refine Instruction.pack_of_pack (.inl rfl) (.inr rfl) hpack ?_
      intro _ (hle : d.fields.imm ≤ 31)
      show d.fields.imm ≤ 63
      omega

/-- An instruction, as the table describes it, needs wide registers: it belongs to an instruction
set for them, or shifts by 32 or more. -/
def NeedsWide (instr : Instruction) (d : Denotation) : Prop :=
  instr.isa.Wide ∨ d.mnemonic ∈ Instruction.growingShifts ∧ 32 ≤ d.fields.imm ∧ d.fields.imm ≤ 63

/-- What needs wide registers is not encoded under the narrow profile. -/
theorem not_needsWide_of_encode {line : Text} {instr : Instruction} {d : Denotation} {w : Nat}
    (hdescribes : Describes line instr d) (h : encode .rv32i line = .ok w) :
    ¬ NeedsWide instr d := by
  obtain ⟨instr', d', v, hdescribes', hadmits, hpack, -⟩ := encode_eq_ok_iff.mp h
  obtain ⟨rfl, rfl⟩ := hdescribes.unique hdescribes'
  rintro (hwide | ⟨hmem, hleast, -⟩)
  · exact Profile.admits_rv32i_iff.mp hadmits hwide
  · have hshifts := Instruction.shifts_of_mem_growingShifts hdescribes.row hmem
    rw [shiftBits_rv32i] at hpack
    have hle : d.fields.imm ≤ 31 := Instruction.amount_of_pack (.inl rfl) hshifts hpack
    omega

/-- All else that a profile encodes is encoded under the narrow one. -/
theorem encode_rv32i_of_encode {p : Profile} {line : Text} {w : Nat}
    (h : encode p line = .ok w)
    (hnarrow : ∀ instr d, Describes line instr d → ¬ NeedsWide instr d) :
    encode .rv32i line = .ok w := by
  by_cases hp : p = .rv32i
  · rwa [← hp]
  · obtain ⟨instr, d, v, hdescribes, -, hpack, rfl⟩ := encode_eq_ok_iff.mp h
    have hnot := hnarrow instr d hdescribes
    refine encode_eq_ok_iff.mpr ⟨instr, d, v, hdescribes, ?_, ?_, rfl⟩
    · exact Profile.admits_rv32i_iff.mpr fun hwide => hnot (.inl hwide)
    · rw [shiftBits_rv32i]
      rw [shiftBits_of_ne hp] at hpack
      split at hpack
      · exact hpack
      · rename_i hlast
        refine Instruction.pack_of_pack (.inr rfl) (.inl rfl) hpack ?_
        intro hshifts (hle : d.fields.imm ≤ 63)
        show d.fields.imm ≤ 31
        have hmem := Instruction.mem_growingShifts
          (Instruction.lower_of_mem (mem_of_lookup hdescribes.row)) hshifts hlast
        by_contra hgreat
        exact hnot (.inr ⟨hmem, by omega, hle⟩)

/-! ## Programs -/

/-- The settings with another profile. -/
def Settings.withProfile (settings : Settings) (p : Profile) : Settings :=
  { settings with profile := p }

/-- The profiles for wide registers agree on every source. -/
theorem assembleBuffer_of_ne {p q : Profile} (hp : p ≠ .rv32i) (hq : q ≠ .rv32i)
    (settings : Settings) (source : Source) :
    assembleBuffer (settings.withProfile p) source =
      assembleBuffer (settings.withProfile q) source := by
  have hemit : ∀ labels entry, emit (settings.withProfile p) labels entry =
      emit (settings.withProfile q) labels entry := by
    intro labels entry
    simp only [emit, Settings.withProfile, encode_of_ne hp hq]
    rfl
  have htext : ∀ text, assembleText (settings.withProfile p) text =
      assembleText (settings.withProfile q) text := by
    intro text
    simp only [assembleText, secondPass, funext (hemit _)]
    rfl
  simp only [assembleBuffer, assemble, htext]

/-- A program that is assembled under the narrow profile is the same program under every
profile. -/
theorem assembleText_of_rv32i {settings : Settings} {text : Text} {a : Assembly}
    (h : assembleText (settings.withProfile .rv32i) text = .ok a) (p : Profile) :
    assembleText (settings.withProfile p) text = .ok a := by
  obtain ⟨hclean, hlabels, hinstructions, hlength, -⟩ := assembleText_eq_ok h
  have hwords : ∀ i w, a.words[i]? = some w →
      HasWord (settings.withProfile p) (programLines (settings.withProfile p) text) i w := by
    intro i w hw
    -- lines, labels and patched texts do not depend on the profile
    obtain ⟨line, hline, patched, hpatch, hword⟩ := hasWord_of_assembleText h hw
    exact ⟨line, hline, patched, hpatch, encode_of_encode_rv32i hword p⟩
  rw [hinstructions] at hlength
  have hclean' : Clean (programLines (settings.withProfile p) text) := hclean
  have hlabels' : a.labels = labelsOf (programLines (settings.withProfile p) text) := hlabels
  have hinstructions' :
      a.instructions = instructionsOf (programLines (settings.withProfile p) text) := hinstructions
  rw [assembleText_of_hasWord hclean' hlength hwords, ← hlabels', ← hinstructions']

/-- Bytes that are given out under the narrow profile are given out under every profile. -/
theorem assembleBuffer_of_rv32i {settings : Settings} {source : Source} {b : Buffer}
    (h : assembleBuffer (settings.withProfile .rv32i) source = .ok (b, 0)) (p : Profile) :
    assembleBuffer (settings.withProfile p) source = .ok (b, 0) := by
  obtain ⟨a, hassemble, hbuffer⟩ := assembleBuffer_eq_ok_zero_iff.mp h
  obtain ⟨text, hdecode, htext⟩ := assemble_eq_ok hassemble
  refine assembleBuffer_eq_ok_zero_iff.mpr ⟨a, ?_, hbuffer⟩
  rw [assemble, hdecode]
  exact assembleText_of_rv32i htext p

/-- **Profiles are ordered**: `rv64i` and `auto` give the same word or the same fault for every
line, and tell callers the same of every source; what `rv32i` encodes, `rv64i` encodes to the same
word; of what `rv64i` encodes, `rv32i` fails on exactly the instructions that need wide registers;
and a program that is assembled under `rv32i` has the same bytes under the other two. -/
theorem profile_order :
    (∀ line, encode .rv64i line = encode .auto line) ∧
    (∀ line w, encode .rv32i line = .ok w → encode .rv64i line = .ok w) ∧
    (∀ line w, encode .rv64i line = .ok w →
      ((¬ ∃ v, encode .rv32i line = .ok v) ↔
        ∃ instr d, Describes line instr d ∧ NeedsWide instr d)) ∧
    (∀ (settings : Settings) source, assembleBuffer (settings.withProfile .rv64i) source =
      assembleBuffer (settings.withProfile .auto) source) ∧
    ∀ (settings : Settings) source b,
      assembleBuffer (settings.withProfile .rv32i) source = .ok (b, 0) →
      assembleBuffer (settings.withProfile .rv64i) source = .ok (b, 0) ∧
        assembleBuffer (settings.withProfile .auto) source = .ok (b, 0) := by
  refine ⟨?_, ?_, ?_, ?_, ?_⟩
  · exact encode_of_ne (by decide) (by decide)
  · intro line w h
    exact encode_of_encode_rv32i h .rv64i
  · intro line w h
    constructor
    · intro hfails
      by_contra hnarrow
      refine hfails ⟨w, encode_rv32i_of_encode h ?_⟩
      intro instr d hdescribes hwide
      exact hnarrow ⟨instr, d, hdescribes, hwide⟩
    · rintro ⟨instr, d, hdescribes, hwide⟩ ⟨v, hv⟩
      exact not_needsWide_of_encode hdescribes hv hwide
  · exact assembleBuffer_of_ne (by decide) (by decide)
  · intro settings source b h
    exact ⟨assembleBuffer_of_rv32i h .rv64i, assembleBuffer_of_rv32i h .auto⟩

/-- A shift by 40 needs wide registers, and a loop does not. -/
theorem profile_order_shift :
    encode .rv64i "SLLI a0, a1, 40".toList = .ok 0x02859513 ∧
      (∃ instr d, Describes "SLLI a0, a1, 40".toList instr d ∧ NeedsWide instr d) ∧
      encode .rv64i "srai a0, a1, 31".toList = .ok 0x41F5D513 ∧
      assembleBuffer (Settings.withProfile {} .rv32i) (.text "x: addi a0, a0, -1\nj x".toList) =
        .ok (Buffer.ofBytes [0x13, 0x05, 0xF5, 0xFF, 0x6F, 0x00, 0x00, 0x00], 0) ∧
      assembleBuffer (Settings.withProfile {} .auto) (.text "x: addi a0, a0, -1\nj x".toList) =
        .ok (Buffer.ofBytes [0x13, 0x05, 0xF5, 0xFF, 0x6F, 0x00, 0x00, 0x00], 0) := by
  obtain ⟨-, hsame, hgap, -, hbytes⟩ := profile_order
  have hwide : encode .rv64i "SLLI a0, a1, 40".toList = .ok 0x02859513 := by decide +kernel
  have hfails : (encode .rv32i "SLLI a0, a1, 40".toList).toOption = none := by decide +kernel
  have hnarrow : encode .rv32i "srai a0, a1, 31".toList = .ok 0x41F5D513 := by decide +kernel
  have hprogram : assembleBuffer (Settings.withProfile {} .rv32i)
      (.text "x: addi a0, a0, -1\nj x".toList) =
      .ok (Buffer.ofBytes [0x13, 0x05, 0xF5, 0xFF, 0x6F, 0x00, 0x00, 0x00], 0) := by decide +kernel
  refine ⟨hwide, (hgap _ _ hwide).mp ?_, hsame _ _ hnarrow, hprogram, (hbytes _ _ _ hprogram).2⟩
  rintro ⟨v, hv⟩
  rw [hv] at hfails
  cases hfails

end RiscAsm

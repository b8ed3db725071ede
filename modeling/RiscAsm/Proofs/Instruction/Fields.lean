import RiscAsm.Instruction.Word
import RiscAsm.Proofs.Result
import Mathlib.Data.List.Pairwise

/-!
# Fields of packed words

Where no two slots of a word share a bit, each of them can be read back (`bits_join`).  The slots of
each format are such, so that reading a field of a packed word gives the low bits of what was packed
(`packR_fields` and its companions, one for each format), and the scattered bits of an offset come
together again (`immediateS_packS`, `immediateB_packB`, `immediateJ_packJ`).  Every packed word is
below `2 ^ 32`.
-/

namespace RiscAsm

namespace Word

/-! ## Low bits -/

/-- The low `width` bits of a value. -/
def low (width : Nat) (value : Int) : Nat := (value % span width).toNat

theorem place_eq (width shift : Nat) (value : Int) :
    place width shift value = low width value * span shift := rfl

theorem span_pos (n : Nat) : 0 < span n := Nat.pow_pos (by decide)

/-- The low bits as a remainder. -/
theorem low_eq_emod (width : Nat) (value : Int) : (low width value : Int) = value % span width := by
  have hpos := span_pos width
  exact Int.toNat_of_nonneg (Int.emod_nonneg value (by omega))

/-- The low bits fit into their field. -/
theorem low_lt (width : Nat) (value : Int) : low width value < span width := by
  have hpos := span_pos width
  have hlt := Int.emod_lt_of_pos value (b := (span width : Int)) (by omega)
  rw [← low_eq_emod] at hlt
  omega

/-- A value fits into a field of `width` bits. -/
def Fits (width : Nat) (value : Int) : Prop := 0 ≤ value ∧ value < span width

instance (width : Nat) (value : Int) : Decidable (Fits width value) :=
  inferInstanceAs (Decidable (_ ∧ _))

/-- A value that fits into a field is all in its low bits. -/
theorem low_of_fits {width : Nat} {value : Int} (h : Fits width value) :
    (low width value : Int) = value := by
  rw [low_eq_emod, Int.emod_eq_of_lt h.1 h.2]

/-- A field that holds the low bits of a value that fits holds the value. -/
theorem eq_of_eq_low {width field : Nat} {value : Int} (h : field = low width value)
    (hfits : Fits width value) : (field : Int) = value := by
  rw [h, low_of_fits hfits]

/-! ## Masks -/

theorem span_add (m n : Nat) : span (m + n) = span m * span n := Nat.pow_add 2 m n

/-- Bits in the middle of a value are bits in the middle of its low bits. -/
theorem low_shiftRight_low {width shift n : Nat} (h : shift + width ≤ n) (value : Int) :
    low width (low n value >>> shift : Nat) = low width (value / span shift) := by
  obtain ⟨k, rfl⟩ : ∃ k, n = shift + (width + k) := ⟨n - (shift + width), by omega⟩
  have hpos := span_pos shift
  -- the value is its low bits and a multiple of the power above them, which no bit in the middle
  -- belongs to
  generalize hrest : (low (shift + (width + k)) value : Int) = rest
  have hvalue : value = rest +
      span shift * (span width * (span k * (value / span (shift + (width + k))))) := by
    have hmod := Int.emod_add_mul_ediv value (span (shift + (width + k)))
    rw [← low_eq_emod, hrest, span_add, span_add] at hmod
    rw [span_add, span_add, ← Int.mul_assoc, ← Int.mul_assoc, Int.mul_assoc (span shift : Int)]
    exact_mod_cast hmod.symm
  have hshift : ((low (shift + (width + k)) value >>> shift : Nat) : Int) = rest / span shift := by
    rw [Nat.shiftRight_eq_div_pow, Int.natCast_ediv, hrest]
    rfl
  rw [hshift, low, low]
  conv =>
    rhs
    rw [hvalue]
  rw [Int.add_mul_ediv_left _ _ (by omega), Int.add_mul_emod_self_left]

theorem low_low {width n : Nat} (h : width ≤ n) (value : Int) :
    low width (low n value : Nat) = low width value := by
  have hlow : low width (low n value >>> 0 : Nat) = low width (value / span 0) :=
    low_shiftRight_low (by omega) value
  simpa [span] using hlow

/-- A mask of ones keeps the low bits. -/
theorem masked_eq_low {mask n : Nat} (hmask : mask = span n - 1) (h : n ≤ 32) (value : Int) :
    masked mask value = low n value := by
  have hmod : low n (low 32 value : Nat) = low 32 value % span n := by
    rw [low, ← Int.natCast_emod, Int.toNat_natCast]
  rw [hmask, masked, ← low, ← low_low h, hmod]
  exact Nat.and_two_pow_sub_one_eq_mod _ n

/-- A mask that leaves out the lowest bit keeps the low bits of an even number. -/
theorem masked_eq_low_of_even {mask n : Nat} (hmask : mask = span n - 2) (h : n ≤ 32) {value : Int}
    (heven : value % 2 = 0) : masked mask value = low n value := by
  rw [← masked_eq_low rfl h, hmask, masked, masked, ← low]
  have hlow : low 32 value % 2 = 0 := by
    have hmod := low_eq_emod 32 value
    simp only [span, Nat.pow_eq, Nat.reducePow] at hmod
    omega
  apply Nat.eq_of_testBit_eq
  intro i
  rw [Nat.testBit_and, Nat.testBit_and]
  cases i with
  | zero =>
      rw [Nat.testBit_zero, hlow]
      rfl
  | succ i =>
      have hhalf : (span n - 2) / 2 = (span n - 1) / 2 := by
        cases n with
        | zero => rfl
        | succ n =>
            have hspan : span (n + 1) = span n * 2 := span_add n 1
            omega
      rw [Nat.testBit_succ _ i, Nat.testBit_succ (span n - 2), Nat.testBit_succ (span n - 1), hhalf]

/-! ## Side by side -/

/-- Bits that are free in a word are set by adding them. -/
theorem or_shiftLeft_of_bits {width shift w n : Nat} (hfree : bits width shift w = 0)
    (hn : n < span width) : w ||| n <<< shift = w + n * span shift := by
  -- the bits above the free ones, and below
  obtain ⟨high, hhigh⟩ : ∃ high, w / span shift = span width * high := Nat.dvd_of_mod_eq_zero hfree
  have hlow : w % span shift < 2 ^ shift := Nat.mod_lt w (span_pos shift)
  have hw : w = (high <<< width) <<< shift + w % span shift := by
    have hdiv := Nat.mod_add_div w (span shift)
    rw [hhigh] at hdiv
    rw [Nat.shiftLeft_eq, Nat.shiftLeft_eq, Nat.mul_comm high, Nat.mul_comm _ (2 ^ shift)]
    exact (hdiv.symm.trans (Nat.add_comm ..))
  generalize w % span shift = rest at hlow hw
  calc w ||| n <<< shift
      = ((high <<< width) <<< shift ||| rest) ||| n <<< shift := by
        rw [hw, Nat.shiftLeft_add_eq_or_of_lt hlow]
    _ = (high <<< width ||| n) <<< shift ||| rest := by
        rw [Nat.or_assoc, Nat.or_comm rest, ← Nat.or_assoc, Nat.shiftLeft_or_distrib]
    _ = (high <<< width + n) <<< shift + rest := by
        rw [Nat.shiftLeft_add_eq_or_of_lt hlow, Nat.shiftLeft_add_eq_or_of_lt hn]
    _ = w + n * span shift := by
        rw [hw, Nat.shiftLeft_eq _ shift, Nat.shiftLeft_eq _ shift, Nat.add_mul, Nat.add_right_comm]
        rfl

/-- Two slots share no bit. -/
def Slot.Apart (a b : Slot) : Prop := a.shift + a.width ≤ b.shift ∨ b.shift + b.width ≤ a.shift

instance : Std.Symm Slot.Apart := ⟨fun _ _ h => h.symm⟩

/-- All bits of the low bits are low. -/
theorem lt_of_testBit_low {width i : Nat} {value : Int}
    (h : (low width value).testBit i = true) : i < width := by
  apply Nat.lt_of_not_le
  intro hle
  have hspan : low width value < 2 ^ i :=
    Nat.lt_of_lt_of_le (low_lt width value) (Nat.pow_le_pow_right (by decide) hle)
  rw [Nat.testBit_lt_two_pow hspan] at h
  cases h

/-- The bits of a slot are those of its value, at their places. -/
theorem testBit_place (width shift : Nat) (value : Int) (i : Nat) :
    (place width shift value).testBit i = true ↔
      (shift ≤ i ∧ i < shift + width) ∧ (low width value).testBit (i - shift) = true := by
  have hbit : (place width shift value).testBit i =
      (decide (shift ≤ i) && (low width value).testBit (i - shift)) :=
    Nat.testBit_mul_two_pow (low width value) i shift
  rw [hbit, Bool.and_eq_true, decide_eq_true_eq]
  constructor
  · rintro ⟨hle, htrue⟩
    have hlt := lt_of_testBit_low htrue
    exact ⟨⟨hle, by omega⟩, htrue⟩
  · rintro ⟨⟨hle, -⟩, htrue⟩
    exact ⟨hle, htrue⟩

/-- A bit of a word is a bit of one of its slots. -/
theorem testBit_join (slots : List Slot) (i : Nat) :
    (join slots).testBit i = true ↔
      ∃ slot ∈ slots, (place slot.width slot.shift slot.value).testBit i = true := by
  have hfold : ∀ word : Nat,
      (slots.foldl (fun word slot => word ||| place slot.width slot.shift slot.value) word).testBit
          i = true ↔
        word.testBit i = true ∨
          ∃ slot ∈ slots, (place slot.width slot.shift slot.value).testBit i = true := by
    induction slots with
    | nil => simp
    | cons slot slots ih =>
        intro word
        rw [List.foldl_cons, ih, Nat.testBit_or, Bool.or_eq_true, or_assoc]
        simp only [List.mem_cons, exists_eq_or_imp]
  rw [join, hfold, Nat.zero_testBit]
  simp

/-- Where no two slots share a bit, each can be read back. -/
theorem bits_join {slots : List Slot} (h : slots.Pairwise Slot.Apart) {slot : Slot}
    (hslot : slot ∈ slots) :
    bits slot.width slot.shift (join slots) = low slot.width slot.value := by
  have hmod : bits slot.width slot.shift (join slots) =
      join slots / 2 ^ slot.shift % 2 ^ slot.width := rfl
  apply Nat.eq_of_testBit_eq
  intro i
  rw [hmod, Nat.testBit_mod_two_pow, Nat.testBit_div_two_pow, Bool.eq_iff_iff, Bool.and_eq_true,
    decide_eq_true_eq, testBit_join]
  constructor
  · rintro ⟨hi, other, hother, hbit⟩
    rw [testBit_place] at hbit
    -- another slot would share this bit
    obtain rfl : other = slot := by
      by_contra hne
      rcases h.forall hother hslot hne with hapart | hapart
      · omega
      · omega
    rw [Nat.add_sub_cancel] at hbit
    exact hbit.2
  · intro hbit
    have hi := lt_of_testBit_low hbit
    refine ⟨hi, slot, hslot, (testBit_place ..).mpr ⟨by omega, ?_⟩⟩
    rwa [Nat.add_sub_cancel]

/-- A word whose slots all end below a place is below the power of two there. -/
theorem join_lt {slots : List Slot} {n : Nat} (h : ∀ slot ∈ slots, slot.shift + slot.width ≤ n) :
    join slots < span n := by
  apply Nat.lt_pow_two_of_testBit
  intro i hi
  rw [Bool.eq_false_iff, Ne, testBit_join]
  rintro ⟨slot, hslot, hbit⟩
  have hrange := ((testBit_place ..).mp hbit).1
  have hend := h slot hslot
  omega

/-- What can be read off a word of 32 bits whose slots share no bits. -/
theorem fields_of_join {slots : List Slot} {w : Nat} (h : join slots = w)
    (hapart : slots.Pairwise Slot.Apart) (hend : ∀ slot ∈ slots, slot.shift + slot.width ≤ 32) :
    w < 4294967296 ∧
      ∀ slot ∈ slots, bits slot.width slot.shift w = low slot.width slot.value := by
  subst h
  exact ⟨join_lt hend, fun slot hslot => bits_join hapart hslot⟩

end Word

/-! ## Checks -/

theorem needed_eq_ok {field : Option Int} {value : Int} :
    needed field = .ok value ↔ field = some value := by
  cases field with
  | none => simp [needed]
  | some v => simp [needed]

/-- A value passes the check against a known range exactly when it is in the range. -/
theorem checkRange_eq_ok_iff {field : Text} {bits value least greatest : Int} {isSigned : Bool}
    {u : Unit} (hrange : fieldRange? bits isSigned = some (least, greatest)) :
    checkRange field bits isSigned value = .ok u ↔ least ≤ value ∧ value ≤ greatest := by
  rw [checkRange, hrange]
  simp only
  split
  · rename_i hin
    exact iff_of_true rfl hin
  · rename_i hout
    exact iff_of_false (by simp) hout

/-- A value that passes the check against a known range is in the range. -/
theorem mem_of_checkRange {field : Text} {bits value least greatest : Int} {isSigned : Bool}
    {u : Unit} (h : checkRange field bits isSigned value = .ok u)
    (hrange : fieldRange? bits isSigned = some (least, greatest)) :
    least ≤ value ∧ value ≤ greatest :=
  (checkRange_eq_ok_iff hrange).mp h

/-- Shift amounts are numbers of five or six bits. -/
theorem fieldRange?_shiftBits {bits : Int} (h : bits = 5 ∨ bits = 6) :
    fieldRange? bits false = some (0, (Word.span bits.toNat : Int) - 1) := by
  rcases h with rfl | rfl
  · rfl
  · rfl

/-- An offset passes its check exactly when it is even. -/
theorem Instruction.checkEven_eq_ok_iff {use : OffsetUse} {offset : Int} {u : Unit} :
    checkEven use offset = .ok u ↔ offset % 2 = 0 := by
  rw [checkEven]
  split
  · rename_i heven
    exact iff_of_true rfl heven
  · rename_i hodd
    exact iff_of_false (by simp) hodd

/-! ## The formats -/

namespace Word

variable {instr : Instruction} {f : Fields} {w : Nat}

/-- The fields of a word of the R format. -/
theorem packR_fields (h : instr.packR f = .ok w) :
    ∃ code3 code7, f.funct3.or instr.funct3 = some code3 ∧ instr.funct7 = some code7 ∧
      w < 4294967296 ∧ opcode w = low 7 instr.opcode ∧ rd w = low 5 f.rd ∧ funct3 w = low 3 code3 ∧
      rs1 w = low 5 f.rs1 ∧ rs2 w = low 5 f.rs2 ∧ funct7 w = low 7 code7 := by
  obtain ⟨code3, hcode3, h⟩ := Result.bind_eq_ok.mp h
  obtain ⟨code7, hcode7, h⟩ := Result.bind_eq_ok.mp h
  obtain ⟨hlt, hslots⟩ := fields_of_join (Result.pure_eq_ok.mp h) (by simp [Slot.Apart]) (by simp)
  simp only [List.forall_mem_cons] at hslots
  obtain ⟨hopcode, hrd, hlow3, hrs1, hrs2, hlow7, -⟩ := hslots
  exact ⟨code3, code7, needed_eq_ok.mp hcode3, needed_eq_ok.mp hcode7, hlt, hopcode, hrd, hlow3,
    hrs1, hrs2, hlow7⟩

/-- The fields of a word of the R4 format. -/
theorem packR4_fields (h : instr.packR4 f = .ok w) :
    ∃ rounding code, f.funct3 = some rounding ∧ instr.funct7 = some code ∧
      w < 4294967296 ∧ opcode w = low 7 instr.opcode ∧ rd w = low 5 f.rd ∧
      funct3 w = low 3 rounding ∧ rs1 w = low 5 f.rs1 ∧ rs2 w = low 5 f.rs2 ∧
      precision w = low 2 code ∧ rs3 w = low 5 f.rs3 := by
  obtain ⟨rounding, hrounding, h⟩ := Result.bind_eq_ok.mp h
  obtain ⟨code, hcode, h⟩ := Result.bind_eq_ok.mp h
  obtain ⟨hlt, hslots⟩ := fields_of_join (Result.pure_eq_ok.mp h) (by simp [Slot.Apart]) (by simp)
  simp only [List.forall_mem_cons] at hslots
  obtain ⟨hopcode, hrd, hlow3, hrs1, hrs2, hlow2, hrs3, -⟩ := hslots
  exact ⟨rounding, code, needed_eq_ok.mp hrounding, needed_eq_ok.mp hcode, hlt, hopcode, hrd, hlow3,
    hrs1, hrs2, hlow2, hrs3⟩

/-- The fields of a word of the I format. -/
theorem packIField_fields {d s field : Int} (h : instr.packIField d s field = .ok w) :
    ∃ code3, instr.funct3 = some code3 ∧
      w < 4294967296 ∧ opcode w = low 7 instr.opcode ∧ rd w = low 5 d ∧ funct3 w = low 3 code3 ∧
      rs1 w = low 5 s ∧ immediateField w = low 12 field := by
  obtain ⟨code3, hcode3, h⟩ := Result.bind_eq_ok.mp h
  obtain ⟨hlt, hslots⟩ := fields_of_join (Result.pure_eq_ok.mp h) (by simp [Slot.Apart]) (by simp)
  simp only [List.forall_mem_cons] at hslots
  obtain ⟨hopcode, hrd, hlow3, hrs1, hfield, -⟩ := hslots
  exact ⟨code3, needed_eq_ok.mp hcode3, hlt, hopcode, hrd, hlow3, hrs1, hfield⟩

/-- A number in the I format is one in range; the mask changes nothing that its field keeps. -/
theorem packINumber_eq_ok_iff {d s imm : Int} : instr.packINumber d s imm = .ok w ↔
    (-2048 ≤ imm ∧ imm ≤ 2047) ∧ instr.packIField d s imm = .ok w := by
  have hrange : fieldRange? 12 true = some (-2048, 2047) := rfl
  have hmask : masked 0xFFF imm = low 12 imm := masked_eq_low (by decide) (by decide) imm
  have hplace : place 12 20 (masked 0xFFF imm : Nat) = place 12 20 imm := by
    rw [hmask, place, ← low, low_low (by decide), low, ← place]
  have hfield : instr.packIField d s (masked 0xFFF imm : Nat) = instr.packIField d s imm := by
    simp only [Instruction.packIField, join, List.foldl_cons, List.foldl_nil, hplace]
  simp only [Instruction.packINumber, Result.bind_eq_ok, checkRange_eq_ok_iff hrange, hfield,
    exists_const]

/-- The fields of a word of the S format. -/
theorem packS_fields (h : instr.packS f = .ok w) :
    ∃ code3, instr.funct3 = some code3 ∧ (-2048 ≤ f.imm ∧ f.imm ≤ 2047) ∧
      w < 4294967296 ∧ opcode w = low 7 instr.opcode ∧ funct3 w = low 3 code3 ∧
      rs1 w = low 5 f.rs1 ∧ rs2 w = low 5 f.rs2 ∧
      bits 5 7 w = low 5 f.imm ∧ bits 7 25 w = low 7 (f.imm / 32) := by
  obtain ⟨_, hrange, h⟩ := Result.bind_eq_ok.mp h
  obtain ⟨code3, hcode3, h⟩ := Result.bind_eq_ok.mp h
  have hmask : masked 0xFFF f.imm = low 12 f.imm := masked_eq_low (by decide) (by decide) f.imm
  rw [hmask] at h
  obtain ⟨hlt, hslots⟩ := fields_of_join (Result.pure_eq_ok.mp h) (by simp [Slot.Apart]) (by simp)
  simp only [List.forall_mem_cons] at hslots
  obtain ⟨hopcode, hlower, hlow3, hrs1, hrs2, hupper, -⟩ := hslots
  exact ⟨code3, needed_eq_ok.mp hcode3, mem_of_checkRange hrange rfl, hlt, hopcode, hlow3, hrs1,
    hrs2, hlower.trans (low_low (by decide) f.imm),
    hupper.trans (low_shiftRight_low (by decide) f.imm)⟩

/-- The fields of a word of the B format. -/
theorem packB_fields (h : instr.packB f = .ok w) :
    ∃ code3, instr.funct3 = some code3 ∧
      (f.imm % 2 = 0 ∧ -4096 ≤ f.imm ∧ f.imm ≤ 4095) ∧
      w < 4294967296 ∧ opcode w = low 7 instr.opcode ∧ funct3 w = low 3 code3 ∧
      rs1 w = low 5 f.rs1 ∧ rs2 w = low 5 f.rs2 ∧
      bits 1 7 w = low 1 (f.imm / 2048) ∧ bits 4 8 w = low 4 (f.imm / 2) ∧
      bits 6 25 w = low 6 (f.imm / 32) ∧ bits 1 31 w = low 1 (f.imm / 4096) := by
  obtain ⟨_, heven, h⟩ := Result.bind_eq_ok.mp h
  obtain ⟨_, hrange, h⟩ := Result.bind_eq_ok.mp h
  obtain ⟨code3, hcode3, h⟩ := Result.bind_eq_ok.mp h
  rw [Instruction.checkEven_eq_ok_iff] at heven
  have hmask : masked 0x1FFE f.imm = low 13 f.imm :=
    masked_eq_low_of_even (by decide) (by decide) heven
  rw [hmask] at h
  obtain ⟨hlt, hslots⟩ := fields_of_join (Result.pure_eq_ok.mp h) (by simp [Slot.Apart]) (by simp)
  simp only [List.forall_mem_cons] at hslots
  obtain ⟨hopcode, h11, h1, hlow3, hrs1, hrs2, h5, h12, -⟩ := hslots
  exact ⟨code3, needed_eq_ok.mp hcode3, ⟨heven, mem_of_checkRange hrange rfl⟩, hlt, hopcode, hlow3,
    hrs1, hrs2, h11.trans (low_shiftRight_low (by decide) f.imm),
    h1.trans (low_shiftRight_low (by decide) f.imm),
    h5.trans (low_shiftRight_low (by decide) f.imm),
    h12.trans (low_shiftRight_low (by decide) f.imm)⟩

/-- The fields of a word of the U format. -/
theorem packU_fields (h : instr.packU f = .ok w) :
    w < 4294967296 ∧ opcode w = low 7 instr.opcode ∧ rd w = low 5 f.rd ∧
      immediateU w = low 20 f.imm := by
  obtain ⟨_, -, h⟩ := Result.bind_eq_ok.mp h
  obtain ⟨hlt, hslots⟩ := fields_of_join (Result.pure_eq_ok.mp h) (by simp [Slot.Apart]) (by simp)
  simp only [List.forall_mem_cons] at hslots
  obtain ⟨hopcode, hrd, himm, -⟩ := hslots
  have hmask : masked 0xFFFFF f.imm = low 20 f.imm := masked_eq_low (by decide) (by decide) f.imm
  rw [hmask] at himm
  refine ⟨hlt, hopcode, hrd, himm.trans ?_⟩
  split
  · exact low_low (by decide) f.imm
  · rfl

/-- The fields of a word of the J format. -/
theorem packJ_fields (h : instr.packJ f = .ok w) :
    (f.imm % 2 = 0 ∧ -1048576 ≤ f.imm ∧ f.imm ≤ 1048575) ∧
      w < 4294967296 ∧ opcode w = low 7 instr.opcode ∧ rd w = low 5 f.rd ∧
      bits 8 12 w = low 8 (f.imm / 4096) ∧ bits 1 20 w = low 1 (f.imm / 2048) ∧
      bits 10 21 w = low 10 (f.imm / 2) ∧ bits 1 31 w = low 1 (f.imm / 1048576) := by
  obtain ⟨_, heven, h⟩ := Result.bind_eq_ok.mp h
  obtain ⟨_, hrange, h⟩ := Result.bind_eq_ok.mp h
  have hmask : masked 0x1FFFFF f.imm = low 21 f.imm := masked_eq_low (by decide) (by decide) f.imm
  rw [hmask] at h
  obtain ⟨hlt, hslots⟩ := fields_of_join (Result.pure_eq_ok.mp h) (by simp [Slot.Apart]) (by simp)
  simp only [List.forall_mem_cons] at hslots
  obtain ⟨hopcode, hrd, h12, h11, h1, h20, -⟩ := hslots
  exact ⟨⟨Instruction.checkEven_eq_ok_iff.mp heven, mem_of_checkRange hrange rfl⟩, hlt, hopcode,
    hrd, h12.trans (low_shiftRight_low (by decide) f.imm),
    h11.trans (low_shiftRight_low (by decide) f.imm),
    h1.trans (low_shiftRight_low (by decide) f.imm),
    h20.trans (low_shiftRight_low (by decide) f.imm)⟩

/-! ## Immediates come together -/

/-- Low bits read in two's complement are the value they were taken from. -/
theorem signed_low {width : Nat} {value : Int} (hwidth : 0 < width)
    (hleast : -(span (width - 1) : Int) ≤ value) (hlt : value < span (width - 1)) :
    signed width (low width value) = value := by
  obtain ⟨n, rfl⟩ : ∃ n, width = n + 1 := ⟨width - 1, by omega⟩
  have hspan : span (n + 1) = 2 * span n := by
    simp only [span, Nat.pow_eq, Nat.pow_succ]
    omega
  have hlow := low_eq_emod (n + 1) value
  rw [Nat.add_sub_cancel] at hleast hlt
  rw [signed, Nat.add_sub_cancel]
  rw [hspan] at hlow ⊢
  by_cases hneg : value < 0
  · have hmod : value % ((2 * span n : Nat) : Int) = value + (2 * span n : Nat) := by
      rw [← Int.add_emod_right, Int.emod_eq_of_lt] <;> omega
    rw [hmod] at hlow
    split <;> omega
  · rw [Int.emod_eq_of_lt (by omega) (by omega)] at hlow
    split <;> omega

/-- The immediate of a packed word of the I format, for a number in range. -/
theorem immediateI_packIField {d s imm : Int} (h : instr.packIField d s imm = .ok w)
    (hin : -2048 ≤ imm ∧ imm ≤ 2047) : immediateI w = imm := by
  obtain ⟨-, -, -, -, -, -, -, hfield⟩ := packIField_fields h
  rw [immediateI, hfield]
  exact signed_low (by decide) hin.1 (Int.lt_add_one_of_le hin.2)

/-- The offset of a packed word of the S format. -/
theorem immediateS_packS (h : instr.packS f = .ok w) : immediateS w = f.imm := by
  obtain ⟨_, -, ⟨hleast, hgreatest⟩, -, -, -, -, -, hlower, hupper⟩ := packS_fields h
  have h5 := low_eq_emod 5 f.imm
  have h7 := low_eq_emod 7 (f.imm / 32)
  have hall := low_eq_emod 12 f.imm
  have hjoin : bits 5 7 w + bits 7 25 w * 32 = low 12 f.imm := by
    rw [hlower, hupper]
    simp only [span, Nat.pow_eq, Nat.reducePow] at h5 h7 hall
    omega
  rw [immediateS, hjoin]
  exact signed_low (by decide) hleast (Int.lt_add_one_of_le hgreatest)

/-- The offset of a packed word of the B format. -/
theorem immediateB_packB (h : instr.packB f = .ok w) : immediateB w = f.imm := by
  obtain ⟨_, -, ⟨heven, hleast, hgreatest⟩, -, -, -, -, -, h7, h8, h25, h31⟩ := packB_fields h
  have h11 := low_eq_emod 1 (f.imm / 2048)
  have h1 := low_eq_emod 4 (f.imm / 2)
  have h5 := low_eq_emod 6 (f.imm / 32)
  have h12 := low_eq_emod 1 (f.imm / 4096)
  have hall := low_eq_emod 13 f.imm
  have hjoin : bits 4 8 w * 2 + bits 6 25 w * 32 + bits 1 7 w * 2048 + bits 1 31 w * 4096 =
      low 13 f.imm := by
    rw [h7, h8, h25, h31]
    simp only [span, Nat.pow_eq, Nat.reducePow] at h11 h1 h5 h12 hall
    omega
  rw [immediateB, hjoin]
  exact signed_low (by decide) hleast (Int.lt_add_one_of_le hgreatest)

/-- The offset of a packed word of the J format. -/
theorem immediateJ_packJ (h : instr.packJ f = .ok w) : immediateJ w = f.imm := by
  obtain ⟨⟨heven, hleast, hgreatest⟩, -, -, -, h12, h20, h21, h31⟩ := packJ_fields h
  have hhigh := low_eq_emod 8 (f.imm / 4096)
  have h11 := low_eq_emod 1 (f.imm / 2048)
  have h1 := low_eq_emod 10 (f.imm / 2)
  have hsign := low_eq_emod 1 (f.imm / 1048576)
  have hall := low_eq_emod 21 f.imm
  have hjoin : bits 10 21 w * 2 + bits 1 20 w * 2048 + bits 8 12 w * 4096 +
      bits 1 31 w * 1048576 = low 21 f.imm := by
    rw [h12, h20, h21, h31]
    simp only [span, Nat.pow_eq, Nat.reducePow] at hhigh h11 h1 hsign hall
    omega
  rw [immediateJ, hjoin]
  exact signed_low (by decide) hleast (Int.lt_add_one_of_le hgreatest)

end Word

end RiscAsm

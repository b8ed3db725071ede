import RiscAsm.Proofs.Operand

/-!
# The shape of memory operands

A memory operand is an offset in front of a base register in parentheses, with blanks in all gaps,
and its parts come apart exactly so (`memoryParts?_eq_some_iff`).  So a memory operand closes its
parentheses, whatever it is made of (`closed_of_memoryParts?`).
-/

namespace RiscAsm

/-- What holds of every code point in the ranges of blanks holds of every blank. -/
theorem of_isBlank (P : Char → Prop) (h : ∀ range ∈ blankRanges, ∀ k < range.2 + 1 - range.1,
    P (Char.ofNat (range.1 + k))) {c : Char} (hc : isBlank c = true) : P c := by
  rw [isBlank, inRanges, List.any_eq_true] at hc
  obtain ⟨range, hrange, hin⟩ := hc
  have hbounds : range.1 ≤ c.toNat ∧ c.toNat ≤ range.2 := by simpa using hin
  have hone := h range hrange (c.toNat - range.1) (by omega)
  rwa [Nat.add_sub_cancel' hbounds.1, Char.ofNat_toNat] at hone

/-- No blank is a word character. -/
theorem isBlank_of_isWordChar {c : Char} (h : isWordChar c = true) : isBlank c = false := by
  have hall : ∀ range ∈ blankRanges, ∀ k < range.2 + 1 - range.1,
      isWordChar (Char.ofNat (range.1 + k)) = false := by decide +kernel
  rw [← Bool.not_eq_true]
  intro hblank
  have hother : isWordChar c = false := of_isBlank (isWordChar · = false) hall hblank
  exact Bool.false_ne_true (hother.symm.trans h)

namespace Operand

/-- Word characters are no separators and no parentheses. -/
theorem plain_of_isWordChar {c : Char} (h : isWordChar c = true) :
    isSeparator c = false ∧ nesting c = 0 := by
  have hother : ∀ d, isWordChar d = false → c ≠ d := by
    rintro d hd rfl
    exact Bool.false_ne_true (hd.symm.trans h)
  constructor
  · rw [isSeparator, isBlank_of_isWordChar h, beq_eq_false_iff_ne.mpr (hother ',' (by decide))]
    rfl
  · rw [nesting, if_neg (hother '(' (by decide)), if_neg (hother ')' (by decide))]

/-- An address with blanks in its gaps: around the opening parenthesis, and around the closing
one. -/
def spacedAddress (offset w₁ w₂ register w₃ w₄ : Text) : Text :=
  offset ++ (w₁ ++ '(' :: (w₂ ++ (register ++ (w₃ ++ ')' :: w₄))))

/-- An offset as it is written in an address: word characters, after a minus sign perhaps. -/
def IsOffset (s : Text) : Prop :=
  ∃ sign digits, (sign = [] ∨ sign = ['-']) ∧ (∀ c ∈ digits, isWordChar c = true) ∧
    s = sign ++ digits

/-- A word ends where no word character follows. -/
theorem span_word {word rest : Text} (hword : ∀ c ∈ word, isWordChar c = true)
    (hrest : ∀ c ∈ rest.head?, isWordChar c = false) :
    (word ++ rest).takeWhile isWordChar = word ∧ (word ++ rest).dropWhile isWordChar = rest := by
  rw [List.takeWhile_append_of_pos hword, List.dropWhile_append_of_pos hword]
  cases rest with
  | nil => simp
  | cons c rest =>
      have hc := hrest c rfl
      simp [hc]

/-- After blanks comes no word character, unless one follows them. -/
theorem head?_of_blank {w : Text} {c : Char} (hw : ∀ d ∈ w, isBlank d = true)
    (hc : isWordChar c = false) (rest : Text) :
    ∀ d ∈ (w ++ c :: rest).head?, isWordChar d = false := by
  intro d hd
  cases w with
  | nil =>
      obtain rfl : c = d := Option.some.inj hd
      exact hc
  | cons b w =>
      obtain rfl : b = d := Option.some.inj hd
      rw [← Bool.not_eq_true]
      intro hword
      have hblank := hw b List.mem_cons_self
      rw [isBlank_of_isWordChar hword] at hblank
      cases hblank

/-- Blanks are dropped up to the next character. -/
theorem trimStart_blank_cons {w rest : Text} {c : Char} (hw : ∀ d ∈ w, isBlank d = true)
    (hc : isBlank c = false) : Text.trimStart (w ++ c :: rest) = c :: rest := by
  rw [Text.trimStart_append_of_blank hw, Text.trimStart_cons_of_not_blank hc]

/-- Blanks are dropped up to the next word. -/
theorem trimStart_blank_word {w word rest : Text} (hw : ∀ d ∈ w, isBlank d = true)
    (hne : word ≠ []) (hword : ∀ c ∈ word, isWordChar c = true) :
    Text.trimStart (w ++ (word ++ rest)) = word ++ rest := by
  obtain ⟨c, word, rfl⟩ := List.exists_cons_of_ne_nil hne
  exact trimStart_blank_cons hw (isBlank_of_isWordChar (hword c List.mem_cons_self))

/-! ## Reading in two steps -/

/-- Takes a minus sign off. -/
def splitSign : Text → Text × Text
  | '-' :: rest => (['-'], rest)
  | s => ([], s)

/-- The word at the start of a text and the register in parentheses after it. -/
def afterSign? (s : Text) : Option (Text × Text) :=
  match Text.trimStart (s.dropWhile isWordChar) with
  | '(' :: rest =>
    let rest := Text.trimStart rest
    let register := rest.takeWhile isWordChar
    if register.isEmpty then none
    else match Text.trimStart (rest.dropWhile isWordChar) with
      | ')' :: rest =>
        if (Text.trimStart rest).isEmpty then some (s.takeWhile isWordChar, register) else none
      | _ => none
  | _ => none

/-- A memory operand is read up to its sign and after it. -/
theorem memoryParts?_eq (s : Text) :
    memoryParts? s = (afterSign? (splitSign (Text.trimStart s)).2).map fun parts =>
      ((splitSign (Text.trimStart s)).1 ++ parts.1, parts.2) := by
  have hmap : ∀ (sign t : Text), (match Text.trimStart (t.dropWhile isWordChar) with
      | '(' :: rest =>
        let rest := Text.trimStart rest
        let register := rest.takeWhile isWordChar
        if register.isEmpty then none
        else match Text.trimStart (rest.dropWhile isWordChar) with
          | ')' :: rest =>
            if (Text.trimStart rest).isEmpty then some (sign ++ t.takeWhile isWordChar, register)
            else none
          | _ => none
      | _ => none) = (afterSign? t).map fun parts => (sign ++ parts.1, parts.2) := by
    intro sign t
    unfold afterSign?
    split
    · simp only
      split
      · rfl
      · split
        · split <;> rfl
        · rfl
    · rfl
  rw [memoryParts?]
  generalize Text.trimStart s = t
  split
  next sign rest hmatch =>
    have hsplit : splitSign t = (sign, rest) := by
      split at hmatch
      next => exact hmatch
      next hplain =>
        rw [← hmatch, splitSign]
        exact hplain
    rw [hsplit]
    exact hmap sign rest

/-- What is read after the sign is an address. -/
theorem spacedAddress_of_afterSign? {s digits register : Text}
    (h : afterSign? s = some (digits, register)) :
    (∀ c ∈ digits, isWordChar c = true) ∧ register ≠ [] ∧ (∀ c ∈ register, isWordChar c = true) ∧
      ∃ w₁ w₂ w₃ w₄, (∀ w ∈ [w₁, w₂, w₃, w₄], ∀ c ∈ w, isBlank c = true) ∧
        s = spacedAddress digits w₁ w₂ register w₃ w₄ := by
  have hword : ∀ (t : Text), ∀ c ∈ t.takeWhile isWordChar, isWordChar c = true :=
    fun t c hc => List.mem_takeWhile_imp hc
  rw [afterSign?] at h
  split at h
  next rest hopen =>
    simp only at h
    split at h
    next => cases h
    next hne =>
      split at h
      next last hclose =>
        split at h
        next hend =>
          obtain ⟨rfl, rfl⟩ := Prod.mk.inj (Option.some.inj h)
          -- the blanks in the four gaps are what was trimmed off
          obtain ⟨w₁, hs, h₁⟩ := Text.exists_trimStart (s.dropWhile isWordChar)
          obtain ⟨w₂, hrest, h₂⟩ := Text.exists_trimStart rest
          obtain ⟨w₃, hlast, h₃⟩ :=
            Text.exists_trimStart ((Text.trimStart rest).dropWhile isWordChar)
          have h₄ := Text.trimStart_eq_nil_iff.mp (List.isEmpty_iff.mp hend)
          refine ⟨hword s, by simpa using hne, hword _, w₁, w₂, w₃, last, ?_, ?_⟩
          · simp only [List.forall_mem_cons]
            exact ⟨h₁, h₂, h₃, h₄, List.forall_mem_nil _⟩
          · have hinner : rest = w₂ ++ ((Text.trimStart rest).takeWhile isWordChar ++
                (w₃ ++ ')' :: last)) := by
              rw [← hclose, ← hlast, List.takeWhile_append_dropWhile]
              exact hrest
            calc s = s.takeWhile isWordChar ++ s.dropWhile isWordChar :=
                  List.takeWhile_append_dropWhile.symm
              _ = s.takeWhile isWordChar ++ (w₁ ++ '(' :: rest) := by
                  rw [← hopen, ← hs]
              _ = _ := congrArg (fun t => s.takeWhile isWordChar ++ (w₁ ++ '(' :: t)) hinner
        next => cases h
      next => cases h
  next => cases h

/-- An address is read after the sign. -/
theorem afterSign?_spacedAddress {digits register w₁ w₂ w₃ w₄ : Text}
    (hdigits : ∀ c ∈ digits, isWordChar c = true) (hne : register ≠ [])
    (hregister : ∀ c ∈ register, isWordChar c = true)
    (hblank : ∀ w ∈ [w₁, w₂, w₃, w₄], ∀ c ∈ w, isBlank c = true) :
    afterSign? (spacedAddress digits w₁ w₂ register w₃ w₄) = some (digits, register) := by
  simp only [List.forall_mem_cons] at hblank
  obtain ⟨h₁, h₂, h₃, h₄, -⟩ := hblank
  have hopen : isWordChar '(' = false := by decide
  have hclose : isWordChar ')' = false := by decide
  obtain ⟨htake, hdrop⟩ := span_word hdigits
    (head?_of_blank h₁ hopen (w₂ ++ (register ++ (w₃ ++ ')' :: w₄))))
  obtain ⟨htake', hdrop'⟩ := span_word hregister (head?_of_blank h₃ hclose w₄)
  rw [afterSign?, spacedAddress, hdrop, trimStart_blank_cons h₁ (by decide)]
  simp only [trimStart_blank_word h₂ hne hregister, htake', hdrop', htake,
    trimStart_blank_cons h₃ (by decide : isBlank ')' = false), Text.trimStart_eq_nil_iff.mpr h₄]
  simp [hne]

/-- The sign is split off and nothing is lost. -/
theorem splitSign_spec (s : Text) :
    ((splitSign s).1 = [] ∨ (splitSign s).1 = ['-']) ∧
      s = (splitSign s).1 ++ (splitSign s).2 := by
  unfold splitSign
  split
  · exact ⟨.inr rfl, rfl⟩
  · exact ⟨.inl rfl, rfl⟩

theorem splitSign_of_head? {s : Text} (h : s.head? ≠ some '-') : splitSign s = ([], s) := by
  unfold splitSign
  split
  · exact absurd rfl h
  · rfl

/-- The parts of a memory operand come apart, wherever it has blanks. -/
theorem memoryParts?_spacedAddress {offset register w₀ w₁ w₂ w₃ w₄ : Text}
    (hoffset : IsOffset offset) (hne : register ≠ [])
    (hregister : ∀ c ∈ register, isWordChar c = true)
    (hblank : ∀ w ∈ [w₀, w₁, w₂, w₃, w₄], ∀ c ∈ w, isBlank c = true) :
    memoryParts? (w₀ ++ spacedAddress offset w₁ w₂ register w₃ w₄) = some (offset, register) := by
  obtain ⟨sign, digits, hsign, hdigits, rfl⟩ := hoffset
  obtain ⟨h₀, hblank⟩ := List.forall_mem_cons.mp hblank
  have hread := afterSign?_spacedAddress hdigits hne hregister hblank
  rw [memoryParts?_eq]
  rcases hsign with rfl | rfl
  · cases digits with
    | nil =>
        -- without an offset, the blanks before the parenthesis are dropped with those at the start
        obtain ⟨h₁, hblank⟩ := List.forall_mem_cons.mp hblank
        have hstart : Text.trimStart (w₀ ++ spacedAddress [] w₁ w₂ register w₃ w₄) =
            spacedAddress [] [] w₂ register w₃ w₄ := by
          rw [spacedAddress, List.nil_append, Text.trimStart_append_of_blank h₀]
          exact trimStart_blank_cons h₁ (by decide)
        have hbare := afterSign?_spacedAddress hdigits hne hregister
          (List.forall_mem_cons.mpr ⟨List.forall_mem_nil _, hblank⟩)
        rw [List.nil_append, hstart, splitSign_of_head? (by simp [spacedAddress]), hbare]
        rfl
    | cons d digits =>
        have hd := hdigits d List.mem_cons_self
        have hstart : Text.trimStart (w₀ ++ spacedAddress (d :: digits) w₁ w₂ register w₃ w₄) =
            spacedAddress (d :: digits) w₁ w₂ register w₃ w₄ :=
          trimStart_blank_word h₀ (List.cons_ne_nil _ _) hdigits
        have hhead : (spacedAddress (d :: digits) w₁ w₂ register w₃ w₄).head? ≠ some '-' := by
          intro hminus
          obtain rfl : d = '-' := Option.some.inj hminus
          exact absurd hd (by decide)
        rw [List.nil_append, hstart, splitSign_of_head? hhead, hread]
        rfl
  · have hstart : Text.trimStart (w₀ ++ spacedAddress (['-'] ++ digits) w₁ w₂ register w₃ w₄) =
        '-' :: spacedAddress digits w₁ w₂ register w₃ w₄ :=
      trimStart_blank_cons h₀ (by decide)
    rw [hstart, splitSign, hread]
    rfl

/-- The parts of a memory operand, wherever it has blanks. -/
theorem memoryParts?_eq_some_iff {s offset register : Text} :
    memoryParts? s = some (offset, register) ↔
      IsOffset offset ∧ register ≠ [] ∧ (∀ c ∈ register, isWordChar c = true) ∧
      ∃ w₀ w₁ w₂ w₃ w₄, (∀ w ∈ [w₀, w₁, w₂, w₃, w₄], ∀ c ∈ w, isBlank c = true) ∧
        s = w₀ ++ spacedAddress offset w₁ w₂ register w₃ w₄ := by
  constructor
  · intro h
    rw [memoryParts?_eq, Option.map_eq_some_iff] at h
    obtain ⟨⟨digits, register⟩, hread, hparts⟩ := h
    obtain ⟨rfl, rfl⟩ := Prod.mk.inj hparts
    obtain ⟨hdigits, hne, hregister, w₁, w₂, w₃, w₄, hblank, hs⟩ :=
      spacedAddress_of_afterSign? hread
    obtain ⟨w₀, hstart, h₀⟩ := Text.exists_trimStart s
    obtain ⟨hsign, hsplit⟩ := splitSign_spec (Text.trimStart s)
    refine ⟨⟨_, digits, hsign, hdigits, rfl⟩, hne, hregister, w₀, w₁, w₂, w₃, w₄,
      List.forall_mem_cons.mpr ⟨h₀, hblank⟩, ?_⟩
    rw [hs] at hsplit
    rw [spacedAddress, List.append_assoc, ← spacedAddress, ← hsplit]
    exact hstart
  · rintro ⟨hoffset, hne, hregister, w₀, w₁, w₂, w₃, w₄, hblank, rfl⟩
    exact memoryParts?_spacedAddress hoffset hne hregister hblank

/-- Blanks do not change the number of open parentheses, and neither do word characters. -/
theorem nestingOf_of_blank {w : Text} (h : ∀ c ∈ w, isBlank c = true) : nestingOf w = 0 := by
  refine nestingOf_of_forall fun c hc => nesting_of_isSeparator ?_
  rw [isSeparator, h c hc, Bool.or_true]

theorem nestingOf_of_word {s : Text} (h : ∀ c ∈ s, isWordChar c = true) : nestingOf s = 0 :=
  nestingOf_of_forall fun c hc => (plain_of_isWordChar (h c hc)).2

theorem IsOffset.closed {s : Text} (h : IsOffset s) : nestingOf s = 0 := by
  obtain ⟨sign, digits, hsign, hdigits, rfl⟩ := h
  rw [nestingOf_append, nestingOf_of_word hdigits]
  rcases hsign with rfl | rfl <;> rfl

/-- Inside parentheses nothing is divided. -/
theorem unbroken_of_nesting {depth : Int} {s : Text} (hdepth : depth ≠ 0)
    (h : ∀ c ∈ s, nesting c = 0) : Unbroken depth s := by
  induction s with
  | nil => trivial
  | cons c s ih =>
      refine ⟨fun hzero => absurd hzero hdepth, ?_⟩
      rw [h c List.mem_cons_self, Int.add_zero]
      exact ih fun d hd => h d (List.mem_cons_of_mem c hd)

/-- An address with blanks in its parentheses is one operand. -/
theorem isOperand_spacedAddress {offset w₂ register w₃ : Text}
    (hoffset : ∀ c ∈ offset, isSeparator c = false ∧ nesting c = 0)
    (hinner : ∀ c ∈ w₂ ++ (register ++ w₃), nesting c = 0) :
    IsOperand (spacedAddress offset [] w₂ register w₃ []) ∧
      Closed (spacedAddress offset [] w₂ register w₃ []) := by
  have hspaced : spacedAddress offset [] w₂ register w₃ [] =
      offset ++ '(' :: (w₂ ++ (register ++ w₃) ++ [')']) := by simp [spacedAddress]
  have hzero : nestingOf offset = 0 := nestingOf_of_forall fun c hc => (hoffset c hc).2
  rw [hspaced]
  generalize w₂ ++ (register ++ w₃) = inner at hinner
  have hclosed : Closed (offset ++ '(' :: (inner ++ [')'])) := by
    rw [Closed, nestingOf_append, nestingOf_cons, nestingOf_append, hzero,
      nestingOf_of_forall hinner]
    rfl
  have hunbroken : Unbroken 0 (offset ++ '(' :: (inner ++ [')'])) := by
    rw [unbroken_append, hzero]
    refine ⟨unbroken_of_forall fun c hc => (hoffset c hc).1, fun _ => by decide, ?_⟩
    rw [unbroken_append]
    exact ⟨unbroken_of_nesting (by decide) hinner, fun _ => by decide, trivial⟩
  exact ⟨isOperand_of_closed (by simp) hunbroken hclosed, hclosed⟩

/-- A memory operand closes the parentheses that it opens. -/
theorem closed_of_memoryParts? {s offset register : Text}
    (h : memoryParts? s = some (offset, register)) : Closed s := by
  obtain ⟨hoffset, -, hregister, w₀, w₁, w₂, w₃, w₄, hblank, rfl⟩ := memoryParts?_eq_some_iff.mp h
  simp only [List.forall_mem_cons, List.not_mem_nil, false_implies, implies_true,
    and_true] at hblank
  obtain ⟨h₀, h₁, h₂, h₃, h₄⟩ := hblank
  rw [Closed, spacedAddress]
  simp only [nestingOf_append, nestingOf_cons, nestingOf_of_blank h₀, nestingOf_of_blank h₁,
    nestingOf_of_blank h₂, nestingOf_of_blank h₃, nestingOf_of_blank h₄, hoffset.closed,
    nestingOf_of_word hregister]
  rfl

end Operand

end RiscAsm

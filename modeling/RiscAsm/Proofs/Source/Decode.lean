import RiscAsm.Program
import RiscAsm.Proofs.Text.Utf8

/-!
# Decoding sources

Bytes are a source exactly if they are the encoding of a text.  Otherwise they are text up to one
place at which no character starts (`Utf8.StopsAt`), and this place is the one that is reported.
While bytes are read, every character that could start where the one at hand does goes on as this
one does (`Utf8.Awaits`), so none is left when a byte does not fit.  The main statement is
`Source.decode_utf8`.
-/

namespace RiscAsm

namespace Utf8

/-! ## The encoding -/

/-- Characters are encoded as those of strings. -/
theorem encodeChar_eq_utf8EncodeChar (c : Char) : encodeChar c = String.utf8EncodeChar c := by
  have hscalar := isScalar_toNat c
  unfold IsScalar at hscalar
  have hval : c.val.toNat = c.toNat := rfl
  unfold encodeChar String.utf8EncodeChar
  simp only [hval]
  -- the cases are the same; the first byte of a string's character is cut to the bits it can have
  by_cases hone : c.toNat < 0x80
  · rw [if_pos hone, if_pos (Nat.le_of_lt_succ hone)]
  rw [if_neg hone, if_neg (mt Nat.lt_succ_of_le hone)]
  have hlast : 0x80 + c.toNat % 0x40 = c.toNat % 64 + 128 := Nat.add_comm _ _
  by_cases htwo : c.toNat < 0x800
  · have hfirst : 0xC0 + c.toNat / 0x40 = c.toNat / 64 % 32 + 192 := by omega
    rw [if_pos htwo, if_pos (Nat.le_of_lt_succ htwo), hfirst, hlast]
  rw [if_neg htwo, if_neg (mt Nat.lt_succ_of_le htwo)]
  have hthird : 0x80 + c.toNat / 0x40 % 0x40 = c.toNat / 64 % 64 + 128 := Nat.add_comm _ _
  by_cases hthree : c.toNat < 0x10000
  · have hfirst : 0xE0 + c.toNat / 0x1000 = c.toNat / 4096 % 16 + 224 := by omega
    rw [if_pos hthree, if_pos (Nat.le_of_lt_succ hthree), hfirst, hthird, hlast]
  · have hfirst : 0xF0 + c.toNat / 0x40000 = c.toNat / 262144 % 8 + 240 := by omega
    have hsecond : 0x80 + c.toNat / 0x1000 % 0x40 = c.toNat / 4096 % 64 + 128 := Nat.add_comm _ _
    rw [if_neg hthree, if_neg (mt Nat.lt_succ_of_le hthree), hfirst, hsecond, hthird, hlast]

theorem toByteArray_encode (text : Text) :
    (encode text).toByteArray = (String.ofList text).toUTF8 := by
  have hchar : encodeChar = String.utf8EncodeChar := funext encodeChar_eq_utf8EncodeChar
  rw [encode, hchar]
  exact String.toByteArray_ofList.symm

/-- No encoding of a character is the start of another. -/
theorem eq_of_encodeChar_prefix {c d : Char} {tail : List UInt8}
    (h : encodeChar c <+: encodeChar d ++ tail) : c = d := by
  obtain ⟨byte, rest, lead, hc, hlead, hspells⟩ := exists_spells c
  obtain ⟨first, others, other, hd, hother, hspelled⟩ := exists_spells d
  rw [hc, hd] at h
  obtain ⟨rfl, hrest⟩ := List.cons_prefix_cons.mp h
  obtain rfl := Option.some.inj (hlead.symm.trans hother)
  -- the first byte tells how many follow, so neither can end before the other
  have hlength : rest.length = others.length := by
    rw [hspells.length_eq, hspelled.length_eq]
  have hsame : rest = others :=
    (List.prefix_of_prefix_length_le hrest (List.prefix_append others tail)
      (Nat.le_of_eq hlength)).eq_of_length hlength
  have hencode : encode [c] = encode [d] := by
    simp [encode, hc, hd, hsame]
  have hdecode := decode_eq_ok_iff.mpr hencode
  rw [decode_eq_ok_iff.mpr rfl] at hdecode
  exact List.singleton_inj.mp (Except.ok.inj hdecode)

/-- Where the encoding of a text is the start of another, either they are the same or a character
starts there. -/
theorem eq_or_exists_of_encode_prefix {first whole : Text} (h : encode first <+: encode whole) :
    first = whole ∨ ∃ c, encode first ++ encodeChar c <+: encode whole := by
  induction first generalizing whole with
  | nil =>
      cases whole with
      | nil => exact .inl rfl
      | cons c whole => exact .inr ⟨c, List.prefix_append _ _⟩
  | cons c first ih =>
      cases whole with
      | nil =>
          obtain ⟨byte, rest, lead, hc, -, -⟩ := exists_spells c
          rw [encode, List.flatMap_cons, hc] at h
          cases List.prefix_nil.mp h
      | cons d whole =>
          have hcd : c = d := eq_of_encodeChar_prefix ((List.prefix_append _ _).trans h)
          subst hcd
          rcases ih ((List.prefix_append_right_inj _).mp h) with rfl | ⟨e, he⟩
          · exact .inl rfl
          · refine .inr ⟨e, ?_⟩
            have hcons : ∀ t, encode (c :: t) = encodeChar c ++ encode t := fun _ => rfl
            rw [hcons, hcons, List.append_assoc]
            exact (List.prefix_append_right_inj _).mpr he

/-! ## Where bytes stop being text -/

/-- Bytes are text up to a place at which no character starts. -/
structure StopsAt (bytes : List UInt8) (k : Nat) : Prop where
  text : ∃ text, bytes.take k = encode text
  stops : ∀ c, ¬ encodeChar c <+: bytes.drop k

/-- If text goes on past a place up to which it is text, a character starts there. -/
theorem StopsAt.not_lt {bytes : List UInt8} {j k : Nat} (h : StopsAt bytes j)
    (hk : k ≤ bytes.length) (htext : ∃ text, bytes.take k = encode text) : ¬ j < k := by
  intro hlt
  obtain ⟨first, hfirst⟩ := h.text
  obtain ⟨whole, hwhole⟩ := htext
  have hprefix : encode first <+: encode whole := by
    rw [← hfirst, ← hwhole]
    exact List.take_prefix_take_left (Nat.le_of_lt hlt)
  rcases eq_or_exists_of_encode_prefix hprefix with rfl | ⟨c, hc⟩
  -- equal texts would end at the same place
  · have hlength := congrArg List.length (hfirst.trans hwhole.symm)
    rw [List.length_take, List.length_take] at hlength
    omega
  · rw [← hfirst, ← hwhole] at hc
    have hall : bytes.take j ++ encodeChar c <+: bytes.take j ++ bytes.drop j := by
      rw [List.take_append_drop]
      exact hc.trans (List.take_prefix k bytes)
    exact h.stops c ((List.prefix_append_right_inj _).mp hall)

/-- There is at most one such place before the end. -/
theorem StopsAt.unique {bytes : List UInt8} {j k : Nat} (hj : StopsAt bytes j)
    (hjlt : j < bytes.length) (hk : StopsAt bytes k) (hklt : k < bytes.length) : j = k := by
  have hle := hj.not_lt (Nat.le_of_lt hklt) hk.text
  have hge := hk.not_lt (Nat.le_of_lt hjlt) hj.text
  omega

/-! ## Characters at hand -/

/-- Every character that starts with the bytes goes on as the character at hand does. -/
def Awaits (bytes : List UInt8) (lead : Lead) : Prop :=
  ∀ c tail, encodeChar c <+: bytes ++ tail → ∃ rest, rest <+: tail ∧ Spells lead rest c.toNat

theorem awaits_lead {byte : UInt8} {lead : Lead} (h : lead? byte.toNat = some lead) :
    Awaits [byte] lead := by
  intro c tail hprefix
  obtain ⟨first, rest, other, hc, hother, hspells⟩ := exists_spells c
  rw [hc] at hprefix
  obtain ⟨rfl, hrest⟩ := List.cons_prefix_cons.mp hprefix
  obtain rfl := Option.some.inj (h.symm.trans hother)
  exact ⟨rest, hrest, hspells⟩

theorem Awaits.next {bytes : List UInt8} {lead : Lead} (h : Awaits bytes lead)
    (hfollow : lead.follow ≠ 0) (byte : UInt8) :
    Awaits (bytes ++ [byte]) (lead.next byte.toNat) := by
  intro c tail hprefix
  rw [List.append_assoc] at hprefix
  obtain ⟨rest, hrest, hspells⟩ := h c (byte :: tail) hprefix
  cases rest with
  | nil => exact absurd hspells.1 hfollow
  | cons first rest =>
      obtain ⟨rfl, htail⟩ := List.cons_prefix_cons.mp hrest
      exact ⟨rest, htail, hspells.2.2.2⟩

/-- No character starts with the bytes if what follows does not fit. -/
theorem Awaits.not_prefix {bytes tail : List UInt8} {lead : Lead} (h : Awaits bytes lead)
    (hfollow : lead.follow ≠ 0)
    (htail : ∀ byte ∈ tail.head?, ¬ (lead.least ≤ byte.toNat ∧ byte.toNat ≤ lead.greatest))
    (c : Char) : ¬ encodeChar c <+: bytes ++ tail := by
  intro hprefix
  obtain ⟨rest, hrest, hspells⟩ := h c tail hprefix
  cases rest with
  | nil => exact hfollow hspells.1
  | cons byte rest =>
      obtain ⟨others, rfl⟩ := hrest
      exact htail byte rfl ⟨hspells.2.1, hspells.2.2.1⟩

/-! ## Offsets while bytes are read -/

/-- The offset of the next byte is the number of bytes read so far, and that of the character at
hand is where the finished characters end. -/
structure Scan.Located (bytes : List UInt8) (s : Scan) : Prop where
  inv : s.Inv bytes
  position : s.position = bytes.length
  pending : ∀ offset lead, s.pending = some ⟨offset, lead⟩ → lead.follow ≠ 0 ∧
    offset = (encode s.done.reverse).length ∧
    ∃ q, bytes = encode s.done.reverse ++ q ∧ Awaits q lead

theorem Scan.position_take (s : Scan) (offset : Nat) (lead : Lead) :
    (s.take offset lead).position = s.position + 1 := by
  unfold Scan.take
  split
  · rfl
  · rfl

/-- A character at hand after a byte is the one that the byte belongs to. -/
theorem Scan.pending_take {s : Scan} {offset : Nat} {lead : Lead} {p : Pending}
    (h : (s.take offset lead).pending = some p) :
    lead.follow ≠ 0 ∧ p = ⟨offset, lead⟩ ∧ (s.take offset lead).done = s.done := by
  unfold Scan.take at h ⊢
  by_cases hfollow : lead.follow = 0
  · rw [if_pos hfollow] at h
    cases h
  · rw [if_neg hfollow] at h ⊢
    exact ⟨hfollow, (Option.some.inj h).symm, rfl⟩

theorem Scan.Inv.eq_encode {bytes : List UInt8} {s : Scan} (h : s.Inv bytes)
    (hs : s.pending = none) : bytes = encode s.done.reverse := by
  unfold Scan.Inv at h
  rwa [hs] at h

/-- A byte that is accepted keeps track of the offsets. -/
theorem Scan.Located.step {bytes : List UInt8} {s next : Scan} {byte : UInt8} (h : s.Located bytes)
    (hstep : Utf8.step s byte = .ok next) : next.Located (bytes ++ [byte]) := by
  have hinv := h.inv.step hstep
  have hlength : s.position + 1 = (bytes ++ [byte]).length := by
    rw [h.position, List.length_append, List.length_singleton]
  rcases step_eq_ok hstep with ⟨hs, lead, hlead, rfl⟩ | ⟨offset, lead, hs, -, -, rfl⟩
  · refine ⟨hinv, (Scan.position_take ..).trans hlength, fun offset other hpending => ?_⟩
    obtain ⟨hfollow, hp, hdone⟩ := Scan.pending_take hpending
    cases hp
    have hbytes := h.inv.eq_encode hs
    rw [hdone]
    exact ⟨hfollow, h.position.trans (congrArg List.length hbytes), [byte], by rw [← hbytes],
      awaits_lead hlead⟩
  · refine ⟨hinv, (Scan.position_take ..).trans hlength, fun place other hpending => ?_⟩
    obtain ⟨hfollow, hp, hdone⟩ := Scan.pending_take hpending
    cases hp
    obtain ⟨hbefore, hoffset, q, hbytes, hawaits⟩ := h.pending offset lead hs
    rw [hdone]
    exact ⟨hfollow, hoffset, q ++ [byte], by rw [hbytes, List.append_assoc],
      hawaits.next hbefore byte⟩

theorem Scan.Located.foldlM {rest bytes : List UInt8} {s final : Scan} (h : s.Located bytes)
    (hfinal : rest.foldlM Utf8.step s = .ok final) : final.Located (bytes ++ rest) := by
  induction rest generalizing bytes s with
  | nil =>
      cases hfinal
      rwa [List.append_nil]
  | cons byte rest ih =>
      rw [List.foldlM_cons] at hfinal
      obtain ⟨next, hstep, hnext⟩ := Result.bind_eq_ok.mp hfinal
      have hall := ih (h.step hstep) hnext
      rwa [List.append_assoc] at hall

/-! ## Faults -/

/-- What a byte that is refused shows. -/
theorem step_eq_error {s : Scan} {byte : UInt8} {e : Invalid} (h : step s byte = .error e) :
    (s.pending = none ∧ lead? byte.toNat = none ∧ e.offset = s.position) ∨
    ∃ lead, s.pending = some ⟨e.offset, lead⟩ ∧
      ¬ (lead.least ≤ byte.toNat ∧ byte.toNat ≤ lead.greatest) := by
  cases hs : s.pending with
  | none =>
      cases hlead : lead? byte.toNat with
      | none =>
          simp only [step, hs, hlead] at h
          cases h
          exact .inl ⟨rfl, rfl, rfl⟩
      | some lead =>
          rw [step_start hs hlead] at h
          cases h
  | some pending =>
      obtain ⟨offset, lead⟩ := pending
      by_cases hin : lead.least ≤ byte.toNat ∧ byte.toNat ≤ lead.greatest
      · rw [step_continue hs hin.1 hin.2] at h
        cases h
      · simp only [step, hs, if_neg hin] at h
        cases h
        exact .inr ⟨lead, rfl, hin⟩

/-- The character at hand starts where no character does, if what follows does not fit. -/
theorem Scan.Located.stops_of_pending {bytes tail : List UInt8} {s : Scan} {offset : Nat}
    {lead : Lead} (h : s.Located bytes) (hs : s.pending = some ⟨offset, lead⟩)
    (htail : ∀ byte ∈ tail.head?, ¬ (lead.least ≤ byte.toNat ∧ byte.toNat ≤ lead.greatest)) :
    StopsAt (bytes ++ tail) offset := by
  obtain ⟨hfollow, rfl, q, rfl, hawaits⟩ := h.pending offset lead hs
  rw [List.append_assoc]
  refine ⟨⟨_, List.take_left⟩, ?_⟩
  rw [List.drop_left]
  exact hawaits.not_prefix hfollow htail

theorem Scan.Located.stops_of_step {bytes : List UInt8} {s : Scan} {byte : UInt8} {e : Invalid}
    (h : s.Located bytes) (hstep : Utf8.step s byte = .error e) (rest : List UInt8) :
    StopsAt (bytes ++ byte :: rest) e.offset := by
  rcases step_eq_error hstep with ⟨hs, hlead, hoffset⟩ | ⟨lead, hs, hout⟩
  · rw [hoffset, h.position]
    refine ⟨⟨_, List.take_left.trans (h.inv.eq_encode hs)⟩, fun c hprefix => ?_⟩
    obtain ⟨first, others, lead, hc, hfirst, -⟩ := exists_spells c
    rw [hc, List.drop_left] at hprefix
    obtain ⟨rfl, -⟩ := List.cons_prefix_cons.mp hprefix
    rw [hlead] at hfirst
    cases hfirst
  · refine h.stops_of_pending hs ?_
    rintro b ⟨⟩
    exact hout

theorem Scan.Located.stops_of_foldlM {rest bytes : List UInt8} {s : Scan} {e : Invalid}
    (h : s.Located bytes) (hfail : rest.foldlM Utf8.step s = .error e) :
    StopsAt (bytes ++ rest) e.offset := by
  induction rest generalizing bytes s with
  | nil => cases hfail
  | cons byte rest ih =>
      rw [List.foldlM_cons] at hfail
      rcases Result.bind_eq_error.mp hfail with hstep | ⟨next, hstep, hnext⟩
      · exact h.stops_of_step hstep rest
      · have hall := ih (h.step hstep) hnext
        rwa [List.append_assoc] at hall

/-- The offset of a fault is where the bytes stop being text. -/
theorem stopsAt_of_decode {bytes : List UInt8} {e : Invalid} (h : decode bytes = .error e) :
    StopsAt bytes e.offset := by
  have hstart : Scan.Located [] {} := ⟨rfl, rfl, nofun⟩
  rcases Result.bind_eq_error.mp h with hfail | ⟨final, hfinal, hpending⟩
  · exact hstart.stops_of_foldlM hfail
  · split at hpending
    · cases hpending
    · rename_i offset lead hs
      cases hpending
      -- the bytes end within a character, so nothing follows that could fit
      have hend : StopsAt (bytes ++ []) offset :=
        (hstart.foldlM hfinal).stops_of_pending hs nofun
      rwa [List.append_nil] at hend

/-- A fault is not past the end. -/
theorem offset_lt_of_decode {bytes : List UInt8} {e : Invalid} (h : decode bytes = .error e) :
    e.offset < bytes.length := by
  by_contra hpast
  obtain ⟨text, htext⟩ := (stopsAt_of_decode h).text
  rw [List.take_of_length_le (Nat.le_of_not_lt hpast)] at htext
  rw [decode_eq_ok_iff.mpr htext] at h
  cases h

end Utf8

namespace Source

/-- **A source is bytes that encode a text, or is refused at the first byte that cannot be read.**
The encoding of a text is decoded into it, so it is assembled as the text itself.  Bytes are refused
exactly if they are not the encoding of any text; the report then names the only place up to which
they are text and at which no character starts. -/
theorem decode_utf8 (settings : Settings) (text : Text) (bytes : List UInt8) :
    (Utf8.encode text).toByteArray = (String.ofList text).toUTF8 ∧
    decode (.bytes (Utf8.encode text)) = .ok text ∧
    assembleBuffer settings (.bytes (Utf8.encode text)) = assembleBuffer settings (.text text) ∧
    ((∃ d, decode (.bytes bytes) = .error d ∧ d.kind = .input) ↔
      ∀ other, bytes ≠ Utf8.encode other) ∧
    ∀ d, decode (.bytes bytes) = .error d → ∃ (wrong : Utf8.Wrong) (k : Nat),
      d = unreadable ("Source is not valid UTF-8: ".toList ++ wrong.reason ++ " at byte ".toList ++
        Numeral.ofNat k) ∧
      k < bytes.length ∧ ∀ j < bytes.length, Utf8.StopsAt bytes j ↔ j = k := by
  have hdecode : decode (.bytes (Utf8.encode text)) = .ok text := by
    rw [decode, Utf8.decode_eq_ok_iff.mpr rfl]
  refine ⟨Utf8.toByteArray_encode text, hdecode, ?_, ?_, fun d hd => ?_⟩
  · rw [assembleBuffer, assembleBuffer, assemble, assemble, hdecode, decode]
  · rw [decode]
    cases hbytes : Utf8.decode bytes with
    | ok other =>
        have hother := Utf8.decode_eq_ok_iff.mp hbytes
        exact ⟨nofun, fun h => absurd hother (h other)⟩
    | error invalid =>
        refine ⟨fun _ other hother => ?_, fun _ => ⟨_, rfl, rfl⟩⟩
        rw [Utf8.decode_eq_ok_iff.mpr hother] at hbytes
        cases hbytes
  · rw [decode] at hd
    cases hbytes : Utf8.decode bytes with
    | ok other =>
        rw [hbytes] at hd
        cases hd
    | error invalid =>
        rw [hbytes] at hd
        have hstops := Utf8.stopsAt_of_decode hbytes
        have hlt := Utf8.offset_lt_of_decode hbytes
        refine ⟨invalid.wrong, invalid.offset, (Except.error.inj hd).symm, hlt, fun j hj => ?_⟩
        exact ⟨fun hother => hother.unique hj hstops hlt, fun heq => heq ▸ hstops⟩

/-- A character that lacks its last byte is refused where it starts. -/
theorem decode_utf8_truncated :
    decode (.bytes [0x61, 0xE2, 0x82]) = .error (unreadable
      "Source is not valid UTF-8: unexpected end of data at byte 1".toList) ∧
    ∃ k < 3, ∀ j < 3, Utf8.StopsAt [0x61, 0xE2, 0x82] j ↔ j = k := by
  refine ⟨rfl, ?_⟩
  obtain ⟨-, k, -, hk, hstops⟩ := (decode_utf8 {} [] [0x61, 0xE2, 0x82]).2.2.2.2 _ rfl
  exact ⟨k, hk, hstops⟩

end Source

end RiscAsm

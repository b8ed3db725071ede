import RiscAsm.Proofs.Text.Pieces
import RiscAsm.Proofs.Text.Search
import RiscAsm.Source

/-!
# Theory of source lines

Line breaks are unified by two replacements one after the other, and a comment is cut off at the
least of two positions.  One pass does the same: `unifyBreaks_eq_scanBreaks` and
`stripComment_eq_scanComment`.

A normalized line is trimmed, not empty, without line breaks and, where comments are cut off,
without the start of a comment (`Source.IsLine`, `isLine_of_mem_normalize`).  Two facts on programs
made of smaller texts:

* `normalize_append` : a line feed between two texts keeps the lines of both, with those of the
  second further down;
* `normalize_joinLines` : lines that are joined with line feeds are found again, numbered from one.
-/

namespace RiscAsm

/-- A line that stands further down in the source. -/
def SourceLine.moveDown (n : Nat) (line : SourceLine) : SourceLine :=
  { line with number := line.number + n }

namespace Source

/-! ## Line breaks -/

/-- Unifies the line breaks of a text in one pass. -/
def scanBreaks : Text → Text
  | [] => []
  | '\r' :: '\n' :: rest => '\n' :: scanBreaks rest
  | '\r' :: rest => '\n' :: scanBreaks rest
  | c :: rest => c :: scanBreaks rest

/-- One pass unifies the breaks that two replacements unify one after the other. -/
theorem unifyBreaks_eq_scanBreaks (s : Text) : unifyBreaks s = scanBreaks s := by
  rw [unifyBreaks, Text.replace_singleton]
  fun_induction scanBreaks s with
  | case1 => rfl
  | case2 rest ih =>
      have hpair := Text.replace_append (List.cons_ne_nil '\r' ['\n']) ['\n'] rest
      rw [List.cons_append, List.singleton_append, List.singleton_append] at hpair
      rw [hpair, List.map_cons, ih, if_neg (by decide)]
  | case3 rest hrest ih =>
      rw [Text.replace_cons, List.map_cons, ih, if_pos rfl]
      rintro ⟨after, hafter⟩
      exact hrest after (List.cons.inj hafter).2.symm
  | case4 c rest hpair hc ih =>
      rw [Text.replace_cons, List.map_cons, ih, if_neg hc]
      rintro ⟨after, hafter⟩
      exact hc (List.cons.inj hafter).1.symm

theorem unifyBreaks_returnFeed (s : Text) :
    unifyBreaks ('\r' :: '\n' :: s) = '\n' :: unifyBreaks s := by
  rw [unifyBreaks_eq_scanBreaks, unifyBreaks_eq_scanBreaks, scanBreaks]

/-- Breaks are unified in each part of a text, unless a break stands at the seam. -/
theorem unifyBreaks_append {s : Text} (t : Text)
    (h : s.getLast? = some '\r' → t.head? ≠ some '\n') :
    unifyBreaks (s ++ t) = unifyBreaks s ++ unifyBreaks t := by
  rw [unifyBreaks_eq_scanBreaks, unifyBreaks_eq_scanBreaks, unifyBreaks_eq_scanBreaks]
  fun_induction scanBreaks s with
  | case1 => rfl
  | case2 rest ih =>
      rw [List.cons_append, List.cons_append, scanBreaks, ih, List.cons_append]
      intro hlast
      exact h (by simp [List.getLast?_cons, hlast])
  | case3 rest hrest ih =>
      rw [List.cons_append, scanBreaks, ih, List.cons_append]
      · intro hlast
        exact h (by simp [List.getLast?_cons, hlast])
      · -- the next character is the first of the rest, or of the second part
        intro rest' heq
        cases rest with
        | nil => exact h rfl (by rw [List.nil_append] at heq; rw [heq]; rfl)
        | cons c rest =>
            obtain ⟨rfl, -⟩ := List.cons.inj heq
            exact hrest rest rfl
  | case4 c rest hbreak hc ih =>
      rw [List.cons_append, scanBreaks, ih, List.cons_append]
      · intro hlast
        exact h (by simp [List.getLast?_cons, hlast])
      · intro rest' hreturn
        exact absurd hreturn hc
      · exact hc

/-- No carriage return is left. -/
theorem not_mem_unifyBreaks (s : Text) : '\r' ∉ unifyBreaks s := by
  rw [unifyBreaks, Text.replace_singleton, List.mem_map]
  rintro ⟨c, -, hc⟩
  split at hc
  · cases hc
  · next hne => exact hne hc

/-- A text without carriage returns stays as it is. -/
theorem unifyBreaks_eq_self {s : Text} (h : '\r' ∉ s) : unifyBreaks s = s := by
  rw [unifyBreaks_eq_scanBreaks]
  fun_induction scanBreaks s with
  | case1 => rfl
  | case2 rest ih => exact absurd List.mem_cons_self h
  | case3 rest hrest ih => exact absurd List.mem_cons_self h
  | case4 c rest hbreak hc ih => rw [ih fun hmem => h (List.mem_cons_of_mem c hmem)]

theorem length_unifyBreaks_le (s : Text) : (unifyBreaks s).length ≤ s.length := by
  rw [unifyBreaks_eq_scanBreaks]
  fun_induction scanBreaks s with
  | case1 => rfl
  | case2 rest ih => exact Nat.le_succ_of_le (Nat.succ_le_succ ih)
  | case3 rest hrest ih => exact Nat.succ_le_succ ih
  | case4 c rest hbreak hc ih => exact Nat.succ_le_succ ih

/-! ## Comments -/

/-- Cuts a line in one pass, at the first character at which a comment starts. -/
def scanComment : Text → Text
  | [] => []
  | '#' :: _ => []
  | '/' :: '/' :: _ => []
  | c :: rest => c :: scanComment rest

/-- The positions of the marks of comments in a line. -/
def markPositions (line : Text) : List Nat :=
  commentMarks.filterMap fun mark => Text.find? mark line

theorem min?_map_succ (positions : List Nat) :
    (positions.map (· + 1)).min? = positions.min?.map (· + 1) := by
  cases hleast : positions.min? with
  | none => rw [List.min?_eq_none_iff.mp hleast]; rfl
  | some least =>
      rw [List.min?_eq_some_iff] at hleast
      rw [Option.map_some, List.min?_eq_some_iff]
      refine ⟨List.mem_map_of_mem hleast.1, ?_⟩
      intro position hposition
      obtain ⟨earlier, hearlier, rfl⟩ := List.mem_map.mp hposition
      exact Nat.succ_le_succ (hleast.2 earlier hearlier)

/-- Nothing is kept of a line that starts with a mark. -/
theorem stripComment_of_mark {mark : Text} (hmark : mark ∈ commentMarks) (rest : Text) :
    stripComment (mark ++ rest) = [] := by
  have hfound : Text.find? mark (mark ++ rest) = some 0 := by
    have hne : mark ≠ [] := by
      rintro rfl
      revert hmark
      decide
    obtain ⟨c, tail, rfl⟩ := List.exists_cons_of_ne_nil hne
    rw [List.cons_append, Text.find?_cons, if_pos]
    rw [List.isPrefixOf_iff_prefix]
    exact List.prefix_append (c :: tail) rest
  have hleast : (markPositions (mark ++ rest)).min? = some 0 := by
    rw [List.min?_eq_some_iff]
    exact ⟨List.mem_filterMap.mpr ⟨mark, hmark, hfound⟩, fun _ _ => Nat.zero_le _⟩
  rw [markPositions] at hleast
  rw [stripComment, hleast]
  rfl

/-- A character at which no mark starts is kept. -/
theorem stripComment_cons {c : Char} {rest : Text}
    (h : ∀ mark ∈ commentMarks, ¬ mark <+: c :: rest) :
    stripComment (c :: rest) = c :: stripComment rest := by
  have hpositions : markPositions (c :: rest) = (markPositions rest).map (· + 1) := by
    rw [markPositions, markPositions, List.map_filterMap]
    refine List.filterMap_congr fun mark hmark => ?_
    rw [Text.find?_cons, if_neg]
    rw [List.isPrefixOf_iff_prefix]
    exact h mark hmark
  have hleast := congrArg List.min? hpositions
  rw [min?_map_succ, markPositions, markPositions] at hleast
  rw [stripComment, stripComment, hleast]
  cases (commentMarks.filterMap fun mark => Text.find? mark rest).min? with
  | none => rfl
  | some position => rfl

/-- One pass finds the least of the positions of the marks. -/
theorem stripComment_eq_scanComment (line : Text) : stripComment line = scanComment line := by
  fun_induction scanComment line with
  | case1 => rfl
  | case2 rest => exact stripComment_of_mark List.mem_cons_self rest
  | case3 rest => exact stripComment_of_mark (List.mem_cons_of_mem _ List.mem_cons_self) rest
  | case4 c rest hhash hslash ih =>
      rw [stripComment_cons, ih]
      rw [commentMarks, List.forall_mem_cons, List.forall_mem_singleton]
      constructor
      · rintro ⟨after, hafter⟩
        exact hhash (List.cons.inj hafter).1.symm
      · rintro ⟨after, hafter⟩
        obtain ⟨hc, hrest⟩ := List.cons.inj hafter
        exact hslash after hc.symm hrest.symm

/-- No comment starts in the text. -/
def Uncommented (s : Text) : Prop := '#' ∉ s ∧ ¬ ['/', '/'] <:+: s

theorem Uncommented.of_piece {s t : Text} (h : Uncommented s) (ht : t <:+: s) : Uncommented t :=
  ⟨fun hmem => h.1 (ht.mem hmem), fun hpair => h.2 (hpair.trans ht)⟩

/-- A character between two texts, if it starts no comment itself, adds none. -/
theorem Uncommented.append_cons {s t : Text} (hs : Uncommented s) (ht : Uncommented t) {c : Char}
    (hhash : c ≠ '#') (hslash : c ≠ '/') : Uncommented (s ++ c :: t) := by
  constructor
  · rw [List.mem_append, List.mem_cons]
    rintro (hmem | hmem | hmem)
    · exact hs.1 hmem
    · exact hhash hmem.symm
    · exact ht.1 hmem
  · rw [Text.pair_infix_append_cons hslash hslash]
    rintro (hpair | hpair)
    · exact hs.2 hpair
    · exact ht.2 hpair

theorem uncommented_nil : Uncommented [] := by simp [Uncommented]

/-- A character in front of a text adds no comment, unless it is a mark or makes one with the first
character of the text. -/
theorem Uncommented.cons {c : Char} {s : Text} (hs : Uncommented s) (hhash : c ≠ '#')
    (hslash : c = '/' → s.head? ≠ some '/') : Uncommented (c :: s) := by
  constructor
  · rw [List.mem_cons]
    rintro (hc | hmem)
    · exact hhash hc.symm
    · exact hs.1 hmem
  · rw [List.infix_cons_iff]
    rintro (⟨after, hpair⟩ | hpair)
    · obtain ⟨hc, rfl⟩ := List.cons.inj hpair
      exact hslash hc.symm rfl
    · exact hs.2 hpair

theorem stripComment_prefix (s : Text) : stripComment s <+: s := by
  rw [stripComment]
  split
  · exact List.take_prefix ..
  · exact List.prefix_rfl

/-- The part of a line before its comment is the start of the line and has no comment. -/
theorem uncommented_stripComment (s : Text) :
    Uncommented (stripComment s) ∧ stripComment s <+: s := by
  refine ⟨?_, stripComment_prefix s⟩
  rw [stripComment_eq_scanComment]
  fun_induction scanComment s with
  | case1 => exact uncommented_nil
  | case2 rest => exact uncommented_nil
  | case3 rest => exact uncommented_nil
  | case4 c rest hhash hslash ih =>
      refine ih.cons hhash fun hc hhead => ?_
      -- what is kept of the rest starts as the rest does
      obtain ⟨after, hafter⟩ := stripComment_prefix rest
      rw [stripComment_eq_scanComment] at hafter
      obtain ⟨kept, hkept⟩ := List.head?_eq_some_iff.mp hhead
      rw [hkept] at hafter
      exact hslash _ hc hafter.symm

/-- A line without a comment is kept whole. -/
theorem stripComment_eq_self {s : Text} (h : Uncommented s) : stripComment s = s := by
  rw [stripComment_eq_scanComment]
  fun_induction scanComment s with
  | case1 => rfl
  | case2 rest => exact absurd List.mem_cons_self h.1
  | case3 rest => exact absurd (List.prefix_append ['/', '/'] rest).isInfix h.2
  | case4 c rest hhash hslash ih => rw [ih (h.of_piece (List.suffix_cons c rest).isInfix)]

/-- A line that has a comment is cut in the same place whatever follows. -/
theorem stripComment_append_of_commented {s : Text} (h : ¬ Uncommented s) (t : Text) :
    stripComment (s ++ t) = stripComment s := by
  rw [stripComment_eq_scanComment, stripComment_eq_scanComment]
  fun_induction scanComment s with
  | case1 => exact absurd uncommented_nil h
  | case2 rest => rw [List.cons_append, scanComment]
  | case3 rest => rw [List.cons_append, List.cons_append, scanComment]
  | case4 c rest hhash hslash ih =>
      have hrest : ¬ Uncommented rest := by
        refine fun hrest => h (hrest.cons hhash fun hc hhead => ?_)
        obtain ⟨after, rfl⟩ := List.head?_eq_some_iff.mp hhead
        exact hslash after hc rfl
      rw [List.cons_append, scanComment, ih hrest]
      · exact hhash
      · -- a slash that follows is one of the line itself
        intro after hc hafter
        cases rest with
        | nil => exact hrest uncommented_nil
        | cons d rest =>
            obtain ⟨rfl, -⟩ := List.cons.inj hafter
            exact hslash rest hc rfl

/-- A line without a comment stays in front of what is kept of the text after it, unless a comment
starts at the seam. -/
theorem stripComment_append {s t : Text} (hs : Uncommented s)
    (hseam : s.getLast? = some '/' → t.head? ≠ some '/') :
    stripComment (s ++ t) = s ++ stripComment t := by
  rw [stripComment_eq_scanComment, stripComment_eq_scanComment]
  induction s with
  | nil => rfl
  | cons c s ih =>
      have hrest : Uncommented s := hs.of_piece (List.suffix_cons c s).isInfix
      have hhash : c = '#' → False := by
        rintro rfl
        exact hs.1 List.mem_cons_self
      have hslash : ∀ after, c = '/' → s ++ t = '/' :: after → False := by
        rintro after rfl hafter
        cases s with
        | nil => exact hseam rfl (by rw [List.nil_append] at hafter; rw [hafter]; rfl)
        | cons d s =>
            obtain ⟨rfl, -⟩ := List.cons.inj hafter
            exact hs.2 (List.prefix_append ['/', '/'] s).isInfix
      rw [List.cons_append, scanComment, ih hrest, List.cons_append]
      · intro hlast
        exact hseam (by simp [List.getLast?_cons, hlast])
      · exact hhash
      · exact hslash

/-- A line is the part that is kept and a comment, of which nothing is kept; no comment starts at
the seam. -/
theorem exists_comment (line : Text) :
    ∃ comment, line = stripComment line ++ comment ∧ stripComment comment = [] ∧
      ((stripComment line).getLast? = some '/' → comment.head? ≠ some '/') := by
  obtain ⟨huncommented, comment, hline⟩ := uncommented_stripComment line
  have hseam : (stripComment line).getLast? = some '/' → comment.head? ≠ some '/' := by
    intro hlast hhead
    -- with a slash on both sides the line would be cut one character earlier
    obtain ⟨front, hfront⟩ := List.getLast?_eq_some_iff.mp hlast
    obtain ⟨rest, rfl⟩ := List.head?_eq_some_iff.mp hhead
    rw [hfront] at huncommented
    have hfrontSeam : front.getLast? = some '/' → ('/' :: '/' :: rest).head? ≠ some '/' := by
      intro hslash
      exact absurd (Text.pair_infix_append.mpr (.inr (.inr ⟨hslash, rfl⟩))) huncommented.2
    have hcut : stripComment (front ++ '/' :: '/' :: rest) = front ++ [] := by
      rw [stripComment_append (huncommented.of_piece (List.prefix_append ..).isInfix) hfrontSeam,
        stripComment_eq_scanComment ('/' :: '/' :: rest), scanComment]
    have hsame : front ++ '/' :: '/' :: rest = line := by
      rw [← hline, hfront, List.append_assoc]
      rfl
    rw [hsame, hfront] at hcut
    simp at hcut
  refine ⟨comment, hline.symm, ?_, hseam⟩
  have hkept := stripComment_append huncommented hseam
  rw [hline] at hkept
  simpa using hkept

/-! ## Raw lines -/

/-- No line break is left in a raw line. -/
theorem not_mem_of_mem_rawLines {s raw : Text} (h : raw ∈ rawLines s) : '\n' ∉ raw ∧ '\r' ∉ raw :=
  ⟨Text.not_mem_of_mem_splitOn h,
    fun hmem => not_mem_unifyBreaks s ((Text.infix_of_mem_splitOn h).mem hmem)⟩

/-- A line feed between two texts divides their lines.  If the first text ends with a carriage
return, its last line, which is empty, is no line of its own any more. -/
theorem rawLines_append (s t : Text) :
    ∃ lines blank, rawLines s = lines ++ blank ∧ (∀ raw ∈ blank, raw = []) ∧
      rawLines (s ++ '\n' :: t) = lines ++ rawLines t := by
  have hfeed : ∀ s, unifyBreaks ('\n' :: s) = '\n' :: unifyBreaks s :=
    fun s => unifyBreaks_append (s := ['\n']) s (by simp)
  by_cases hlast : s.getLast? = some '\r'
  · -- the carriage return makes one break with the line feed, and one of its own without it
    obtain ⟨front, rfl⟩ := List.getLast?_eq_some_iff.mp hlast
    have hreturn : ∀ u, unifyBreaks (front ++ '\r' :: u) =
        unifyBreaks front ++ unifyBreaks ('\r' :: u) :=
      fun u => unifyBreaks_append ('\r' :: u) (by simp)
    have hpair : unifyBreaks ('\r' :: '\n' :: t) = '\n' :: unifyBreaks t :=
      unifyBreaks_returnFeed t
    have hlone : unifyBreaks ['\r'] = ['\n'] := rfl
    refine ⟨rawLines front, [[]], ?_, by simp, ?_⟩
    · rw [rawLines, hreturn, hlone, List.splitOn_append_cons_self]
      rfl
    · rw [rawLines, List.append_assoc, List.singleton_append, hreturn, hpair,
        List.splitOn_append_cons_self]
      rfl
  · refine ⟨rawLines s, [], by simp, by simp, ?_⟩
    rw [rawLines, unifyBreaks_append _ fun h => absurd h hlast, hfeed,
      List.splitOn_append_cons_self]
    rfl

/-! ## Normalized lines -/

/-- A text that can stand as a normalized line. -/
structure IsLine (keepComments : Bool) (s : Text) : Prop where
  ne_nil : s ≠ []
  trimmed : Text.trim s = s
  no_break : '\n' ∉ s ∧ '\r' ∉ s
  uncommented : keepComments = false → Uncommented s

/-- What is left of a raw line is a piece of it. -/
theorem keepLine_eq_some {keepComments : Bool} {raw : Text} {i : Nat} {line : SourceLine}
    (h : keepLine keepComments (raw, i) = some line) :
    line.number = i ∧ line.text <:+: raw ∧ line.text ≠ [] ∧ Text.trim line.text = line.text ∧
      (keepComments = false → Uncommented line.text) := by
  obtain ⟨hstrip, hprefix⟩ := uncommented_stripComment raw
  unfold keepLine at h
  extract_lets kept at h
  split at h
  · simp at h
  · rename_i hne
    obtain rfl := Option.some.inj h
    refine ⟨rfl, ?_, by simpa using hne, Text.trim_trim _, ?_⟩
    · refine (Text.trim_piece _).trans ?_
      split
      · exact List.infix_rfl
      · exact hprefix.isInfix
    · intro hcomments
      refine Uncommented.of_piece ?_ (Text.trim_piece _)
      rw [if_neg (by simp [hcomments])]
      exact hstrip

/-- Normalized lines are such lines. -/
theorem isLine_of_mem_normalize {keepComments : Bool} {s : Text} {line : SourceLine}
    (h : line ∈ normalize keepComments s) : IsLine keepComments line.text := by
  obtain ⟨⟨raw, i⟩, hraw, hkeep⟩ := List.mem_filterMap.mp h
  obtain ⟨-, hpiece, hne, htrim, hcomments⟩ := keepLine_eq_some hkeep
  obtain ⟨hfeed, hreturn⟩ := not_mem_of_mem_rawLines (List.fst_mem_of_mem_zipIdx hraw)
  exact ⟨hne, htrim, ⟨fun hmem => hfeed (hpiece.mem hmem), fun hmem => hreturn (hpiece.mem hmem)⟩,
    hcomments⟩

/-- A line that needs no change is kept. -/
theorem IsLine.keepLine_eq {keepComments : Bool} {s : Text} (h : IsLine keepComments s) (i : Nat) :
    keepLine keepComments (s, i) = some ⟨i, s⟩ := by
  have hkept : (if keepComments then s else stripComment s) = s := by
    split
    · rfl
    · rename_i hcomments
      exact stripComment_eq_self (h.uncommented (by simpa using hcomments))
  unfold keepLine
  simp only [hkept, h.trimmed]
  rw [if_neg]
  simpa using h.ne_nil

/-- Where a raw line stands has no influence on what is left of it. -/
theorem keepLine_add (keepComments : Bool) (raw : Text) (i n : Nat) :
    keepLine keepComments (raw, i + n) =
      (keepLine keepComments (raw, i)).map (SourceLine.moveDown n) := by
  unfold keepLine
  simp only
  generalize Text.trim (if keepComments then raw else stripComment raw) = kept
  cases kept with
  | nil => rfl
  | cons c kept => simp [SourceLine.moveDown]

/-- Lines that are numbered from further down are kept further down. -/
theorem filterMap_keepLine_zipIdx (keepComments : Bool) (lines : List Text) (n : Nat) :
    (lines.zipIdx (1 + n)).filterMap (keepLine keepComments) =
      ((lines.zipIdx 1).filterMap (keepLine keepComments)).map (SourceLine.moveDown n) := by
  have hshift : lines.zipIdx (1 + n) = (lines.zipIdx 1).map fun raw => (raw.1, raw.2 + n) := by
    rw [List.zipIdx_eq_map_add (i := 1 + n), List.zipIdx_eq_map_add (i := 1), List.map_map]
    refine List.map_congr_left fun raw _ => ?_
    simp only [Function.comp]
    rw [Nat.add_right_comm]
  rw [hshift, List.filterMap_map, List.map_filterMap]
  refine List.filterMap_congr fun raw _ => ?_
  exact keepLine_add keepComments raw.1 raw.2 n

/-- **Lines of a text and a text after it**: with a line feed in between, the lines of both are
kept, those of the second text further down. -/
theorem normalize_append (keepComments : Bool) (s t : Text) :
    ∃ n, normalize keepComments (s ++ '\n' :: t) =
      normalize keepComments s ++ (normalize keepComments t).map (SourceLine.moveDown n) := by
  obtain ⟨lines, blank, hs, hblank, hboth⟩ := rawLines_append s t
  have hdropped : (blank.zipIdx (1 + lines.length)).filterMap (keepLine keepComments) = [] := by
    rw [List.filterMap_eq_nil_iff]
    rintro ⟨raw, i⟩ hraw
    obtain rfl := hblank raw (List.fst_mem_of_mem_zipIdx hraw)
    cases keepComments with
    | false => rfl
    | true => rfl
  refine ⟨lines.length, ?_⟩
  rw [normalize, normalize, hs, hboth, List.zipIdx_append, List.zipIdx_append,
    List.filterMap_append, List.filterMap_append, hdropped, List.append_nil,
    filterMap_keepLine_zipIdx]
  rfl

/-- **Lines that are joined are found again**, numbered from one. -/
theorem normalize_joinLines {keepComments : Bool} {texts : List Text}
    (h : ∀ t ∈ texts, IsLine keepComments t) :
    normalize keepComments (Text.joinLines texts) =
      (texts.zipIdx 1).map fun line => ⟨line.2, line.1⟩ := by
  by_cases hne : texts = []
  · subst hne
    cases keepComments with
    | false => rfl
    | true => rfl
  · have hreturn : '\r' ∉ Text.joinLines texts := by
      intro hmem
      rcases Text.mem_join hmem with hfeed | ⟨t, ht, hc⟩
      · simp at hfeed
      · exact (h t ht).no_break.2 hc
    have hraw : rawLines (Text.joinLines texts) = texts := by
      rw [rawLines, unifyBreaks_eq_self hreturn]
      exact Text.splitOn_joinLines hne fun t ht => (h t ht).no_break.1
    have hkeep : ∀ line ∈ texts.zipIdx 1,
        keepLine keepComments line = some ⟨line.2, line.1⟩ := by
      intro line hline
      exact (h line.1 (List.fst_mem_of_mem_zipIdx hline)).keepLine_eq line.2
    rw [normalize, hraw, List.filterMap_congr hkeep, List.filterMap_eq_map']

end Source

end RiscAsm

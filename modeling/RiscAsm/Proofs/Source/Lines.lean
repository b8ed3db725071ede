import RiscAsm.Proofs.Source

/-!
# Lines and line breaks

A text is divided into lines by line breaks of three kinds (`Break`), which need not be made alike
first (`rawLines_eq_breakLines`).  Lines that are joined with breaks are found again
(`rawLines_join`), and lines can be changed one by one while the breaks between them stay
(`mapLines`, `rawLines_mapLines`).
-/

namespace RiscAsm

/-- A text without line breaks. -/
def IsOneLine (s : Text) : Prop := '\n' ∉ s ∧ '\r' ∉ s

theorem IsOneLine.append {s t : Text} (hs : IsOneLine s) (ht : IsOneLine t) :
    IsOneLine (s ++ t) := by
  constructor
  · rw [List.mem_append]
    rintro (hmem | hmem)
    · exact hs.1 hmem
    · exact ht.1 hmem
  · rw [List.mem_append]
    rintro (hmem | hmem)
    · exact hs.2 hmem
    · exact ht.2 hmem

theorem isOneLine_nil : IsOneLine [] := by simp [IsOneLine]

/-- The kinds of line breaks. -/
inductive Break where
  | feed | returnFeed | carriageReturn
  deriving DecidableEq, Repr

namespace Break

/-- A line break as it is written. -/
def text : Break → Text
  | feed => ['\n']
  | returnFeed => ['\r', '\n']
  | carriageReturn => ['\r']

/-- Lines with breaks between them. -/
def join (b : Break) (lines : List Text) : Text := Text.join b.text lines

theorem join_cons_cons (b : Break) (first second : Text) (lines : List Text) :
    b.join (first :: second :: lines) = first ++ (b.text ++ b.join (second :: lines)) := by
  rw [join, Text.join, List.intercalate_cons_cons, List.append_assoc]
  rfl

end Break

namespace Source

/-! ## Lines that are found again -/

/-- A break in front of a text is unified, unless a line feed after it makes it another break. -/
theorem unifyBreaks_break (b : Break) {t : Text}
    (h : b = .carriageReturn → t.head? ≠ some '\n') :
    unifyBreaks (b.text ++ t) = '\n' :: unifyBreaks t := by
  cases b with
  | feed => exact unifyBreaks_append t (by simp [Break.text])
  | returnFeed => exact unifyBreaks_returnFeed t
  | carriageReturn => exact unifyBreaks_append t fun _ => h rfl

/-- A text without breaks is one line. -/
theorem rawLines_of_isOneLine {line : Text} (h : IsOneLine line) : rawLines line = [line] := by
  rw [rawLines, unifyBreaks_eq_self h.2, List.splitOn_eq_singleton h.1]

/-- A break ends the line in front of it. -/
theorem rawLines_break (b : Break) {line t : Text} (hline : IsOneLine line)
    (h : b = .carriageReturn → t.head? ≠ some '\n') :
    rawLines (line ++ (b.text ++ t)) = line :: rawLines t := by
  have hunify : unifyBreaks (line ++ (b.text ++ t)) = line ++ '\n' :: unifyBreaks t := by
    rw [unifyBreaks_append, unifyBreaks_eq_self hline.2, unifyBreaks_break b h]
    intro hlast
    exact absurd (List.mem_of_getLast? hlast) hline.2
  rw [rawLines, hunify, List.splitOn_append_cons_self_of_not_mem hline.1]
  rfl

/-- Lines that are joined with any breaks are found again. -/
theorem rawLines_join (b : Break) {lines : List Text} (hne : lines ≠ [])
    (h : ∀ line ∈ lines, IsOneLine line) : rawLines (b.join lines) = lines := by
  induction lines with
  | nil => exact absurd rfl hne
  | cons first lines ih =>
      rw [List.forall_mem_cons] at h
      cases lines with
      | nil => simpa [Break.join, Text.join] using rawLines_of_isOneLine h.1
      | cons second lines =>
          -- after a lone carriage return the text goes on without any line feed
          have hhead : b = .carriageReturn → (b.join (second :: lines)).head? ≠ some '\n' := by
            rintro rfl hfeed
            rcases Text.mem_join (List.mem_of_head? hfeed) with hbreak | ⟨line, hline, hmem⟩
            · simp [Break.text] at hbreak
            · exact (h.2 line hline).1 hmem
          rw [Break.join_cons_cons, rawLines_break b h.1 hhead, ih (List.cons_ne_nil _ _) h.2]

/-! ## Lines by the breaks as they stand -/

/-- The lines of a text, which is divided at line feeds, at carriage returns, and at pairs of a
carriage return and a line feed. -/
def breakLines : Text → List Text
  | [] => [[]]
  | '\r' :: '\n' :: rest => [] :: breakLines rest
  | '\r' :: rest => [] :: breakLines rest
  | '\n' :: rest => [] :: breakLines rest
  | c :: rest => (breakLines rest).modifyHead (c :: ·)

/-- Breaks may be unified first, and the text divided at line feeds only. -/
theorem rawLines_eq_breakLines (s : Text) : rawLines s = breakLines s := by
  fun_induction breakLines s with
  | case1 => rfl
  | case2 rest ih =>
      rw [← ih]
      exact rawLines_break .returnFeed isOneLine_nil (by simp)
  | case3 rest hrest ih =>
      rw [← ih]
      refine rawLines_break .carriageReturn isOneLine_nil fun _ hhead => ?_
      obtain ⟨rest', rfl⟩ := List.head?_eq_some_iff.mp hhead
      exact hrest rest' rfl
  | case4 rest ih =>
      rw [← ih]
      exact rawLines_break .feed isOneLine_nil (by simp)
  | case5 c rest hpair hreturn hfeed ih =>
      have hsingle : '\r' ∉ [c] := by
        rw [List.mem_singleton]
        rintro rfl
        exact hreturn rfl
      have hunify : unifyBreaks ([c] ++ rest) = [c] ++ unifyBreaks rest := by
        rw [unifyBreaks_append, unifyBreaks_eq_self hsingle]
        intro hlast
        exact absurd (List.mem_of_getLast? hlast) hsingle
      have hmark : (c == '\n') = false := by simpa using hfeed
      rw [← ih, ← List.singleton_append, rawLines, hunify, List.singleton_append,
        List.splitOn_cons_eq_if_modifyHead, hmark]
      rfl

/-! ## Lines that are changed in place -/

/-- Changes the lines of a text and leaves its breaks as they are.  The line at hand is gathered
with the latest character first. -/
def mapLinesAux (g : Text → Text) (line : Text) : Text → Text
  | [] => g line.reverse
  | '\r' :: '\n' :: rest => g line.reverse ++ '\r' :: '\n' :: mapLinesAux g [] rest
  | '\r' :: rest => g line.reverse ++ '\r' :: mapLinesAux g [] rest
  | '\n' :: rest => g line.reverse ++ '\n' :: mapLinesAux g [] rest
  | c :: rest => mapLinesAux g (c :: line) rest

/-- The text with its lines changed and its breaks as they are. -/
def mapLines (g : Text → Text) (s : Text) : Text := mapLinesAux g [] s

/-- A change that keeps lines apart: it neither breaks a line nor makes it empty. -/
structure KeepsLines (g : Text → Text) : Prop where
  isOneLine : ∀ line, IsOneLine line → IsOneLine (g line)
  ne_nil : ∀ line, line ≠ [] → g line ≠ []

variable {g : Text → Text}

theorem isOneLine_reverse_cons {c : Char} {line : Text} (hfeed : c ≠ '\n') (hreturn : c ≠ '\r')
    (h : IsOneLine line.reverse) : IsOneLine (c :: line).reverse := by
  rw [List.reverse_cons]
  refine h.append ⟨?_, ?_⟩
  · rw [List.mem_singleton]
    exact hfeed.symm
  · rw [List.mem_singleton]
    exact hreturn.symm

/-- No line feed is put in front of a text. -/
theorem head?_mapLinesAux (hg : KeepsLines g) {line s : Text} (hline : IsOneLine line.reverse)
    (h : (line.reverse ++ s).head? ≠ some '\n') : (mapLinesAux g line s).head? ≠ some '\n' := by
  -- a text starts with a line, or with the break after it if the line is empty
  have hfirst : ∀ {line : Text} {c : Char}, IsOneLine line → (c = '\n' → line ≠ []) →
      ∀ rest, (g line ++ c :: rest).head? ≠ some '\n' := by
    intro line c hline hc rest hhead
    cases hmapped : g line with
    | nil =>
        rw [hmapped] at hhead
        exact hg.ne_nil line (hc (Option.some.inj hhead)) hmapped
    | cons d mapped =>
        rw [hmapped] at hhead
        obtain rfl : d = '\n' := Option.some.inj hhead
        exact (hg.isOneLine line hline).1 (by rw [hmapped]; exact List.mem_cons_self)
  fun_induction mapLinesAux g line s with
  | case1 line => exact fun hhead => (hg.isOneLine _ hline).1 (List.mem_of_head? hhead)
  | case2 line rest ih => exact hfirst hline (by simp) _
  | case3 line rest hrest ih => exact hfirst hline (by simp) _
  | case4 line rest ih =>
      refine hfirst hline (fun _ hnil => ?_) _
      rw [hnil] at h
      exact h rfl
  | case5 line c rest hreturnFeed hreturn hfeed ih =>
      apply ih
      · exact isOneLine_reverse_cons hfeed hreturn hline
      · rw [List.reverse_cons, List.append_assoc]
        exact h

/-- The lines of the changed text are the changed lines. -/
theorem rawLines_mapLinesAux (hg : KeepsLines g) {line s : Text} (hline : IsOneLine line.reverse) :
    rawLines (mapLinesAux g line s) = (rawLines (line.reverse ++ s)).map g := by
  have hbreak : ∀ (b : Break) {line rest : Text}, IsOneLine line →
      (b = .carriageReturn → rest.head? ≠ some '\n') →
      rawLines (mapLinesAux g [] rest) = (rawLines rest).map g →
      rawLines (g line ++ (b.text ++ mapLinesAux g [] rest)) =
        (rawLines (line ++ (b.text ++ rest))).map g := by
    intro b line rest hline hrest hmap
    have hhead : b = .carriageReturn → (mapLinesAux g [] rest).head? ≠ some '\n' :=
      fun hb => head?_mapLinesAux hg isOneLine_nil (hrest hb)
    rw [rawLines_break b hline hrest, rawLines_break b (hg.isOneLine line hline) hhead, hmap,
      List.map_cons]
  fun_induction mapLinesAux g line s with
  | case1 line =>
      rw [List.append_nil, rawLines_of_isOneLine hline,
        rawLines_of_isOneLine (hg.isOneLine _ hline), List.map_singleton]
  | case2 line rest ih => exact hbreak .returnFeed hline (by simp) (ih isOneLine_nil)
  | case3 line rest hrest ih =>
      refine hbreak .carriageReturn hline (fun _ hhead => ?_) (ih isOneLine_nil)
      obtain ⟨rest', rfl⟩ := List.head?_eq_some_iff.mp hhead
      exact hrest rest' rfl
  | case4 line rest ih => exact hbreak .feed hline (by simp) (ih isOneLine_nil)
  | case5 line c rest hreturnFeed hreturn hfeed ih =>
      rw [ih (isOneLine_reverse_cons hfeed hreturn hline), List.reverse_cons, List.append_assoc]
      rfl

theorem rawLines_mapLines (hg : KeepsLines g) (s : Text) :
    rawLines (mapLines g s) = (rawLines s).map g :=
  rawLines_mapLinesAux hg isOneLine_nil

end Source

end RiscAsm

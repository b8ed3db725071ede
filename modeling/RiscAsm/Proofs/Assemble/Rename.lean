import Mathlib.Logic.Embedding.Basic
import Mathlib.Logic.Equiv.Basic
import RiscAsm.Proofs.Assemble.Alike
import RiscAsm.Proofs.Label
import RiscAsm.Proofs.Source.Lines

/-!
# Renamed labels

`renameText` gives the labels of a program other names where they stand: at their definitions, and
at the ends of the instructions that refer to them.  Everything else stays, also a label in a
comment that is cut off, a label that is no name, and all spacing.  The lines of the renamed program
correspond to those of the program (`alike_renameText`), so the names of labels have no meaning:
callers are told the same (`assembleBuffer_rename`).
-/

namespace RiscAsm

open Source (stripComment)

/-! ## Renamings -/

namespace Label

/-- A text that is a label name. -/
def Name : Type := { name : Text // isName name = true }
  deriving DecidableEq

/-- A text under a renaming of labels: what is no name stays. -/
def rename (ρ : Name ↪ Name) (text : Text) : Text :=
  if h : isName text = true then (ρ ⟨text, h⟩).val else text

variable (ρ : Name ↪ Name)

theorem rename_of_isName {text : Text} (h : isName text = true) :
    rename ρ text = (ρ ⟨text, h⟩).val := dif_pos h

theorem rename_of_not_isName {text : Text} (h : isName text = false) : rename ρ text = text :=
  dif_neg (by simp [h])

theorem isName_rename (text : Text) : isName (rename ρ text) = isName text := by
  cases h : isName text with
  | true =>
      rw [rename_of_isName ρ h]
      exact (ρ ⟨text, h⟩).property
  | false => rw [rename_of_not_isName ρ h, h]

/-- Names are kept apart from each other, from numbers and from everything else. -/
theorem isRenaming_rename : IsRenaming (rename ρ) where
  injective := by
    intro a b hab
    have hnames : isName a = isName b := by
      rw [← isName_rename ρ a, hab, isName_rename]
    cases ha : isName a with
    | true =>
        have hb : isName b = true := hnames.symm.trans ha
        rw [rename_of_isName ρ ha, rename_of_isName ρ hb] at hab
        exact congrArg Subtype.val (ρ.injective (Subtype.ext hab))
    | false =>
        have hb : isName b = false := hnames.symm.trans ha
        rwa [rename_of_not_isName ρ ha, rename_of_not_isName ρ hb] at hab
  isName_eq := isName_rename ρ
  accepts_eq := by
    intro text htext
    cases h : isName text with
    | true => exact not_accepts_of_isName ((isName_rename ρ text).trans h)
    | false => rwa [rename_of_not_isName ρ h]

/-- A name under a renaming is respelled. -/
theorem respelled_rename (text : Text) : Respelled text (rename ρ text) := by
  cases h : isName text with
  | true =>
      have h' : isName (rename ρ text) = true := (isName_rename ρ text).trans h
      exact .name (isWord_of_isName h).ne_nil (isWord_of_isName h').ne_nil
        (fun _ => isNameRest_of_mem h) (fun _ => isNameRest_of_mem h')
  | false =>
      rw [rename_of_not_isName ρ h]
      exact .refl text

end Label

/-! ## Renaming in place -/

/-- The text with its trimmed form changed and the blanks around it as they are. -/
def Text.mapTrimmed (g : Text → Text) (s : Text) : Text :=
  s.takeWhile isBlank ++ g (trim s) ++ ((trimStart s).reverse.takeWhile isBlank).reverse

/-- An instruction with the label at its end renamed. -/
def renameInstruction (ρ : Label.Name ↪ Label.Name) (text : Text) : Text :=
  match (labelAt? text).filter Label.isName with
  | some name => Operand.replaceLast name (Label.rename ρ name) text
  | none => text

/-- The code of a line with its labels renamed: those that colons end, and the one at the end of the
instruction after the last colon. -/
def renameCode (ρ : Label.Name ↪ Label.Name) (code : Text) : Text :=
  let parts := code.splitOn ':'
  Text.join [':'] (parts.dropLast.map (Text.mapTrimmed (Label.rename ρ)) ++
    parts.getLast?.toList.map (renameInstruction ρ))

/-- The part of a line that is no comment, under the settings. -/
def codeOf (settings : Settings) (line : Text) : Text :=
  if settings.stripComments then stripComment line else line

/-- A line with its labels renamed, and its comment as it is. -/
def renameLine (settings : Settings) (ρ : Label.Name ↪ Label.Name) (line : Text) : Text :=
  renameCode ρ (codeOf settings line) ++ line.drop (codeOf settings line).length

/-- A program with its labels renamed. -/
def renameText (settings : Settings) (ρ : Label.Name ↪ Label.Name) (text : Text) : Text :=
  Source.mapLines (renameLine settings ρ) text

/-- A source with its text changed, if it holds one. -/
def Source.mapText (g : Text → Text) : Source → Source
  | .text content => .text (g content)
  | .bytes content =>
    match Utf8.decode content with
    | .ok decoded => .bytes (Utf8.encode (g decoded))
    | .error _ => .bytes content
  | .other typeName => .other typeName

/-! ## Parts of a line -/

/-- Where the trimmed form of a text stands. -/
theorem Text.exists_mapTrimmed (s : Text) :
    ∃ left right, (∀ c ∈ left, isBlank c = true) ∧ (∀ c ∈ right, isBlank c = true) ∧
      s = left ++ trim s ++ right ∧ ∀ g, mapTrimmed g s = left ++ g (trim s) ++ right := by
  refine ⟨s.takeWhile isBlank, ((trimStart s).reverse.takeWhile isBlank).reverse, ?_, ?_, ?_,
    fun g => rfl⟩
  · exact fun c hc => List.mem_takeWhile_imp hc
  · exact fun c hc => List.mem_takeWhile_imp (List.mem_reverse.mp hc)
  · have hend : trim s ++ ((trimStart s).reverse.takeWhile isBlank).reverse = trimStart s := by
      rw [trim, trimEnd, trimStart, ← List.reverse_append, List.takeWhile_append_dropWhile,
        List.reverse_reverse]
    rw [List.append_assoc, hend]
    exact List.takeWhile_append_dropWhile.symm

/-- A label that is renamed among blanks. -/
theorem trim_mapTrimmed_rename (ρ : Label.Name ↪ Label.Name) (part : Text) :
    Text.trim (Text.mapTrimmed (Label.rename ρ) part) = Label.rename ρ (Text.trim part) := by
  obtain ⟨left, right, hleft, hright, -, hmap⟩ := Text.exists_mapTrimmed part
  rw [hmap, Text.trim_append_of_blank_right _ hright, Text.trim_append_of_blank_left hleft]
  cases h : Label.isName (Text.trim part) with
  | true =>
      have h' : Label.isName (Label.rename ρ (Text.trim part)) = true :=
        (Label.isName_rename ρ _).trans h
      exact (Label.isWord_of_isName h').isOperand.trimmed
  | false => rw [Label.rename_of_not_isName ρ h, Text.trim_trim]

theorem respelled_mapTrimmed (ρ : Label.Name ↪ Label.Name) (part : Text) :
    Respelled part (Text.mapTrimmed (Label.rename ρ) part) := by
  obtain ⟨left, right, -, -, hpart, hmap⟩ := Text.exists_mapTrimmed part
  have hrespelled := ((Respelled.refl left).append
    (Label.respelled_rename ρ (Text.trim part))).append (Respelled.refl right)
  rwa [← hpart, ← hmap] at hrespelled

/-- An instruction is renamed up to the label at its end, and only respelled. -/
theorem reworded_renameInstruction (ρ : Label.Name ↪ Label.Name) (text : Text) :
    Reworded (Label.rename ρ) text (renameInstruction ρ text) ∧
      Respelled text (renameInstruction ρ text) := by
  unfold renameInstruction
  cases hlabel : (labelAt? text).filter Label.isName with
  | none =>
      refine ⟨.of_fixed fun name hname => ?_, .refl text⟩
      rw [hname] at hlabel
      apply Label.rename_of_not_isName
      simpa [Option.filter] using hlabel
  | some name =>
      obtain ⟨hlabel, hname⟩ := Option.filter_eq_some_iff.mp hlabel
      have hname' : Label.isName (Label.rename ρ name) = true :=
        (Label.isName_rename ρ name).trans hname
      unfold labelAt? at hlabel
      split at hlabel
      · rename_i s hparse
        obtain ⟨front, tail, htext, hreplace, hparse'⟩ :=
          Statement.parse_replaceLast hparse (labelOperand?_eq_some.mp hlabel).2.1
            (Label.isWord_of_isName hname) (Label.isWord_of_isName hname')
        refine ⟨.label hparse hlabel hparse', ?_⟩
        have hrespelled := ((Respelled.refl front).append
          (Label.respelled_rename ρ name)).append (Respelled.refl tail)
        rwa [← htext, ← hreplace] at hrespelled
      · cases hlabel

/-- The blanks around instructions do not matter. -/
theorem Reworded.trim {f : Text → Text} {text text' : Text} (h : Reworded f text text') :
    Reworded f (Text.trim text) (Text.trim text') := by
  cases h with
  | plain h =>
      refine .plain ?_
      rwa [labelAt?, Statement.parse_trim]
  | label hparse hlabel hparse' =>
      exact .label ((Statement.parse_trim _).trans hparse) hlabel
        ((Statement.parse_trim _).trans hparse')

/-! ## Lines -/

/-- The parts of renamed code: the labels are renamed, and so is the label at the end of the
instruction. -/
theorem splitOn_renameCode (ρ : Label.Name ↪ Label.Name) (code : Text) :
    ∃ labels last, code.splitOn ':' = labels ++ [last] ∧
      (renameCode ρ code).splitOn ':' =
        labels.map (Text.mapTrimmed (Label.rename ρ)) ++ [renameInstruction ρ last] ∧
      Respelled code (renameCode ρ code) := by
  have hne : code.splitOn ':' ≠ [] := List.splitOn_ne_nil ':' code
  obtain ⟨labels, last, hparts⟩ : ∃ labels last, code.splitOn ':' = labels ++ [last] :=
    ⟨_, _, (List.dropLast_concat_getLast hne).symm⟩
  have hcode : renameCode ρ code = Text.join [':']
      (labels.map (Text.mapTrimmed (Label.rename ρ)) ++ [renameInstruction ρ last]) := by
    rw [renameCode, hparts]
    simp
  have hrespelled : List.Forall₂ Respelled (labels ++ [last])
      (labels.map (Text.mapTrimmed (Label.rename ρ)) ++ [renameInstruction ρ last]) := by
    refine List.rel_append ?_ (.cons (reworded_renameInstruction ρ last).2 .nil)
    rw [List.forall₂_map_right_iff]
    exact List.forall₂_same.mpr fun part _ => respelled_mapTrimmed ρ part
  -- renaming puts no colon into a part, so the renamed code falls into the renamed parts
  have hmark : ∀ part ∈ labels.map (Text.mapTrimmed (Label.rename ρ)) ++ [renameInstruction ρ last],
      ':' ∉ part := by
    have hold : ∀ {part part' : Text}, part ∈ labels ++ [last] → Respelled part part' →
        ':' ∉ part' := by
      intro part part' hpart hpart' hmem
      rw [← hparts] at hpart
      exact Text.not_mem_of_mem_splitOn hpart (hpart'.mem (by decide) hmem)
    intro part hpart
    rcases List.mem_append.mp hpart with hlabel | hlast
    · obtain ⟨label, hmem, rfl⟩ := List.mem_map.mp hlabel
      exact hold (List.mem_append_left [last] hmem) (respelled_mapTrimmed ρ label)
    · obtain rfl := List.mem_singleton.mp hlast
      exact hold (List.mem_append_right labels List.mem_cons_self)
        (reworded_renameInstruction ρ last).2
  refine ⟨labels, last, hparts, ?_, ?_⟩
  · rw [hcode, Text.join, List.splitOn_intercalate ':' hmark (by simp)]
  · have hjoined := Respelled.join [':'] hrespelled
    rw [← hcode, ← hparts] at hjoined
    rwa [show Text.join [':'] (code.splitOn ':') = code from List.intercalate_splitOn ':']
      at hjoined

/-- A line of renamed code corresponds to the line of the code. -/
theorem alike_renameCode (ρ : Label.Name ↪ Label.Name) (number : Int) (code : Text) :
    SourceLine.Alike (Label.rename ρ) ⟨number, Text.trim code⟩
      ⟨number, Text.trim (renameCode ρ code)⟩ := by
  obtain ⟨labels, last, hparts, hparts', -⟩ := splitOn_renameCode ρ code
  obtain ⟨hreworded, hrespelled⟩ := reworded_renameInstruction ρ last
  have hsegments : Text.segments (Text.trim code) = labels.map Text.trim ++ [Text.trim last] := by
    rw [Text.segments_trim, Text.segments, hparts, List.map_append, List.map_singleton]
  have hsegments' : Text.segments (Text.trim (renameCode ρ code)) =
      (labels.map Text.trim).map (Label.rename ρ) ++ [Text.trim (renameInstruction ρ last)] := by
    rw [Text.segments_trim, Text.segments, hparts', List.map_append, List.map_singleton,
      List.map_map, List.map_map]
    congr 2
    funext part
    exact trim_mapTrimmed_rename ρ part
  refine ⟨rfl, ?_, ?_⟩
  · rw [SourceLine.labels, SourceLine.labels, hsegments, hsegments', List.dropLast_concat,
      List.dropLast_concat]
  · unfold SourceLine.instruction?
    rw [hsegments, hsegments', List.getLast?_concat, List.getLast?_concat]
    have hnil := hrespelled.trim_eq_nil_iff
    have htrim := hreworded.trim
    generalize Text.trim last = text, Text.trim (renameInstruction ρ last) = text' at hnil htrim
    cases text with
    | nil =>
        rw [hnil.mpr rfl]
        exact .none
    | cons c text =>
        cases text' with
        | nil => cases hnil.mp rfl
        | cons c' text' => exact .some ⟨rfl, htrim⟩

/-- A line is its code and a comment, which stays one when the code is respelled. -/
theorem exists_codeOf_append (settings : Settings) (line : Text) :
    ∃ comment, line = codeOf settings line ++ comment ∧ ∀ code,
      Respelled (codeOf settings line) code → codeOf settings (code ++ comment) = code := by
  unfold codeOf
  cases settings.stripComments with
  | false => exact ⟨[], (List.append_nil line).symm, fun code _ => List.append_nil code⟩
  | true =>
      obtain ⟨comment, hline, hnone, hseam⟩ := Source.exists_comment line
      refine ⟨comment, hline, fun code hcode => ?_⟩
      have huncommented := hcode.uncommented (Source.uncommented_stripComment line).1
      have hseam' : code.getLast? = some '/' → comment.head? ≠ some '/' :=
        fun hlast => hseam (hcode.getLast? (by decide) hlast)
      exact (Source.stripComment_append huncommented hseam').trans (by rw [hnone, List.append_nil])

/-- The code of a renamed line is the renamed code of the line. -/
theorem codeOf_renameLine (settings : Settings) (ρ : Label.Name ↪ Label.Name) (line : Text) :
    codeOf settings (renameLine settings ρ line) = renameCode ρ (codeOf settings line) ∧
      Respelled line (renameLine settings ρ line) := by
  obtain ⟨-, -, -, -, hcode⟩ := splitOn_renameCode ρ (codeOf settings line)
  obtain ⟨comment, hline, hcomment⟩ := exists_codeOf_append settings line
  have hdrop : ∀ code, line = code ++ comment → line.drop code.length = comment := by
    rintro code rfl
    exact List.drop_left
  rw [renameLine, hdrop _ hline]
  refine ⟨hcomment _ hcode, ?_⟩
  have hrespelled := hcode.append (.refl comment)
  rwa [← hline] at hrespelled

theorem keepsLines_renameLine (settings : Settings) (ρ : Label.Name ↪ Label.Name) :
    Source.KeepsLines (renameLine settings ρ) where
  isOneLine := by
    intro line hline
    have hrespelled := (codeOf_renameLine settings ρ line).2
    exact ⟨fun hmem => hline.1 (hrespelled.mem (by decide) hmem),
      fun hmem => hline.2 (hrespelled.mem (by decide) hmem)⟩
  ne_nil := by
    intro line hline
    exact mt (codeOf_renameLine settings ρ line).2.eq_nil_iff.mp hline

/-! ## Programs -/

/-- What is kept of a raw line is its code. -/
theorem keepLine_eq (settings : Settings) (raw : Text × Nat) :
    Source.keepLine (!settings.stripComments) raw =
      if (Text.trim (codeOf settings raw.1)).isEmpty then none
      else some ⟨raw.2, Text.trim (codeOf settings raw.1)⟩ := by
  unfold Source.keepLine codeOf
  cases settings.stripComments <;> rfl

/-- The lines of a renamed program correspond to those of the program. -/
theorem alike_renameText (settings : Settings) (ρ : Label.Name ↪ Label.Name) (text : Text) :
    List.Forall₂ (SourceLine.Alike (Label.rename ρ)) (programLines settings text)
      (programLines settings (renameText settings ρ text)) := by
  have hkeep : ∀ raw : Text × Nat, Option.Rel (SourceLine.Alike (Label.rename ρ))
      (Source.keepLine (!settings.stripComments) raw)
      (Source.keepLine (!settings.stripComments) (renameLine settings ρ raw.1, raw.2)) := by
    rintro ⟨raw, number⟩
    obtain ⟨-, -, -, -, hrespelled⟩ := splitOn_renameCode ρ (codeOf settings raw)
    have hnil := hrespelled.trim_eq_nil_iff
    rw [keepLine_eq, keepLine_eq, (codeOf_renameLine settings ρ raw).1]
    simp only [List.isEmpty_iff, hnil]
    split
    · exact .none
    · exact .some (alike_renameCode ρ number (codeOf settings raw))
  have hlines : (Source.rawLines (renameText settings ρ text)).zipIdx 1 =
      ((Source.rawLines text).zipIdx 1).map fun raw => (renameLine settings ρ raw.1, raw.2) := by
    rw [renameText, Source.rawLines_mapLines (keepsLines_renameLine settings ρ), List.zipIdx_map]
    rfl
  have hraw : List.Forall₂ (fun raw raw' => raw = raw') ((Source.rawLines text).zipIdx 1)
      ((Source.rawLines text).zipIdx 1) := List.forall₂_same.mpr fun _ _ => rfl
  unfold programLines Source.normalize
  rw [hlines, List.filterMap_map]
  refine List.rel_filterMap ?_ hraw
  rintro raw _ rfl
  exact hkeep raw

section

variable {f : Text → Text} {lines lines' : List SourceLine}

theorem Reworded.labelAt?_eq {text text' : Text} (hf : Label.IsRenaming f)
    (h : Reworded f text text') : labelAt? text' = (labelAt? text).map f := by
  cases h with
  | plain h => rw [h, Option.map_none]
  | label hparse hlabel hparse' =>
      rw [labelAt?, labelAt?, hparse, hparse']
      simp only [hlabel, labelOperand?_relabel hf hlabel, Option.map_some]

/-- The labels of lines that correspond. -/
theorem flatMap_labels_of_alike (h : List.Forall₂ (SourceLine.Alike f) lines lines') :
    lines'.flatMap SourceLine.labels = (lines.flatMap SourceLine.labels).map f := by
  induction h with
  | nil => rfl
  | cons hline _ ih =>
      rw [List.flatMap_cons, List.flatMap_cons, List.map_append, ih, hline.labels]

/-- The labels at the ends of the instructions of lines that correspond. -/
theorem map_labelAt?_of_alike (hf : Label.IsRenaming f)
    (h : List.Forall₂ (SourceLine.Alike f) lines lines') :
    (instructionsOf lines').map (fun line => labelAt? line.text) =
      (instructionsOf lines).map fun line => (labelAt? line.text).map f := by
  have hinstructions : List.Forall₂ (SourceLine.Reworded f)
      (instructionsOf lines) (instructionsOf lines') :=
    List.rel_filterMap (fun _ _ hline => hline.instruction) h
  generalize instructionsOf lines = is, instructionsOf lines' = is' at hinstructions
  induction hinstructions with
  | nil => rfl
  | cons hi _ ih => rw [List.map_cons, List.map_cons, ih, hi.text.labelAt?_eq hf]

end

/-- A source whose text is changed holds the changed text. -/
theorem Source.Holds.mapText {source : Source} {text : Text} (h : source.Holds text)
    (g : Text → Text) : (source.mapText g).Holds (g text) := by
  cases source with
  | text content =>
      obtain rfl : content = text := h
      exact rfl
  | bytes content =>
      rw [Source.mapText, Utf8.decode_eq_ok_iff.mpr h]
      exact rfl
  | other typeName => exact h.elim

/-- A source without a text stays as it is. -/
theorem Source.mapText_of_not_holds {source : Source} (h : ∀ text, ¬ source.Holds text)
    (g : Text → Text) : source.mapText g = source := by
  cases source with
  | text content => exact absurd rfl (h content)
  | bytes content =>
      rw [Source.mapText]
      cases hdecode : Utf8.decode content with
      | ok text => exact absurd (Utf8.decode_eq_ok_iff.mp hdecode) (h text)
      | error _ => rfl
  | other typeName => rfl

/-- **The names of labels have no meaning**: a program whose labels are renamed, each to a name of
its own, has the labels and the references to them under their new names, and callers are told the
same of it. -/
theorem assembleBuffer_rename (settings : Settings) (ρ : Label.Name ↪ Label.Name)
    (source : Source) :
    assembleBuffer settings (source.mapText (renameText settings ρ)) =
        assembleBuffer settings source ∧
      ∀ text,
        (programLines settings (renameText settings ρ text)).flatMap SourceLine.labels =
            ((programLines settings text).flatMap SourceLine.labels).map (Label.rename ρ) ∧
          (instructionsOf (programLines settings (renameText settings ρ text))).map
              (fun line => labelAt? line.text) =
            (instructionsOf (programLines settings text)).map
              fun line => (labelAt? line.text).map (Label.rename ρ) := by
  have hρ := Label.isRenaming_rename ρ
  refine ⟨?_, fun text => ?_⟩
  · by_cases hsource : ∃ text, source.Holds text
    · obtain ⟨text, htext⟩ := hsource
      exact assembleBuffer_of_alike hρ htext (htext.mapText _) (alike_renameText settings ρ text)
    · rw [Source.mapText_of_not_holds fun text htext => hsource ⟨text, htext⟩]
  · have halike := alike_renameText settings ρ text
    exact ⟨flatMap_labels_of_alike halike, map_labelAt?_of_alike hρ halike⟩

/-- Two names that are exchanged; the comment and the operand that is no label stay. -/
example :
    renameText {} (Equiv.swap ⟨"top".toList, rfl⟩ ⟨"a0".toList, rfl⟩).toEmbedding
        "top : beq a0, a0 , top, # top\r\na0:".toList =
      "a0 : beq a0, a0 , a0, # top\r\ntop:".toList := by
  decide +kernel

end RiscAsm

import Mathlib.Data.List.Forall2
import RiscAsm.Proofs.Assemble.Branch
import RiscAsm.Proofs.Assemble.Outcome

/-!
# Programs that are alike

Two programs are alike when their lines correspond one to one: the labels of a line are those of the
other line under an injective renaming, and its instruction is the other instruction up to the label
at its end (`SourceLine.Alike`).  Of the numbers of the lines it only matters whether they can be
written.  On such programs both passes go side by side, and where one of them fails the other fails
at the same instruction; so callers are told the same (`assembleBuffer_of_alike`).
-/

namespace RiscAsm

/-! ## What callers are told of a failure -/

/-- What callers are told of a failure: the number of the failing instruction.  A failure that is no
diagnostic reaches them as it is. -/
def Failure.told : Failure → Except Failure Int
  | .diagnostic d => .ok d.failingLine
  | failure => .error failure

/-- A result, with what callers are told in place of its failure. -/
def told {α : Type} (x : Except Failure α) : Except (Except Failure Int) α :=
  x.mapError Failure.told

theorem told_ok {α : Type} (a : α) : told (.ok a) = .ok a := rfl

theorem told_error {α : Type} (failure : Failure) :
    told (.error failure : Except Failure α) = .error failure.told := rfl

theorem told_bind {α β : Type} (x : Except Failure α) (f : α → Except Failure β) :
    told (x >>= f) = told x >>= fun a => told (f a) := by
  cases x <;> rfl

theorem told_mapM {α β : Type} (f : α → Except Failure β) (l : List α) :
    told (l.mapM f) = l.mapM fun a => told (f a) := by
  induction l with
  | nil => rfl
  | cons a l ih =>
      rw [List.mapM_cons, List.mapM_cons, told_bind, ← ih]
      congr 1
      funext b
      rw [told_bind]
      rfl

/-- What callers are told of a failure that is reported with the number of a line: a position among
the instructions, unless the number is too long to be written. -/
def toldAt (number index : Int) : Except Failure Int :=
  if Numeral.tooLong number then .error (.value Numeral.tooLongMessage) else .ok index

theorem toldAt_congr {number number' : Int}
    (h : Numeral.tooLong number' = Numeral.tooLong number) (index : Int) :
    toldAt number' index = toldAt number index := by
  rw [toldAt, toldAt, h]

theorem Diagnostic.told_failure {d : Diagnostic} {number : Int} {n : Nat}
    (hline : d.line = some number) (hkind : d.kind ≠ .input)
    (hindex : d.index = some (n + 1 : Int)) : d.failure.told = toldAt number (n + 1) := by
  rw [d.failure_eq hline, toldAt]
  split
  · rfl
  · exact congrArg Except.ok (d.failingLine_of_index hkind hindex)

/-- What callers are told, given the words of a program or what they are told of its failure. -/
def report : Except (Except Failure Int) (List Nat) → Except Failure (Buffer × Int)
  | .ok words =>
    match ({ words : Assembly }).toBuffer with
    | .ok b => .ok (b, 0)
    | .error (.diagnostic d) => .ok (Buffer.empty, d.failingLine)
    | .error failure => .error failure
  | .error (.ok index) => .ok (Buffer.empty, index)
  | .error (.error failure) => .error failure

theorem assembleBuffer_eq_report (settings : Settings) (source : Source) :
    assembleBuffer settings source =
      report (told ((assemble settings source).map Assembly.words)) := by
  unfold assembleBuffer
  cases assemble settings source with
  | ok a => rfl
  | error failure => cases failure <;> rfl

/-- Callers are told the same of two sources when the words of both are, or the same failure. -/
theorem assembleBuffer_congr {settings : Settings} {source source' : Source}
    (h : told ((assemble settings source').map Assembly.words) =
      told ((assemble settings source).map Assembly.words)) :
    assembleBuffer settings source' = assembleBuffer settings source := by
  rw [assembleBuffer_eq_report, assembleBuffer_eq_report, h]

/-! ## Renamed labels -/

/-- A map of label names: no two names are mixed up, exactly names are mapped to names, and what is
no number is not mapped to one. -/
structure Label.IsRenaming (f : Text → Text) : Prop where
  injective : Function.Injective f
  isName_eq : ∀ name, isName (f name) = isName name
  accepts_eq : ∀ name, Immediate.accepts name = false → Immediate.accepts (f name) = false

/-- The table with other names. -/
def LabelTable.rename (f : Text → Text) (t : LabelTable) : LabelTable :=
  ⟨t.entries.map fun entry => (f entry.1, entry.2)⟩

/-- A name is found under its new name. -/
theorem LabelTable.get?_rename {f : Text → Text} (hf : Function.Injective f) (t : LabelTable)
    (name : Text) : (t.rename f).get? (f name) = t.get? name := by
  obtain ⟨entries⟩ := t
  unfold rename get?
  induction entries with
  | nil => rfl
  | cons entry entries ih =>
      have hsame : (f name == f entry.1) = (name == entry.1) := by
        rw [Bool.eq_iff_iff, beq_iff_eq, beq_iff_eq]
        exact hf.eq_iff
      rw [List.map_cons, List.lookup_cons, List.lookup_cons, hsame, ih]

/-- The statement with another last operand. -/
def Statement.relabel (s : Statement) (name : Text) : Statement :=
  { s with operands := s.operands.dropLast ++ [name] }

theorem Statement.relabel_getLast {s : Statement} {name : Text}
    (h : s.operands.getLast? = some name) : s.relabel name = s := by
  rw [relabel, List.dropLast_append_getLast? name h]

/-- The two texts are one instruction, except that the label at the end of the first is renamed in
the second. -/
inductive Reworded (f : Text → Text) : Text → Text → Prop
  | plain {text : Text} (h : labelAt? text = none) : Reworded f text text
  | label {text text' : Text} {s : Statement} {name : Text} (hparse : Statement.parse text = .ok s)
      (hlabel : labelOperand? s = some name)
      (hparse' : Statement.parse text' = .ok (s.relabel (f name))) : Reworded f text text'

/-- Two lines are one instruction, except that the label at the end of the first is renamed in the
second.  The numbers of both can be written, or of neither. -/
structure SourceLine.Reworded (f : Text → Text) (i i' : SourceLine) : Prop where
  number : Numeral.tooLong i'.number = Numeral.tooLong i.number
  text : RiscAsm.Reworded f i.text i'.text

/-- Two lines correspond: the labels of the first are renamed in the second, and so is the label at
the end of its instruction. -/
structure SourceLine.Alike (f : Text → Text) (line line' : SourceLine) : Prop where
  number : Numeral.tooLong line'.number = Numeral.tooLong line.number
  labels : line'.labels = line.labels.map f
  instruction : Option.Rel (SourceLine.Reworded f) line.instruction? line'.instruction?

/-- An instruction without a label to be renamed is one with itself. -/
theorem Reworded.of_fixed {f : Text → Text} {text : Text}
    (h : ∀ name, labelAt? text = some name → f name = name) : Reworded f text text := by
  cases hlabel : labelAt? text with
  | none => exact .plain hlabel
  | some name =>
      have hname := h name hlabel
      unfold labelAt? at hlabel
      split at hlabel
      · rename_i s hparse
        refine .label hparse hlabel ?_
        rw [hparse, hname, Statement.relabel_getLast (labelOperand?_eq_some.mp hlabel).2.1]
      · cases hlabel

/-! ## The first pass -/

namespace Layout

variable {width : Int} {l l' : Layout} {f : Text → Text}

/-- Takes the labels of a line one by one.  The first one that cannot be taken is told: it is no
name, or it was defined before. -/
def take (width number : Int) (l : Layout) : List Text → Except (Except Failure Int) Layout
  | [] => .ok l
  | name :: names =>
    if Label.isName name then
      match l.labels.get? name with
      | none => take width number (l.label width [name]) names
      | some earlier => .error
          (if Numeral.tooLong earlier then .error (.value Numeral.tooLongMessage)
          else toldAt number l.nextIndex)
    else .error (toldAt number l.nextIndex)

/-- The layout that was reached, or what is told of the failure that ended the pass. -/
def reached : Layout × Option Failure → Except (Except Failure Int) Layout
  | (l, none) => .ok l
  | (_, some failure) => .error failure.told

/-- What is told of a name that is defined again. -/
theorem told_define {name : Text} {earlier : Int} (h : l.labels.get? name = some earlier)
    (offset : Int) (line : SourceLine) :
    told (l.labels.define name offset (some line) (some l.nextIndex)) =
      .error (if Numeral.tooLong earlier then .error (.value Numeral.tooLongMessage)
        else toldAt line.number l.nextIndex) := by
  unfold LabelTable.define
  rw [h]
  simp only
  split
  · rfl
  · rw [LabelTable.diagnose, told_error]
    exact congrArg Except.error (Diagnostic.told_failure rfl DiagnosticKind.noConfusion rfl)

/-- What is read of a line is the labels that are taken and the instruction that is left.  The
induction is on the number of colons that are allowed for. -/
theorem reached_readAux {line : SourceLine} {colons : Nat} {current : Text}
    (htrim : Text.trim current = current) (hcount : current.count ':' ≤ colons) :
    reached (readAux width line colons l current) =
      (l.take width line.number (SourceLine.mk line.number current).labels).map fun next =>
        next.add (SourceLine.mk line.number current).instruction? := by
  have hplain : ∀ {colons : Nat} {l : Layout} {current : Text}, ':' ∉ current →
      Text.trim current = current → reached (readAux width line colons l current) =
        (l.take width line.number (SourceLine.mk line.number current).labels).map fun next =>
          next.add (SourceLine.mk line.number current).instruction? := by
    intro colons l current hmem htrim
    obtain ⟨hlabels, -⟩ := SourceLine.parts_of_not_mem ⟨line.number, current⟩ hmem htrim
    rw [readAux_of_not_mem hmem htrim, place, hlabels]
    simp [label, take, reached, Except.map]
  induction colons generalizing l current with
  | zero => exact hplain (List.count_eq_zero.mp (by omega)) htrim
  | succ colons ih =>
      by_cases hmem : ':' ∈ current
      · obtain ⟨before, after, rfl, hbefore⟩ := List.eq_append_cons_of_mem hmem
        obtain ⟨hlabels, hinstruction⟩ := SourceLine.parts_append line.number hbefore after
        rw [hlabels, hinstruction, take]
        by_cases hname : Label.isName (Text.trim before) = true
        · rw [if_pos hname]
          cases hget : l.labels.get? (Text.trim before) with
          | none =>
              have hrest : (Text.trim after).count ':' ≤ colons := by
                have hle := Text.count_trim_le ':' after
                rw [List.count_append, List.count_cons_self] at hcount
                omega
              rw [readAux_of_new hbefore hname (lookup_eq_none_iff_not_mem.mp hget)]
              exact ih (Text.trim_trim after) hrest
          | some earlier =>
              -- the name is refused, whatever the report of it says
              have htold := told_define hget (l.count * width) line
              rw [readAux, split_of_isName hbefore hname]
              simp only
              cases hdefine : l.labels.define (Text.trim before) (l.count * width) (some line)
                  (some l.nextIndex) with
              | ok labels =>
                  rw [hdefine, told_ok] at htold
                  cases htold
              | error failure =>
                  rw [hdefine, told_error] at htold
                  exact congrArg Except.error (Except.error.inj htold)
        · rw [if_neg hname]
          obtain ⟨failure, hread, d, rfl, hkind, hline, hindex⟩ :=
            readAux_of_malformed hbefore (by simpa using hname) after (colons + 1)
          rw [hread]
          exact congrArg Except.error (d.told_failure hline (by simp [hkind]) hindex)
      · exact hplain hmem htrim

theorem reached_read {line : SourceLine} (htrim : Text.trim line.text = line.text) :
    reached (read width l line) =
      (l.take width line.number line.labels).map fun next => next.add line.instruction? :=
  reached_readAux htrim (Nat.le_refl _)

theorem reached_readAll_cons (line : SourceLine) (lines : List SourceLine) :
    reached (readAll width l (line :: lines)) =
      reached (read width l line) >>= fun next => reached (readAll width next lines) := by
  rw [readAll]
  split
  · rename_i hread
    rw [hread]
    rfl
  · rename_i hread
    rw [hread]
    rfl

/-- Two layouts correspond: labels are renamed, and instructions are the same up to the label at
their end. -/
structure Alike (f : Text → Text) (l l' : Layout) : Prop where
  labels : l'.labels = l.labels.rename f
  count : l'.count = l.count
  reversed : List.Forall₂ (SourceLine.Reworded f) l.reversed l'.reversed

theorem alike_empty (f : Text → Text) : Alike f {} {} := ⟨rfl, rfl, .nil⟩

theorem Alike.label (h : Alike f l l') (name : Text) :
    Alike f (l.label width [name]) (l'.label width [f name]) where
  labels := by
    simp [Layout.label, h.labels, h.count, LabelTable.rename]
  count := h.count
  reversed := h.reversed

theorem Alike.add {i i' : Option SourceLine} (h : Alike f l l')
    (hi : Option.Rel (SourceLine.Reworded f) i i') : Alike f (l.add i) (l'.add i') := by
  cases hi with
  | none => exact h
  | some hi => exact ⟨h.labels, congrArg (· + 1) h.count, .cons hi h.reversed⟩

/-- Labels are taken under their new names as they are under their old ones. -/
theorem Alike.take {number number' : Int} (hf : Label.IsRenaming f) (h : Alike f l l')
    (hnumber : Numeral.tooLong number' = Numeral.tooLong number) (names : List Text) :
    Result.Agree (Alike f) (l.take width number names)
      (l'.take width number' (names.map f)) := by
  induction names generalizing l l' with
  | nil => exact h
  | cons name names ih =>
      have hindex : l'.nextIndex = l.nextIndex := by
        rw [nextIndex, nextIndex, h.count]
      rw [List.map_cons, Layout.take, Layout.take, hf.isName_eq, h.labels,
        LabelTable.get?_rename hf.injective, hindex, toldAt_congr hnumber]
      split
      · split
        · exact ih (h.label name)
        · rfl
      · rfl

theorem Alike.read {line line' : SourceLine} (hf : Label.IsRenaming f) (h : Alike f l l')
    (hline : SourceLine.Alike f line line') (htrim : Text.trim line.text = line.text)
    (htrim' : Text.trim line'.text = line'.text) :
    Result.Agree (Alike f) (reached (read width l line)) (reached (read width l' line')) := by
  rw [reached_read htrim, reached_read htrim', hline.labels]
  exact (h.take hf hline.number line.labels).bind fun next next' hnext =>
    hnext.add hline.instruction

/-- The first pass goes side by side on lines that correspond. -/
theorem Alike.readAll {lines lines' : List SourceLine} (hf : Label.IsRenaming f) (h : Alike f l l')
    (hlines : List.Forall₂ (SourceLine.Alike f) lines lines')
    (htrim : ∀ line ∈ lines, Text.trim line.text = line.text)
    (htrim' : ∀ line ∈ lines', Text.trim line.text = line.text) :
    Result.Agree (Alike f) (reached (readAll width l lines))
      (reached (readAll width l' lines')) := by
  induction hlines generalizing l l' with
  | nil => exact h
  | cons hline _ ih =>
      rw [List.forall_mem_cons] at htrim htrim'
      rw [reached_readAll_cons, reached_readAll_cons]
      exact (h.read hf hline htrim.1 htrim'.1).bind fun next next' hnext =>
        ih hnext htrim.2 htrim'.2

end Layout

/-! ## The second pass -/

namespace Reworded

variable {f : Text → Text} {settings : Settings} {labels : LabelTable} {i i' : SourceLine}

/-- The label at the end of a statement with another last operand. -/
theorem labelOperand?_relabel {s : Statement} {name : Text} (hf : Label.IsRenaming f)
    (h : labelOperand? s = some name) : labelOperand? (s.relabel (f name)) = some (f name) := by
  obtain ⟨htakes, hlast, hrefused⟩ := labelOperand?_eq_some.mp h
  have hpos : s.operands ≠ [] := by
    intro hnil
    simp [hnil] at hlast
  have hlength : (s.relabel (f name)).operands.length = s.operands.length := by
    rw [Statement.relabel, List.length_append, List.length_dropLast, List.length_singleton]
    exact Nat.sub_add_cancel (List.length_pos_iff.mpr hpos)
  rw [labelOperand?_eq_some, hlength]
  exact ⟨htakes, List.getLast?_concat, hf.accepts_eq name hrefused⟩

/-- The label at the end is replaced by the same number, or fails to be found in the same way. -/
theorem told_patch (hf : Label.IsRenaming f) (h : i.Reworded f i') (index : Nat) :
    told (patch settings (labels.rename f) i' (index + 1)) =
      told (patch settings labels i (index + 1)) := by
  obtain ⟨number, text⟩ := i
  obtain ⟨number', text'⟩ := i'
  obtain ⟨hnumber, h⟩ := h
  cases h with
  | plain h =>
      have hsame : ∀ (labels : LabelTable) (number : Int),
          patch settings labels ⟨number, text⟩ (index + 1) = .ok text :=
        fun labels number => patch_eq_ok_iff.mpr (.inl ⟨h, rfl⟩)
      rw [hsame, hsame]
  | label hparse hlabel hparse' =>
      rename_i s name
      have hnew := labelOperand?_relabel hf hlabel
      simp only [patch, hparse, hparse', hlabel, hnew, told_bind]
      unfold LabelTable.resolve
      rw [LabelTable.get?_rename hf.injective]
      cases labels.get? name with
      | none =>
          have htold : ∀ (number : Int) (text name : Text),
              told (.error (LabelTable.diagnose .undefinedLabel
                ("Undefined label: ".toList ++ name) (some ⟨number, text⟩)
                (some (index + 1 : Nat))) : Except Failure Int) =
                .error (toldAt number (index + 1)) := by
            intro number text name
            rw [LabelTable.diagnose, told_error]
            exact congrArg Except.error
              (Diagnostic.told_failure rfl DiagnosticKind.noConfusion rfl)
          simp only [htold, toldAt_congr hnumber]
          rfl
      | some offset => simp [Statement.relabel]

/-- The same word is emitted, or a failure at the same position. -/
theorem told_emit (hf : Label.IsRenaming f) (h : i.Reworded f i') (index : Nat) :
    told (emit settings (labels.rename f) (i', index + 1)) =
      told (emit settings labels (i, index + 1)) := by
  unfold emit
  simp only [told_bind, told_patch hf h]
  refine bind_congr fun text => ?_
  cases hencode : encode settings.profile text with
  | ok w => rfl
  | error failure =>
      obtain ⟨reason, rfl⟩ := encode_eq_error hencode
      have htold : ∀ line : SourceLine,
          (locateFailure line (index + 1) (.diagnostic { kind := .encoding, reason })).told =
            toldAt line.number (index + 1) := by
        intro line
        rw [locateFailure]
        exact Diagnostic.told_failure rfl DiagnosticKind.noConfusion rfl
      show told (.error _) = told (.error _)
      rw [told_error, told_error, htold, htold, toldAt_congr h.number]

end Reworded

/-- The second pass goes side by side on layouts that correspond. -/
theorem Layout.Alike.secondPass {settings : Settings} {l l' : Layout} {f : Text → Text}
    (hf : Label.IsRenaming f) (h : Layout.Alike f l l') :
    told (secondPass settings l') = told (secondPass settings l) := by
  have hinstructions :
      List.Forall₂ (SourceLine.Reworded f) l.instructions l'.instructions :=
    List.forall₂_reverse_iff.mpr h.reversed
  have hmapM : ∀ (is is' : List SourceLine) (n : Nat),
      List.Forall₂ (SourceLine.Reworded f) is is' →
      (is'.zipIdx (n + 1)).mapM (fun entry => told (emit settings l'.labels entry)) =
        (is.zipIdx (n + 1)).mapM (fun entry => told (emit settings l.labels entry)) := by
    intro is is' n his
    induction his generalizing n with
    | nil => rfl
    | cons hi _ ih =>
        rw [List.zipIdx_cons, List.zipIdx_cons, List.mapM_cons, List.mapM_cons, ih, h.labels,
          Reworded.told_emit hf hi]
  unfold RiscAsm.secondPass
  rw [told_mapM, told_mapM]
  exact hmapM l.instructions l'.instructions 0 hinstructions

/-! ## Both passes -/

/-- Texts whose lines correspond have the same words, or fail at the same position. -/
theorem told_assembleText_of_alike {settings : Settings} {text text' : Text} {f : Text → Text}
    (hf : Label.IsRenaming f)
    (h : List.Forall₂ (SourceLine.Alike f) (programLines settings text)
      (programLines settings text')) :
    told ((assembleText settings text').map Assembly.words) =
      told ((assembleText settings text).map Assembly.words) := by
  have hfirst : Result.Agree (Layout.Alike f) (Layout.reached (firstPass settings text))
      (Layout.reached (firstPass settings text')) :=
    (Layout.alike_empty f).readAll hf h (fun _ => trim_of_mem_programLines)
      (fun _ => trim_of_mem_programLines)
  have hwords : ∀ text, told ((assembleText settings text).map Assembly.words) =
      Layout.reached (firstPass settings text) >>= fun l =>
        (told (secondPass settings l)).map fun emitted => emitted.map Emitted.word := by
    intro text
    rw [assembleText_eq]
    split
    · rename_i hpass
      rw [hpass]
      rfl
    · rename_i layout hpass
      rw [hpass]
      show told (Except.map _ (secondPass settings layout >>= _)) = Except.map _ _
      cases secondPass settings layout <;> rfl
  rw [hwords, hwords, eq_comm, ← Result.Agree.eq_iff]
  refine hfirst.bind fun l l' hl => ?_
  rw [hl.secondPass hf, Result.Agree.eq_iff]

/-- **Programs that are alike**: callers are told the same of sources whose lines correspond. -/
theorem assembleBuffer_of_alike {settings : Settings} {source source' : Source} {text text' : Text}
    {f : Text → Text} (hf : Label.IsRenaming f) (hsource : source.Holds text)
    (hsource' : source'.Holds text')
    (h : List.Forall₂ (SourceLine.Alike f) (programLines settings text)
      (programLines settings text')) :
    assembleBuffer settings source' = assembleBuffer settings source := by
  apply assembleBuffer_congr
  rw [assemble, assemble, Source.decode_eq_ok_iff.mpr hsource,
    Source.decode_eq_ok_iff.mpr hsource']
  exact told_assembleText_of_alike hf h

end RiscAsm

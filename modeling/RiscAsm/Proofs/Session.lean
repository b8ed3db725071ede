import RiscAsm.Proofs.Assemble.Outcome
import RiscAsm.Proofs.Assemble.Resolved
import RiscAsm.Proofs.Listing

/-!
# Theory of sessions

A run of a session forgets everything, and keeps the results if it gets that far: so it leaves the
program that was assembled, or nothing (`Session.assemble_eq`).  Every run leaves labels,
instructions, words and a source map that fit together (`Session.Consistent`,
`Session.consistent_assemble`), so they do in every state that a session can reach
(`Session.consistent_after`).  Nothing of an earlier run is left after a later one, and nothing at
all after a run that fails (`Session.after_eq_latest_run`).
-/

namespace RiscAsm

/-! ## Assembled programs -/

/-- The labels and the instructions of an assembled program are each written on one line. -/
theorem onLines_of_assembleText {settings : Settings} {text : Text} {a : Assembly}
    (h : assembleText settings text = .ok a) : a.OnLines := by
  obtain ⟨hclean, hlabels, hinstructions, -, -⟩ := assembleText_eq_ok h
  constructor
  · intro name hname hfeed
    rw [hlabels, names_labelsOf] at hname
    exact absurd (Label.isNameRest_of_mem (hclean.1 name hname) hfeed) (by decide)
  · intro line hline
    rw [hinstructions] at hline
    exact (isBare_of_mem_instructions hline).no_break.1

/-- Each label of an assembled program stands before an instruction, or at the end. -/
theorem label_offset_of_assembleText {settings : Settings} {text : Text} {a : Assembly}
    (h : assembleText settings text = .ok a) {entry : Text × Int}
    (hentry : entry ∈ a.labels.entries) :
    ∃ k : Nat, k ≤ a.words.length ∧ entry.2 = 4 * k := by
  obtain ⟨-, hlabels, hinstructions, hlength, -⟩ := assembleText_eq_ok h
  rw [hlabels] at hentry
  obtain ⟨before, line, after, hlines, -, hoffset⟩ := Layout.mem_entries_ofLines.mp hentry
  refine ⟨(instructionsOf before).length, ?_, ?_⟩
  · rw [hlength, hinstructions, hlines, instructionsOf_append, List.length_append]
    exact Nat.le_add_right ..
  · rw [hoffset, instructionWidth]
    omega

namespace Session

/-! ## One run -/

/-- A session that keeps an assembled program. -/
def keep (s : Session) (a : Assembly) : Session :=
  { s with
    labels := a.labels
    instructions := a.instructions
    words := a.words
    sourceMap := sourceMapOf a.instructions }

theorem settings_reset (s : Session) : s.reset.settings = s.settings := rfl

theorem run_modify_bind {β : Type} (change : Session → Session) (next : PUnit → Action β)
    (s : Session) : (modify change >>= next : Action β).run.run s = (next ⟨⟩).run.run (change s) :=
  rfl

theorem run_get_bind {β : Type} (next : Session → Action β) (s : Session) :
    (get >>= next : Action β).run.run s = (next s).run.run s := rfl

/-- A step that fails ends the run, with the session as it is. -/
theorem run_ofExcept_bind {α β : Type} (x : Except Failure α) (next : α → Action β) (s : Session) :
    (ofExcept x >>= next : Action β).run.run s =
      match x with
      | .ok a => (next a).run.run s
      | .error failure => (.error failure, s) := by
  cases x with
  | ok a => rfl
  | error failure => rfl

theorem run_ofExcept {α : Type} (x : Except Failure α) (s : Session) :
    (ofExcept x : Action α).run.run s = (x, s) := by
  cases x with
  | ok a => rfl
  | error failure => rfl

/-- A run keeps the program and gives its buffer, or it fails and keeps nothing. -/
theorem assemble_eq (s : Session) (source : Source) :
    s.assemble source =
      match RiscAsm.assemble s.settings source with
      | .ok a => (s.keep a, a.toBuffer)
      | .error failure => (s.reset, .error failure) := by
  -- both sides take the same steps, and the session is reset before the first that can fail
  simp only [assemble, assembleSource, run_modify_bind, run_get_bind, run_ofExcept_bind,
    run_ofExcept, settings_reset, RiscAsm.assemble]
  cases source.decode with
  | error d => rfl
  | ok text =>
      simp only [Except.mapError, assembleText]
      cases layOut s.settings text with
      | error failure => rfl
      | ok layout =>
          dsimp only [bind, Except.bind]
          cases secondPass s.settings layout with
          | error failure => rfl
          | ok emitted => rfl

/-! ## What is kept fits together -/

/-- A session has the given settings, and what it keeps fits together. -/
structure Consistent (settings : Settings) (s : Session) : Prop where
  settings_eq : s.settings = settings
  length_words : s.words.length = s.instructions.length
  length_sourceMap : s.sourceMap.length = s.instructions.length
  /-- The source map tells the offset, the text and the line number of each instruction. -/
  sourceMap_entry : ∀ (i : Nat) (line : SourceLine), s.instructions[i]? = some line →
    s.sourceMap[i]? = some (4 * i, line.text, line.number)
  word_lt : ∀ w ∈ s.words, w < 4294967296
  /-- Labels stand before an instruction, or at the end. -/
  label_offset : ∀ entry ∈ s.labels.entries, ∃ k : Nat, k ≤ s.words.length ∧ entry.2 = 4 * k
  /-- All words that the listing looks up are there. -/
  listing_found : s.listing = .ok (s.program.listing settings)
  /-- The lines of the listing that show an instruction show all instructions, in order. -/
  listing_codeLines : ((s.program.listing settings).splitOn '\n').filter Assembly.isCodeLine =
    s.program.codeLines settings
  length_codeLines : (s.program.codeLines settings).length = s.instructions.length

/-- An assembled program fits together. -/
theorem consistent_keep {s : Session} {text : Text} {a : Assembly}
    (h : assembleText s.settings text = .ok a) : (s.keep a).Consistent s.settings := by
  obtain ⟨-, -, -, hlength, -⟩ := assembleText_eq_ok h
  constructor
  · rfl
  · exact hlength
  · exact length_sourceMapOf a.instructions
  · intro i line hline
    change a.instructions[i]? = some line at hline
    rw [keep, getElem?_sourceMapOf, hline, Option.map_some]
  · exact fun w hw => lt_of_mem_words h hw
  · exact fun entry hentry => label_offset_of_assembleText h hentry
  · exact listing_eq_ok rfl hlength
  · exact Assembly.filter_isCodeLine_listing (onLines_of_assembleText h) s.settings
  · simp [Assembly.codeLines, program, keep, hlength]

/-- Nothing fits together as well: it is what an empty text is assembled to. -/
theorem consistent_reset (s : Session) : s.reset.Consistent s.settings := by
  have hempty : assembleText s.settings [] = .ok {} := by
    obtain ⟨⟨profile, branches, baseAddress, stripComments⟩, -⟩ := s
    cases stripComments with
    | false => rfl
    | true => rfl
  exact consistent_keep hempty

/-- Nothing of a program is kept but the settings: there are no labels, instructions or words to
show. -/
structure Cleared (settings : Settings) (s : Session) : Prop where
  settings_eq : s.settings = settings
  labels : s.labels.entries = []
  instructions : s.instructions = []
  words : s.words = []
  sourceMap : s.sourceMap = []
  hexText : s.hexText = []
  listing : s.listing = .ok (Text.joinLines Assembly.listingHead)
  address : ∀ name, s.address? name = none

theorem cleared_reset (s : Session) : s.reset.Cleared s.settings where
  settings_eq := rfl
  labels := rfl
  instructions := rfl
  words := rfl
  sourceMap := rfl
  hexText := rfl
  listing := rfl
  address := fun _ => rfl

/-! ## Runs -/

/-- A session without any runs. -/
def fresh (settings : Settings) : Session := { settings }

/-- A session after it has assembled sources, one after the other. -/
def after (s : Session) (sources : List Source) : Session :=
  sources.foldl (fun s source => (s.assemble source).1) s

theorem after_concat (s : Session) (sources : List Source) (source : Source) :
    s.after (sources ++ [source]) = ((s.after sources).assemble source).1 := by
  rw [after, List.foldl_append, ← after]
  rfl

/-- What a run can do: it keeps the program and gives its bytes, or it fails and keeps nothing. -/
theorem assemble_cases (s : Session) (source : Source) :
    (∃ text a, assembleText s.settings text = .ok a ∧
      s.assemble source = (s.keep a, .ok (Buffer.ofBytes a.bytes))) ∨
    ∃ failure, s.assemble source = (s.reset, .error failure) := by
  rw [assemble_eq]
  cases h : RiscAsm.assemble s.settings source with
  | ok a =>
      obtain ⟨text, -, htext⟩ := assemble_eq_ok h
      exact .inl ⟨text, a, htext, Prod.ext rfl (toBuffer_of_assembleText htext)⟩
  | error failure => exact .inr ⟨failure, rfl⟩

/-- A run depends on nothing but the settings of the session: what it keeps replaces all that was
kept before. -/
theorem assemble_eq_fresh (s : Session) (source : Source) :
    s.assemble source = (fresh s.settings).assemble source := by
  rw [assemble_eq, assemble_eq, fresh]
  cases RiscAsm.assemble s.settings source with
  | ok a => rfl
  | error failure => rfl

/-- A run keeps the settings, and what it leaves fits together. -/
theorem consistent_assemble (s : Session) (source : Source) :
    (s.assemble source).1.Consistent s.settings := by
  rcases s.assemble_cases source with ⟨text, a, htext, hrun⟩ | ⟨failure, hrun⟩
  · rw [hrun]
    exact consistent_keep htext
  · rw [hrun]
    exact consistent_reset s

/-- Any runs keep the settings, and what they leave fits together. -/
theorem consistent_after (settings : Settings) (sources : List Source) :
    ((fresh settings).after sources).Consistent settings := by
  -- from the last run back: of the runs before it only the settings matter
  induction sources using List.reverseRecOn with
  | nil => exact consistent_reset (fresh settings)
  | append_singleton sources source ih =>
      have hrun := ((fresh settings).after sources).consistent_assemble source
      rw [ih.settings_eq] at hrun
      rwa [after_concat]

/-- **A session is its latest run**: whatever was assembled before, a run gives what it gives in a
session without any runs, and leaves the same; a run that fails leaves nothing; and what any runs
leave fits together. -/
theorem after_eq_latest_run (settings : Settings) (sources : List Source) :
    ((fresh settings).after sources).Consistent settings ∧
    ∀ source,
      (((fresh settings).after sources).assemble source).2 =
          ((fresh settings).assemble source).2 ∧
      (fresh settings).after (sources ++ [source]) = (fresh settings).after [source] ∧
      ∀ failure, (((fresh settings).after sources).assemble source).2 = .error failure →
        ((fresh settings).after (sources ++ [source])).Cleared settings := by
  have hconsistent := consistent_after settings sources
  refine ⟨hconsistent, fun source => ?_⟩
  have hrun := assemble_eq_fresh ((fresh settings).after sources) source
  rw [hconsistent.settings_eq] at hrun
  rw [after_concat, hrun]
  refine ⟨rfl, rfl, fun failure hfailure => ?_⟩
  rcases (fresh settings).assemble_cases source with ⟨text, a, -, hok⟩ | ⟨failure', herror⟩
  · -- no run keeps a program and then fails, as all its words fit into a buffer
    rw [hok] at hfailure
    simp at hfailure
  · rw [herror]
    exact cleared_reset (fresh settings)

/-- A label that is defined twice, then a loop, then an unknown mnemonic. -/
theorem after_eq_latest_run_mixed :
    ((fresh {}).after [.text "x: nop\nx: nop".toList,
        .text "nop\nstart: j start".toList]).words = [0x00000013, 0x0040006F] ∧
    ((fresh {}).after [.text "x: nop\nx: nop".toList,
        .text "nop\nstart: j start".toList]).Consistent {} ∧
    ((fresh {}).after [.text "x: nop\nx: nop".toList, .text "nop\nstart: j start".toList,
        .text "start: jmp start".toList]).Cleared {} := by
  obtain ⟨hconsistent, hruns⟩ := after_eq_latest_run {} [.text "x: nop\nx: nop".toList,
    .text "nop\nstart: j start".toList]
  obtain ⟨-, -, hfailed⟩ := hruns (.text "start: jmp start".toList)
  have hfailure : (((fresh {}).after [.text "x: nop\nx: nop".toList,
      .text "nop\nstart: j start".toList]).assemble (.text "start: jmp start".toList)).2 =
      .error (.diagnostic ⟨.encoding, "Invalid mnemonic: jmp".toList, some 1,
        some "jmp start".toList, some 1⟩) := by decide +kernel
  exact ⟨by decide +kernel, hconsistent, hfailed _ hfailure⟩

end Session

end RiscAsm

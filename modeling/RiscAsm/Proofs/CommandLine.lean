import RiscAsm.CommandLine
import RiscAsm.Proofs.FileTree
import RiscAsm.Proofs.Session

/-!
# Theory of the command

A run of the command on a program either fails as a whole or shows the words of the program.  What
it shows is read back here: the bytes of a file or of the output, the lines of hexadecimal digits,
and the column of a listing (`Invocation.Shows`).  A run whose program is refused prints one line
about it and leaves the files as they were, and every other run shows the same words in whatever
form it was asked for (`run_outcome`).
-/

namespace RiscAsm.CommandLine

/-! ## Reading what is shown -/

/-- The lines of bytes, if they are text. -/
def linesOf? (bytes : List UInt8) : Option (List Text) :=
  (Utf8.decode bytes).toOption.map fun text => text.splitOn '\n'

/-- A line that is not empty. -/
def isFilled (line : Text) : Bool := !line.isEmpty

/-- The line that tells of success. -/
def isStatusLine (line : Text) : Bool := "Assembly successful: ".toList.isPrefixOf line

/-- Texts read as hexadecimal numbers. -/
def hexWords? (texts : List Text) : Option (List Nat) := texts.mapM (Numeral.readGroups 16)

/-- What an invocation asks for shows the words: the bytes of a file or of the output, the lines of
a file or of the output that are not empty, less the one that tells of success, or the lines of a
listing that show an instruction. -/
structure Invocation.Shows (i : Invocation) (words : List Nat) (outcome : Outcome) : Prop where
  binFile : ∀ path ∈ i.outputName?, i.format ≠ some .hex →
    outcome.files.read path = .ok (Bytes.ofWords words)
  hexFile : ∀ path ∈ i.outputName?, i.format = some .hex →
    ∃ content lines, outcome.files.read path = .ok content ∧ linesOf? content = some lines ∧
      hexWords? (lines.filter isFilled) = some words
  binOutput : i.outputName? = none → i.listing = false → i.format = some .bin →
    outcome.stdout = Bytes.ofWords words
  hexOutput : i.outputName? = none → i.listing = false → i.format ≠ some .bin →
    ∃ lines, linesOf? outcome.stdout = some lines ∧
      hexWords? (lines.filter fun line => isFilled line && !isStatusLine line) = some words
  listing : i.listing = true →
    ∃ lines, linesOf? outcome.stdout = some lines ∧
      hexWords? ((lines.filter Assembly.isCodeLine).map Assembly.codeColumn) = some words

theorem linesOf?_encode (text : Text) : linesOf? (Utf8.encode text) = some (text.splitOn '\n') := by
  rw [linesOf?, Utf8.decode_eq_ok_iff.mpr rfl]
  rfl

/-- Lines that end in a line feed each, and an empty one after them. -/
theorem splitOn_endLines {lines : List Text} (h : ∀ line ∈ lines, '\n' ∉ line) :
    (endLines lines).splitOn '\n' = lines ++ [[]] := by
  induction lines with
  | nil => rfl
  | cons line lines ih =>
      obtain ⟨hline, hlines⟩ := List.forall_mem_cons.mp h
      have hcons : endLines (line :: lines) = line ++ '\n' :: endLines lines := by
        simp [endLines]
      rw [hcons, List.splitOn_append_cons_self_of_not_mem hline, ih hlines, List.cons_append]

/-! ## Lines of words -/

section HexLines

variable (a : Assembly)

theorem not_mem_hexLines : ∀ line ∈ a.hexLines, '\n' ∉ line := by
  intro line hline
  obtain ⟨word, -, rfl⟩ := List.mem_map.mp hline
  exact Numeral.not_mem_hex (by decide) 8 word

theorem isFilled_hexLines : ∀ line ∈ a.hexLines, isFilled line = true := by
  intro line hline
  obtain ⟨word, -, rfl⟩ := List.mem_map.mp hline
  simpa [isFilled] using Numeral.hex_ne_nil 8 word

/-- Hexadecimal digits do not tell of success. -/
theorem isStatusLine_hexLines : ∀ line ∈ a.hexLines, isStatusLine line = false := by
  intro line hline
  obtain ⟨word, -, rfl⟩ := List.mem_map.mp hline
  rw [Bool.eq_false_iff]
  intro hstatus
  have hspace : ' ' ∈ Numeral.hex 8 word :=
    (List.isPrefixOf_iff_prefix.mp hstatus).subset (by decide)
  exact Numeral.not_mem_hex (by decide) 8 word hspace

theorem hexWords?_hexLines : hexWords? a.hexLines = some a.words :=
  Numeral.mapM_readGroups (Numeral.readGroups_hex 8) a.words

/-- The lines of a file of hexadecimal digits show the words. -/
theorem filter_endLines :
    ((endLines a.hexLines).splitOn '\n').filter isFilled = a.hexLines := by
  rw [splitOn_endLines (not_mem_hexLines a), List.filter_append,
    List.filter_eq_self.mpr (isFilled_hexLines a), List.filter_cons_of_neg (by decide),
    List.filter_nil, List.append_nil]

/-- The lines of printed hexadecimal digits show the words. -/
theorem filter_hexText :
    (a.hexText.splitOn '\n').filter (fun line => isFilled line && !isStatusLine line) =
      a.hexLines := by
  by_cases hempty : a.hexLines = []
  · rw [Assembly.hexText, hempty]
    rfl
  · rw [Assembly.hexText, Text.splitOn_joinLines hempty (not_mem_hexLines a), List.filter_eq_self]
    intro line hline
    rw [isFilled_hexLines a line hline, isStatusLine_hexLines a line hline]
    rfl

end HexLines

/-! ## What is printed -/

section Printed

variable (i : Invocation) (a : Assembly)

/-- The status is empty, or its only line that is not empty tells of success. -/
theorem isStatusLine_of_mem_status :
    ∀ line ∈ (i.status a).splitOn '\n', line = [] ∨ isStatusLine line = true := by
  rw [Invocation.status]
  split
  · have hdigits : '\n' ∉ Numeral.ofNat a.words.length := by
      intro hmem
      exact absurd (Numeral.isDigit_of_mem_ofNat hmem) (by decide)
    have hline : '\n' ∉ "Assembly successful: ".toList ++
        (Numeral.ofNat a.words.length ++ " instructions".toList) := by
      simp only [List.mem_append, hdigits, false_or]
      decide
    have hstatus : "\nAssembly successful: ".toList ++ Numeral.ofNat a.words.length ++
        " instructions\n".toList = [] ++ '\n' :: (("Assembly successful: ".toList ++
          (Numeral.ofNat a.words.length ++ " instructions".toList)) ++ '\n' :: []) := by
      simp only [List.append_assoc]
      rfl
    rw [hstatus, List.splitOn_append_cons_self_of_not_mem List.not_mem_nil,
      List.splitOn_append_cons_self_of_not_mem hline, List.splitOn_nil]
    -- an empty line, the line that tells of success, and an empty line
    intro line hmem
    rcases List.mem_cons.mp hmem with rfl | hmem
    · exact .inl rfl
    · rcases List.mem_cons.mp hmem with rfl | hmem
      · exact .inr (List.isPrefixOf_iff_prefix.mpr (List.prefix_append _ _))
      · exact .inl (List.mem_singleton.mp hmem)
  · intro line hmem
    exact .inl (List.mem_singleton.mp hmem)

/-- Printed hexadecimal digits with the status after them show the words. -/
theorem exists_lines_hexText :
    ∃ lines, linesOf? (Utf8.encode (a.hexText ++ ['\n']) ++ Utf8.encode (i.status a)) = some lines ∧
      hexWords? (lines.filter fun line => isFilled line && !isStatusLine line) = some a.words := by
  have hencode : Utf8.encode (a.hexText ++ ['\n']) ++ Utf8.encode (i.status a) =
      Utf8.encode (a.hexText ++ '\n' :: i.status a) := by
    simp [Utf8.encode]
  have hstatus : ((i.status a).splitOn '\n').filter
      (fun line => isFilled line && !isStatusLine line) = [] := by
    rw [List.filter_eq_nil_iff]
    intro line hline
    rcases isStatusLine_of_mem_status i a line hline with rfl | htells
    · decide
    · simp [htells]
  refine ⟨_, by rw [hencode, linesOf?_encode], ?_⟩
  rw [List.splitOn_append_cons_self, List.filter_append, hstatus, List.append_nil, filter_hexText,
    hexWords?_hexLines]

/-- A printed listing with the status after it shows the words. -/
theorem exists_lines_listing {settings : Settings} (hlines : a.OnLines)
    (hlength : a.words.length = a.instructions.length) :
    ∃ lines, linesOf? (Utf8.encode (['\n'] ++ a.listing settings ++ ['\n']) ++
        Utf8.encode (i.status a)) = some lines ∧
      hexWords? ((lines.filter Assembly.isCodeLine).map Assembly.codeColumn) = some a.words := by
  have hencode : Utf8.encode (['\n'] ++ a.listing settings ++ ['\n']) ++ Utf8.encode (i.status a) =
      Utf8.encode ([] ++ '\n' :: (a.listing settings ++ '\n' :: i.status a)) := by
    simp [Utf8.encode]
  have hstatus : ((i.status a).splitOn '\n').filter Assembly.isCodeLine = [] := by
    rw [List.filter_eq_nil_iff]
    intro line hline
    rcases isStatusLine_of_mem_status i a line hline with rfl | htells
    · decide
    · obtain ⟨rest, rfl⟩ := List.isPrefixOf_iff_prefix.mp htells
      exact Bool.false_ne_true
  refine ⟨_, by rw [hencode, linesOf?_encode], ?_⟩
  rw [List.splitOn_append_cons_self, List.splitOn_append_cons_self, List.filter_append,
    List.filter_append, hstatus, List.append_nil, Assembly.filter_isCodeLine_listing hlines]
  exact Assembly.mapM_readGroups_codeColumn hlength settings

end Printed

/-! ## What is written -/

/-- The content of the output file. -/
def Invocation.fileContent (i : Invocation) (a : Assembly) : List UInt8 :=
  if i.format = some .hex then Utf8.encode (endLines a.hexLines) else a.bytes

/-- Saving puts the content of the output file at its path, if there is one, and leaves all other
nodes as they are. -/
theorem exists_save {i : Invocation} {files : FileTree}
    (houtput : ∀ path ∈ i.outputName?, files.Writable path) (a : Assembly) :
    ∃ saved, i.save files a = .ok saved ∧
      (∀ path ∈ i.outputName?, saved.read path = .ok (i.fileContent a)) ∧
      ∀ place, (∀ path ∈ i.outputName?, files.target path ≠ .ok place) →
        saved.node? place = files.node? place := by
  cases hname : i.outputName? with
  | none => exact ⟨files, by rw [Invocation.save, hname], by simp, by simp⟩
  | some path =>
      have hwritable := houtput path hname
      obtain ⟨saved, hwrite, hothers⟩ := hwritable.exists_write (i.fileContent a)
      have hread := hwritable.read_write hwrite
      refine ⟨saved, ?_, by simpa using hread, fun place hplace => hothers place (hplace path rfl)⟩
      -- digits are written at the path itself, and bytes at the normal path
      by_cases hhex : i.format = some .hex
      · rw [Invocation.fileContent, if_pos hhex] at hwrite
        rw [Invocation.save, hname, hhex]
        simp only [hwrite]
        rfl
      · rw [Invocation.fileContent, if_neg hhex, ← hwritable.write_normalize] at hwrite
        have hsave : i.save files a = (files.write (Path.normalize path) a.bytes).mapError
            (.ofPath (Path.normalize path)) := by
          rw [Invocation.save, hname]
          cases hformat : i.format with
          | none => rfl
          | some format =>
              cases format with
              | bin => rfl
              | hex => exact absurd hformat hhex
        rw [hsave, hwrite]
        rfl

/-! ## Runs -/

/-- A run that succeeds ends with 0 and leaves the files that were saved. -/
theorem ending_success (i : Invocation) (settings : Settings) (a : Assembly) (log : Text)
    (saved : FileTree) :
    (i.success settings a log saved).ending = .exit 0 ∧
      (i.success settings a log saved).files = saved := by
  rw [Invocation.success]
  split
  · exact ⟨rfl, rfl⟩
  · exact ⟨rfl, rfl⟩

/-- A run that succeeds shows the words. -/
theorem shows_success {i : Invocation} {settings : Settings} {a : Assembly} (hlines : a.OnLines)
    (hlength : a.words.length = a.instructions.length) (log : Text) {saved : FileTree}
    (hsaved : ∀ path ∈ i.outputName?, saved.read path = .ok (i.fileContent a)) :
    i.Shows a.words (i.success settings a log saved) := by
  have hfiles := (ending_success i settings a log saved).2
  have hstdout : i.printsBytes = false → (i.success settings a log saved).stdout =
      i.printed settings a ++ Utf8.encode (i.status a) := by
    intro hbytes
    rw [Invocation.success, hbytes]
    rfl
  constructor
  case binFile =>
    intro path hpath hformat
    rw [hfiles, hsaved path hpath, Invocation.fileContent, if_neg hformat]
    rfl
  case hexFile =>
    intro path hpath hformat
    refine ⟨_, _, ?_, linesOf?_encode (endLines a.hexLines), ?_⟩
    · rw [hfiles, hsaved path hpath, Invocation.fileContent, if_pos hformat]
    · rw [filter_endLines, hexWords?_hexLines]
  case binOutput =>
    intro hname hlisting hformat
    have hbytes : i.printsBytes = true := by
      rw [Invocation.printsBytes, hname, hlisting, hformat]
      rfl
    rw [Invocation.success, hbytes, if_pos rfl, Invocation.printed, hlisting, hname, hbytes]
    rfl
  case hexOutput =>
    intro hname hlisting hformat
    have hbytes : i.printsBytes = false := by
      rw [Invocation.printsBytes, beq_eq_false_iff_ne.mpr hformat, Bool.and_false]
    have hprinted : i.printed settings a = Utf8.encode (a.hexText ++ ['\n']) := by
      rw [Invocation.printed, hlisting, hname, hbytes]
      rfl
    rw [hstdout hbytes, hprinted]
    exact exists_lines_hexText i a
  case listing =>
    intro hlisting
    have hbytes : i.printsBytes = false := by
      rw [Invocation.printsBytes, hlisting, Bool.not_true, Bool.and_false, Bool.false_and]
    have hprinted : i.printed settings a =
        Utf8.encode (['\n'] ++ a.listing settings ++ ['\n']) := by
      rw [Invocation.printed, hlisting]
      rfl
    rw [hstdout hbytes, hprinted]
    exact exists_lines_listing i a hlines hlength

/-- What is logged is lines, and there are none in a run that is not verbose. -/
theorem exists_logged (i : Invocation) (first rest : List Text) :
    ∃ log, i.logged first ++ i.logged rest = endLines log ∧ (i.verbose = false → log = []) := by
  rw [Invocation.logged, Invocation.logged]
  cases i.verbose with
  | false => exact ⟨[], rfl, fun _ => rfl⟩
  | true =>
      refine ⟨first ++ rest, ?_, by simp⟩
      simp [endLines]

/-- Arguments that name a program and settings lead to the program being assembled. -/
theorem run_eq {host : Host} {files : FileTree} {arguments : List Text} {i : Invocation}
    {content : List UInt8} {settings : Settings} (hread : Invocation.read arguments = .ok i)
    (hinput : files.read i.input = .ok content) (hsettings : i.settings host files = .ok settings) :
    run host files arguments = i.assemble files settings
      (i.logged ["Assembling: ".toList ++ Path.normalize i.input]) content := by
  have hnormal := FileTree.read_normalize hinput
  obtain ⟨place, hplace⟩ := FileTree.exists_locate hnormal
  rw [run, hread]
  simp only [Invocation.execute, hplace, hsettings, Invocation.assembleInput, hnormal]

/-- **A run fails as a whole or shows the program.**  Take arguments that ask for a program which is
there, with settings that are valid and an output that can be written, if there is one.  If the
program is refused, the run ends with 1, prints nothing but a line about the error, after the log,
and leaves the files as they were.  If the program is assembled, the run ends with 0, every form in
which it shows the program has the same words, and no file but the output is changed.  The report of
a label that is defined again shows its offset, so an offset at the end of the program has to be
short enough to be written. -/
theorem run_outcome {host : Host} {files : FileTree} {arguments : List Text} {i : Invocation}
    {content : List UInt8} {settings : Settings} (hread : Invocation.read arguments = .ok i)
    (hinput : files.read i.input = .ok content) (hsettings : i.settings host files = .ok settings)
    (houtput : ∀ path ∈ i.outputName?, files.Writable path) :
    (∀ failure, assemble settings (.bytes content) = .error failure →
      Numeral.tooLong (4 * content.length) = false →
      (run host files arguments).ending = .exit 1 ∧ (run host files arguments).stdout = [] ∧
      (run host files arguments).files = files ∧
      ∃ log d, failure = .diagnostic d ∧ (i.verbose = false → log = []) ∧
        (run host files arguments).stderr =
          endLines log ++ "Error: ".toList ++ d.message ++ ['\n']) ∧
    ∀ a, assemble settings (.bytes content) = .ok a →
      (run host files arguments).ending = .exit 0 ∧ i.Shows a.words (run host files arguments) ∧
      ∀ place, (∀ path ∈ i.outputName?, files.target path ≠ .ok place) →
        (run host files arguments).files.node? place = files.node? place := by
  rw [run_eq hread hinput hsettings]
  constructor
  · intro failure hfailure hsize
    obtain ⟨d, rfl⟩ := exists_diagnostic hfailure hsize
    obtain ⟨log, hlog, hquiet⟩ := exists_logged i
      ["Assembling: ".toList ++ Path.normalize i.input] (Log.assemble settings (.bytes content))
    rw [Invocation.assemble, hfailure, hlog]
    exact ⟨rfl, rfl, rfl, log, d, rfl, hquiet, rfl⟩
  · intro a ha
    obtain ⟨text, -, htext⟩ := assemble_eq_ok ha
    obtain ⟨-, -, -, hlength, -⟩ := assembleText_eq_ok htext
    obtain ⟨saved, hsave, hsaved, hothers⟩ := exists_save houtput a
    rw [Invocation.assemble, ha]
    simp only [hsave]
    obtain ⟨hending, hfiles⟩ := ending_success i settings a
      (i.logged ["Assembling: ".toList ++ Path.normalize i.input] ++
        i.logged (Log.assemble settings (.bytes content)) ++ i.logged i.savedLines) saved
    refine ⟨hending, shows_success (onLines_of_assembleText htext) hlength _ hsaved, ?_⟩
    rw [hfiles]
    exact hothers

/-- The source of a loop beside nothing else. -/
def loopFiles : FileTree :=
  { nodes := [(["in.S".toList],
      .file (Utf8.encode "loop: addi x1, x1, 1\nbne x1, x2, loop\nend: ecall".toList))] }

/-- A program with labels is written to a file of hexadecimal digits and listed. -/
theorem run_outcome_listed :
    let host : Host := ⟨fun _ => .ok .null, ⟨0, 0, 0, 0⟩⟩
    let arguments := ["in.S", "--relative-branches", "-l", "-f", "hex", "-o", "out.hex"].map
      String.toList
    let words := [0x00108093, 0xFE209EE3, 0x00000073]
    (run host loopFiles arguments).ending = .exit 0 ∧
      (∃ content lines, (run host loopFiles arguments).files.read "out.hex".toList = .ok content ∧
        linesOf? content = some lines ∧ hexWords? (lines.filter isFilled) = some words) ∧
      ∃ lines, linesOf? (run host loopFiles arguments).stdout = some lines ∧
        hexWords? ((lines.filter Assembly.isCodeLine).map Assembly.codeColumn) = some words := by
  intro host arguments words
  have hwritable : loopFiles.Writable "out.hex".toList :=
    ⟨by decide +kernel, by decide +kernel, ["out.hex".toList], by decide +kernel,
      by decide +kernel⟩
  obtain ⟨hending, hshows, -⟩ := (@run_outcome host loopFiles arguments
    { input := "in.S".toList, output := some "out.hex".toList, format := some .hex,
      relativeBranches := true, listing := true } _ { branches := .relative }
    (by decide +kernel) rfl (by decide +kernel)
    (by rintro path ⟨⟩; exact hwritable)).2
    { labels := ⟨[("loop".toList, 0), ("end".toList, 8)]⟩
      instructions := [⟨1, "addi x1, x1, 1".toList⟩, ⟨2, "bne x1, x2, loop".toList⟩,
        ⟨3, "ecall".toList⟩]
      words } (by decide +kernel)
  exact ⟨hending, hshows.hexFile _ rfl rfl, hshows.listing rfl⟩

end RiscAsm.CommandLine

import RiscAsm.Proofs.CommandLine
import RiscAsm.Proofs.Settings.Document

/-!
# Configuration files

A configuration file that is there describes valid settings, or is refused with a line about the
error (`run_configured`).  This is so for any loader that reports the texts it cannot load.  There
are files that the command neither accepts nor refuses (`Unreported`): those that are not text
(`run_undecodable`), and those on which a value would have to be shown that cannot be, because it is
nested too deep or holds a number that is too long.
-/

namespace RiscAsm.CommandLine

variable {host : Host}

/-! ## Contents of files -/

/-- The content of a file describes settings. -/
def Describes (host : Host) (content : List UInt8) (s : Settings) : Prop :=
  ∃ text, content = Utf8.encode text ∧
    Settings.Describes host.room host.load (Source.unifyBreaks text) s

/-- The content of a file has a fault that is not reported: it is not text, or its text is a mapping
with a value that would have to be shown and cannot be. -/
def Unreported (host : Host) (content : List UInt8) : Prop :=
  (∀ text, content ≠ Utf8.encode text) ∨
    ∃ text entries, content = Utf8.encode text ∧
      host.load (Source.unifyBreaks text) = .ok (.map entries) ∧ Settings.Hides host.room entries

theorem encode_eq_encode {text other : Text} :
    Utf8.encode text = Utf8.encode other ↔ text = other := by
  constructor
  · intro h
    have hother := Utf8.decode_eq_ok_iff.mpr h
    rw [Utf8.decode_eq_ok_iff.mpr rfl] at hother
    exact Except.ok.inj hother
  · exact congrArg Utf8.encode

theorem describes_encode {text : Text} {s : Settings} :
    Describes host (Utf8.encode text) s ↔
      Settings.ofText host.room host.load (Source.unifyBreaks text) = .ok s := by
  simp [Describes, encode_eq_encode, Settings.ofText_eq_ok]

theorem unreported_encode (hload : host.load.Reports) {text : Text} :
    Unreported host (Utf8.encode text) ↔
      ∃ e, Settings.ofText host.room host.load (Source.unifyBreaks text) = .error (.escape e) := by
  simp [Unreported, encode_eq_encode, Settings.ofText_eq_escape_iff hload]

/-- Settings that a file describes are valid. -/
theorem Describes.valid {content : List UInt8} {s : Settings} (h : Describes host content s) :
    s.Valid := by
  obtain ⟨text, -, hs⟩ := h
  exact hs.valid

/-! ## Reading a file -/

/-- Nothing else decodes into text than the encoding of it. -/
theorem ne_encode_of_decode_eq_error {content : List UInt8} {invalid : Utf8.Invalid}
    (h : Utf8.decode content = .error invalid) (text : Text) : content ≠ Utf8.encode text := by
  intro htext
  rw [Utf8.decode_eq_ok_iff.mpr htext] at h
  cases h

/-- The settings that are read from a file that is there are those it describes. -/
theorem readSettings_eq_ok {files : FileTree} {path : Text} {content : List UInt8}
    (hcontent : files.read (Path.normalize path) = .ok content) (s : Settings) :
    readSettings host files path = .ok s ↔ Describes host content s := by
  rw [readSettings, hcontent]
  dsimp only
  cases hdecode : Utf8.decode content with
  | error invalid =>
      refine ⟨nofun, ?_⟩
      rintro ⟨text, htext, -⟩
      exact absurd htext (ne_encode_of_decode_eq_error hdecode text)
  | ok text =>
      obtain rfl := Utf8.decode_eq_ok_iff.mp hdecode
      dsimp only
      rw [describes_encode, Result.mapError_eq_ok]

/-- What a file that is there leads to. -/
theorem readSettings_cases (hload : host.load.Reports) {files : FileTree} {path : Text}
    {content : List UInt8} (hcontent : files.read (Path.normalize path) = .ok content) :
    (¬ Unreported host content ∧ ∃ s, readSettings host files path = .ok s) ∨
    (¬ Unreported host content ∧
      ∃ message, readSettings host files path = .error (.reported message)) ∨
    Unreported host content ∧ ∃ cause, readSettings host files path = .error (.crashed cause) := by
  rw [readSettings, hcontent]
  dsimp only
  cases hdecode : Utf8.decode content with
  | error invalid =>
      exact .inr (.inr ⟨.inl (ne_encode_of_decode_eq_error hdecode), _, rfl⟩)
  | ok text =>
      obtain rfl := Utf8.decode_eq_ok_iff.mp hdecode
      dsimp only
      rw [unreported_encode hload]
      cases Settings.ofText host.room host.load (Source.unifyBreaks text) with
      | ok s => exact .inl ⟨by simp, s, rfl⟩
      | error e =>
          cases e with
          | fault fault => exact .inr (.inl ⟨by simp, fault.message, rfl⟩)
          | escape escape => exact .inr (.inr ⟨⟨escape, rfl⟩, .escape escape, rfl⟩)

/-! ## Options -/

/-- The options change fields that settings have, to texts. -/
theorem mem_changes {i : Invocation} {name : Text} {v : Value} (h : (name, v) ∈ i.changes) :
    name ∈ Settings.fieldNames ∧ ∃ text, v = .text text := by
  unfold Invocation.changes at h
  rcases List.mem_append.mp h with hprofile | hbranches
  · split at hprofile
    · obtain ⟨rfl, rfl⟩ := Prod.mk.inj (List.mem_singleton.mp hprofile)
      exact ⟨by decide, _, rfl⟩
    · cases hprofile
  · split at hbranches
    · obtain ⟨rfl, rfl⟩ := Prod.mk.inj (List.mem_singleton.mp hbranches)
      exact ⟨by decide, _, rfl⟩
    · cases hbranches

/-- Options that do not fit are reported. -/
theorem exists_fault_of_override {room : Room} {i : Invocation} {s : Settings} {e : SettingsError}
    (h : s.override room i.changes = .error e) : ∃ fault, e = .fault fault := by
  rw [Settings.override_eq_update] at h
  have hmem : ∀ name v, (name, v) ∈ i.changes.filter Settings.isChange →
      name ∈ Settings.fieldNames ∧ ∃ text, v = .text text :=
    fun _ _ hchange => mem_changes (List.mem_filter.mp hchange).1
  cases e with
  | fault fault => exact ⟨fault, rfl⟩
  | escape escape =>
      have hhidden := (Settings.update_eq_escape_iff fun change hchange =>
        (hmem change.1 change.2 hchange).1).mp ⟨escape, h⟩
      exact absurd hhidden (Settings.not_hidesField_of_texts fun change hchange =>
        (hmem change.1 change.2 hchange).2)

/-! ## Runs -/

/-- A run that is refused: it prints a line about the error, ends with 1 and leaves the files as
they were. -/
def refused (files : FileTree) (message : Text) : Outcome :=
  { ending := .exit 1, stderr := "Error: ".toList ++ message ++ ['\n'], files }

/-- A program that is there and not too long is assembled or refused. -/
theorem ending_assemble {i : Invocation} {files : FileTree} {settings : Settings} {opening : Text}
    {content : List UInt8} (houtput : ∀ path ∈ i.outputName?, files.Writable path)
    (hsize : Numeral.tooLong (4 * content.length) = false) :
    (i.assemble files settings opening content).ending = .exit 0 ∨
      (i.assemble files settings opening content).ending = .exit 1 := by
  unfold Invocation.assemble
  cases hassemble : assemble settings (.bytes content) with
  | error failure =>
      obtain ⟨d, rfl⟩ := exists_diagnostic hassemble hsize
      exact .inr rfl
  | ok a =>
      obtain ⟨saved, hsave, -⟩ := exists_save houtput a
      simp only [hsave]
      exact .inl (ending_success i settings a _ saved).1

/-- What arguments lead to that name a program and a configuration file. -/
theorem run_eq_of_config {files : FileTree} {arguments : List Text} {i : Invocation}
    {path : Text} {source : List UInt8} (hread : Invocation.read arguments = .ok i)
    (hconfig : given? i.config = some path) (hinput : files.read i.input = .ok source) :
    run host files arguments =
      match readSettings host files path with
      | .error trouble => trouble.outcome files []
      | .ok s =>
        match s.override host.room i.changes with
        | .error e => (Trouble.ofSettings e).outcome files []
        | .ok next => i.assembleInput files next := by
  obtain ⟨place, hplace⟩ := FileTree.exists_locate (FileTree.read_normalize hinput)
  rw [run, hread]
  simp only [Invocation.execute, hplace, Invocation.settings, hconfig]
  cases readSettings host files path with
  | error trouble => rfl
  | ok s =>
      simp only [bind, Except.bind]
      cases s.override host.room i.changes with
      | error e => rfl
      | ok next => rfl

/-- What a run does with the settings of a configuration file: the options do not fit and are
refused, or the program is assembled under the settings that they lead to.  If the output can be
written, the run then ends with 0 or 1. -/
def Proceeds (host : Host) (files : FileTree) (arguments : List Text) (i : Invocation)
    (source : List UInt8) (s : Settings) : Prop :=
  (∃ fault, s.override host.room i.changes = .error (.fault fault) ∧
    run host files arguments = refused files fault.message) ∨
  ∃ next, s.override host.room i.changes = .ok next ∧ next.Valid ∧
    run host files arguments = i.assembleInput files next ∧
    ((∀ output ∈ i.outputName?, files.Writable output) →
      Numeral.tooLong (4 * source.length) = false →
      (run host files arguments).ending = .exit 0 ∨ (run host files arguments).ending = .exit 1)

/-- A run goes on with valid settings. -/
theorem proceeds_of_readSettings {files : FileTree} {arguments : List Text} {i : Invocation}
    {path : Text} {source : List UInt8} {s : Settings}
    (hread : Invocation.read arguments = .ok i) (hconfig : given? i.config = some path)
    (hinput : files.read i.input = .ok source) (hfile : readSettings host files path = .ok s)
    (hvalid : s.Valid) : Proceeds host files arguments i source s := by
  have hrun := @run_eq_of_config host _ _ _ _ _ hread hconfig hinput
  rw [hfile] at hrun
  cases hnext : s.override host.room i.changes with
  | error e =>
      obtain ⟨fault, rfl⟩ := exists_fault_of_override hnext
      refine .inl ⟨fault, hnext, ?_⟩
      simp only [hnext] at hrun
      exact hrun
  | ok next =>
      simp only [hnext] at hrun
      have hmade : s.update host.room (i.changes.filter Settings.isChange) = .ok next := by
        rw [← Settings.override_eq_update, hnext]
      refine .inr ⟨next, hnext, Settings.valid_update hvalid hmade, hrun, ?_⟩
      intro houtput hsize
      rw [hrun]
      simp only [Invocation.assembleInput, FileTree.read_normalize hinput]
      exact ending_assemble houtput hsize

/-- **A configuration file is accepted or refused, unless it has a fault that is not reported.**
Take a loader that reports the texts it cannot load, and arguments that name a program and a
configuration file which are there.  The settings that are read are those that the file describes.
If the file has no fault that goes unreported, it describes valid settings, with which the run goes
on, or the run prints a line about the error and ends with 1.  If it has one, the run does not end
in this way. -/
theorem run_configured (hload : host.load.Reports) {files : FileTree} {arguments : List Text}
    {i : Invocation} {path : Text} {source content : List UInt8}
    (hread : Invocation.read arguments = .ok i) (hconfig : given? i.config = some path)
    (hinput : files.read i.input = .ok source)
    (hcontent : files.read (Path.normalize path) = .ok content) :
    (∀ s, readSettings host files path = .ok s ↔ Describes host content s) ∧
    (¬ Unreported host content →
      (∃ s, Describes host content s ∧ s.Valid ∧ Proceeds host files arguments i source s) ∨
      ∃ message, readSettings host files path = .error (.reported message) ∧
        run host files arguments = refused files message) ∧
    (Unreported host content →
      ∃ cause, readSettings host files path = .error (.crashed cause) ∧
        run host files arguments = { ending := .crash cause, files }) := by
  have hrun := @run_eq_of_config host _ _ _ _ _ hread hconfig hinput
  refine ⟨readSettings_eq_ok hcontent, fun hreported => ?_, fun hunreported => ?_⟩
  · rcases readSettings_cases hload hcontent with ⟨-, s, hfile⟩ | ⟨-, message, hfile⟩ | ⟨h, -⟩
    · have hs : Describes host content s := (readSettings_eq_ok hcontent s).mp hfile
      have hproceeds := proceeds_of_readSettings hread hconfig hinput hfile hs.valid
      exact .inl ⟨s, hs, hs.valid, hproceeds⟩
    · refine .inr ⟨message, hfile, ?_⟩
      rw [hrun, hfile]
      rfl
    · exact absurd h hreported
  · rcases readSettings_cases hload hcontent with ⟨h, -⟩ | ⟨h, -⟩ | ⟨-, cause, hfile⟩
    · exact absurd hunreported h
    · exact absurd hunreported h
    · refine ⟨cause, hfile, ?_⟩
      rw [hrun, hfile]
      rfl

/-- A program of one instruction beside a configuration file. -/
def besideConfig (content : List UInt8) : FileTree :=
  { nodes := [(["in.S".toList], .file (Utf8.encode "nop".toList)),
      (["c.yaml".toList], .file content)] }

/-- A loader of one line, which reports all other texts. -/
def loadLine : Loader := fun text =>
  if text = "isb: RV64I".toList then .ok (.map [(.text "isb".toList, .text "RV64I".toList)])
  else .error (.malformed "another line".toList)

theorem reports_loadLine : loadLine.Reports := by
  intro text escape h
  unfold loadLine at h
  split at h
  · cases h
  · cases h

/-- A field that settings do not have is refused, and nothing is assembled. -/
theorem run_configured_unknown :
    let host : Host := ⟨loadLine, ⟨0, 0, 0, 0⟩⟩
    let files := besideConfig (Utf8.encode "isb: RV64I".toList)
    run host files ["in.S".toList, "-c".toList, "c.yaml".toList] =
      refused files "Unknown configuration field(s): isb".toList := by
  intro host files
  have htext : Settings.ofText host.room host.load (Source.unifyBreaks "isb: RV64I".toList) =
      .error (.fault (.unknownFields ["isb".toList])) := by decide +kernel
  have hfile : readSettings host files "c.yaml".toList =
      .error (.reported "Unknown configuration field(s): isb".toList) := by decide +kernel
  have hreported : ¬ Unreported host (Utf8.encode "isb: RV64I".toList) := by
    rw [unreported_encode reports_loadLine, htext]
    rintro ⟨e, he⟩
    cases he
  obtain ⟨hsettings, hrun, -⟩ := @run_configured host reports_loadLine files
    ["in.S".toList, "-c".toList, "c.yaml".toList]
    { input := "in.S".toList, config := some "c.yaml".toList } "c.yaml".toList
    (Utf8.encode "nop".toList) (Utf8.encode "isb: RV64I".toList)
    (by decide +kernel) rfl (by decide +kernel) (by decide +kernel)
  rcases hrun hreported with ⟨s, hs, -⟩ | ⟨message, hmessage, hrefused⟩
  · have hok := (hsettings s).mpr hs
    rw [hfile] at hok
    cases hok
  · rw [hfile] at hmessage
    cases hmessage
    exact hrefused

/-- A file that is not text is neither accepted nor refused, whatever the loader is. -/
theorem run_undecodable :
    let files := besideConfig [0x69, 0xFF]
    files.read (Path.normalize "c.yaml".toList) = .ok [0x69, 0xFF] ∧
      ∀ host, readSettings host files "c.yaml".toList =
          .error (.crashed (.undecodable ⟨.start, 1⟩)) ∧
        run host files ["in.S".toList, "-c".toList, "c.yaml".toList] =
          { ending := .crash (.undecodable ⟨.start, 1⟩), files } := by
  intro files
  have hcontent : files.read (Path.normalize "c.yaml".toList) = .ok [0x69, 0xFF] := by
    decide +kernel
  have hdecode : Utf8.decode [0x69, 0xFF] = .error ⟨.start, 1⟩ := by decide +kernel
  refine ⟨hcontent, fun host => ?_⟩
  have hfile : readSettings host files "c.yaml".toList =
      .error (.crashed (.undecodable ⟨.start, 1⟩)) := by
    rw [readSettings, hcontent]
    simp only [hdecode]
  refine ⟨hfile, ?_⟩
  rw [@run_eq_of_config host files ["in.S".toList, "-c".toList, "c.yaml".toList]
    { input := "in.S".toList, config := some "c.yaml".toList } "c.yaml".toList
    (Utf8.encode "nop".toList) (by decide +kernel) rfl (by decide +kernel), hfile]
  rfl

end RiscAsm.CommandLine

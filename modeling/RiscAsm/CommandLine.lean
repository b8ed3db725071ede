import RiscAsm.CommandLine.Options
import RiscAsm.FileTree
import RiscAsm.Listing
import RiscAsm.Settings.Document

/-!
# The command

`CommandLine.run` says what the command does with a list of arguments and the files it finds: how it
ends, what it prints, and the files it leaves.  A run that fails leaves the files as they were.
Configuration files are read by a loader that comes from outside, as part of a `Host`.
-/

namespace RiscAsm

namespace CommandLine

/-- The name of the command. -/
def programName : Text := "rvjump-asm".toList

/-- The version of the command. -/
def programVersion : Text := "1.0.0".toList

/-- What is printed before a refusal. -/
def usage : Text :=
  ("usage: rvjump-asm [-h] [-o OUTPUT] [-f \x7bbin,hex\x7d] [-c CONFIG] [--isa ISA]\n" ++
   "                  [--relative-branches] [-v] [-l] [--version]\n" ++
   "                  input\n").toList

/-- What is printed by the option for help. -/
def help : Text :=
  usage ++
  ("\nRVJump RISC-V Assembler\n\n" ++
   "positional arguments:\n" ++
   "  input                 Input assembly file (.S)\n\n" ++
   "options:\n" ++
   "  -h, --help            show this help message and exit\n" ++
   "  -o OUTPUT, --output OUTPUT\n" ++
   "                        Output file. If not specified, prints hex words to\n" ++
   "                        stdout.\n" ++
   "  -f \x7bbin,hex\x7d, --format \x7bbin,hex\x7d\n" ++
   "                        Output format (default: bin for files, hex for stdout;\n" ++
   "                        bin to stdout writes raw bytes)\n" ++
   "  -c CONFIG, --config CONFIG\n" ++
   "                        YAML assembler configuration file\n" ++
   "  --isa ISA             ISA profile: AUTO, RV32I or RV64I (overrides the config\n" ++
   "                        file)\n" ++
   "  --relative-branches   Encode branch labels as PC-relative offsets\n" ++
   "  -v, --verbose         Enable verbose output\n" ++
   "  -l, --listing         Print assembly listing\n" ++
   "  --version             show program's version number and exit\n\n" ++
   "Examples:\n" ++
   "  rvjump-asm levels/jump.S -o levels/jump.bin\n" ++
   "  rvjump-asm levels/jump.S -o levels/jump.hex -f hex -v\n" ++
   "  rvjump-asm levels/jump.S --listing\n" ++
   "        \n").toList

/-! ## Outcomes -/

/-- A failure that the command does not report as an error of its user. -/
inductive Crash where
  | failure (failure : Failure)
  /-- A configuration file is not text. -/
  | undecodable (invalid : Utf8.Invalid)
  | escape (escape : Escape)
  | path (fault : PathFault)
  deriving DecidableEq, Repr

/-- How a run ends. -/
inductive Ending where
  | exit (code : Nat)
  | crash (cause : Crash)
  deriving DecidableEq, Repr

/-- What a run does: how it ends, what it prints, and the files it leaves. -/
structure Outcome where
  ending : Ending
  stdout : List UInt8 := []
  stderr : Text := []
  files : FileTree
  deriving DecidableEq, Repr

/-- Why a run fails. -/
inductive Trouble where
  | reported (message : Text)
  | crashed (cause : Crash)
  deriving DecidableEq, Repr

namespace Trouble

/-- The trouble with a path that is reported with its name. -/
def ofPath (path : Text) : PathFault → Trouble
  | .nullCharacter => crashed (.escape (.value PathFault.nullCharacter.reason))
  | fault =>
    reported ("[Errno ".toList ++ Numeral.ofNat fault.number ++ "] ".toList ++ fault.reason ++
      ": ".toList ++ Quoted.quote path)

/-- The trouble with a program. -/
def ofFailure : Failure → Trouble
  | .diagnostic d => reported d.message
  | failure => crashed (.failure failure)

/-- The trouble with the path of a configuration file. -/
def ofConfigPath (path : Text) : PathFault → Trouble
  | .nullCharacter => crashed (.escape (.value PathFault.nullCharacter.reason))
  | fault =>
    reported ("Cannot read configuration file ".toList ++ path ++ ": ".toList ++ fault.reason)

/-- The trouble with a configuration file. -/
def ofDocument : DocumentError → Trouble
  | .fault fault => reported fault.message
  | .escape escape => crashed (.escape escape)

/-- The trouble with options. -/
def ofSettings : SettingsError → Trouble
  | .fault fault => reported fault.message
  | .escape escape => crashed (.escape escape)

/-- The outcome of a run that fails, with what was printed on the way. -/
def outcome (files : FileTree) (logged : Text) : Trouble → Outcome
  | reported message =>
    { ending := .exit 1, stderr := logged ++ "Error: ".toList ++ message ++ ['\n'], files }
  | crashed cause => { ending := .crash cause, stderr := logged, files }

end Trouble

/-! ## Settings -/

/-- What a run depends on beside its arguments and files: how documents are loaded, and the room for
values that are shown. -/
structure Host where
  load : Loader
  room : Room

/-- The settings in a configuration file. -/
def readSettings (host : Host) (files : FileTree) (path : Text) : Except Trouble Settings :=
  match files.read (Path.normalize path) with
  | .error fault => .error (.ofConfigPath path fault)
  | .ok content =>
    match Utf8.decode content with
    | .error invalid => .error (.crashed (.undecodable invalid))
    | .ok text =>
      (Settings.ofText host.room host.load (Source.unifyBreaks text)).mapError .ofDocument

/-- The settings that options change. -/
def Invocation.changes (i : Invocation) : Settings.Changes :=
  (match i.isa with
    | some name => [(Settings.profileField, .text name)]
    | none => []) ++
  if i.relativeBranches then [(Settings.branchesField, .text BranchMode.relative.name)] else []

/-- A text that is given and not empty. -/
def given? : Option Text → Option Text
  | some (c :: rest) => some (c :: rest)
  | _ => none

/-- The settings of a run: those of the configuration file, changed by options. -/
def Invocation.settings (i : Invocation) (host : Host) (files : FileTree) :
    Except Trouble Settings := do
  let base ← match given? i.config with
    | some path => readSettings host files path
    | none => .ok {}
  (base.override host.room i.changes).mapError .ofSettings

/-! ## Output -/

/-- Ends each line with a line feed. -/
def endLines (lines : List Text) : Text := lines.flatMap (· ++ ['\n'])

/-- Lines that are printed only in verbose runs. -/
def Invocation.logged (i : Invocation) (lines : List Text) : Text :=
  if i.verbose then endLines lines else []

/-- The name of the output, if one is given. -/
def Invocation.outputName? (i : Invocation) : Option Text := given? i.output

/-- The files after an assembled program was written. -/
def Invocation.save (i : Invocation) (files : FileTree) (assembly : Assembly) :
    Except Trouble FileTree :=
  match i.outputName?, i.format with
  | none, _ => .ok files
  | some path, some .hex =>
    (files.write path (Utf8.encode (endLines assembly.hexLines))).mapError (.ofPath path)
  | some path, _ =>
    let name := Path.normalize path
    (files.write name assembly.bytes).mapError (.ofPath name)

/-- Whether the bytes of the program are what is printed. -/
def Invocation.printsBytes (i : Invocation) : Bool :=
  i.outputName?.isNone && !i.listing && i.format == some .bin

/-- What is printed of an assembled program. -/
def Invocation.printed (i : Invocation) (settings : Settings) (assembly : Assembly) : List UInt8 :=
  if i.listing then Utf8.encode (['\n'] ++ assembly.listing settings ++ ['\n'])
  else if i.outputName?.isSome then []
  else if i.printsBytes then assembly.bytes
  else Utf8.encode (assembly.hexText ++ ['\n'])

/-- The line that tells of success. -/
def Invocation.status (i : Invocation) (assembly : Assembly) : Text :=
  if i.verbose || i.outputName?.isSome then
    "\nAssembly successful: ".toList ++ Numeral.ofNat assembly.words.length ++
      " instructions\n".toList
  else []

/-- The outcome of a run that succeeds.  The line that tells of it stays out of printed bytes. -/
def Invocation.success (i : Invocation) (settings : Settings) (assembly : Assembly) (log : Text)
    (files : FileTree) : Outcome :=
  if i.printsBytes then
    { ending := .exit 0, stdout := i.printed settings assembly
      stderr := log ++ i.status assembly, files }
  else
    { ending := .exit 0
      stdout := i.printed settings assembly ++ Utf8.encode (i.status assembly)
      stderr := log, files }

/-! ## Runs -/

/-- What is logged when the output was written. -/
def Invocation.savedLines (i : Invocation) : List Text :=
  match i.outputName? with
  | some path => ["Output written to: ".toList ++ path]
  | none => []

/-- Assembles the content of the input. -/
def Invocation.assemble (i : Invocation) (files : FileTree) (settings : Settings) (opening : Text)
    (content : List UInt8) : Outcome :=
  let log := opening ++ i.logged (Log.assemble settings (.bytes content))
  match RiscAsm.assemble settings (.bytes content) with
  | .error failure => (Trouble.ofFailure failure).outcome files log
  | .ok assembly =>
    match i.save files assembly with
    | .error trouble => trouble.outcome files log
    | .ok saved => i.success settings assembly (log ++ i.logged i.savedLines) saved

/-- Assembles the input under settings. -/
def Invocation.assembleInput (i : Invocation) (files : FileTree) (settings : Settings) : Outcome :=
  let name := Path.normalize i.input
  let opening := i.logged ["Assembling: ".toList ++ name]
  match files.read name with
  | .error fault => (Trouble.ofPath name fault).outcome files opening
  | .ok content => i.assemble files settings opening content

/-- Carries an invocation out. -/
def Invocation.execute (i : Invocation) (host : Host) (files : FileTree) : Outcome :=
  match files.locate (Path.normalize i.input) with
  | .error .nameTooLong => { ending := .crash (.path .nameTooLong), files }
  | .error _ =>
    (Trouble.reported ("Input file not found: ".toList ++ i.input)).outcome files []
  | .ok _ =>
    match i.settings host files with
    | .error trouble => trouble.outcome files []
    | .ok settings => i.assembleInput files settings

/-- The outcome of arguments that lead to no invocation. -/
def Stop.outcome (files : FileTree) : Stop → Outcome
  | .help => { ending := .exit 0, stdout := Utf8.encode CommandLine.help, files }
  | .version =>
    { ending := .exit 0
      stdout := Utf8.encode (programName ++ [' '] ++ programVersion ++ ['\n']), files }
  | .refused error =>
    { ending := .exit 2
      stderr := usage ++ programName ++ ": error: ".toList ++ error.message ++ ['\n'], files }

/-- What the command does with a list of arguments and the files it finds. -/
def run (host : Host) (files : FileTree) (arguments : List Text) : Outcome :=
  match Invocation.read arguments with
  | .error stop => stop.outcome files
  | .ok invocation => invocation.execute host files

end CommandLine

end RiscAsm

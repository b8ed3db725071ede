import RiscAsm.Text.Digit
import RiscAsm.Text.Quoted

/-!
# Command line options

`Invocation.read` takes the arguments of a command to what they ask for.  It goes in two steps.
First each argument is sorted on its own: it is plain, it names an option (a long option may be cut
short as long as one option fits, and a value may be attached), or it looks like an option but is
none.  Then the arguments are read from left to right, an option that needs a value taking the
plain argument after it.
-/

namespace RiscAsm

namespace CommandLine

/-! ## The options -/

/-- An option of the command. -/
inductive Flag where
  | help
  | output
  | format
  | config
  | isa
  | relativeBranches
  | verbose
  | listing
  | version
  deriving DecidableEq, Repr

namespace Flag

/-- The options in the order in which they are listed. -/
def all : List Flag :=
  [help, output, format, config, isa, relativeBranches, verbose, listing, version]

/-- The spellings of an option. -/
def spellings : Flag → List Text
  | help => ["-h".toList, "--help".toList]
  | output => ["-o".toList, "--output".toList]
  | format => ["-f".toList, "--format".toList]
  | config => ["-c".toList, "--config".toList]
  | isa => ["--isa".toList]
  | relativeBranches => ["--relative-branches".toList]
  | verbose => ["-v".toList, "--verbose".toList]
  | listing => ["-l".toList, "--listing".toList]
  | version => ["--version".toList]

/-- Whether an option needs a value. -/
def takesValue : Flag → Bool
  | output | format | config | isa => true
  | help | relativeBranches | verbose | listing | version => false

/-- All spellings with their options, in order. -/
def table : List (Text × Flag) := all.flatMap fun flag => flag.spellings.map (·, flag)

/-- The option with a spelling. -/
def ofSpelling? (s : Text) : Option Flag := table.lookup s

/-- An option as messages show it. -/
def shown (flag : Flag) : Text := Text.join ['/'] flag.spellings

end Flag

/-! ## What can be wrong -/

/-- Why a list of arguments is refused. -/
inductive UsageError where
  | ambiguous (argument : Text) (candidates : List Text)
  | ignoredValue (flag : Flag) (value : Text)
  | missingValue (flag : Flag)
  | unknownFormat (value : Text)
  | missingInput
  | unrecognized (arguments : List Text)
  deriving DecidableEq, Repr

/-- The wording of a refusal. -/
def UsageError.message : UsageError → Text
  | ambiguous argument candidates =>
    "ambiguous option: ".toList ++ argument ++ " could match ".toList ++ Text.joinComma candidates
  | ignoredValue flag value =>
    "argument ".toList ++ flag.shown ++ ": ignored explicit argument ".toList ++ Quoted.quote value
  | missingValue flag => "argument ".toList ++ flag.shown ++ ": expected one argument".toList
  | unknownFormat value =>
    "argument ".toList ++ Flag.format.shown ++ ": invalid choice: ".toList ++ Quoted.quote value ++
      " (choose from 'bin', 'hex')".toList
  | missingInput => "the following arguments are required: input".toList
  | unrecognized arguments => "unrecognized arguments: ".toList ++ Text.join [' '] arguments

/-! ## Single arguments -/

/-- A value written in one argument with its option. -/
inductive Attached where
  | nothing
  /-- The value belongs to a one-letter option, which it follows directly or after an equals
  sign. -/
  | short (value : Text)
  /-- The value belongs to a long option, which it follows after an equals sign. -/
  | long (value : Text)
  deriving DecidableEq, Repr

/-- What an argument is, seen on its own. -/
inductive Argument where
  | plain (text : Text)
  /-- The mark after which every argument is plain. -/
  | separator
  | flag (flag : Flag) (attached : Attached)
  /-- An argument with the look of an option that does not exist. -/
  | unknown (text : Text)
  deriving DecidableEq, Repr

namespace Argument

/-- The mark after which every argument is plain. -/
def separatorText : Text := ['-', '-']

/-- Whether a text is one or more decimal digits. -/
def isDigits (s : Text) : Bool := !s.isEmpty && s.all fun c => (decimalDigit? c).isSome

/-- Whether a text is a negative number, whole or with a point; a line feed may end it. -/
def isNegativeNumber : Text → Bool
  | '-' :: rest =>
    let digits := (Text.dropEnding? ['\n'] rest).getD rest
    isDigits digits ||
      match Text.cutAt? '.' digits with
      | some (whole, fraction) => (whole.isEmpty || isDigits whole) && isDigits fraction
      | none => false
  | _ => false

/-- An argument with the look of an option that fits no option: numbers and texts with spaces are
plain. -/
def ofUnmatched (s : Text) : Argument :=
  if isNegativeNumber s || s.contains ' ' then plain s else unknown s

/-- The option that an argument starting with two dashes is short for. -/
def ofLong (s : Text) : Except UsageError Argument :=
  let (name, attached) : Text × Attached :=
    match Text.cutAt? '=' s with
    | some (name, value) => (name, .long value)
    | none => (s, .nothing)
  match Flag.table.filter fun entry => name.isPrefixOf entry.1 with
  | [] => .ok (ofUnmatched s)
  | [(_, option)] => .ok (flag option attached)
  | candidates => .error (.ambiguous s (candidates.map (·.1)))

/-- The one-letter option at the start of an argument. -/
def ofShort (s : Text) : Argument :=
  match Flag.ofSpelling? (s.take 2) with
  | some option => flag option (.short (s.drop 2))
  | none => ofUnmatched s

/-- An argument that starts with a dash and is no spelling of an option: the spelling may come
before an equals sign, be cut short, or be followed by more. -/
def ofDashed (s : Text) : Except UsageError Argument :=
  let isLong := separatorText.isPrefixOf s
  match (Text.cutAt? '=' s).bind fun (name, value) =>
      (Flag.ofSpelling? name).map fun option =>
        flag option (if isLong then .long value else .short value) with
  | some argument => .ok argument
  | none => if isLong then ofLong s else .ok (ofShort s)

/-- Sorts an argument. -/
def classify (s : Text) : Except UsageError Argument :=
  if s.head? == some '-' && s.length != 1 then
    match Flag.ofSpelling? s with
    | some option => .ok (flag option .nothing)
    | none => ofDashed s
  else .ok (plain s)

/-- Sorts the arguments of a command. -/
def classifyAll : List Text → Except UsageError (List Argument)
  | [] => .ok []
  | s :: rest =>
    if s = separatorText then .ok (separator :: rest.map plain)
    else do
      let argument ← classify s
      let others ← classifyAll rest
      return argument :: others

end Argument

/-! ## Clusters -/

/-- What one argument with options asks for: the options with their values, and the last of them
if it still needs a value. -/
structure Cluster where
  taken : List (Flag × Text) := []
  needs : Option Flag := none
  deriving DecidableEq, Repr

/-- An option that nothing is attached to, after the options in `taken`, latest first. -/
def Cluster.endWith (taken : List (Flag × Text)) (flag : Flag) : Cluster :=
  if flag.takesValue then ⟨taken.reverse, some flag⟩ else ⟨((flag, []) :: taken).reverse, none⟩

/-- Takes apart what is attached to a one-letter option.  It is the value of an option that takes
one, as it stands; after an option that takes none, its letters are options themselves.  `taken`
holds the options before, latest first. -/
def clusterAux (taken : List (Flag × Text)) (flag : Flag) : Text → Except UsageError Cluster
  | [] =>
    if flag.takesValue then .ok ⟨((flag, []) :: taken).reverse, none⟩
    else .error (.ignoredValue flag [])
  | c :: tail =>
    if flag.takesValue then .ok ⟨((flag, c :: tail) :: taken).reverse, none⟩
    else
      match Flag.ofSpelling? ['-', c] with
      | none => .error (.ignoredValue flag (c :: tail))
      | some next =>
        if tail.isEmpty then .ok (Cluster.endWith ((flag, []) :: taken) next)
        else clusterAux ((flag, []) :: taken) next tail

/-- Takes the options of an argument apart. -/
def cluster (flag : Flag) : Attached → Except UsageError Cluster
  | .nothing => .ok (Cluster.endWith [] flag)
  | .short value => clusterAux [] flag value
  | .long value =>
    if flag.takesValue then .ok { taken := [(flag, value)] }
    else .error (.ignoredValue flag value)

/-! ## Invocations -/

/-- The form in which the words of a program are written. -/
inductive Format where
  | bin
  | hex
  deriving DecidableEq, Repr

/-- The form with a name. -/
def Format.ofName? (s : Text) : Option Format :=
  if s = "bin".toList then some bin else if s = "hex".toList then some hex else none

/-- What a command asks for. -/
structure Invocation where
  input : Text
  output : Option Text := none
  format : Option Format := none
  config : Option Text := none
  isa : Option Text := none
  relativeBranches : Bool := false
  verbose : Bool := false
  listing : Bool := false
  deriving DecidableEq, Repr

/-- Why a list of arguments leads to no invocation. -/
inductive Stop where
  | help
  | version
  | refused (error : UsageError)
  deriving DecidableEq, Repr

/-- What was read of the arguments: the invocation, whether it has its input, and the arguments
that have no place, latest first. -/
structure Reading where
  invocation : Invocation := { input := [] }
  hasInput : Bool := false
  extras : List Text := []
  deriving DecidableEq, Repr

namespace Reading

/-- The value that an option is left with: the separator does not count as one. -/
def kept? (value : Text) : Option Text :=
  if value = Argument.separatorText then none else some value

/-- What is shown in place of a value that does not count. -/
def noValues : Text := "[]".toList

/-- Records an option. -/
def take (r : Reading) (entry : Flag × Text) : Except Stop Reading :=
  let (flag, value) := entry
  let i := r.invocation
  match flag with
  | .help => .error .help
  | .version => .error .version
  | .output => .ok { r with invocation := { i with output := kept? value } }
  | .config => .ok { r with invocation := { i with config := kept? value } }
  | .isa => .ok { r with invocation := { i with isa := some ((kept? value).getD noValues) } }
  | .relativeBranches => .ok { r with invocation := { i with relativeBranches := true } }
  | .verbose => .ok { r with invocation := { i with verbose := true } }
  | .listing => .ok { r with invocation := { i with listing := true } }
  | .format =>
    match kept? value, Format.ofName? value with
    | none, _ => .ok { r with invocation := { i with format := none } }
    | some _, some form => .ok { r with invocation := { i with format := some form } }
    | some _, none => .error (.refused (.unknownFormat value))

/-- Records an argument that has no place. -/
def leave (r : Reading) (s : Text) : Reading := { r with extras := s :: r.extras }

/-- Records the input. -/
def setInput (r : Reading) (s : Text) : Reading :=
  { r with invocation := { r.invocation with input := s }, hasInput := true }

/-- Reads arguments from left to right. -/
def scan (r : Reading) : List Argument → Except Stop Reading
  | [] => .ok r
  | .plain s :: .separator :: rest =>
    if r.hasInput then scan ((r.leave s).leave Argument.separatorText) rest
    else scan (r.setInput s) rest
  | .plain s :: rest => if r.hasInput then scan (r.leave s) rest else scan (r.setInput s) rest
  | .separator :: rest =>
    if r.hasInput || rest.isEmpty then scan (r.leave Argument.separatorText) rest else scan r rest
  | .unknown s :: rest => scan (r.leave s) rest
  | .flag flag attached :: rest =>
    match cluster flag attached with
    | .error error => .error (.refused error)
    | .ok ⟨taken, none⟩ => do
      let next ← taken.foldlM take r
      scan next rest
    | .ok ⟨taken, some last⟩ =>
      match rest with
      | .plain s :: others => do
        let next ← (taken ++ [(last, s)]).foldlM take r
        scan next others
      | _ => .error (.refused (.missingValue last))

/-- The invocation that was read, if nothing is missing and every argument has its place. -/
def finish (r : Reading) : Except Stop Invocation :=
  if !r.hasInput then .error (.refused .missingInput)
  else if r.extras.isEmpty then .ok r.invocation
  else .error (.refused (.unrecognized r.extras.reverse))

end Reading

/-- Reads the arguments of a command. -/
def Invocation.read (arguments : List Text) : Except Stop Invocation :=
  match Argument.classifyAll arguments with
  | .error error => .error (.refused error)
  | .ok sorted =>
    match Reading.scan {} sorted with
    | .error stop => .error stop
    | .ok reading => reading.finish

end CommandLine

end RiscAsm

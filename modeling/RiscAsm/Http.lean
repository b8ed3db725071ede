import RiscAsm.Data.Base64
import RiscAsm.Program

/-!
# Assembling over HTTP

`Http.assembleSource` answers a request that comes with a program: as an uploaded file, as the field
`source` of a JSON document, or as the body itself; the profile and the branch mode may come with
it.  The request is one that was parsed already, and nothing is said here about how;
`Http.supported` is the answer to the request for what is supported.
-/

namespace RiscAsm.Http

/-! ## Requests and responses -/

/-- A request as it was parsed. -/
structure Request where
  method : Text := "POST".toList
  /-- The content of the file in the field `file` of a form, if there is one. -/
  file : Option (List UInt8) := none
  /-- The other fields of the form. -/
  form : List (Text × Text) := []
  /-- Whether the body is said to be a JSON document. -/
  isJson : Bool := false
  /-- The JSON document, or null if the body is none. -/
  payload : Value := .null
  /-- The body, if it was not read as a form. -/
  data : List UInt8 := []
  /-- The fields of the query. -/
  query : List (Text × Text) := []

/-- A response: its status, and its document if it has one. -/
structure Response where
  status : Nat
  document : Option Value := none

/-- The headers of every response, which let pages of any origin use the service. -/
def headers : List (Text × Text) :=
  [("Access-Control-Allow-Origin".toList, "*".toList),
   ("Access-Control-Allow-Methods".toList, "GET, POST, OPTIONS".toList),
   ("Access-Control-Allow-Headers".toList, "Content-Type".toList)]

/-- A response that tells of an error. -/
def errorResponse (status : Nat) (error : String) (message : Text) (more : List (String × Value)) :
    Response :=
  { status, document := some (.object ([("error", .text error.toList),
      ("message", .text message)] ++ more)) }

/-- The greatest size of a body in bytes. -/
def maxBodySize : Nat := 1024 * 1024

/-! ## The program of a request -/

/-- A program as it was sent, with the options that came with it.  A source that is null was not
sent. -/
structure Submission where
  source : Value
  options : List (Text × Value)

/-- The field of a document that holds the program. -/
def sourceField : Text := "source".toList

/-- Fields as options: of several with one name the first counts. -/
def firstFields (fields : List (Text × Text)) : List (Text × Value) :=
  fields.reverse.map fun field => (field.1, .text field.2)

/-- An entry of a document as an option, unless it is the program. -/
def otherField? : Value × Value → Option (Text × Value)
  | (.text key, v) => if key = sourceField then none else some (key, v)
  | _ => none

/-- The fields of a document beside the program. -/
def otherFields (entries : List (Value × Value)) : List (Text × Value) :=
  entries.filterMap otherField?

/-- The program in a JSON document. -/
def Submission.ofPayload : Value → Submission
  | .map entries =>
    match Value.lookup? sourceField entries with
    | some source => ⟨source, otherFields entries⟩
    | none => ⟨.null, []⟩
  | _ => ⟨.null, []⟩

/-- The program of a request.  The options come in the form beside the file, in the document beside
the program, or in the query. -/
def Request.submission (r : Request) : Submission :=
  match r.file with
  | some content => ⟨.bytes content, firstFields r.form⟩
  | none =>
    if r.isJson then .ofPayload r.payload
    else ⟨if r.data.isEmpty then .null else .bytes r.data, firstFields r.query⟩

/-! ## Settings -/

/-- The fields of settings that options may give, where a value that says nothing is left out. -/
def changes (options : List (Text × Value)) : Settings.Changes :=
  [Settings.profileField, Settings.branchesField].filterMap fun name =>
    match Settings.given? options name with
    | some v => if v.isGiven then some (name, v) else none
    | none => none

/-- The settings that options give. -/
def settings (room : Room) (options : List (Text × Value)) : Except SettingsError Settings :=
  Settings.make room (changes options)

/-! ## Answers -/

/-- The answer with an assembled program. -/
def success (settings : Settings) (a : Assembly) : Response :=
  { status := 200
    document := some (.object
      [("success", .bool true), ("failing_line", .int 0), ("size", .int a.bytes.length),
       ("isa", .text settings.profile.name), ("hex", .list (a.hexLines.map .text)),
       ("data", .text (Base64.encode a.bytes))]) }

/-- The answer when a program could not be assembled. -/
def failure (d : Diagnostic) : Response :=
  let line := ("failing_line", Value.int d.failingLine)
  if d.failingLine = -1 then errorResponse 400 "Unreadable source" d.reason [line]
  else errorResponse 422 "Assembly failed" d.reason
    [line, ("line", (d.line.map Value.int).getD .null),
     ("text", (d.text.map Value.text).getD .null)]

/-- The answer when something went wrong that is not the program's fault. -/
def internalError : Response :=
  errorResponse 500 "Internal server error"
    ("The server encountered an internal error and was unable to complete your request. " ++
      "Either the server is overloaded or there is an error in the application.").toList []

/-- Assembles a program under the settings that its options give. -/
def assembleWith (room : Room) (options : List (Text × Value)) (source : Source) : Response :=
  match settings room options with
  | .error (.escape _) => internalError
  | .error (.fault fault) => errorResponse 400 "Invalid options" fault.message []
  | .ok settings =>
    match assemble settings source with
    | .ok a => success settings a
    | .error (.diagnostic d) => failure d
    | .error _ => internalError

/-- Answers a request that comes with a program. -/
def assembleSource (room : Room) (r : Request) : Response :=
  if r.method == "OPTIONS".toList then { status := 204 }
  else
    let submission := r.submission
    match submission.source with
    | .null => errorResponse 400 "No source provided"
        "Send a file field, a JSON body with \"source\", or a text body".toList []
    | .text text => assembleWith room submission.options (.text text)
    | .bytes bytes => assembleWith room submission.options (.bytes bytes)
    | _ => errorResponse 400 "Invalid source" "\"source\" must be a string".toList []

/-- What is supported: profiles, instructions, pseudo-instructions and registers. -/
def supported : Value :=
  .object
    [("profiles", .list (Profile.all.map fun p => .text p.name)),
     ("instructions", .map (Instruction.table.map fun row => (.text row.1, .text row.2.isa.name))),
     ("pseudo_instructions", .list ((Pseudo.table.map Prod.fst).mergeSort Text.le |>.map .text)),
     ("registers", .list (RegisterFile.integerRoles.map .text))]

end RiscAsm.Http

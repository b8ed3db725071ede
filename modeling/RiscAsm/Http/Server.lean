import RiscAsm.Data.Json.Bytes
import RiscAsm.Http
import RiscAsm.Http.Address
import RiscAsm.Http.Multipart
import RiscAsm.Http.Query

/-!
# Requests as they are sent

`Http.respond` answers a request as it is sent: it parses the request, finds the place that it asks
for, and hands it on.  A program is posted to one address, another address lists what is supported,
and below a third one there would be files.  This is a way to run the service; what is proved about
the service is proved for requests however they were parsed.
-/

namespace RiscAsm.Http

/-! ## Messages -/

/-- A file that is sent with a form. -/
structure Upload where
  filename : Text
  content : List UInt8
  deriving DecidableEq, Repr

/-- The body of a request. -/
inductive Body where
  | absent
  | raw (contentType : Option Text) (content : List UInt8)
  /-- The text fields of a form, and the file in its field `file`. -/
  | form (fields : List (Text × Text)) (file : Option Upload)
  deriving DecidableEq, Repr

/-- A request as it is sent.  The query may also be part of the address. -/
structure Message where
  method : Text
  address : Text
  query : Option Text := none
  body : Body := .absent
  deriving DecidableEq, Repr

/-! ## Bodies -/

/-- The field of a form that holds the program. -/
def fileField : Text := "file".toList

/-- The parts of a form. -/
def formParts (fields : List (Text × Text)) (file : Option Upload) : List Part :=
  fields.map (fun field => { name := some field.1, content := Utf8.encode field.2 }) ++
    file.toList.map fun upload =>
      { name := some fileField, filename := some upload.filename
        contentType := some "application/octet-stream".toList, content := upload.content }

/-- A boundary with a number. -/
def boundaryText (n : Nat) : Text :=
  "------------------------------------FormBoundary".toList ++ Numeral.padded 10 20 n

/-- Whether bytes are found among others. -/
def occurs (bytes others : List UInt8) : Bool :=
  (Multipart.search (fun s => if bytes.isPrefixOf s then some () else none) 0 others).isSome

/-- The first of the boundaries from `n` on that is not found in bytes. -/
def freshBoundary (bytes : List UInt8) : Nat → Nat → Text
  | 0, n => boundaryText n
  | fuel + 1, n =>
    if occurs (Utf8.encode (boundaryText n)) bytes then freshBoundary bytes fuel (n + 1)
    else boundaryText n

/-- A boundary for parts, none of which holds it. -/
def boundaryFor (parts : List Part) : Text :=
  let bytes := parts.flatMap fun part => Multipart.encodeHeaders part ++ part.content
  freshBoundary bytes bytes.length 0

/-- The content type of a body and its bytes. -/
def Body.sent : Body → Option Text × List UInt8
  | absent => (none, [])
  | raw contentType content => (contentType, content)
  | form fields file =>
    let parts := formParts fields file
    let boundary := boundaryFor parts
    (some ("multipart/form-data; boundary=\"".toList ++ boundary ++ ['"']),
      Multipart.encode (Utf8.encode boundary) parts)

/-! ## Parsing -/

/-- Why a body is not looked at further. -/
inductive BodyError where
  | tooLarge
  /-- A document is nested too deeply. -/
  | tooDeep
  /-- A document holds half of a character, which no text does. -/
  | loneHalf
  deriving DecidableEq, Repr

/-- Whether a media type is that of a JSON document. -/
def isJsonMedia (media : Text) : Bool :=
  media == "application/json".toList ||
    ("application/".toList.isPrefixOf media && "+json".toList.isSuffixOf media)

/-- The text of a field of a form. -/
def fieldText (part : Part) : Text :=
  let charset := part.contentType.bind fun contentType =>
    ((HeaderValue.parse contentType).parameters.lookup "charset".toList).bind fun name =>
      Charset.ofName? (lower name)
  (charset.getD .utf8).decode part.content

/-- The request with a form of parts. -/
def Request.ofParts (parts : List Part) : Request :=
  { file := (parts.find? fun part => part.filename.isSome && part.name == some fileField).map
      (·.content)
    form := (parts.filter fun part => part.filename.isNone).filterMap fun part =>
      part.name.map (·, fieldText part) }

/-- The request with a body of parts.  What is left of a body that is malformed counts as it is, and
so does a body without a boundary. -/
def Request.ofMultipart (parameters : List (Text × Text)) (content : List UInt8) :
    Except BodyError Request :=
  match parameters.lookup "boundary".toList with
  | none | some [] => .ok { data := content }
  | some boundary =>
    if boundary.any fun c => 128 ≤ c.toNat then .ok { data := content }
    else match Multipart.decode (Utf8.encode boundary) content with
      | .ok parts => .ok (.ofParts parts)
      | .error (.malformed unread) => .ok { data := unread }
      | .error .tooLarge => .error .tooLarge

/-- The request with a JSON document. -/
def Request.ofJson (content : List UInt8) : Except BodyError Request :=
  match Json.ofBytes content with
  | .ok payload => .ok { isJson := true, payload, data := content }
  | .error .malformed => .ok { isJson := true, data := content }
  | .error .tooDeep => .error .tooDeep
  | .error .loneHalf => .error .loneHalf

/-- The request with a body. -/
def Request.ofBody (contentType : Option Text) (content : List UInt8) : Except BodyError Request :=
  let header := HeaderValue.parse (contentType.getD [])
  let media := lower header.value
  if maxBodySize < content.length then .error .tooLarge
  else if media == "multipart/form-data".toList then ofMultipart header.parameters content
  else if media == "application/x-www-form-urlencoded".toList then
    if Multipart.maxFieldSize < content.length then .error .tooLarge else .ok {}
  else if isJsonMedia media then ofJson content
  else .ok { data := content }

/-! ## Answers -/

/-- Answers a request that posts a program. -/
def postProgram (room : Room) (query : Text) (body : Body) : Except SendError Response :=
  let (contentType, content) := body.sent
  match Request.ofBody contentType content with
  | .ok request => .ok (assembleSource room { request with query := Query.parse query })
  | .error .tooDeep => .ok internalError
  | .error .tooLarge => .ok (errorResponse 413 "Source too large"
      "The data value transmitted exceeds the capacity limit.".toList [])
  | .error .loneHalf => .error .loneHalf

/-- The answer where there is nothing. -/
def notFound : Response :=
  errorResponse 404 "Not found" ("The requested URL was not found on the server. " ++
    "If you entered the URL manually please check your spelling and try again.").toList []

/-! ## Routes -/

/-- The places of the service. -/
inductive Route where
  | assemble
  | supported
  /-- Files, of which there are none. -/
  | files
  deriving DecidableEq, Repr

/-- Whether a text is the name of a file: it does not start with a slash, and after its first
character there is no line break. -/
def isFileName : Text → Bool
  | [] => false
  | c :: rest => c != '/' && !rest.contains '\n'

/-- The route of a path. -/
def Route.ofPath? (path : Text) : Option Route :=
  let files := "/static/".toList
  if path == "/api/assemble".toList then some .assemble
  else if path == "/api/isa".toList then some .supported
  else if files.isPrefixOf path && isFileName (path.drop files.length) then some .files
  else none

/-- Replaces slashes that follow each other by one. -/
def mergeSlashes : Text → Text
  | [] => []
  | c :: rest =>
    if c == '/' && rest.head? == some '/' then mergeSlashes rest else c :: mergeSlashes rest

/-- The methods of a route. -/
def Route.methods : Route → List Text
  | assemble => ["POST", "OPTIONS"].map String.toList
  | supported | files => ["GET", "HEAD", "OPTIONS"].map String.toList

/-- Answers a request at a route with one of its methods. -/
def Route.respond (room : Room) (route : Route) (method query : Text) (body : Body) :
    Except SendError Response :=
  let asksOptions := method == "OPTIONS".toList
  match route with
  | assemble =>
    if asksOptions then .ok (assembleSource room { method }) else postProgram room query body
  | supported =>
    .ok (if asksOptions then { status := 200 }
      else { status := 200, document := some Http.supported })
  | files => .ok (if asksOptions then { status := 200 } else notFound)

/-- Answers a request for a path.  If only the path with its slashes merged leads somewhere, the
answer sends there. -/
def respondAt (room : Room) (method path query : Text) (body : Body) :
    Except SendError Response :=
  let admitted (p : Text) : Option Route :=
    (Route.ofPath? p).filter fun route => route.methods.contains method
  match admitted path, admitted (mergeSlashes path) with
  | some route, _ => route.respond room method query body
  | none, some _ => .ok { status := 308 }
  | none, none =>
    if (Route.ofPath? path).isSome || (Route.ofPath? (mergeSlashes path)).isSome then
      .ok { status := 405 }
    else .ok notFound

/-- Answers a request.  A response to `HEAD` has no document. -/
def respond (room : Room) (message : Message) : Except SendError Response := do
  let (path, query) ← Address.resolve message.address message.query
  if let .raw (some contentType) _ := message.body then
    if contentType.any fun c => c == '\n' || c == '\r' then throw .headerBreak
  let response ← respondAt room (upperAscii message.method) path query message.body
  return if message.method == "HEAD".toList then { response with document := none } else response

end RiscAsm.Http

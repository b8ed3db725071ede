import RiscAsm.Http.Percent
import RiscAsm.Text.LowerCase
import RiscAsm.Text.Quoted

/-!
# Addresses of requests

A request is sent to an address, which may name a scheme and an authority (a host with its port)
before the path, and a query after it.  `Address.resolve` finds the path and the query that arrive.
The path is divided a second time when the request is put together, so that two slashes at its start
name an authority again.
-/

namespace RiscAsm.Http

/-- Why a request cannot be sent. -/
inductive SendError where
  /-- Brackets in the authority are not closed or not opened. -/
  | bracket
  /-- The port is no number. -/
  | portText (port : Text)
  | portRange
  /-- A part of the name of the host is empty or too long. -/
  | hostLabel
  /-- A query is given in the address and beside it. -/
  | twoQueries
  /-- A header goes over several lines. -/
  | headerBreak
  /-- A document holds half of a character, which no text does. -/
  | loneHalf
  deriving DecidableEq, Repr

/-- The wording of that. -/
def SendError.message : SendError → Text
  | bracket => "Invalid IPv6 URL".toList
  | portText port => "Port could not be cast to integer value as ".toList ++ Quoted.quote port
  | portRange => "Port out of range 0-65535".toList
  | hostLabel => "label empty or too long".toList
  | twoQueries => "Query string is defined in the path and as an argument".toList
  | headerBreak => "Header values must not contain newline characters.".toList
  | loneHalf => "half of a character".toList

/-- The parts of an address. -/
structure Address where
  scheme : Text := []
  authority : Text := []
  path : Text := []
  query : Text := []
  deriving DecidableEq, Repr

namespace Address

/-! ## Dividing -/

/-- A character of a scheme. -/
def isSchemeChar (c : Char) : Bool := c.isAlphanum || c == '+' || c == '-' || c == '.'

/-- Takes a scheme off the front, if there is one. -/
def takeScheme (s : Text) : Text × Text :=
  match Text.cutAt? ':' s with
  | some (scheme, rest) =>
    if scheme.head?.any Char.isAlpha && scheme.all isSchemeChar then
      (scheme.map Char.toLower, rest)
    else ([], s)
  | none => ([], s)

/-- A character that ends an authority. -/
def endsAuthority (c : Char) : Bool := c == '/' || c == '?' || c == '#'

/-- Takes an authority off the front, if there is one. -/
def takeAuthority : Text → Text × Text
  | '/' :: '/' :: rest =>
    (rest.takeWhile (!endsAuthority ·), rest.dropWhile (!endsAuthority ·))
  | s => ([], s)

/-- Divides an address.  Line breaks and tabs in it do not count, and what follows a number sign is
not sent. -/
def split (s : Text) : Except SendError Address :=
  let (scheme, rest) := takeScheme (s.filter fun c => c != '\n' && c != '\r' && c != '\t')
  let (authority, rest) := takeAuthority rest
  if authority.contains '[' != authority.contains ']' then .error .bracket
  else
    let sent := rest.takeWhile (· != '#')
    let (path, query) := (Text.cutAt? '?' sent).getD (sent, [])
    .ok { scheme, authority, path, query }

/-! ## Authorities -/

/-- The host and the port in an authority without the name of a user. -/
def hostAndPort (s : Text) : Text × Text :=
  match Text.cutAt? '[' s with
  | some (_, bracketed) =>
    let (host, after) := (Text.cutAt? ']' bracketed).getD (bracketed, [])
    (host, ((Text.cutAt? ':' after).map (·.2)).getD [])
  | none => (Text.cutAt? ':' s).getD (s, [])

/-- Whether the parts of a host between points have the sizes they may have. -/
def hasGoodLabels (host : Text) : Bool :=
  let labels := host.splitOn '.'
  host.any (fun c => 128 ≤ c.toNat) ||
    (labels.dropLast.all fun label => !label.isEmpty && label.length < 64) &&
      (labels.getLast?.all fun label => label.length < 64)

/-- Checks a host; its name has no upper case. -/
def checkHost (host : Text) : Except SendError Text :=
  let (name, zone) := (host.takeWhile (· != '%'), host.dropWhile (· != '%'))
  let name := lower name ++ zone
  if hasGoodLabels name then
    .ok (if name.contains ':' then '[' :: name ++ [']'] else name)
  else .error .hostLabel

/-- Checks a port; an empty one and zero are left out. -/
def checkPort (port : Text) : Except SendError Text :=
  if port.isEmpty then .ok []
  else if !port.all Char.isDigit then .error (.portText port)
  else match Numeral.readDecimal port with
    | some n =>
      if 65535 < n then .error .portRange else .ok (if n = 0 then [] else ':' :: Numeral.ofNat n)
    | none => .error .portRange

/-- An authority in its usual form. -/
def usual (authority : Text) : Except SendError Text := do
  let afterAt := (authority.reverse.takeWhile (· != '@')).reverse
  let user := authority.take (authority.length - afterAt.length)
  let (host, port) := hostAndPort afterAt
  let host ← checkHost host
  let port ← checkPort port
  return (if user.length ≤ 1 || user.head? == some ':' then [] else user) ++ host ++ port

/-! ## What arrives -/

/-- The path after another division, of which only the authority is brought into its usual form. -/
def rejoin (path : Text) : Except SendError Text := do
  let inner ← split path
  if inner.scheme.isEmpty && !inner.authority.isEmpty then
    return '/' :: '/' :: (← usual inner.authority) ++ inner.path
  else return path

/-- The path and the query of a request that is sent to an address, with a query beside it if one
is given. -/
def resolve (address : Text) (query : Option Text) : Except SendError (Text × Text) := do
  let outer ← split address
  let given := outer.path ++ if outer.query.isEmpty then [] else '?' :: outer.query
  if query.isSome && !outer.query.isEmpty then throw .twoQueries
  let inner ← split given
  let path ← rejoin inner.path
  let _ ← usual outer.authority
  let path := Percent.decode path
  return (if path.isEmpty then [] else '/' :: path.dropWhile (· == '/'), query.getD inner.query)

end Address

end RiscAsm.Http

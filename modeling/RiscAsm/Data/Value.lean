import RiscAsm.Decimal.Shortest
import RiscAsm.Text.Quoted

/-!
# Values

A `Value` is a piece of structured data, as it is found in JSON and YAML documents.  Messages show
values as text: a text as itself at the outside and between quotes inside a list or a mapping.
-/

namespace RiscAsm

/-- A moment, with its distance from universal time in minutes if it is known. -/
structure Moment where
  year : Nat
  month : Nat
  day : Nat
  hour : Nat
  minute : Nat
  second : Nat
  microsecond : Nat
  offset : Option Int
  deriving DecidableEq, Repr

/-- Structured data.  A mapping keeps the order of its entries. -/
inductive Value where
  | null
  | bool (b : Bool)
  | int (n : Int)
  | float (x : Float)
  | text (s : Text)
  | list (items : List Value)
  | map (entries : List (Value × Value))
  | date (year month day : Nat)
  | moment (m : Moment)
  | bytes (content : List UInt8)
  /-- A fixed number of values. -/
  | tuple (items : List Value)
  /-- Values without an order. -/
  | set (items : List Value)
  /-- A list or a mapping that this value is part of. -/
  | within (mapping : Bool)
  deriving Inhabited

namespace Value

/-- A mapping whose keys are texts. -/
def object (entries : List (String × Value)) : Value :=
  .map (entries.map fun entry => (.text entry.1.toList, entry.2))

/-- Puts an entry into a mapping, latest first, where an equal key keeps its place. -/
def putEntry {κ α : Type} (same : κ → κ → Bool) (key : κ) (value : α) (entries : List (κ × α)) :
    List (κ × α) :=
  if entries.any fun entry => same entry.1 key then
    entries.map fun entry => if same entry.1 key then (entry.1, value) else entry
  else (key, value) :: entries

/-- The value of a text as a key of a mapping, where a later entry wins. -/
def lookup? (key : Text) (entries : List (Value × Value)) : Option Value :=
  entries.reverse.findSome? fun
    | (.text k, v) => if k = key then some v else none
    | _ => none

/-- The name of the type of a value. -/
def typeName : Value → Text
  | null => "NoneType".toList
  | bool _ => "bool".toList
  | int _ => "int".toList
  | float _ => "float".toList
  | text _ => "str".toList
  | list _ => "list".toList
  | map _ => "dict".toList
  | date .. => "date".toList
  | moment _ => "datetime".toList
  | bytes _ => "bytes".toList
  | tuple _ => "tuple".toList
  | set _ => "set".toList
  | within mapping => if mapping then "dict".toList else "list".toList

/-- A value that counts as given: not null, false, zero or empty. -/
def isGiven : Value → Bool
  | null => false
  | bool b => b
  | int n => n != 0
  | float x => x != 0
  | text s => !s.isEmpty
  | list items => !items.isEmpty
  | map entries => !entries.isEmpty
  | bytes content => !content.isEmpty
  | tuple items | set items => !items.isEmpty
  | date .. | moment _ | within _ => true

/-! ## Text -/

/-- A number with at least `width` digits. -/
def digits (width n : Nat) : Text := Numeral.padded 10 width n

/-- A date as year, month and day. -/
def dateText (year month day : Nat) : Text :=
  digits 4 year ++ '-' :: digits 2 month ++ '-' :: digits 2 day

/-- The distance from universal time as hours and minutes. -/
def offsetText (minutes : Int) : Text :=
  (if minutes < 0 then '-' else '+') :: digits 2 (minutes.natAbs / 60) ++
    ':' :: digits 2 (minutes.natAbs % 60)

/-- A moment as date and time. -/
def momentText (m : Moment) : Text :=
  dateText m.year m.month m.day ++ ' ' :: digits 2 m.hour ++ ':' :: digits 2 m.minute ++
    ':' :: digits 2 m.second ++
    (if m.microsecond = 0 then [] else '.' :: digits 6 m.microsecond) ++
    (m.offset.map offsetText).getD []

/-- A distance in time, given in minutes. -/
def spanText (minutes : Int) : Text :=
  let days := minutes / 1440
  let seconds := minutes % 1440 * 60
  let parts := (if days = 0 then [] else ["days=".toList ++ Numeral.ofInt days]) ++
    (if seconds = 0 then [] else ["seconds=".toList ++ Numeral.ofInt seconds])
  "datetime.timedelta(".toList ++ (if parts.isEmpty then ['0'] else Text.joinComma parts) ++ [')']

/-- The zone of a moment inside a list or a mapping. -/
def zoneText (minutes : Int) : Text :=
  if minutes = 0 then ", tzinfo=datetime.timezone.utc".toList
  else ", tzinfo=datetime.timezone(".toList ++ spanText minutes ++ [')']

/-- A moment inside a list or a mapping. -/
def momentInner (m : Moment) : Text :=
  let time := if m.microsecond ≠ 0 then [m.hour, m.minute, m.second, m.microsecond]
    else if m.second ≠ 0 then [m.hour, m.minute, m.second]
    else [m.hour, m.minute]
  "datetime.datetime(".toList ++
    Text.joinComma (([m.year, m.month, m.day] ++ time).map Numeral.ofNat) ++
    (m.offset.map zoneText).getD [] ++ ")".toList

/-- A byte between quotes. -/
def escapeByte (quote : Char) (b : UInt8) : Text :=
  let c := Char.ofNat b.toNat
  if b.toNat < 127 then Quoted.escape quote c else '\\' :: 'x' :: Numeral.hex 2 b.toNat

/-- Bytes between quotes. -/
def bytesText (content : List UInt8) : Text :=
  let q := Quoted.mark (content.map fun b => Char.ofNat b.toNat)
  'b' :: q :: content.flatMap (escapeByte q) ++ [q]

/-- How many values stand inside each other in a moment that is shown inside a list or a mapping:
none, its zone, or its zone and the distance in it. -/
def zoneDepth (m : Moment) : Nat :=
  match m.offset with
  | none => 0
  | some 0 => 1
  | some _ => 2

/-- Why a value cannot be shown. -/
inductive ShowError where
  /-- A number in it is too long to be written. -/
  | tooLong
  /-- Too many values stand inside each other. -/
  | tooDeep
  deriving DecidableEq, Repr

/-- A value as it is shown inside a list or a mapping, given how its parts are shown and how many
values may stand inside each other in it.  The first part that cannot be shown counts. -/
def innerWith (part : Value → Except ShowError Text) (room : Nat) : Value → Except ShowError Text
  | null => .ok "None".toList
  | bool true => .ok "True".toList
  | bool false => .ok "False".toList
  | int n => if Numeral.tooLong n then .error .tooLong else .ok (Numeral.ofInt n)
  | float x => .ok (Decimal.messageStyle.render x)
  | text s => .ok (Quoted.quote s)
  | list items => do
    let parts ← items.mapM part
    return '[' :: Text.joinComma parts ++ [']']
  | map entries => do
    let parts ← entries.mapM fun entry => do
      let key ← part entry.1
      let value ← part entry.2
      return key ++ ": ".toList ++ value
    return '\x7b' :: Text.joinComma parts ++ ['\x7d']
  | date year month day =>
    .ok ("datetime.date(".toList ++ Text.joinComma ([year, month, day].map Numeral.ofNat) ++
      ")".toList)
  | moment m => if room < zoneDepth m then .error .tooDeep else .ok (momentInner m)
  | bytes content => .ok (bytesText content)
  | tuple items => do
    let parts ← items.mapM part
    return '(' :: Text.joinComma parts ++ (if parts.length = 1 then [',', ')'] else [')'])
  | set [] => .ok "set()".toList
  -- a set is shown as the list of its values, with other brackets
  | set items => do
    let shown ← part (.list items)
    return '\x7b' :: shown.tail.dropLast ++ ['\x7d']
  | within mapping => .ok (if mapping then "\x7b...\x7d".toList else "[...]".toList)

/-- A value as it is shown inside a list or a mapping, where `room` values may stand inside each
other in it. -/
def inner : Nat → Value → Except ShowError Text
  | 0 => innerWith (fun _ => .error .tooDeep) 0
  | room + 1 => innerWith (inner room) (room + 1)

/-- A value as it is shown by itself. -/
def outer (room : Nat) : Value → Except ShowError Text
  | text s => .ok s
  | date year month day => .ok (dateText year month day)
  | moment m => .ok (momentText m)
  | v => v.inner room

end Value

end RiscAsm

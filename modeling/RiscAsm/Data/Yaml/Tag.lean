import RiscAsm.Data.Yaml.Time

/-!
# Tags of YAML nodes

A tag says what kind of value a node stands for.  A node may name its tag; otherwise a collection
has the usual one, a quoted scalar is a text, and a plain scalar is typed by its form: truth values
by words such as `yes` and `off`, null by `~`, integers in several bases (a leading zero is octal,
colons divide digits of base 60), numbers with a point, dates and times.
-/

namespace RiscAsm.Yaml

/-- The kinds of values. -/
inductive Tag where
  | null | bool | int | float | binary | timestamp | str
  | seq | map | set
  /-- Entries in order, each a mapping of its own. -/
  | omap
  | pairs
  /-- The key that merges other mappings into its own. -/
  | merge
  /-- The key of the value that a mapping stands for. -/
  | value
  | unknown
  deriving DecidableEq, Repr

namespace Tag

/-- What the names of the usual tags start with. -/
def space : Text := "tag:yaml.org,2002:".toList

/-- The usual tags with the ends of their names. -/
def names : List (String × Tag) :=
  [("null", null), ("bool", bool), ("int", int), ("float", float), ("binary", binary),
   ("timestamp", timestamp), ("str", str), ("seq", seq), ("map", map), ("set", set),
   ("omap", omap), ("pairs", pairs), ("merge", merge), ("value", value)]

/-- The tag with a name. -/
def ofName (name : Text) : Tag :=
  ((names.find? fun entry => space ++ entry.1.toList == name).map (·.2)).getD unknown

/-- Whether the values of a tag are made of others. -/
def isCollection : Tag → Bool
  | seq | map | set | omap | pairs => true
  | _ => false

/-! ## Forms of plain scalars -/

/-- A digit or an underscore. -/
def isGroupedDigit (c : Char) : Bool := c.isDigit || c == '_'

/-- A hexadecimal digit. -/
def isHexDigit (c : Char) : Bool := c.isDigit || ('a' ≤ c && c ≤ 'f') || ('A' ≤ c && c ≤ 'F')

/-- A text without its sign. -/
def unsigned : Text → Text
  | '-' :: rest => rest
  | '+' :: rest => rest
  | s => s

/-- Whether a text is not empty and all its characters meet a condition. -/
def someAll (p : Char → Bool) (s : Text) : Bool := !s.isEmpty && s.all p

/-- Whether a text is a digit with more digits and underscores after it. -/
def isGrouped (s : Text) : Bool := s.head?.any Char.isDigit && s.all isGroupedDigit

/-- Whether a text is a digit of base 60: one digit, or two of which the first is below six. -/
def isSixty : Text → Bool
  | [a] => a.isDigit
  | [a, b] => '0' ≤ a && a ≤ '5' && b.isDigit
  | _ => false

/-- Whether a text is digits of base 60 after a whole number. -/
def isSixties (s : Text) : Bool :=
  match s.splitOn ':' with
  | first :: second :: rest => isGrouped first && (second :: rest).all isSixty
  | _ => false

/-- Whether a text has the form of an integer. -/
def isInt (s : Text) : Bool :=
  match unsigned s with
  | '0' :: 'b' :: digits => someAll (fun c => c == '0' || c == '1' || c == '_') digits
  | '0' :: 'x' :: digits => someAll (fun c => isHexDigit c || c == '_') digits
  | '0' :: digits => digits.all fun c => ('0' ≤ c && c ≤ '7') || c == '_'
  | digits => isGrouped digits || isSixties digits

/-- Whether a text is an exponent, with its sign, or empty. -/
def isExponent : Text → Bool
  | [] => true
  | mark :: sign :: digits =>
    (mark == 'e' || mark == 'E') && (sign == '-' || sign == '+') && someAll Char.isDigit digits
  | _ => false

/-- Whether a text has the form of a number with a point.  One that starts with its point has no
sign, unless it is infinite. -/
def isFloat (s : Text) : Bool :=
  let plain := unsigned s
  let wordIn (words : List String) : Bool := words.any fun w => '.' :: w.toList == plain
  match Text.cutAt? '.' plain with
  | none => false
  | some (whole, after) =>
    let isBare := plain.length == s.length
    let fraction := after.takeWhile isGroupedDigit
    let exponent := after.dropWhile isGroupedDigit
    wordIn ["inf", "Inf", "INF"] || (isBare && wordIn ["nan", "NaN", "NAN"]) ||
      (if whole.isEmpty then isBare && fraction.head?.any Char.isDigit && isExponent exponent
       else (isGrouped whole && isExponent exponent) || (isSixties whole && exponent.isEmpty))

/-- The words for truth values, in lower case. -/
def truthWords : List (Text × Bool) :=
  [("yes", true), ("no", false), ("true", true), ("false", false), ("on", true),
   ("off", false)].map fun (w, b) => (w.toList, b)

/-- Whether a text is a word in lower case, in upper case, or with its first letter in upper
case. -/
def isCased (word s : Text) : Bool :=
  s == word || s == word.map Char.toUpper ||
    s == (word.take 1).map Char.toUpper ++ word.drop 1

/-- Whether a text is a word for a truth value. -/
def isBool (s : Text) : Bool := truthWords.any fun entry => isCased entry.1 s

/-- Whether a text is a word for null. -/
def isNull (s : Text) : Bool := s.isEmpty || s == ['~'] || isCased "null".toList s

/-- The tag of a plain scalar. -/
def ofPlain (s : Text) : Tag :=
  let s := ((Text.dropEnding? ['\n'] s).filter fun line => !line.isEmpty).getD s
  if isBool s then bool
  else if isFloat s then float
  else if isInt s then int
  else if s == ['<', '<'] then merge
  else if isNull s then null
  else if isTime s then timestamp
  else if s == ['='] then value
  else str

end Tag

end RiscAsm.Yaml

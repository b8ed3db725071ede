import RiscAsm.Data.Value
import RiscAsm.Data.Yaml.Cursor
import RiscAsm.Data.Yaml.Error

/-!
# Dates and times in YAML documents

A date is a year, a month and a day; a moment is a date with a time of day, which may have a
fraction of a second and a distance from universal time.
-/

namespace RiscAsm.Yaml

/-- Takes up to `most` digits, at least `least`, off the front. -/
def takeDigits? (least most : Nat) (s : Text) : Option (Nat × Text) :=
  let digits := (s.take most).takeWhile Char.isDigit
  if least ≤ digits.length then some (Decimal.readDigits digits, s.drop digits.length) else none

/-- Takes a character off the front. -/
def takeChar? (c : Char) : Text → Option Text
  | x :: rest => if x == c then some rest else none
  | [] => none

/-- A year, a month and a day with the text after them. -/
def takeDate? (s : Text) : Option (Nat × Nat × Nat × Text) := do
  let (year, s) ← takeDigits? 4 4 s
  let s ← takeChar? '-' s
  let (month, s) ← takeDigits? 1 2 s
  let s ← takeChar? '-' s
  let (day, s) ← takeDigits? 1 2 s
  return (year, month, day, s)

/-- The distance from universal time in minutes, if there is one, at the end of a time. -/
def zone? (s : Text) : Option (Option Int) :=
  match s.dropWhile isGap with
  | [] => if s.isEmpty then some none else none
  | ['Z'] => some (some 0)
  | sign :: rest => do
    if sign != '+' && sign != '-' then none
    else
      let (hours, rest) ← takeDigits? 1 2 rest
      let (minutes, rest) ← match rest with
        | ':' :: rest => takeDigits? 2 2 rest
        | _ => some (0, rest)
      let total : Int := hours * 60 + minutes
      if rest.isEmpty then some (some (if sign == '-' then -total else total)) else none

/-- The parts of a date with a time. -/
def moment? (s : Text) : Option Moment := do
  let (year, month, day, s) ← takeDate? s
  let s ← match s with
    | 'T' :: rest | 't' :: rest => some rest
    | c :: rest => if isGap c then some (rest.dropWhile isGap) else none
    | [] => none
  let (hour, s) ← takeDigits? 1 2 s
  let s ← takeChar? ':' s
  let (minute, s) ← takeDigits? 2 2 s
  let s ← takeChar? ':' s
  let (second, s) ← takeDigits? 2 2 s
  let (fraction, s) := match s with
    | '.' :: rest => (rest.takeWhile Char.isDigit, rest.dropWhile Char.isDigit)
    | _ => ([], s)
  let offset ← zone? s
  let microsecond := Decimal.readDigits ((fraction ++ List.replicate 6 '0').take 6)
  return { year, month, day, hour, minute, second, microsecond, offset }

/-- The parts of a date without a time. -/
def date? (s : Text) : Option (Nat × Nat × Nat) :=
  match takeDate? s with
  | some (year, month, day, []) => some (year, month, day)
  | _ => none

/-- Whether a text has the form of a date with all its digits, or of a moment. -/
def isTime (s : Text) : Bool := (s.length == 10 && (date? s).isSome) || (moment? s).isSome

/-! ## What exists -/

/-- A leap year has a day more. -/
def isLeap (year : Nat) : Bool := year % 4 == 0 && (year % 100 != 0 || year % 400 == 0)

/-- The number of days of a month. -/
def monthLength (year month : Nat) : Nat :=
  if month = 2 then if isLeap year then 29 else 28
  else if [4, 6, 9, 11].contains month then 30
  else 31

/-- A fault of a time that does not exist. -/
def noSuchTime (message : String) : Except LoadError Unit :=
  .error (.scalar (.value message.toList))

/-- Checks a date. -/
def checkDate (year month day : Nat) : Except LoadError Unit :=
  if year = 0 then noSuchTime "year 0 is out of range"
  else if month = 0 ∨ 12 < month then noSuchTime "month must be in 1..12"
  else if day = 0 ∨ monthLength year month < day then noSuchTime "day is out of range for month"
  else .ok ()

/-- Checks a time of day. -/
def checkTime (m : Moment) : Except LoadError Unit :=
  if 23 < m.hour then noSuchTime "hour must be in 0..23"
  else if 59 < m.minute then noSuchTime "minute must be in 0..59"
  else if 59 < m.second then noSuchTime "second must be in 0..59"
  else .ok ()

/-- Checks a distance from universal time, which is less than a day. -/
def checkZone : Option Int → Except LoadError Unit
  | none => .ok ()
  | some minutes =>
    if minutes.natAbs < 1440 then .ok ()
    else .error (.scalar (.value
      ("offset must be a timedelta strictly between -timedelta(hours=24) and ".toList ++
        "timedelta(hours=24), not ".toList ++ Value.spanText minutes ++ ['.'])))

/-- The value of a text with the form of a time, which may end with a break. -/
def time (s : Text) : Except LoadError Value :=
  let s := (Text.dropEnding? ['\n'] s).getD s
  match date? s, moment? s with
  | some (year, month, day), _ => do
    checkDate year month day
    return .date year month day
  | none, some m => do
    checkZone m.offset
    checkDate m.year m.month m.day
    checkTime m
    return .moment m
  | none, none => .error (.scalar .noTime)

/-! ## Order -/

/-- The number of days before a year, from the year one on. -/
def daysBeforeYear (year : Nat) : Nat :=
  let past := year - 1
  past * 365 + past / 4 - past / 100 + past / 400

/-- The number of the day of a date. -/
def dayNumber (year month day : Nat) : Nat :=
  (List.range (month - 1)).foldl (fun n m => n + monthLength year (m + 1))
    (daysBeforeYear year + day)

/-- A moment in microseconds, counted in universal time if its distance from that is known. -/
def instant (m : Moment) : Int :=
  let minutes : Int := (dayNumber m.year m.month m.day * 24 + m.hour) * 60 + m.minute
  ((minutes - m.offset.getD 0) * 60 + m.second) * 1000000 + m.microsecond

/-- Whether two moments are the same: both have a known distance from universal time, or none. -/
def sameMoment (a b : Moment) : Bool :=
  a.offset.isSome == b.offset.isSome && instant a == instant b

end RiscAsm.Yaml

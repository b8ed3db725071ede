import RiscAsm.Data.Value
import RiscAsm.Isa

/-!
# Settings

`Settings` say how a program is assembled: the profile, what branch labels stand for, the load
address shown in listings, and whether comments are cut off.  They are made from fields with values
of any kind; `Settings.update` checks the fields one after the other and reports the first that is
not acceptable.

A value is looked up by the text it is shown as, and a report shows the value it is about.  Values
that are nested too deep cannot be shown.  How deep that is depends on what is left of the stack, so
it is a parameter, `Room`.
-/

namespace RiscAsm

/-! ## Showing values -/

/-- How many values may stand inside each other in one that is shown, at each place where one is. -/
structure Room where
  /-- Where a value is looked up among the names of profiles. -/
  lookup : Nat
  /-- In the report that a value is no profile. -/
  profile : Nat
  /-- In the report that a value is no branch mode. -/
  branches : Nat
  /-- In the report of names that settings do not have. -/
  names : Nat
  deriving DecidableEq, Repr

/-- A failure that nothing is done about: it ends whatever was going on. -/
inductive Escape where
  /-- A value that is not acceptable. -/
  | value (message : Text)
  /-- An argument of the wrong kind, or of a name that is not there. -/
  | type
  /-- A number that is too large. -/
  | overflow
  /-- A part of a sequence that is not there. -/
  | index
  /-- A key that is not there. -/
  | key
  /-- A value without the operation that is asked of it. -/
  | attribute
  /-- No stack is left. -/
  | recursion
  deriving DecidableEq, Repr

/-- The failure of showing a value. -/
def Value.ShowError.escape : Value.ShowError → Escape
  | tooLong => .value Numeral.tooLongMessage
  | tooDeep => .recursion

/-! ## Profiles -/

/-- Why a value is no profile. -/
inductive ProfileError where
  /-- The value, as it is shown, is not the name of a profile. -/
  | unknown (shown : Text)
  /-- The value cannot be shown. -/
  | unshown (cause : Value.ShowError)
  deriving DecidableEq, Repr

/-- The wording of that fault, if it has one. -/
def ProfileError.message? : ProfileError → Option Text
  | unknown shown =>
    some ("Unknown ISA profile '".toList ++ shown ++ "' (expected one of: ".toList ++
      Profile.choices ++ ")".toList)
  | unshown .tooLong => some Numeral.tooLongMessage
  | unshown .tooDeep => none

namespace Profile

/-- The report that a value is no profile. -/
def unknown (room : Room) (v : Value) : ProfileError :=
  match v.outer room.profile with
  | .ok shown => .unknown shown
  | .error cause => .unshown cause

/-- Reads a profile from a value, by the text the value is shown as.  A value that cannot be looked
up is no profile, unless no stack was left to do so. -/
def parse (room : Room) (v : Value) : Except ProfileError Profile :=
  match v.outer room.lookup with
  | .ok shown =>
    match ofName? shown with
    | some p => .ok p
    | none => .error (unknown room v)
  | .error .tooLong => .error (unknown room v)
  | .error .tooDeep => .error (.unshown .tooDeep)

end Profile

/-! ## Branch modes -/

/-- What a label stands for in a branch: its offset in the program, or its distance. -/
inductive BranchMode where
  | absolute | relative
  deriving DecidableEq, Repr

namespace BranchMode

/-- Both modes. -/
def all : List BranchMode := [absolute, relative]

/-- The name of a mode. -/
def name : BranchMode → Text
  | absolute => "absolute".toList
  | relative => "relative".toList

/-- Finds a mode by its name. -/
def ofName? (s : Text) : Option BranchMode := all.find? fun m => m.name == s

end BranchMode

/-! ## Settings -/

/-- How a program is assembled. -/
structure Settings where
  profile : Profile := .rv32i
  branches : BranchMode := .absolute
  /-- The address that the program is loaded at. -/
  baseAddress : Nat := 0x80000000
  stripComments : Bool := true
  deriving DecidableEq, Repr

/-- What is wrong with fields that settings are made from, as it is reported. -/
inductive SettingsFault where
  /-- A value is no profile, in these words. -/
  | profile (message : Text)
  /-- The value, as it is shown, is no branch mode. -/
  | branchMode (shown : Text)
  | addressType
  | addressValue
  | commentsType
  deriving DecidableEq, Repr

/-- The wording of a fault in settings. -/
def SettingsFault.message : SettingsFault → Text
  | profile message => message
  | branchMode shown =>
    "'branch_offsets' must be one of ".toList ++
      Text.joinComma (BranchMode.all.map BranchMode.name) ++ ", got ".toList ++ shown
  | addressType => "'base_address' must be an integer".toList
  | addressValue => "'base_address' must be a non-negative multiple of 4".toList
  | commentsType => "'strip_comments' must be a boolean".toList

/-- Why fields are no settings: they have a fault that is reported, or something else failed. -/
inductive SettingsError where
  | fault (fault : SettingsFault)
  | escape (escape : Escape)
  deriving DecidableEq, Repr

namespace Settings

/-- Fields by name. -/
abbrev Changes := List (Text × Value)

/-- The field of the profile. -/
def profileField : Text := "isa".toList

/-- The field of the branch mode. -/
def branchesField : Text := "branch_offsets".toList

/-- The field of the load address. -/
def addressField : Text := "base_address".toList

/-- The field that says whether comments are cut off. -/
def commentsField : Text := "strip_comments".toList

/-- The names of all fields. -/
def fieldNames : List Text := [profileField, branchesField, addressField, commentsField]

/-- The value given for a field; the last one counts. -/
def given? (changes : Changes) (field : Text) : Option Value := changes.reverse.lookup field

/-- Why a value that is no profile is no field: what can be worded is reported. -/
def ofProfileError (error : ProfileError) : SettingsError :=
  match error.message? with
  | some message => .fault (.profile message)
  | none => .escape .recursion

/-- Reads the field of the profile. -/
def readProfile (room : Room) (v : Value) : Except SettingsError Profile :=
  (Profile.parse room v).mapError ofProfileError

/-- The branch mode that a value is the name of. -/
def branchMode? : Value → Option BranchMode
  | .text s => BranchMode.ofName? s
  | _ => none

/-- Reads the field of the branch mode. -/
def readBranches (room : Room) (v : Value) : Except SettingsError BranchMode :=
  match branchMode? v with
  | some mode => .ok mode
  | none =>
    match v.inner room.branches with
    | .ok shown => .error (.fault (.branchMode shown))
    | .error cause => .error (.escape cause.escape)

/-- Reads the field of the load address. -/
def readAddress : Value → Except SettingsError Nat
  | .int (.ofNat n) => if n % 4 = 0 then .ok n else .error (.fault .addressValue)
  | .int (.negSucc _) => .error (.fault .addressValue)
  | _ => .error (.fault .addressType)

/-- Reads the field that says whether comments are cut off. -/
def readComments : Value → Except SettingsError Bool
  | .bool b => .ok b
  | _ => .error (.fault .commentsType)

/-- The value of a field after changes. -/
def field {α : Type} (changes : Changes) (name : Text) (read : Value → Except SettingsError α)
    (current : α) : Except SettingsError α :=
  match given? changes name with
  | some v => read v
  | none => .ok current

/-- Settings with some fields changed. -/
def update (room : Room) (s : Settings) (changes : Changes) : Except SettingsError Settings :=
  if changes.all fun change => fieldNames.contains change.1 then do
    let profile ← field changes profileField (readProfile room) s.profile
    let branches ← field changes branchesField (readBranches room) s.branches
    let baseAddress ← field changes addressField readAddress s.baseAddress
    let stripComments ← field changes commentsField readComments s.stripComments
    return { profile, branches, baseAddress, stripComments }
  else .error (.escape .type)

/-- Settings from fields, the others having their usual values. -/
def make (room : Room) (fields : Changes) : Except SettingsError Settings := update room {} fields

/-- A value that is not null. -/
def isChange (change : Text × Value) : Bool :=
  match change.2 with
  | .null => false
  | _ => true

/-- Settings with the fields changed for which a value other than null is given. -/
def override (room : Room) (s : Settings) (changes : Changes) : Except SettingsError Settings :=
  match changes.filter isChange with
  | [] => .ok s
  | kept => s.update room kept

/-- The fields of settings as values. -/
def toFields (s : Settings) : Changes :=
  [(profileField, .text s.profile.name), (branchesField, .text s.branches.name),
   (addressField, .int s.baseAddress), (commentsField, .bool s.stripComments)]

/-! ## Runs of changes -/

/-- A step of a run: new settings, or changes to the current ones. -/
inductive Step where
  | make (fields : Changes)
  | override (changes : Changes)

/-- The name of the settings that changes are made to, which no change can have. -/
def ownName : Text := "self".toList

/-- The settings that a step leads to. -/
def step (room : Room) (s : Settings) : Step → Except SettingsError Settings
  | .make fields => Settings.make room fields
  | .override changes =>
    if changes.any fun change => change.1 == ownName then .error (.escape .type)
    else s.override room changes

/-- Whether a step that succeeds hands back the current settings untouched. -/
def Step.keeps : Step → Bool
  | .make _ => false
  | .override changes => (changes.filter isChange).isEmpty

/-- The settings after a step, which stay as they were if it fails. -/
def after (room : Room) (s : Settings) (step : Step) : Settings :=
  match s.step room step with
  | .ok next => next
  | .error _ => s

end Settings

end RiscAsm

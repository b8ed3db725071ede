import RiscAsm.Settings

/-!
# Settings from a document

`Settings.ofText` reads settings from the text of a document, which must be a mapping of the fields
of settings.  A document without content gives the usual settings.  What the text says is told by a
`Loader`, of which nothing is known here; one that fails only on texts that are no documents
`Loader.Reports`.
-/

namespace RiscAsm

/-! ## Loaders -/

/-- Why a text is not loaded. -/
inductive LoadError where
  /-- The text is no document, for the reason that is told. -/
  | malformed (reason : Text)
  | escape (escape : Escape)
  deriving DecidableEq, Repr

/-- What texts say, as structured data. -/
abbrev Loader := Text → Except LoadError Value

/-- A loader gives a value for every text, or a reason why there is none. -/
def Loader.Reports (load : Loader) : Prop :=
  ∀ text escape, load text ≠ .error (.escape escape)

/-! ## Documents -/

/-- What is wrong with a document, as it is reported. -/
inductive DocumentFault where
  | malformed (reason : Text)
  | notMapping
  /-- Fields that settings do not have, in order. -/
  | unknownFields (names : List Text)
  | settings (fault : SettingsFault)
  deriving DecidableEq, Repr

/-- The wording of a fault in a document. -/
def DocumentFault.message : DocumentFault → Text
  | malformed reason => "Invalid YAML syntax: ".toList ++ reason
  | notMapping => "Configuration must be a YAML mapping/dictionary".toList
  | unknownFields names => "Unknown configuration field(s): ".toList ++ Text.joinComma names
  | settings fault => fault.message

/-- Why a document holds no settings: it has a fault that is reported, or something else failed. -/
inductive DocumentError where
  | fault (fault : DocumentFault)
  | escape (escape : Escape)
  deriving DecidableEq, Repr

/-- Why a document without settings is refused. -/
def DocumentError.ofSettings : SettingsError → DocumentError
  | .fault e => .fault (.settings e)
  | .escape e => .escape e

namespace Settings

/-- The field that a key names, if settings have it. -/
def knownField? : Value → Option Text
  | .text s => if fieldNames.contains s then some s else none
  | _ => none

/-- The keys of entries that do not name a field. -/
def unknownKeys (entries : List (Value × Value)) : List Value :=
  (entries.map Prod.fst).filter fun key => (knownField? key).isNone

/-- The fields of settings among the entries of a document. -/
def fieldsOf (entries : List (Value × Value)) : Changes :=
  entries.filterMap fun entry => (knownField? entry.1).map (·, entry.2)

/-- Settings from the entries of a document. -/
def ofEntries (room : Room) (entries : List (Value × Value)) : Except DocumentError Settings :=
  match (unknownKeys entries).mapM (Value.outer room.names) with
  | .error cause => .error (.escape cause.escape)
  | .ok [] => (make room (fieldsOf entries)).mapError .ofSettings
  | .ok names => .error (.fault (.unknownFields (names.mergeSort Text.le)))

/-- Settings from what a document says. -/
def ofValue (room : Room) : Value → Except DocumentError Settings
  | .null => .ok {}
  | .map entries => ofEntries room entries
  | _ => .error (.fault .notMapping)

/-- Settings from the text of a document. -/
def ofText (room : Room) (load : Loader) (text : Text) : Except DocumentError Settings :=
  match load text with
  | .error (.malformed reason) => .error (.fault (.malformed reason))
  | .error (.escape escape) => .error (.escape escape)
  | .ok value => ofValue room value

end Settings

end RiscAsm

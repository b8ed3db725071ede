import RiscAsm.Data.Yaml.Document
import RiscAsm.Settings.Document

/-!
# A loader of YAML documents

`Yaml.load` is a `Loader` with which the command can be run.  What is proved about the command is
proved for any loader and does not depend on this one.
-/

namespace RiscAsm

namespace Yaml

/-- The failure of a scalar without a value. -/
def ScalarError.escape : ScalarError → Escape
  | value message => .value message
  | tooLarge => .overflow
  | empty => .index
  | noTruth => .key
  | noTime => .attribute
  | noText => .type

/-- Why a text without a document is not loaded.  The reason is not worded. -/
def LoadError.toLoadError : LoadError → RiscAsm.LoadError
  | malformed => .malformed []
  | tooDeep => .escape .recursion
  | scalar error => .escape error.escape

/-- Loads the text of a YAML document. -/
def load : Loader := fun text =>
  match Document.load text with
  | .ok d => .ok d.content
  | .error e => .error e.toLoadError

end Yaml

/-- The room for values that are shown, in a stack of a thousand calls. -/
def Room.usual : Room where
  lookup := 975
  profile := 975
  branches := 975
  names := 975

end RiscAsm

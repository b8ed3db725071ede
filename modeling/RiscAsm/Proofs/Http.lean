import RiscAsm.Http
import RiscAsm.Proofs.Assemble.Outcome
import RiscAsm.Proofs.Data.Base64
import RiscAsm.Proofs.Settings.Document

/-!
# Assembling over HTTP

A program can be posted in three ways, and `Carries` says what a request is parsed to in each of
them.  The way does not matter: each of them leads to the same response, and the response tells what
assembling the program tells (`assembleSource_carried`).
-/

namespace RiscAsm.Http

/-! ## Options -/

/-- A request was parsed from one that posts the program `s` with the options `isa` and `branches`,
of which one that is missing counts as empty. -/
inductive Carries (s isa branches : Text) (r : Request) : Prop
  /-- It came as a JSON document that holds the program and the options. -/
  | document {entries : List (Value × Value)} (hfile : r.file = none) (hjson : r.isJson = true)
      (hpayload : r.payload = .map entries)
      (hsource : Value.lookup? sourceField entries = some (.text s))
      (hisa : (Value.lookup? Settings.profileField entries).getD (.text []) = .text isa)
      (hbranches : (Value.lookup? Settings.branchesField entries).getD (.text []) =
        .text branches)
  /-- It came as plain text, with the options in the query. -/
  | plain (hfile : r.file = none) (hjson : r.isJson = false) (hdata : r.data = Utf8.encode s)
      (hisa : (r.query.lookup Settings.profileField).getD [] = isa)
      (hbranches : (r.query.lookup Settings.branchesField).getD [] = branches)
  /-- It came as the file of a form, with the options in other fields. -/
  | upload (hfile : r.file = some (Utf8.encode s))
      (hisa : (r.form.lookup Settings.profileField).getD [] = isa)
      (hbranches : (r.form.lookup Settings.branchesField).getD [] = branches)

/-- A source as it was sent holds a text. -/
inductive Sends (s : Text) : Value → Source → Prop
  | text : Sends s (.text s) (.text s)
  | bytes : Sends s (.bytes (Utf8.encode s)) (.bytes (Utf8.encode s))

theorem Sends.holds {s : Text} {v : Value} {source : Source} (h : Sends s v source) :
    source.Holds s := by
  cases h with
  | text => exact rfl
  | bytes => exact rfl

end RiscAsm.Http

import RiscAsm.Proofs.Settings
import RiscAsm.Settings.Document

/-!
# Theory of settings from a document

Whatever a loader makes of a text, the text leads to valid settings (`Describes`), to a fault that
is reported, or to a failure that is not: the loader itself fails, or a value has to be shown that
cannot be (`Hides`).  Values are shown where a profile is looked up and in three reports, on a
profile, on a branch mode and on the names of fields, and each of them has its own room.
-/

namespace RiscAsm.Settings

variable {room : Room}

/-! ## Fields -/

/-- A field has a fault when the value that is given for it has. -/
theorem field_eq_error {α : Type} {changes : Changes} {name : Text}
    {read : Value → Except SettingsError α} {current : α} {e : SettingsError} :
    field changes name read current = .error e ↔
      ∃ v, given? changes name = some v ∧ read v = .error e := by
  rw [field]
  cases given? changes name with
  | none => simp
  | some v => simp

/-- A field can be read if the value that is given for it can. -/
theorem exists_field_eq_ok {α : Type} {changes : Changes} {name : Text}
    {read : Value → Except SettingsError α} {current : α} :
    (∃ a, field changes name read current = .ok a) ↔
      ∀ v, given? changes name = some v → ∃ a, read v = .ok a := by
  rw [field]
  cases given? changes name with
  | none => simp
  | some v => simp

/-- A value is nested too deep to be looked up among the profiles, or to be reported as none. -/
def HidesProfile (room : Room) (v : Value) : Prop :=
  v.outer room.lookup = .error .tooDeep ∨
    (¬ ∃ shown p, v.outer room.lookup = .ok shown ∧ upperAscii shown = Profile.name p) ∧
      v.outer room.profile = .error .tooDeep

/-- The report on a value that is no profile fails only if the value is nested too deep for it. -/
theorem ofProfileError_unknown {v : Value} {e : Escape} :
    ofProfileError (Profile.unknown room v) = .escape e ↔
      v.outer room.profile = .error .tooDeep ∧ e = .recursion := by
  rw [Profile.unknown]
  cases hshown : v.outer room.profile with
  | ok shown => simp [ofProfileError, ProfileError.message?]
  | error cause =>
      cases cause with
      | tooLong => simp [ofProfileError, ProfileError.message?]
      | tooDeep => simp [ofProfileError, ProfileError.message?, @eq_comm _ e]

theorem readProfile_eq_escape {v : Value} {e : Escape} :
    readProfile room v = .error (.escape e) ↔ HidesProfile room v ∧ e = .recursion := by
  rw [readProfile, Result.mapError_eq_error, Profile.parse, HidesProfile]
  cases hshown : v.outer room.lookup with
  | error cause =>
      cases cause with
      | tooLong => simp [ofProfileError_unknown]
      | tooDeep => simp [ofProfileError, ProfileError.message?, @eq_comm _ e]
  | ok shown =>
      cases hname : Profile.ofName? shown with
      | some p => simp [← Profile.ofName?_eq_some, hname]
      | none => simp [← Profile.ofName?_eq_some, hname, ofProfileError_unknown]

/-- A text can always be shown. -/
theorem inner_text (room : Nat) (s : Text) : Value.inner room (.text s) = .ok (Quoted.quote s) := by
  cases room with
  | zero => rw [Value.inner, Value.innerWith]
  | succ room => rw [Value.inner, Value.innerWith]

theorem readBranches_eq_escape {v : Value} {e : Escape} :
    readBranches room v = .error (.escape e) ↔
      ∃ cause, v.inner room.branches = .error cause ∧ e = cause.escape := by
  rw [readBranches]
  cases hmode : branchMode? v with
  | some mode =>
      obtain rfl := branchMode?_eq_some.mp hmode
      simp [inner_text]
  | none =>
      cases v.inner room.branches with
      | ok shown => simp
      | error cause => simp [@eq_comm _ e]

theorem readAddress_ne_escape (v : Value) (e : Escape) : readAddress v ≠ .error (.escape e) := by
  unfold readAddress
  split
  · split <;> nofun
  · nofun
  · nofun

theorem readComments_ne_escape (v : Value) (e : Escape) : readComments v ≠ .error (.escape e) := by
  unfold readComments
  split <;> nofun

/-- Of the fields of settings, one has a value that cannot be shown: the profile, or, if that can be
read, the branch mode. -/
def HidesField (room : Room) (fields : Changes) : Prop :=
  (∃ v, given? fields profileField = some v ∧ HidesProfile room v) ∨
  (∀ v, given? fields profileField = some v → ∃ p, readProfile room v = .ok p) ∧
    ∃ v cause, given? fields branchesField = some v ∧ v.inner room.branches = .error cause

/-- Fields that settings have are read, reported or hidden. -/
theorem update_eq_escape_iff {s : Settings} {changes : Changes}
    (hnames : ∀ change ∈ changes, change.1 ∈ fieldNames) :
    (∃ e, s.update room changes = .error (.escape e)) ↔ HidesField room changes := by
  have hknown : (changes.all fun change => fieldNames.contains change.1) = true := by
    simpa using hnames
  rw [update, if_pos hknown, HidesField, ← exists_field_eq_ok]
  constructor
  · rintro ⟨e, h⟩
    rcases Result.bind_eq_error.mp h with hprofile | ⟨profile, hprofile, h⟩
    · obtain ⟨v, hgiven, hv⟩ := field_eq_error.mp hprofile
      exact .inl ⟨v, hgiven, (readProfile_eq_escape.mp hv).1⟩
    rcases Result.bind_eq_error.mp h with hbranches | ⟨branches, -, h⟩
    · obtain ⟨v, hgiven, hv⟩ := field_eq_error.mp hbranches
      obtain ⟨cause, hshown, -⟩ := readBranches_eq_escape.mp hv
      exact .inr ⟨⟨profile, hprofile⟩, v, cause, hgiven, hshown⟩
    rcases Result.bind_eq_error.mp h with haddress | ⟨address, -, h⟩
    · obtain ⟨v, -, hv⟩ := field_eq_error.mp haddress
      exact absurd hv (readAddress_ne_escape v e)
    rcases Result.bind_eq_error.mp h with hcomments | ⟨comments, -, h⟩
    · obtain ⟨v, -, hv⟩ := field_eq_error.mp hcomments
      exact absurd hv (readComments_ne_escape v e)
    · exact absurd h Result.pure_ne_error
  · rintro (⟨v, hgiven, hhidden⟩ | ⟨⟨profile, hprofile⟩, v, cause, hgiven, hshown⟩)
    · refine ⟨.recursion, Result.bind_eq_error.mpr (.inl ?_)⟩
      exact field_eq_error.mpr ⟨v, hgiven, readProfile_eq_escape.mpr ⟨hhidden, rfl⟩⟩
    · refine ⟨cause.escape, Result.bind_eq_error.mpr (.inr ⟨profile, hprofile, ?_⟩)⟩
      refine Result.bind_eq_error.mpr (.inl (field_eq_error.mpr ⟨v, hgiven, ?_⟩))
      exact readBranches_eq_escape.mpr ⟨cause, hshown, rfl⟩

/-- Texts are never hidden. -/
theorem not_hidesField_of_texts {fields : Changes}
    (h : ∀ field ∈ fields, ∃ text, field.2 = .text text) : ¬ HidesField room fields := by
  have htext : ∀ {name v}, given? fields name = some v → ∃ text, v = .text text :=
    fun hgiven => h _ (List.mem_reverse.mp (mem_of_lookup hgiven))
  rintro (⟨v, hgiven, hlookup | ⟨-, hprofile⟩⟩ | ⟨-, v, cause, hgiven, hbranches⟩)
  · obtain ⟨text, rfl⟩ := htext hgiven
    cases hlookup
  · obtain ⟨text, rfl⟩ := htext hgiven
    cases hprofile
  · obtain ⟨text, rfl⟩ := htext hgiven
    rw [inner_text] at hbranches
    cases hbranches

/-! ## Entries -/

/-- The report on the entries of a document would have to show a value that cannot be shown: the
name of a field that settings do not have, or, if there is none, the value of a field. -/
def Hides (room : Room) (entries : List (Value × Value)) : Prop :=
  (∃ key ∈ unknownKeys entries, ∃ cause, key.outer room.names = .error cause) ∨
    unknownKeys entries = [] ∧ HidesField room (fieldsOf entries)

theorem names_fieldsOf (entries : List (Value × Value)) :
    ∀ change ∈ fieldsOf entries, change.1 ∈ fieldNames := by
  intro change hchange
  obtain ⟨⟨key, v⟩, -, hknown⟩ := List.mem_filterMap.mp hchange
  obtain ⟨name, hname, rfl⟩ := Option.map_eq_some_iff.mp hknown
  unfold knownField? at hname
  split at hname
  · split at hname
    · rename_i hcontains
      obtain rfl := Option.some.inj hname
      simpa using hcontains
    · cases hname
  · cases hname

/-- What entries lead to: a name that cannot be shown, the report of unknown names, or what is made
from their fields. -/
theorem ofEntries_cases (room : Room) (entries : List (Value × Value)) :
    ((∃ key ∈ unknownKeys entries, ∃ cause, key.outer room.names = .error cause) ∧
      ∃ e, ofEntries room entries = .error (.escape e)) ∨
    ((¬ ∃ key ∈ unknownKeys entries, ∃ cause, key.outer room.names = .error cause) ∧
      unknownKeys entries ≠ [] ∧ ∃ fault, ofEntries room entries = .error (.fault fault)) ∨
    unknownKeys entries = [] ∧
      ofEntries room entries = (make room (fieldsOf entries)).mapError .ofSettings := by
  rw [ofEntries]
  cases hnames : (unknownKeys entries).mapM (Value.outer room.names) with
  | error cause =>
      obtain ⟨i, key, hkey, hshown, -⟩ := Result.mapM_eq_error hnames
      exact .inl ⟨⟨key, List.mem_of_getElem? hkey, cause, hshown⟩, cause.escape, rfl⟩
  | ok names =>
      obtain ⟨hlength, hall⟩ := Result.mapM_eq_ok hnames
      cases names with
      | nil => exact .inr (.inr ⟨List.length_eq_zero_iff.mp hlength.symm, rfl⟩)
      | cons name names =>
          refine .inr (.inl ⟨?_, ?_, _, rfl⟩)
          · rintro ⟨key, hkey, cause, hhidden⟩
            obtain ⟨i, hi⟩ := List.getElem?_of_mem hkey
            obtain ⟨shown, hshown, -⟩ := hall i key hi
            rw [hhidden] at hshown
            cases hshown
          · intro hnil
            rw [hnil] at hlength
            cases hlength

/-- Entries lead to settings exactly if all their names are those of fields, and the settings are
made from the fields. -/
theorem ofEntries_eq_ok {entries : List (Value × Value)} {s : Settings} :
    ofEntries room entries = .ok s ↔
      unknownKeys entries = [] ∧ make room (fieldsOf entries) = .ok s := by
  rcases ofEntries_cases room entries with ⟨⟨key, hkey, -⟩, e, hresult⟩ |
    ⟨-, hne, fault, hresult⟩ | ⟨hnone, hresult⟩
  · rw [hresult]
    exact ⟨nofun, fun h => absurd h.1 (List.ne_nil_of_mem hkey)⟩
  · rw [hresult]
    exact ⟨nofun, fun h => absurd h.1 hne⟩
  · rw [hresult, Result.mapError_eq_ok]
    exact ⟨fun h => ⟨hnone, h⟩, fun h => h.2⟩

theorem ofSettings_eq_escape {error : SettingsError} {e : Escape} :
    DocumentError.ofSettings error = .escape e ↔ error = .escape e := by
  cases error <;> simp [DocumentError.ofSettings]

/-- Entries lead to a failure that is not reported exactly if they hide a value. -/
theorem ofEntries_eq_escape_iff {entries : List (Value × Value)} :
    (∃ e, ofEntries room entries = .error (.escape e)) ↔ Hides room entries := by
  rw [Hides]
  rcases ofEntries_cases room entries with ⟨hhidden, hresult⟩ |
    ⟨hshown, hne, fault, hresult⟩ | ⟨hnone, hresult⟩
  · exact ⟨fun _ => .inl hhidden, fun _ => hresult⟩
  · simp [hresult, hshown, hne]
  · rw [hresult, ← @update_eq_escape_iff room {} _ (names_fieldsOf entries)]
    simp only [Result.mapError_eq_error, ofSettings_eq_escape, exists_eq_right, hnone, make]
    simp

/-! ## Documents -/

/-- A text describes settings: it says nothing and they are the usual ones, or it is a mapping of
fields that they are made from. -/
def Describes (room : Room) (load : Loader) (text : Text) (s : Settings) : Prop :=
  load text = .ok .null ∧ s = {} ∨
    ∃ entries, load text = .ok (.map entries) ∧ unknownKeys entries = [] ∧
      make room (fieldsOf entries) = .ok s

theorem ofText_eq_ok {load : Loader} {text : Text} {s : Settings} :
    ofText room load text = .ok s ↔ Describes room load text s := by
  rw [ofText, Describes]
  cases load text with
  | error error => cases error <;> simp
  | ok value =>
      cases value with
      | null => simp [ofValue, @eq_comm _ s]
      | map entries => simp [ofValue, ofEntries_eq_ok]
      | _ => simp [ofValue]

/-- Settings that a text describes are valid. -/
theorem Describes.valid {load : Loader} {text : Text} {s : Settings}
    (h : Describes room load text s) : s.Valid := by
  rcases h with ⟨-, rfl⟩ | ⟨entries, -, -, hmake⟩
  · exact valid_default
  · exact valid_update valid_default hmake

/-- With a loader that reports, all failures are reported but those to show a value. -/
theorem ofText_eq_escape_iff {load : Loader} (hload : load.Reports) {text : Text} :
    (∃ e, ofText room load text = .error (.escape e)) ↔
      ∃ entries, load text = .ok (.map entries) ∧ Hides room entries := by
  rw [ofText]
  cases hvalue : load text with
  | error error =>
      cases error with
      | malformed reason => simp
      | escape escape => exact absurd hvalue (hload text escape)
  | ok value =>
      cases value with
      | map entries => simp [ofValue, ofEntries_eq_escape_iff]
      | _ => simp [ofValue]

end RiscAsm.Settings

import RiscAsm.Proofs.Result
import RiscAsm.Settings

/-!
# Theory of settings

Settings are made from fields, and changed by fields that are not null.  `update_eq_ok_iff_carries`
says which fields are accepted and what settings they lead to.  Changes that succeed one after the
other are one change, in which the later fields win (`update_append`); as the fields of valid
settings make these settings again (`make_toFields`), changing settings is making new ones from
their fields and the changes.  Whatever is made or changed is valid (`valid_update`), and so are the
settings after any steps (`run_lawful`).
-/

namespace RiscAsm

/-! ## Names -/

/-- A profile is found by its name in any case. -/
theorem Profile.ofName?_eq_some {name : Text} {p : Profile} :
    ofName? name = some p ↔ upperAscii name = p.name := by
  rw [ofName?]
  constructor
  · intro h
    have hname := List.find?_some h
    exact (beq_iff_eq.mp hname).symm
  · intro h
    rw [h]
    cases p with
    | auto => rfl
    | rv32i => rfl
    | rv64i => rfl

theorem Profile.upperAscii_name (p : Profile) : upperAscii p.name = p.name := by
  cases p with
  | auto => rfl
  | rv32i => rfl
  | rv64i => rfl

theorem Profile.eq_of_name_eq {p q : Profile} (h : p.name = q.name) : p = q := by
  have hp := ofName?_eq_some.mpr p.upperAscii_name
  rw [h, ofName?_eq_some.mpr q.upperAscii_name] at hp
  exact (Option.some.inj hp).symm

/-- A branch mode is found by its name. -/
theorem BranchMode.ofName?_eq_some {name : Text} {mode : BranchMode} :
    ofName? name = some mode ↔ name = mode.name := by
  rw [ofName?]
  constructor
  · intro h
    have hname := List.find?_some h
    exact (beq_iff_eq.mp hname).symm
  · rintro rfl
    cases mode with
    | absolute => rfl
    | relative => rfl

theorem BranchMode.eq_of_name_eq {m n : BranchMode} (h : m.name = n.name) : m = n :=
  Option.some.inj ((ofName?_eq_some.mpr rfl).symm.trans (ofName?_eq_some.mpr h))

namespace Settings

/-! ## Fields -/

/-- The value of a field. -/
def value? (s : Settings) (field : Text) : Option Value := given? s.toFields field

theorem value?_profile (s : Settings) : s.value? profileField = some (.text s.profile.name) := rfl

theorem value?_branches (s : Settings) : s.value? branchesField = some (.text s.branches.name) :=
  rfl

theorem value?_address (s : Settings) : s.value? addressField = some (.int s.baseAddress) := rfl

theorem value?_comments (s : Settings) : s.value? commentsField = some (.bool s.stripComments) :=
  rfl

/-- Settings are valid if the values of their fields are: the name of a profile, the name of a
branch mode, a multiple of four that is not negative, and a truth value. -/
structure Valid (s : Settings) : Prop where
  profile : ∃ name ∈ ["AUTO", "RV32I", "RV64I"],
    s.value? profileField = some (.text (String.toList name))
  branches : ∃ name ∈ ["absolute", "relative"],
    s.value? branchesField = some (.text (String.toList name))
  address : ∃ n : Int, s.value? addressField = some (.int n) ∧ 0 ≤ n ∧ n % 4 = 0
  comments : ∃ b : Bool, s.value? commentsField = some (.bool b)

/-- All but the address is valid by its type. -/
theorem valid_iff {s : Settings} : s.Valid ↔ s.baseAddress % 4 = 0 := by
  constructor
  · intro h
    obtain ⟨n, hn, -, hmultiple⟩ := h.address
    rw [value?_address, Option.some.injEq, Value.int.injEq] at hn
    omega
  · intro h
    constructor
    · rw [value?_profile]
      cases s.profile with
      | auto => exact ⟨"AUTO", by simp, rfl⟩
      | rv32i => exact ⟨"RV32I", by simp, rfl⟩
      | rv64i => exact ⟨"RV64I", by simp, rfl⟩
    · rw [value?_branches]
      cases s.branches with
      | absolute => exact ⟨"absolute", by simp, rfl⟩
      | relative => exact ⟨"relative", by simp, rfl⟩
    · exact ⟨s.baseAddress, value?_address s, by omega, by omega⟩
    · exact ⟨s.stripComments, value?_comments s⟩

/-! ## Reading values -/

section Reading

variable {room : Room}

theorem readProfile_eq_ok {v : Value} {p : Profile} :
    readProfile room v = .ok p ↔
      ∃ shown, v.outer room.lookup = .ok shown ∧ upperAscii shown = p.name := by
  rw [readProfile, Result.mapError_eq_ok, Profile.parse]
  cases hshown : v.outer room.lookup with
  | error cause => cases cause <;> simp
  | ok shown =>
      simp only [Except.ok.injEq, exists_eq_left', ← Profile.ofName?_eq_some]
      cases Profile.ofName? shown with
      | none => simp
      | some found => simp

theorem branchMode?_eq_some {v : Value} {mode : BranchMode} :
    branchMode? v = some mode ↔ v = .text mode.name := by
  cases v with
  | text s => rw [Value.text.injEq, branchMode?, BranchMode.ofName?_eq_some]
  | _ => exact ⟨nofun, nofun⟩

theorem readBranches_eq_ok {v : Value} {mode : BranchMode} :
    readBranches room v = .ok mode ↔ v = .text mode.name := by
  rw [← branchMode?_eq_some, readBranches]
  cases branchMode? v with
  | some found => simp
  | none => cases v.inner room.branches <;> simp

theorem readAddress_eq_ok {v : Value} {n : Nat} :
    readAddress v = .ok n ↔ v = .int n ∧ n % 4 = 0 := by
  cases v with
  | int i =>
      cases i with
      | ofNat m =>
          rw [readAddress, Value.int.injEq]
          split
          · rename_i hmultiple
            rw [Except.ok.injEq]
            exact ⟨fun h => ⟨congrArg Int.ofNat h, h ▸ hmultiple⟩, fun h => Int.ofNat.inj h.1⟩
          · rename_i hother
            exact ⟨nofun, fun h => absurd h.2 (Int.ofNat.inj h.1 ▸ hother)⟩
      | negSucc m =>
          rw [readAddress, Value.int.injEq]
          exact ⟨nofun, fun h => nomatch h.1⟩
  | _ => simp [readAddress]

theorem readComments_eq_ok {v : Value} {b : Bool} : readComments v = .ok b ↔ v = .bool b := by
  cases v with
  | bool c => simp [readComments]
  | _ => simp [readComments]

end Reading

/-! ## Changes -/

/-- Of two changes of a field the later one counts. -/
theorem given?_append (first second : Changes) (name : Text) :
    given? (first ++ second) name = (given? second name).or (given? first name) := by
  rw [given?, List.reverse_append, List.lookup_append, given?, given?]

/-- After changes to a field that succeeded, more changes are changes to what they gave. -/
theorem field_append {α : Type} {first : Changes} {name : Text}
    {read : Value → Except SettingsError α} {current value : α}
    (h : field first name read current = .ok value) (second : Changes) :
    field (first ++ second) name read current = field second name read value := by
  rw [field, given?_append, field]
  cases given? second name with
  | none => simpa [field] using h
  | some v => rfl

variable {room : Room}

/-- Changes succeed when all names are those of fields and all fields can be read. -/
theorem update_eq_ok_iff {s next : Settings} {changes : Changes} :
    s.update room changes = .ok next ↔ (∀ change ∈ changes, change.1 ∈ fieldNames) ∧
      field changes profileField (readProfile room) s.profile = .ok next.profile ∧
      field changes branchesField (readBranches room) s.branches = .ok next.branches ∧
      field changes addressField readAddress s.baseAddress = .ok next.baseAddress ∧
      field changes commentsField readComments s.stripComments = .ok next.stripComments := by
  have hnames : (changes.all fun change => fieldNames.contains change.1) = true ↔
      ∀ change ∈ changes, change.1 ∈ fieldNames := by simp
  rw [update, ← hnames]
  split
  · rename_i hknown
    simp only [Result.bind_eq_ok, Result.pure_eq_ok, hknown, true_and]
    constructor
    · rintro ⟨profile, hprofile, branches, hbranches, address, haddress, comments, hcomments, rfl⟩
      exact ⟨hprofile, hbranches, haddress, hcomments⟩
    · rintro ⟨hprofile, hbranches, haddress, hcomments⟩
      exact ⟨_, hprofile, _, hbranches, _, haddress, _, hcomments, rfl⟩
  · rename_i hunknown
    exact ⟨nofun, fun h => absurd h.1 hunknown⟩

/-- Changes after changes that succeeded are one change. -/
theorem update_append {s mid : Settings} {first : Changes} (h : s.update room first = .ok mid)
    (second : Changes) : s.update room (first ++ second) = mid.update room second := by
  obtain ⟨hnames, hprofile, hbranches, haddress, hcomments⟩ := update_eq_ok_iff.mp h
  have hknown : (first.all fun change => fieldNames.contains change.1) = true := by
    simpa using hnames
  rw [update, update, List.all_append, hknown, Bool.true_and, field_append hprofile,
    field_append hbranches, field_append haddress, field_append hcomments]

/-- Only the changes that are not null count. -/
theorem override_eq_update (s : Settings) (changes : Changes) :
    s.override room changes = s.update room (changes.filter isChange) := by
  rw [override]
  cases changes.filter isChange with
  | nil => rfl
  | cons change rest => rfl

/-- The fields of valid settings make these settings. -/
theorem make_toFields {s : Settings} (h : s.Valid) : make room s.toFields = .ok s := by
  have hnames : ∀ change ∈ s.toFields, change.1 ∈ fieldNames := by
    simp [toFields, fieldNames]
  refine update_eq_ok_iff.mpr ⟨hnames, ?_, ?_, ?_, ?_⟩
  · exact readProfile_eq_ok.mpr ⟨s.profile.name, rfl, s.profile.upperAscii_name⟩
  · exact readBranches_eq_ok.mpr rfl
  · exact readAddress_eq_ok.mpr ⟨rfl, valid_iff.mp h⟩
  · exact readComments_eq_ok.mpr rfl

/-- Changing settings is making new ones from their fields and the changes. -/
theorem override_eq_make {s : Settings} (h : s.Valid) (changes : Changes) :
    s.override room changes = make room (s.toFields ++ changes.filter isChange) := by
  rw [override_eq_update, make, update_append (make_toFields h)]

/-! ## What settings hold -/

/-- What a field has after a value was given for it.  A profile may be named in any case. -/
def Reads (room : Room) (field : Text) (given kept : Value) : Prop :=
  if field = profileField then
    ∃ shown p, given.outer room.lookup = .ok shown ∧ upperAscii shown = Profile.name p ∧
      kept = .text p.name
  else if field = branchesField then ∃ mode : BranchMode, given = .text mode.name ∧ kept = given
  else if field = addressField then ∃ n : Nat, given = .int n ∧ n % 4 = 0 ∧ kept = given
  else field = commentsField ∧ ∃ b : Bool, given = .bool b ∧ kept = given

/-- A field has what was given for it, or else what it had. -/
def Carries (room : Room) (s : Settings) (changes : Changes) (next : Settings) (field : Text) :
    Prop :=
  match given? changes field with
  | some given => ∃ kept, next.value? field = some kept ∧ Reads room field given kept
  | none => next.value? field = s.value? field

theorem reads_profile {v : Value} {p : Profile} :
    readProfile room v = .ok p ↔ Reads room profileField v (.text p.name) := by
  rw [readProfile_eq_ok, Reads, if_pos rfl]
  constructor
  · rintro ⟨shown, hshown, hname⟩
    exact ⟨shown, p, hshown, hname, rfl⟩
  · rintro ⟨shown, q, hshown, hname, hkept⟩
    exact ⟨shown, hshown, hname.trans (Value.text.inj hkept).symm⟩

theorem reads_branches {v : Value} {mode : BranchMode} :
    readBranches room v = .ok mode ↔ Reads room branchesField v (.text mode.name) := by
  rw [readBranches_eq_ok, Reads, if_neg (by decide), if_pos rfl]
  constructor
  · rintro rfl
    exact ⟨mode, rfl, rfl⟩
  · rintro ⟨-, -, hkept⟩
    exact hkept.symm

theorem reads_address {v : Value} {n : Nat} :
    readAddress v = .ok n ↔ Reads room addressField v (.int n) := by
  rw [readAddress_eq_ok, Reads, if_neg (by decide), if_neg (by decide), if_pos rfl]
  constructor
  · rintro ⟨rfl, hmultiple⟩
    exact ⟨n, rfl, hmultiple, rfl⟩
  · rintro ⟨m, rfl, hmultiple, hkept⟩
    obtain rfl := Int.ofNat.inj (Value.int.inj hkept)
    exact ⟨rfl, hmultiple⟩

theorem reads_comments {v : Value} {b : Bool} :
    readComments v = .ok b ↔ Reads room commentsField v (.bool b) := by
  rw [readComments_eq_ok, Reads, if_neg (by decide), if_neg (by decide), if_neg (by decide)]
  constructor
  · rintro rfl
    exact ⟨rfl, b, rfl, rfl⟩
  · rintro ⟨-, -, -, hkept⟩
    exact hkept.symm

/-- A field is read exactly if its value is carried. -/
theorem field_eq_ok_iff_carries {α : Type} {name : Text} {read : Value → Except SettingsError α}
    (get : Settings → α) (toValue : α → Value)
    (hvalue : ∀ s, value? s name = some (toValue (get s)))
    (hinjective : ∀ a b, toValue a = toValue b → a = b)
    (hread : ∀ v a, read v = .ok a ↔ Reads room name v (toValue a)) (s next : Settings)
    (changes : Changes) :
    field changes name read (get s) = .ok (get next) ↔ s.Carries room changes next name := by
  rw [field, Carries]
  cases given? changes name with
  | none =>
      simp only [hvalue, Except.ok.injEq, Option.some.injEq]
      exact ⟨fun h => congrArg toValue h.symm, fun h => (hinjective _ _ h).symm⟩
  | some v => simp only [hread, hvalue, Option.some.injEq, exists_eq_left']

/-- Changes lead to settings exactly if all names are those of fields and the settings have what was
given, and for all else what was there before. -/
theorem update_eq_ok_iff_carries {s next : Settings} {changes : Changes} :
    s.update room changes = .ok next ↔ (∀ change ∈ changes, change.1 ∈ fieldNames) ∧
      ∀ field ∈ fieldNames, s.Carries room changes next field := by
  have hprofile := field_eq_ok_iff_carries Settings.profile (fun p => .text p.name) value?_profile
    (fun _ _ h => Profile.eq_of_name_eq (Value.text.inj h)) (fun _ _ => @reads_profile room _ _)
    s next changes
  have hbranches := field_eq_ok_iff_carries Settings.branches (fun mode => .text mode.name)
    value?_branches (fun _ _ h => BranchMode.eq_of_name_eq (Value.text.inj h))
    (fun _ _ => @reads_branches room _ _) s next changes
  have haddress := field_eq_ok_iff_carries Settings.baseAddress (fun n => .int n) value?_address
    (fun _ _ h => Int.ofNat.inj (Value.int.inj h)) (fun _ _ => @reads_address room _ _)
    s next changes
  have hcomments := field_eq_ok_iff_carries Settings.stripComments Value.bool value?_comments
    (fun _ _ h => Value.bool.inj h) (fun _ _ => @reads_comments room _ _) s next changes
  rw [update_eq_ok_iff, hprofile, hbranches, haddress, hcomments]
  simp [fieldNames]

/-! ## Valid settings -/

/-- The usual settings are valid. -/
theorem valid_default : Valid {} := valid_iff.mpr (by decide)

/-- Changes to valid settings lead to valid ones. -/
theorem valid_update {s next : Settings} {changes : Changes} (hs : s.Valid)
    (h : s.update room changes = .ok next) : next.Valid := by
  -- only the address can be wrong, and it was either read or there before
  obtain ⟨-, -, -, haddress, -⟩ := update_eq_ok_iff.mp h
  rw [field] at haddress
  rw [valid_iff]
  split at haddress
  · exact (readAddress_eq_ok.mp haddress).2
  · rw [← Except.ok.inj haddress]
    exact valid_iff.mp hs

/-- A field that is given as null, if at all, keeps its value. -/
theorem value?_override {s next : Settings} {changes : Changes}
    (h : s.override room changes = .ok next) {field : Text} (hfield : field ∈ fieldNames)
    (hnull : ∀ v, (field, v) ∈ changes → v = .null) : next.value? field = s.value? field := by
  have hnone : given? (changes.filter isChange) field = none := by
    rw [given?, lookup_eq_none_iff_not_mem, List.map_reverse, List.mem_reverse]
    intro hmem
    obtain ⟨⟨name, v⟩, hchange, rfl⟩ := List.mem_map.mp hmem
    obtain ⟨hgiven, hkept⟩ := List.mem_filter.mp hchange
    rw [hnull v hgiven] at hkept
    cases hkept
  rw [override_eq_update] at h
  have hcarries := (update_eq_ok_iff_carries.mp h).2 field hfield
  rwa [Carries, hnone] at hcarries

/-- The changes that are not null of two overrides, of which the later ones count. -/
def merge (first second : Changes) : Changes := first.filter isChange ++ second.filter isChange

/-- Overriding twice is overriding once. -/
theorem override_merge {s mid : Settings} {first : Changes} (h : s.override room first = .ok mid)
    (second : Changes) : s.override room (merge first second) = mid.override room second := by
  rw [override_eq_update] at h
  have hmerge : (merge first second).filter isChange = merge first second := by
    simp [merge, List.filter_append, List.filter_filter]
  rw [override_eq_update, hmerge, merge, update_append h, override_eq_update]

/-! ## Runs -/

/-- The settings after steps, from the usual ones on. -/
def afterAll (room : Room) (steps : List Step) : Settings := steps.foldl (after room) {}

/-- A step from valid settings leads to valid ones. -/
theorem valid_step {s next : Settings} {step : Step} (hs : s.Valid)
    (h : s.step room step = .ok next) : next.Valid := by
  cases step with
  | make fields => exact valid_update valid_default h
  | override changes =>
      rw [Settings.step] at h
      split at h
      · cases h
      · rw [override_eq_update] at h
        exact valid_update hs h

theorem valid_after {s : Settings} (hs : s.Valid) (step : Step) : (s.after room step).Valid := by
  rw [after]
  cases h : s.step room step with
  | ok next => exact valid_step hs h
  | error error => exact hs

theorem valid_afterAll (room : Room) (steps : List Step) : (afterAll room steps).Valid := by
  have hrun : ∀ s : Settings, s.Valid → (steps.foldl (after room) s).Valid := by
    induction steps with
    | nil => exact fun s hs => hs
    | cons step rest ih => exact fun s hs => ih (s.after room step) (valid_after hs step)
  exact hrun {} valid_default

/-- What holds of settings that steps lead to. -/
structure Lawful (room : Room) (s : Settings) : Prop where
  valid : s.Valid
  /-- A step that fails leaves the settings as they were. -/
  keeps : ∀ step error, s.step room step = .error error → s.after room step = s
  /-- A step that succeeds leads to valid settings. -/
  leads : ∀ step next, s.step room step = .ok next → s.after room step = next ∧ next.Valid
  /-- A step that overrides does what overriding does, if it succeeds. -/
  overrides : ∀ changes next, s.step room (.override changes) = .ok next →
    s.override room changes = .ok next
  /-- Overriding gives what is made from all fields, changed by what is not null, or fails alike. -/
  override_eq : ∀ changes,
    s.override room changes = make room (s.toFields ++ changes.filter isChange)
  /-- A field that is not given, or given as null, keeps its value. -/
  unchanged : ∀ changes next, s.override room changes = .ok next → ∀ field ∈ fieldNames,
    (∀ v, (field, v) ∈ changes → v = .null) → next.value? field = s.value? field
  /-- Two overrides that succeed are one. -/
  merges : ∀ first second mid last, s.override room first = .ok mid →
    mid.override room second = .ok last → s.override room (merge first second) = .ok last

/-- **Settings stay valid, and overriding is making them anew.**  After any steps, whether they
succeed or fail, the settings are valid and obey the laws of overriding.  Settings are made exactly
from fields with known names and acceptable values, and have these values. -/
theorem run_lawful (room : Room) (steps : List Step) :
    (afterAll room steps).Lawful room ∧
    ∀ fields next, make room fields = .ok next ↔
      (∀ change ∈ fields, change.1 ∈ fieldNames) ∧
        ∀ field ∈ fieldNames, Carries room {} fields next field := by
  have hvalid := valid_afterAll room steps
  refine ⟨?_, fun fields next => update_eq_ok_iff_carries⟩
  constructor
  case valid => exact hvalid
  case keeps =>
    intro step error h
    rw [after, h]
  case leads =>
    intro step next h
    refine ⟨?_, valid_step hvalid h⟩
    rw [after, h]
  case overrides =>
    intro changes next h
    rw [Settings.step] at h
    split at h
    · cases h
    · exact h
  case override_eq => exact override_eq_make hvalid
  case unchanged =>
    intro changes next h field hfield hnull
    exact value?_override h hfield hnull
  case merges =>
    intro first second mid last hfirst hsecond
    rw [override_merge hfirst, hsecond]

/-- A step that fails, between others, and two overrides after them. -/
theorem run_lawful_mixed :
    let room : Room := ⟨0, 0, 0, 0⟩
    let steps : List Step := [.make [(profileField, .text "rv64i".toList)],
      .override [(addressField, .int 6)]]
    (afterAll room steps).Valid ∧
      (afterAll room steps).override room
        (merge [(addressField, .int 4096), (branchesField, .text "relative".toList)]
          [(profileField, .null), (addressField, .int 8)]) = .ok ⟨.rv64i, .relative, 8, true⟩ := by
  intro room steps
  have h := (run_lawful room steps).1
  exact ⟨h.valid, h.merges _ _ ⟨.rv64i, .relative, 4096, true⟩ _ rfl rfl⟩

end Settings

end RiscAsm

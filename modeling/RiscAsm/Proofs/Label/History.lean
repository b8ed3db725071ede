import Mathlib.Data.List.Induction
import Mathlib.Data.List.Nodup
import RiscAsm.Label.History
import RiscAsm.Proofs.Result
import RiscAsm.Proofs.Steps

/-!
# A label table is a write-once map

What a label table answers after any actions is decided by the definitions among them: every name
has the offset of its first definition (`first?`), and the names stand in the order of their first
definitions (`firstNames`).  A later definition of a name fails and changes nothing.  One action
carries this on (`writes_step`), so it holds at every place of every run (`run_writeOnce`).
-/

namespace RiscAsm.LabelTable

/-! ## What actions define -/

/-- The name and the offset that an action asks to be recorded. -/
def Action.definition? : Action → Option (Text × Int)
  | .define name offset _ _ => some (name, offset)
  | _ => none

/-- The definitions that are asked for, whether they succeed or not. -/
def asked (actions : List Action) : List (Text × Int) := actions.filterMap Action.definition?

/-- The offset in the first definition of a name. -/
def first? (actions : List Action) (name : Text) : Option Int := (asked actions).lookup name

/-- The names that definitions are asked for, in the order of the first ones. -/
def firstNames (actions : List Action) : List Text := ((asked actions).map Prod.fst).eraseDups

/-- The names with the offsets of their first definitions. -/
def firstItems (actions : List Action) : List (Text × Int) :=
  (firstNames actions).filterMap fun name => (first? actions name).map fun offset => (name, offset)

/-- The table that actions lead to from a new one. -/
def table (actions : List Action) : LabelTable := (run {} actions).1

/-- The answer to an action that follows others on a new table. -/
def answer (before : List Action) (action : Action) : Except Failure Answer :=
  ((table before).step action).2

/-- The definition that an action and its answer amount to, if it succeeded. -/
def success? : Action × Except Failure Answer → Option (Text × Int)
  | (action, .ok _) => action.definition?
  | (_, .error _) => none

/-- The definitions that succeed when actions are carried out on a new table. -/
def succeeded (actions : List Action) : List (Text × Int) :=
  (actions.zip (run {} actions).2).filterMap success?

theorem asked_append (first rest : List Action) :
    asked (first ++ rest) = asked first ++ asked rest := List.filterMap_append

theorem asked_concat {action : Action} {name : Text} {offset : Int}
    (h : action.definition? = some (name, offset)) (actions : List Action) :
    asked (actions ++ [action]) = asked actions ++ [(name, offset)] := by
  simp [asked, h]

theorem table_concat (actions : List Action) (action : Action) :
    table (actions ++ [action]) = ((table actions).step action).1 := by
  rw [table, run, runSteps_append]
  rfl

/-- A look-up finds the last entry when nothing before it has the name. -/
theorem lookup_concat (l : List (Text × Int)) (name other : Text) (offset : Int) :
    (l ++ [(name, offset)]).lookup other =
      (l.lookup other).or (if other = name then some offset else none) := by
  rw [List.lookup_append]
  by_cases h : other = name
  · rw [h, if_pos rfl, List.lookup_cons_self]
  · rw [if_neg h, List.lookup_cons, beq_eq_false_iff_ne.mpr h]
    rfl

/-! ## One action -/

/-- A name that is recorded is not recorded again. -/
theorem exists_define_eq_error {t : LabelTable} {name : Text} {earlier : Int}
    (h : t.get? name = some earlier) (offset : Int) (line : Option SourceLine)
    (index : Option Int) : ∃ failure, t.define name offset line index = .error failure := by
  simp only [define, h]
  split
  · exact ⟨_, rfl⟩
  · exact ⟨_, rfl⟩

/-- What an action can do: it defines nothing and leaves the table as it was, it records a new name
at the end, or it fails to record a name that is there and leaves the table as it was. -/
theorem step_cases (t : LabelTable) (action : Action) :
    (action.definition? = none ∧ (t.step action).1 = t) ∨
    (∃ name offset, action.definition? = some (name, offset) ∧ t.get? name = none ∧
      t.step action = (⟨t.entries ++ [(name, offset)]⟩, .ok .done)) ∨
    ∃ name offset earlier failure, action.definition? = some (name, offset) ∧
      t.get? name = some earlier ∧ t.step action = (t, .error failure) := by
  cases action with
  | define name offset line index =>
      right
      cases hget : t.get? name with
      | none => exact .inl ⟨name, offset, rfl, hget, by rw [step, define, hget]⟩
      | some earlier =>
          obtain ⟨failure, hdefine⟩ := exists_define_eq_error hget offset line index
          exact .inr ⟨name, offset, earlier, failure, rfl, hget, by rw [step, hdefine]⟩
  | render =>
      left
      rw [step]
      cases t.render? with
      | none => exact ⟨rfl, rfl⟩
      | some shown => exact ⟨rfl, rfl⟩
  | _ => exact .inl ⟨rfl, rfl⟩

/-! ## Tables that hold the first definitions -/

/-- A table holds the first definitions among actions. -/
structure Writes (actions : List Action) (t : LabelTable) : Prop where
  names : t.names = firstNames actions
  distinct : t.names.Nodup
  get? : ∀ name, t.get? name = first? actions name

/-- A name is asked for when the table has an offset for it. -/
theorem Writes.mem_asked_iff {actions : List Action} {t : LabelTable} (h : Writes actions t)
    (name : Text) : name ∈ (asked actions).map Prod.fst ↔ t.get? name ≠ none := by
  rw [h.get?, first?, ne_eq, lookup_eq_none_iff_not_mem, not_not]

/-- A name after others is one of them, or it is the last of the first ones. -/
theorem eraseDups_concat (l : List Text) (name : Text) :
    (l ++ [name]).eraseDups = if name ∈ l then l.eraseDups else l.eraseDups ++ [name] := by
  rw [List.eraseDups_append, List.removeAll]
  by_cases h : name ∈ l
  · simp [h]
  · simp [h, List.eraseDups_cons]

/-- One more definition gives the name an offset, unless it has one already. -/
theorem first?_concat {action : Action} {name : Text} {offset : Int}
    (h : action.definition? = some (name, offset)) (actions : List Action) (other : Text) :
    first? (actions ++ [action]) other =
      (first? actions other).or (if other = name then some offset else none) := by
  rw [first?, asked_concat h, lookup_concat, first?]

/-- Every action carries on that the table holds the first definitions. -/
theorem writes_step {actions : List Action} {t : LabelTable} (h : Writes actions t)
    (action : Action) : Writes (actions ++ [action]) (t.step action).1 := by
  rcases t.step_cases action with ⟨hnothing, hstep⟩ | ⟨name, offset, hname, hget, hstep⟩ |
    ⟨name, offset, earlier, failure, hname, hget, hstep⟩
  · have hasked : asked (actions ++ [action]) = asked actions := by
      simp [asked, hnothing]
    rw [hstep]
    refine ⟨?_, h.distinct, fun other => ?_⟩
    · rw [firstNames, hasked, h.names, firstNames]
    · rw [first?, hasked, h.get?, first?]
  · -- a new name stands last, and look-ups of all others are as before
    have hnew : name ∉ (asked actions).map Prod.fst := by
      rw [h.mem_asked_iff, hget]
      simp
    have hnames : names ⟨t.entries ++ [(name, offset)]⟩ = t.names ++ [name] := by
      simp [LabelTable.names]
    rw [hstep]
    refine ⟨?_, ?_, fun other => ?_⟩
    · rw [hnames, h.names, firstNames, firstNames, asked_concat hname, List.map_append,
        List.map_singleton, eraseDups_concat, if_neg hnew]
    · rw [hnames, ← List.concat_eq_append]
      exact h.distinct.concat (lookup_eq_none_iff_not_mem.mp hget)
    · rw [first?_concat hname, ← h.get?, LabelTable.get?, lookup_concat, LabelTable.get?]
  · -- a name that is there is asked for in vain, and its first definition is an earlier one
    have hold : name ∈ (asked actions).map Prod.fst := by
      rw [h.mem_asked_iff, hget]
      simp
    rw [hstep]
    refine ⟨?_, h.distinct, fun other => ?_⟩
    · rw [h.names, firstNames, firstNames, asked_concat hname, List.map_append, List.map_singleton,
        eraseDups_concat, if_pos hold]
    · rw [first?_concat hname, ← h.get?]
      by_cases heq : other = name
      · simp [heq, hget]
      · simp [heq]

/-- After any actions, a table that was new holds their first definitions. -/
theorem writes_table (actions : List Action) : Writes actions (table actions) := by
  have hnew : Writes [] {} := ⟨rfl, List.nodup_nil, fun _ => rfl⟩
  exact runSteps_history hnew (fun _ _ action h => writes_step h action) actions

/-- The entries of a table are its names with the offsets that it has for them. -/
theorem Writes.entries {actions : List Action} {t : LabelTable} (h : Writes actions t) :
    t.entries = firstItems actions := by
  have hentry : ∀ entry ∈ t.entries,
      (first? actions entry.1).map (fun offset => (entry.1, offset)) = some entry := by
    intro entry hentry
    rw [← h.get?, LabelTable.get?, lookup_of_mem h.distinct hentry]
    rfl
  rw [firstItems, ← h.names, LabelTable.names, List.filterMap_map]
  exact ((List.filterMap_congr hentry).trans List.filterMap_some).symm

/-- A table consists of the definitions that succeeded. -/
theorem entries_table (actions : List Action) : (table actions).entries = succeeded actions := by
  -- from the end: the last action adds the last entry, if it adds one
  induction actions using List.reverseRecOn with
  | nil => rfl
  | append_singleton actions action ih =>
      have hrun : succeeded (actions ++ [action]) =
          succeeded actions ++ (success? (action, answer actions action)).toList := by
        have hlast : (runSteps step (table actions) [action]).2 = [answer actions action] := rfl
        rw [succeeded, run, runSteps_append, List.zip_append (length_runSteps ..).symm,
          List.filterMap_append, ← run, ← table, hlast, ← succeeded, List.zip_cons_cons,
          List.zip_nil_left]
        cases h : success? (action, answer actions action) <;> simp [h]
      rw [hrun, ← ih, table_concat, answer]
      rcases (table actions).step_cases action with ⟨hnothing, hstep⟩ |
        ⟨name, offset, hname, -, hstep⟩ | ⟨name, offset, earlier, failure, -, -, hstep⟩
      · have hnone : ∀ result, success? (action, result) = none := by
          rintro (failure | result)
          · rfl
          · exact hnothing
        rw [hstep, hnone, Option.toList_none, List.append_nil]
      · rw [hstep, success?, hname]
        rfl
      · rw [hstep]
        exact (List.append_nil _).symm

/-- A definition fails exactly if its name is taken. -/
theorem step_define_eq_error_iff {t : LabelTable} {name : Text} {offset : Int}
    {line : Option SourceLine} {index : Option Int} :
    (∃ failure, (t.step (.define name offset line index)).2 = .error failure) ↔
      t.get? name ≠ none := by
  rcases t.step_cases (.define name offset line index) with ⟨hnothing, -⟩ |
    ⟨_, _, hname, hget, hstep⟩ | ⟨_, _, earlier, failure, hname, hget, hstep⟩
  · cases hnothing
  · cases hname
    simp [hstep, hget]
  · cases hname
    simp [hstep, hget]

/-- An action that fails changes nothing. -/
theorem step_of_error {t : LabelTable} {action : Action} {failure : Failure}
    (h : (t.step action).2 = .error failure) : (t.step action).1 = t := by
  rcases t.step_cases action with ⟨-, hstep⟩ | ⟨_, _, -, -, hstep⟩ | ⟨_, _, _, _, -, -, hstep⟩
  · exact hstep
  · rw [hstep] at h
    cases h
  · rw [hstep]

/-! ## Runs -/

/-- What a table answers after actions is what a write-once map of their definitions answers. -/
structure WriteOnce (before : List Action) : Prop where
  /-- A definition fails exactly if the name was successfully defined before. -/
  define_fails_iff : ∀ name offset line index,
    (∃ failure, answer before (.define name offset line index) = .error failure) ↔
      name ∈ (succeeded before).map Prod.fst
  /-- The definitions that succeeded are the first ones of their names. -/
  succeeded_eq : succeeded before = firstItems before
  /-- A definition that fails changes nothing. -/
  define_keeps : ∀ name offset line index failure,
    answer before (.define name offset line index) = .error failure →
      table (before ++ [.define name offset line index]) = table before
  /-- A name that is asked for the first time is recorded. -/
  define_records : ∀ name offset line index, first? before name = none →
    answer (before ++ [.define name offset line index]) (.get name) = .ok (.found (some offset))
  /-- A name keeps the offset of its first definition, whatever follows. -/
  get_keeps : ∀ name offset, first? before name = some offset →
    ∀ after, answer (before ++ after) (.get name) = .ok (.found (some offset))
  get_eq : ∀ name, answer before (.get name) = .ok (.found (first? before name))
  resolve_ok_iff : ∀ name line index offset,
    answer before (.resolve name line index) = .ok (.offset offset) ↔
      first? before name = some offset
  resolve_fails_iff : ∀ name line index,
    (∃ failure, answer before (.resolve name line index) = .error failure) ↔
      answer before (.get name) = .ok (.found none)
  get_none_iff : ∀ name, answer before (.get name) = .ok (.found none) ↔
    answer before (.contains name) = .ok (.defined false)
  names_eq : answer before .names = .ok (.names (firstNames before))
  items_eq : answer before .items = .ok (.items (firstItems before))
  distinct : (firstNames before).Nodup
  size_eq : answer before .size = .ok (.size (firstNames before).length)

theorem answer_get (before : List Action) (name : Text) :
    answer before (.get name) = .ok (.found (first? before name)) := by
  rw [← (writes_table before).get?]
  rfl

/-- A name is resolved to the offset of its first definition, and refused if it has none. -/
theorem answer_resolve (before : List Action) (name : Text) (line : Option SourceLine)
    (index : Option Int) :
    answer before (.resolve name line index) =
      match first? before name with
      | some offset => .ok (.offset offset)
      | none =>
        .error (diagnose .undefinedLabel ("Undefined label: ".toList ++ name) line index) := by
  rw [← (writes_table before).get?, answer, step, resolve]
  cases (table before).get? name with
  | none => rfl
  | some offset => rfl

/-- The offset of a first definition is that of all later look-ups. -/
theorem first?_append {before : List Action} {name : Text} {offset : Int}
    (h : first? before name = some offset) (after : List Action) :
    first? (before ++ after) name = some offset := by
  rw [first?, asked_append, List.lookup_append, ← first?, h]
  rfl

/-- **A label table is a write-once map.**  At every place of every run on a new table, the answer
is what the actions before it say: a definition fails exactly if the name was successfully defined
before, and then changes nothing; every name keeps the offset of its first definition; a name is
resolved exactly if it has an offset; and the names are listed once each, in the order of their
first definitions. -/
theorem run_writeOnce (before : List Action) :
    WriteOnce before ∧
    ∀ action after, (run {} (before ++ action :: after)).2[before.length]? =
      some (answer before action) := by
  have h := writes_table before
  refine ⟨?_, fun action after => by rw [run]; exact getElem?_runSteps ..⟩
  constructor
  case define_fails_iff =>
    intro name offset line index
    rw [answer, step_define_eq_error_iff, ← entries_table, get?, ne_eq, lookup_eq_none_iff_not_mem,
      not_not]
  case succeeded_eq => rw [← entries_table, h.entries]
  case define_keeps =>
    intro name offset line index failure hfailure
    rw [table_concat]
    exact step_of_error hfailure
  case define_records =>
    intro name offset line index hnone
    rw [answer_get, first?_concat rfl, hnone, if_pos rfl, Option.none_or]
  case get_keeps =>
    intro name offset hfirst after
    rw [answer_get, first?_append hfirst]
  case get_eq => exact answer_get before
  case resolve_ok_iff =>
    intro name line index offset
    rw [answer_resolve]
    cases first? before name <;> simp
  case resolve_fails_iff =>
    intro name line index
    rw [answer_resolve, answer_get]
    cases first? before name <;> simp
  case get_none_iff =>
    intro name
    have hcontains : answer before (.contains name) =
        .ok (.defined (first? before name).isSome) := by
      rw [← h.get?]
      rfl
    rw [answer_get, hcontains]
    cases first? before name <;> simp
  case names_eq =>
    rw [← h.names]
    rfl
  case items_eq =>
    rw [← h.entries]
    rfl
  case distinct =>
    rw [← h.names]
    exact h.distinct
  case size_eq =>
    rw [← h.names, names, List.length_map]
    rfl

/-- A name that is defined twice keeps its place and its first offset. -/
theorem run_writeOnce_twice :
    answer [.define "b".toList 8 none none, .define "a".toList 4 none none, .define "b".toList 0
      none none] .items = .ok (.items [("b".toList, 8), ("a".toList, 4)]) ∧
    ∃ failure, answer [.define "b".toList 8 none none, .define "a".toList 4 none none]
      (.define "b".toList 0 none none) = .error failure := by
  constructor
  · exact (run_writeOnce [.define "b".toList 8 none none, .define "a".toList 4 none none,
      .define "b".toList 0 none none]).1.items_eq.trans (by decide)
  · exact ((run_writeOnce [.define "b".toList 8 none none,
      .define "a".toList 4 none none]).1.define_fails_iff _ _ _ _).mpr (by decide)

end RiscAsm.LabelTable

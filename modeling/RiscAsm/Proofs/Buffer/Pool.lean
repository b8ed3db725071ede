import RiscAsm.Buffer.Pool
import RiscAsm.Proofs.Result
import RiscAsm.Proofs.Steps

/-!
# The lifetime of buffers

A buffer shows the bytes it was made with until it is released or a scope that it was entered for is
left (`Shows`); from then on it refuses everything that reads its bytes (`Spent`).  Nothing but
actions on the buffer itself decides which of the two it is: the step lemma (`get?_step`) says what
one action does to a buffer, and `get?_run` what any actions do.
-/

namespace RiscAsm.Pool

/-! ## Actions and the buffers they are about -/

/-- The name that an action is about. -/
def Action.name : Action → Text
  | .new name _ => name
  | .ofWords name _ => name
  | .ask name _ => name

/-- Whether an action puts a new buffer under a name. -/
def Action.makes (name : Text) : Action → Bool
  | .new n _ => n == name
  | .ofWords n words => n == name && (Buffer.ofWords? words).isSome
  | .ask .. => false

/-- Whether a question ends the use of the buffer it is put to. -/
def Question.ends : Question → Bool
  | .release | .leave | .scope => true
  | _ => false

/-- Whether an action ends the use of a buffer. -/
def Action.ends (name : Text) : Action → Bool
  | .ask n question => n == name && question.ends
  | _ => false

/-- Whether a question reads the bytes of the buffer it is put to. -/
def Question.reads : Question → Bool
  | .data | .words | .hexWords | .size | .enter | .scope | .sameAs _ | .holds _ => true
  | .released | .render | .release | .leave | .isOther => false

/-- Whether an action reads the bytes of a buffer: a comparison reads those of both buffers. -/
def Action.reads (name : Text) : Action → Bool
  | .ask n question => (n == name && question.reads) || question == .sameAs name
  | _ => false

/-- All buffers that an action is about are there. -/
def Action.Known (p : Pool) : Action → Prop
  | .ask name (.sameAs other) => (p.get? name).isSome ∧ (p.get? other).isSome
  | .ask name _ => (p.get? name).isSome
  | _ => True

/-- The answer to an action. -/
def answer (p : Pool) (action : Action) : Except Refusal Answer := (p.step action).2

/-! ## One action -/

theorem get?_put_self (p : Pool) (name : Text) (b : Buffer) : (p.put name b).get? name = some b :=
  List.lookup_cons_self

theorem get?_put_of_ne {p : Pool} {name other : Text} (h : other ≠ name) (b : Buffer) :
    (p.put name b).get? other = p.get? other := by
  have hfilter : ∀ l : List (Text × Buffer),
      (l.filter fun entry => entry.1 != name).lookup other = l.lookup other := by
    intro l
    induction l with
    | nil => rfl
    | cons entry l ih =>
        by_cases hentry : entry.1 = name
        · rw [List.filter_cons_of_neg (by simpa using hentry), ih, List.lookup_cons, hentry,
            beq_eq_false_iff_ne.mpr h]
        · rw [List.filter_cons_of_pos (by simpa using hentry), List.lookup_cons, List.lookup_cons,
            ih]
  rw [get?, put, List.lookup_cons, beq_eq_false_iff_ne.mpr h]
  exact hfilter p.buffers

/-- A question leaves a buffer as it is, or releases it. -/
theorem fst_ask (p : Pool) (b : Buffer) (question : Question) :
    (p.ask b question).1 = if question.ends then b.release else b := by
  cases question with
  | scope =>
      obtain ⟨content⟩ := b
      cases content with
      | none => rfl
      | some bytes => rfl
  | sameAs other =>
      rw [ask]
      cases p.get? other with
      | none => rfl
      | some c => rfl
  | _ => rfl

/-- An action leaves the buffers alone that it is not about. -/
theorem get?_step_of_ne {p : Pool} {action : Action} {name : Text} (h : action.name ≠ name) :
    (p.step action).1.get? name = p.get? name := by
  cases action with
  | new n bytes => exact get?_put_of_ne h.symm _
  | ofWords n words =>
      rw [step]
      cases Buffer.ofWords? words with
      | none => rfl
      | some b => exact get?_put_of_ne h.symm b
  | ask n question =>
      rw [step]
      cases p.get? n with
      | none => rfl
      | some b => exact get?_put_of_ne h.symm _

/-- What an action does to a buffer that it does not replace. -/
theorem get?_step {p : Pool} {name : Text} {b : Buffer} (h : p.get? name = some b)
    {action : Action} (hmakes : action.makes name = false) :
    (p.step action).1.get? name = some (if action.ends name then b.release else b) := by
  by_cases hname : action.name = name
  · cases action with
    | new n bytes =>
        obtain rfl : n = name := hname
        simp [Action.makes] at hmakes
    | ofWords n words =>
        obtain rfl : n = name := hname
        have hnone : Buffer.ofWords? words = none := by
          simpa [Action.makes] using hmakes
        rw [step, hnone, h]
        rfl
    | ask n question =>
        obtain rfl : n = name := hname
        have hends : (Action.ask n question).ends n = question.ends := by
          simp [Action.ends]
        rw [step, h, hends, ← fst_ask p]
        exact get?_put_self ..
  · have hends : action.ends name = false := by
      cases action with
      | ask n question =>
          have hne : n ≠ name := hname
          simp [Action.ends, hne]
      | _ => rfl
    rw [get?_step_of_ne hname, h, hends]
    rfl

/-! ## Runs -/

/-- What actions do to a buffer that none of them replaces: it is released exactly if one of them
ends its use. -/
theorem get?_run {p : Pool} {name : Text} {b : Buffer} (h : p.get? name = some b)
    {actions : List Action} (hmakes : ∀ action ∈ actions, action.makes name = false) :
    (p.run actions).1.get? name =
      some (if actions.any (Action.ends name) then b.release else b) := by
  induction actions generalizing p b with
  | nil => exact h
  | cons action rest ih =>
      obtain ⟨haction, hrest⟩ := List.forall_mem_cons.mp hmakes
      have hlast : (p.run (action :: rest)).1 = ((p.step action).1.run rest).1 := rfl
      rw [hlast, ih (get?_step h haction) hrest, List.any_cons]
      cases action.ends name with
      | false => rfl
      | true =>
          -- a buffer that was released stays so
          rw [if_pos rfl, Bool.true_or, if_pos rfl]
          exact congrArg some (ite_self _)

/-- The bytes of a buffer are all that it shows. -/
structure Shows (p : Pool) (name : Text) (bytes : List UInt8) : Prop where
  data : p.answer (.ask name .data) = .ok (.bytes bytes)
  words : p.answer (.ask name .words) = .ok (.words (Bytes.toWords bytes))
  hexWords : p.answer (.ask name .hexWords) =
    .ok (.texts ((Bytes.toWords bytes).map (Numeral.hex 8)))
  size : p.answer (.ask name .size) = .ok (.size bytes.length)
  holds : ∀ other, p.answer (.ask name (.holds other)) = .ok (.truth (bytes == other))
  /-- Comparisons with buffers that are not released, either way round. -/
  same : ∀ other content, p.get? other = some (Buffer.ofBytes content) →
    p.answer (.ask name (.sameAs other)) = .ok (.truth (bytes == content)) ∧
      p.answer (.ask other (.sameAs name)) = .ok (.truth (content == bytes))
  enter : p.answer (.ask name .enter) = .ok .done
  scope : p.answer (.ask name .scope) = .ok (.scope bytes true)
  released : p.answer (.ask name .released) = .ok (.truth false)
  render : p.answer (.ask name .render) =
    .ok (.shown ("ProgramBuffer(".toList ++ Numeral.ofNat bytes.length ++ " bytes)".toList))

/-- A buffer refuses all that reads its bytes, but tells that it is released, and may be released
again. -/
structure Spent (p : Pool) (name : Text) : Prop where
  refuses : ∀ action : Action, action.reads name = true → action.Known p →
    p.answer action = .error .released
  released : p.answer (.ask name .released) = .ok (.truth true)
  release : p.answer (.ask name .release) = .ok .done
  leave : p.answer (.ask name .leave) = .ok .done
  render : p.answer (.ask name .render) = .ok (.shown "ProgramBuffer(<released>)".toList)

theorem answer_ask {p : Pool} {name : Text} {b : Buffer} (h : p.get? name = some b)
    (question : Question) : p.answer (.ask name question) = (p.ask b question).2 := by
  rw [answer, step, h]

theorem shows_of_get? {p : Pool} {name : Text} {bytes : List UInt8}
    (h : p.get? name = some (Buffer.ofBytes bytes)) : p.Shows name bytes := by
  constructor
  case same =>
    intro other content hother
    rw [answer_ask h, answer_ask hother, ask, ask, h, hother]
    exact ⟨rfl, rfl⟩
  all_goals
    intros
    rw [answer_ask h]
    rfl

/-- A buffer that was released refuses every question that reads its bytes. -/
theorem snd_ask_released {p : Pool} {question : Question} (hreads : question.reads = true)
    (hknown : ∀ other, question = .sameAs other → (p.get? other).isSome) :
    (p.ask ⟨none⟩ question).2 = .error .released := by
  cases question with
  | released | render | release | leave | isOther => cases hreads
  | sameAs other =>
      obtain ⟨c, hc⟩ := Option.isSome_iff_exists.mp (hknown other rfl)
      rw [ask, hc]
      rfl
  | _ => rfl

/-- A buffer is not compared with one that was released. -/
theorem same_released (b : Buffer) : b.same ⟨none⟩ = .error {} := by
  obtain ⟨content⟩ := b
  cases content with
  | none => rfl
  | some bytes => rfl

theorem spent_of_get? {p : Pool} {name : Text} (h : p.get? name = some ⟨none⟩) :
    p.Spent name := by
  constructor
  case refuses =>
    intro action hreads hknown
    cases action with
    | ask n question =>
        rcases Bool.or_eq_true_iff.mp hreads with hown | hother
        · obtain ⟨hname, hquestion⟩ := Bool.and_eq_true_iff.mp hown
          obtain rfl : n = name := beq_iff_eq.mp hname
          rw [answer_ask h]
          refine snd_ask_released hquestion ?_
          rintro other rfl
          exact hknown.2
        · obtain rfl : question = .sameAs name := beq_iff_eq.mp hother
          obtain ⟨b, hb⟩ := Option.isSome_iff_exists.mp hknown.1
          rw [answer_ask hb, ask, h]
          exact congrArg (reading · Answer.truth) (same_released b)
    | _ => cases hreads
  all_goals
    rw [answer_ask h]
    rfl

/-- **A buffer shows its bytes until it is released, and never after.**  Take a buffer that was made
with some bytes, and any actions of which none puts another buffer in its place.  What is answered
next in a run is decided by them: unless one of them released the buffer or left a scope that it was
entered for, it shows the bytes that it was made with; otherwise it refuses all that reads its
bytes.  Actions on other buffers do not change it. -/
theorem run_lifetime {p : Pool} {name : Text} {bytes : List UInt8}
    (hmade : p.get? name = some (Buffer.ofBytes bytes)) {before : List Action}
    (hmakes : ∀ action ∈ before, action.makes name = false) :
    (before.any (Action.ends name) = false → (p.run before).1.Shows name bytes) ∧
    (before.any (Action.ends name) = true → (p.run before).1.Spent name) ∧
    (∀ action : Action, action.name ≠ name →
      ((p.run before).1.step action).1.get? name = (p.run before).1.get? name) ∧
    ∀ action after, (p.run (before ++ action :: after)).2[before.length]? =
      some ((p.run before).1.answer action) := by
  have hrun := get?_run hmade hmakes
  refine ⟨fun hlive => ?_, fun hended => ?_, fun action => get?_step_of_ne, fun action after => ?_⟩
  · rw [hlive, if_neg Bool.false_ne_true] at hrun
    exact shows_of_get? hrun
  · rw [hended, if_pos rfl] at hrun
    exact spent_of_get? hrun
  · rw [run]
    exact getElem?_runSteps ..

/-- One of two equal buffers is entered and left, so comparing the other with it is refused. -/
theorem run_lifetime_scope :
    Shows (run ⟨[("a".toList, .ofBytes [1, 2]), ("b".toList, .ofBytes [1, 2])]⟩
      [.ask "b".toList .release, .ask "a".toList .enter]).1 "a".toList [1, 2] ∧
    answer (run ⟨[("a".toList, .ofBytes [1, 2]), ("b".toList, .ofBytes [1, 2])]⟩
      [.ask "a".toList .enter, .ask "a".toList (.sameAs "b".toList), .ask "a".toList .leave]).1
      (.ask "b".toList (.sameAs "a".toList)) = .error .released := by
  constructor
  · exact (run_lifetime (by decide) (by decide)).1 (by decide)
  · have hspent := (@run_lifetime
      ⟨[("a".toList, .ofBytes [1, 2]), ("b".toList, .ofBytes [1, 2])]⟩ "a".toList [1, 2] (by decide)
      [.ask "a".toList .enter, .ask "a".toList (.sameAs "b".toList), .ask "a".toList .leave]
      (by decide)).2.1 (by decide)
    exact hspent.refuses _ (by decide) ⟨by decide, by decide⟩

end RiscAsm.Pool

import RiscAsm.Steps

/-!
# Theory of runs of steps

A run is taken apart at any place: the answer there is that of the state which the actions before it
lead to (`getElem?_runSteps`).  What holds of the state at the start and is carried on by every
action, together with the actions so far, holds at the end of every run (`runSteps_history`).
-/

namespace RiscAsm

variable {σ α β : Type} {step : σ → α → σ × β}

theorem length_runSteps (s : σ) (actions : List α) :
    (runSteps step s actions).2.length = actions.length := by
  induction actions generalizing s with
  | nil => rfl
  | cons action rest ih => exact congrArg (· + 1) (ih (step s action).1)

/-- A run goes on from where its first part ended. -/
theorem runSteps_append (s : σ) (first rest : List α) :
    runSteps step s (first ++ rest) =
      ((runSteps step (runSteps step s first).1 rest).1,
        (runSteps step s first).2 ++ (runSteps step (runSteps step s first).1 rest).2) := by
  induction first generalizing s with
  | nil => rfl
  | cons action first ih => simp [runSteps, ih]

/-- The answer to an action of a run. -/
theorem getElem?_runSteps (s : σ) (before : List α) (action : α) (after : List α) :
    (runSteps step s (before ++ action :: after)).2[before.length]? =
      some (step (runSteps step s before).1 action).2 := by
  have hlength : (runSteps step s before).2.length = before.length := length_runSteps s before
  rw [runSteps_append, ← hlength, List.getElem?_append_right (Nat.le_refl _), Nat.sub_self]
  rfl

/-- What every action carries on, with the actions so far, holds after every run. -/
theorem runSteps_history {P : List α → σ → Prop} {s : σ} (start : P [] s)
    (next : ∀ before t action, P before t → P (before ++ [action]) (step t action).1)
    (actions : List α) : P actions (runSteps step s actions).1 := by
  -- a run from `s` after `before` to the end of `before ++ actions`
  have hrun : ∀ before, P before s → P (before ++ actions) (runSteps step s actions).1 := by
    clear start
    induction actions generalizing s with
    | nil =>
        intro before h
        rwa [List.append_nil]
    | cons action rest ih =>
        intro before h
        have hrest := ih (before ++ [action]) (next before s action h)
        rwa [List.append_assoc, List.singleton_append] at hrest
  exact hrun [] start

end RiscAsm

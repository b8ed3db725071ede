/-!
# Runs of steps

Several parts of the library are used through sequences of actions.  A step function says what state
an action leads to and what it answers; `runSteps` carries out actions in order.
-/

namespace RiscAsm

/-- Carries out actions in order, with the answer to each. -/
def runSteps {σ α β : Type} (step : σ → α → σ × β) (s : σ) : List α → σ × List β
  | [] => (s, [])
  | action :: rest =>
    let (next, answer) := step s action
    let (last, answers) := runSteps step next rest
    (last, answer :: answers)

end RiscAsm

import RiscAsm.Label
import RiscAsm.Steps

/-!
# Runs of operations on a label table

A label table is used through a sequence of actions.  `LabelTable.step` says what each of them
answers and what table it leaves; an action that fails leaves the table as it was.
-/

namespace RiscAsm.LabelTable

/-- What can be asked of a label table. -/
inductive Action where
  | define (name : Text) (offset : Int) (line : Option SourceLine) (index : Option Int)
  | resolve (name : Text) (line : Option SourceLine) (index : Option Int)
  | get (name : Text)
  | contains (name : Text)
  | size
  | names
  | items
  | render
  deriving DecidableEq, Repr

/-- What a label table answers. -/
inductive Answer where
  | done
  | offset (value : Int)
  | found (value : Option Int)
  | defined (value : Bool)
  | size (value : Nat)
  | names (value : List Text)
  | items (value : List (Text × Int))
  | shown (value : Text)
  deriving DecidableEq, Repr

/-- Carries out an action. -/
def step (t : LabelTable) : Action → LabelTable × Except Failure Answer
  | .define name offset line index =>
    match t.define name offset line index with
    | .ok next => (next, .ok .done)
    | .error failure => (t, .error failure)
  | .resolve name line index => (t, (t.resolve name line index).map .offset)
  | .get name => (t, .ok (.found (t.get? name)))
  | .contains name => (t, .ok (.defined (t.contains name)))
  | .size => (t, .ok (.size t.size))
  | .names => (t, .ok (.names t.names))
  | .items => (t, .ok (.items t.entries))
  | .render =>
    match t.render? with
    | some shown => (t, .ok (.shown shown))
    | none => (t, .error (.value Numeral.tooLongMessage))

/-- Carries out actions in order, with the answer to each. -/
def run (t : LabelTable) (actions : List Action) : LabelTable × List (Except Failure Answer) :=
  runSteps step t actions

end RiscAsm.LabelTable

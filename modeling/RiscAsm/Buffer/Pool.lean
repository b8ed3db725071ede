import RiscAsm.Buffer
import RiscAsm.Steps

/-!
# Runs of operations on named buffers

Several buffers are used side by side under names.  `Pool.step` says what each action answers and
what buffers it leaves.  Creating a buffer replaces the one of the same name; only releasing a
buffer, or leaving a scope it was entered for, changes it.
-/

namespace RiscAsm

/-- Buffers by name. -/
structure Pool where
  buffers : List (Text × Buffer) := []
  deriving DecidableEq, Repr

namespace Pool

/-- The buffer of a name. -/
def get? (p : Pool) (name : Text) : Option Buffer := p.buffers.lookup name

/-- Puts a buffer under a name. -/
def put (p : Pool) (name : Text) (b : Buffer) : Pool :=
  ⟨(name, b) :: p.buffers.filter fun entry => entry.1 != name⟩

/-- What can be asked of a single buffer. -/
inductive Question where
  /-- The bytes, as a whole or one after the other. -/
  | data
  | words
  | hexWords
  | size
  | released
  | render
  | release
  /-- Enters a scope that releases the buffer at its end. -/
  | enter
  /-- Leaves such a scope. -/
  | leave
  /-- Reads the bytes inside such a scope. -/
  | scope
  /-- Compares with another buffer. -/
  | sameAs (other : Text)
  /-- Compares with bytes. -/
  | holds (bytes : List UInt8)
  /-- Compares with something that is neither. -/
  | isOther
  deriving DecidableEq, Repr

/-- What can be done with buffers. -/
inductive Action where
  | new (name : Text) (bytes : List UInt8)
  | ofWords (name : Text) (words : List Int)
  | ask (name : Text) (question : Question)
  deriving DecidableEq, Repr

/-- What is answered. -/
inductive Answer where
  | shown (value : Text)
  | bytes (value : List UInt8)
  | words (value : List Nat)
  | texts (value : List Text)
  | size (value : Nat)
  | truth (value : Bool)
  | done
  | scope (inside : List UInt8) (releasedAfter : Bool)
  deriving DecidableEq, Repr

/-- Why there is no answer. -/
inductive Refusal where
  /-- The bytes were released. -/
  | released
  /-- A number is no machine word. -/
  | overflow
  /-- There is no buffer of that name. -/
  | unknown (name : Text)
  deriving DecidableEq, Repr

/-- An answer that needs the bytes of a buffer. -/
def reading {α : Type} (result : Except Released α) (answer : α → Answer) :
    Except Refusal Answer :=
  match result with
  | .ok value => .ok (answer value)
  | .error _ => .error .released

/-- The answer of a buffer to a question, and the buffer that is left. -/
def ask (p : Pool) (b : Buffer) : Question → Buffer × Except Refusal Answer
  | .data => (b, reading b.data .bytes)
  | .words => (b, reading b.words .words)
  | .hexWords => (b, reading b.hexWords .texts)
  | .size => (b, reading b.size .size)
  | .released => (b, .ok (.truth b.released))
  | .render => (b, .ok (.shown b.render))
  | .release => (b.release, .ok .done)
  | .enter => (b, reading b.data fun _ => .done)
  | .leave => (b.release, .ok .done)
  | .scope =>
    match b.data with
    | .ok inside => (b.release, .ok (.scope inside b.release.released))
    | .error _ => (b, .error .released)
  | .sameAs other =>
    match p.get? other with
    | some c => (b, reading (b.same c) .truth)
    | none => (b, .error (.unknown other))
  | .holds bytes => (b, reading (b.data.map fun data => data == bytes) .truth)
  | .isOther => (b, .ok (.truth false))

/-- Carries out an action. -/
def step (p : Pool) : Action → Pool × Except Refusal Answer
  | .new name bytes =>
    let b := Buffer.ofBytes bytes
    (p.put name b, .ok (.shown b.render))
  | .ofWords name words =>
    match Buffer.ofWords? words with
    | some b => (p.put name b, .ok (.shown b.render))
    | none => (p, .error .overflow)
  | .ask name question =>
    match p.get? name with
    | some b =>
      let (next, answer) := p.ask b question
      (p.put name next, answer)
    | none => (p, .error (.unknown name))

/-- Carries out actions in order, with the answer to each. -/
def run (p : Pool) (actions : List Action) : Pool × List (Except Refusal Answer) :=
  runSteps step p actions

end Pool

end RiscAsm

import RiscAsm.Data.Yaml.Node
import RiscAsm.Data.Yaml.Schema

/-!
# Values of YAML documents

`Document.load` reads a document and checks all its nodes, the outer collections before the inner
ones.  After that every node has a value, and `Document.content` is that of the whole document.

A mapping may merge others into itself with the key `<<`.  Aliases may make a collection part of
itself; its value then has a mark where it would start again.
-/

namespace RiscAsm.Yaml.Document

/-- The node that an alias stands for. -/
def target (d : Document) : Node → Node
  | .alias id => (d.named.lookup id).getD .absent
  | n => n

/-- The tag of a node. -/
def tagOf (d : Document) (n : Node) : Tag :=
  match d.target n with
  | .scalar tag _ | .sequence _ tag _ | .mapping _ tag _ => tag
  | .alias _ => .unknown

/-- The text of a node that is read as a scalar: a mapping may hold one under the key `=`. -/
def scalarText (d : Document) : Nat → Node → Except LoadError Text
  | 0, _ => .error .tooDeep
  | fuel + 1, n =>
    match d.target n with
    | .scalar _ text => .ok text
    | .mapping _ _ entries =>
      match entries.find? fun entry => d.tagOf entry.1 == .value with
      | some entry => scalarText d fuel entry.2
      | none => .error .malformed
    | _ => .error .malformed

/-- The value of a node that is read under a tag which is no collection. -/
def valueAs (d : Document) (tag : Tag) (n : Node) : Except LoadError Value := do
  if tag == .merge || tag == .value || tag == .unknown then throw .malformed
  let text ← d.scalarText (d.count + 1) n
  match d.target n, tag with
  | .scalar .., _ => scalarValue tag text
  | _, .timestamp => throw (.scalar .noText)
  | _, _ => scalarValue tag text

/-- The value of a node whose tag is no collection. -/
def plainValue (d : Document) (n : Node) : Except LoadError Value := d.valueAs (d.tagOf n) n

/-- The value of a key, where the mark `=` is a text. -/
def keyValue (d : Document) (n : Node) : Except LoadError Value :=
  d.valueAs (if d.tagOf n == .value then .str else d.tagOf n) n

/-! ## Merging -/

/-- The entries of a mapping after the mappings it names have been merged into it, those first.
Mappings that are being merged already have only the other entries. -/
def mergedAux (d : Document) : Nat → List Nat → Node → Option (List (Node × Node))
  | 0, _, _ => none
  | fuel + 1, opened, n =>
    match d.target n with
    | .mapping id _ entries => do
      let own := entries.filter fun entry => d.tagOf entry.1 != .merge
      if opened.contains id then return own
      let named ← (entries.filter fun entry => d.tagOf entry.1 == .merge).mapM fun entry =>
        match d.target entry.2 with
        | .sequence _ _ items => do
          let parts ← items.mapM (mergedAux d fuel (id :: opened))
          return parts.reverse.flatten
        | inner => mergedAux d fuel (id :: opened) inner
      return named.flatten ++ own
    | _ => none

/-- The entries of a mapping with those merged into it. -/
def merged (d : Document) (n : Node) : Option (List (Node × Node)) :=
  mergedAux d (d.count + 2) [] n

/-- The parts of a sequence. -/
def items? (d : Document) (n : Node) : Option (List Node) :=
  match d.target n with
  | .sequence _ _ items => some items
  | _ => none

/-- The entry of a mapping that has just one. -/
def soleEntry? (d : Document) (n : Node) : Option (Node × Node) :=
  match d.target n with
  | .mapping _ _ [entry] => some entry
  | _ => none

/-- The entries of a sequence of mappings with one entry each. -/
def pairs? (d : Document) (n : Node) : Option (List (Node × Node)) := do
  let items ← d.items? n
  items.mapM d.soleEntry?

/-! ## Checking -/

/-- The collections that were met, and those of them that are yet to be opened, latest first. -/
structure Walk where
  met : List Nat := []
  later : List Node := []

/-- Meets a node: a scalar must have a value, and a collection is put off. -/
def meet (d : Document) (w : Walk) (n : Node) : Except LoadError Walk :=
  if (d.tagOf n).isCollection then
    match d.target n with
    | .sequence id .. | .mapping id .. =>
      if w.met.contains id then .ok w
      else .ok { met := id :: w.met, later := n :: w.later }
    | _ => .ok { w with later := n :: w.later }
  else do
    let _ ← d.plainValue n
    return w

/-- Meets an entry of a mapping, whose key is no collection. -/
def meetEntry (d : Document) (w : Walk) (entry : Node × Node) : Except LoadError Walk := do
  if (d.tagOf entry.1).isCollection then throw .malformed
  let _ ← d.keyValue entry.1
  d.meet w entry.2

/-- Meets an entry of a list of entries.  An earlier one is complete before the next is looked
at. -/
def meetPair (d : Document) (w : Walk) (n : Node) : Except LoadError Walk := do
  let entry ← orMalformed (d.soleEntry? n)
  let w ← d.meet w entry.1
  d.meet w entry.2

/-- Opens a collection and meets its parts. -/
def enter (d : Document) (w : Walk) (n : Node) : Except LoadError Walk := do
  match d.tagOf n with
  | .seq =>
    let items ← orMalformed (d.items? n)
    items.foldlM d.meet w
  | .omap | .pairs =>
    let items ← orMalformed (d.items? n)
    items.foldlM d.meetPair w
  | _ =>
    let entries ← orMalformed (d.merged n)
    entries.foldlM d.meetEntry w

/-- Opens collections level by level. -/
def checkLevels (d : Document) : Nat → Walk → Except LoadError Unit
  | 0, _ => .ok ()
  | fuel + 1, w => do
    if w.later.isEmpty then return ()
    let w ← w.later.reverse.foldlM d.enter { w with later := [] }
    checkLevels d fuel w

/-- Checks that all nodes have values. -/
def check (d : Document) : Except LoadError Unit := do
  let w ← d.meet {} d.root
  checkLevels d (d.count + 2) w

/-- Reads a document whose nodes have values. -/
def load (s : Text) : Except LoadError Document := do
  let (tokens, failure) := Token.ofText s
  let d ← ofTokens tokens failure
  d.check
  return d

/-! ## Values -/

/-- The value of a node that is no collection, after the check. -/
def checkedValue (d : Document) (n : Node) : Value := (d.keyValue n).toOption.getD .null

/-- The values of collections, by their numbers. -/
abbrev Known := List (Nat × Value)

/-- The value of a node inside the collections `opened`, and whether it is free of marks; `fuel`
bounds the depth.  The value of a collection without marks is kept, for all aliases of it. -/
def valueAux (d : Document) : Nat → List Nat → Node → StateM Known (Value × Bool)
  | 0, _, _ => return (.null, true)
  | fuel + 1, opened, n => do
    let inside (id : Nat) (isMapping : Bool) (make : List Nat → StateM Known (Value × Bool)) :
        StateM Known (Value × Bool) := do
      if opened.contains id then return (.within isMapping, false)
      if let some v := (← get).lookup id then return (v, true)
      let (v, isFree) ← make (id :: opened)
      if isFree then modify ((id, v) :: ·)
      return (v, isFree)
    match d.target n, d.tagOf n with
    | .sequence id .., .seq => inside id false fun opened => do
        let parts ← ((d.items? n).getD []).mapM (valueAux d fuel opened)
        return (.list (parts.map (·.1)), parts.all (·.2))
    | .sequence id .., .omap | .sequence id .., .pairs => inside id false fun opened => do
        let parts ← ((d.pairs? n).getD []).mapM fun (k, v) => do
          let (key, isFreeKey) ← valueAux d fuel opened k
          let (value, isFree) ← valueAux d fuel opened v
          return (Value.tuple [key, value], isFreeKey && isFree)
        return (.list (parts.map (·.1)), parts.all (·.2))
    | .mapping id .., .map => inside id true fun opened => do
        let parts ← ((d.merged n).getD []).mapM fun (k, v) => do
          let (value, isFree) ← valueAux d fuel opened v
          return ((d.checkedValue k, value), isFree)
        return (.map (distinct (parts.map (·.1))), parts.all (·.2))
    | .mapping .., .set =>
        let keys := ((d.merged n).getD []).map fun (k, _) => (d.checkedValue k, ())
        return (.set ((distinct keys).map (·.1)), true)
    | _, _ => return (d.checkedValue n, true)

/-- The value of a node. -/
def value (d : Document) (n : Node) : StateM Known Value := do
  return (← valueAux d (d.count + 2) [] n).1

/-- Whether a document stands for nothing. -/
def isNull (d : Document) : Bool := d.tagOf d.root == .null

/-- The outermost entries of a document that is a mapping, each key once. -/
def fields? (d : Document) : Option (List (Value × Node)) :=
  if d.tagOf d.root == .map then
    (d.merged d.root).map fun entries => distinct (entries.map fun (k, v) => (d.checkedValue k, v))
  else none

/-- An entry with its value. -/
def fieldValue (d : Document) (entry : Value × Node) : StateM Known (Value × Value) := do
  return (entry.1, ← d.value entry.2)

/-- What a document says.  The marks in a field of a mapping are those of the field by itself. -/
def content (d : Document) : Value :=
  if d.isNull then .null
  else match d.fields? with
    | some entries => .map ((entries.mapM d.fieldValue).run []).1
    | none => ((d.value d.root).run []).1

end RiscAsm.Yaml.Document

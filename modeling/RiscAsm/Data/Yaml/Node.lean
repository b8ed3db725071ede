import RiscAsm.Data.Yaml.Tag
import RiscAsm.Data.Yaml.Token

/-!
# Nodes of a YAML document

`Document.ofTokens` puts the tokens of a stream with a single document together to a tree of
scalars, sequences and mappings.  Anchors name nodes, and aliases stand for the nodes of that name;
an alias may stand inside the node it stands for.
-/

namespace RiscAsm.Yaml

/-- A part of a document with its tag.  Collections are numbered. -/
inductive Node where
  | scalar (tag : Tag) (text : Text)
  | sequence (id : Nat) (tag : Tag) (items : List Node)
  | mapping (id : Nat) (tag : Tag) (entries : List (Node × Node))
  /-- The node with a number. -/
  | alias (id : Nat)
  deriving Inhabited

/-- A document: its outermost node, and the nodes that have names. -/
structure Document where
  root : Node
  /-- The nodes with names, by number. -/
  named : List (Nat × Node) := []
  /-- How many numbers were given to nodes. -/
  count : Nat := 0

namespace Node

/-- What stands for a node that is left out. -/
def absent : Node := .scalar .null []

/-- How many collections may stand inside each other. -/
def maxDepth : Nat := 488

/-- The tag of a scalar that may name one. -/
def scalarTag (plain : Bool) (text : Text) : Option Text → Tag
  | none => if plain then Tag.ofPlain text else .str
  | some ['!'] => Tag.ofPlain text
  | some name => Tag.ofName name

/-- The tag of a collection that may name one. -/
def collectionTag (usual : Tag) : Option Text → Tag
  | none | some ['!'] => usual
  | some name => Tag.ofName name

/-- What the usual handles of tags stand for. -/
def usualHandles : List (Text × Text) := [(['!'], ['!']), (['!', '!'], Tag.space)]

/-- The tokens that are left, and the names that were given. -/
structure Reader where
  tokens : List Token
  /-- The fault after the tokens. -/
  failure : Option LoadError
  /-- What the handles of tags stand for. -/
  handles : List (Text × Text) := usualHandles
  /-- The numbers of the nodes with anchors. -/
  anchors : List (Text × Nat) := []
  /-- The nodes with anchors. -/
  named : List (Nat × Node) := []
  /-- The number of the next node. -/
  next : Nat := 0

namespace Reader

/-- The next token, or none at the end. -/
def peek (r : Reader) : Except LoadError (Option Token) :=
  match r.tokens, r.failure with
  | t :: _, _ => .ok (some t)
  | [], some error => .error error
  | [], none => .ok none

/-- Moves over a token. -/
def advance (r : Reader) : Reader := { r with tokens := r.tokens.tail }

/-- Whether the next token is one of the given ones. -/
def sees (r : Reader) (ts : List Token) : Except LoadError Bool := do
  let t ← r.peek
  return t.any fun t => ts.contains t

/-- Takes the given token, which must come next. -/
def take (r : Reader) (t : Token) : Except LoadError Reader := do
  if ← r.sees [t] then return r.advance else throw .malformed

/-- Takes the next number, for a node with a name if there is one, which must be new. -/
def number (r : Reader) (anchor : Option Text) : Except LoadError (Nat × Reader) :=
  let id := r.next
  match anchor with
  | none => .ok (id, { r with next := id + 1 })
  | some a =>
    if (r.anchors.lookup a).isSome then .error .malformed
    else .ok (id, { r with next := id + 1, anchors := (a, id) :: r.anchors })

/-- Keeps a node that has a name. -/
def keep (r : Reader) (anchor : Option Text) (id : Nat) (n : Node) : Reader :=
  if anchor.isSome then { r with named := (id, n) :: r.named } else r

/-- Reads an anchor, if there is one. -/
def anchor (r : Reader) : Except LoadError (Option Text × Reader) := do
  match ← r.peek with
  | some (.anchor a) => return (some a, r.advance)
  | _ => return (none, r)

/-- Reads a tag, if there is one: its handle and its name. -/
def tag (r : Reader) : Except LoadError (Option (Option Text × Text) × Reader) := do
  match ← r.peek with
  | some (.tag handle name) => return (some (handle, name), r.advance)
  | _ => return (none, r)

/-- The full name of a tag. -/
def fullName (r : Reader) : Option (Option Text × Text) → Except LoadError (Option Text)
  | none => .ok none
  | some (none, name) => .ok (some name)
  | some (some handle, name) => do
    let start ← orMalformed (r.handles.lookup handle)
    return some (start ++ name)

/-- Reads the tag and the anchor in front of a node, in any order. -/
def properties (r : Reader) : Except LoadError (Option Text × Option Text × Reader) := do
  let (first, r) ← r.anchor
  let (tag, r) ← r.tag
  let (anchor, r) ← if first.isNone && tag.isSome then r.anchor else pure (first, r)
  let name ← r.fullName tag
  return (anchor, name, r)

end Reader

/-- The result of reading a node. -/
abbrev Result := Except LoadError (Node × Reader)

/-- The collections that a node may be. -/
inductive Shape where
  | indentless | blockSequence | blockMapping | flowSequence | flowMapping
  deriving DecidableEq, Repr

/-- The collection that starts with a token; `indentless` allows a sequence that is not indented
deeper than the key before it. -/
def shape? (inBlock indentless : Bool) : Option Token → Option Shape
  | some .blockEntry => if indentless then some .indentless else none
  | some .flowSequenceStart => some .flowSequence
  | some .flowMappingStart => some .flowMapping
  | some .blockSequenceStart => if inBlock then some .blockSequence else none
  | some .blockMappingStart => if inBlock then some .blockMapping else none
  | _ => none

mutual

/-- Reads a node inside `depth` collections, in a block or in a flow collection. -/
def read : Nat → Nat → Bool → Bool → Reader → Result
  | 0, _, _, _, _ => .error .malformed
  | fuel + 1, depth, inBlock, indentless, r => do
    if maxDepth < depth then throw .tooDeep
    let first ← r.peek
    if let some (.alias a) := first then
      let id ← orMalformed (r.anchors.lookup a)
      return (.alias id, r.advance)
    let (anchor, name, r) ← r.properties
    let token ← r.peek
    let (id, r) ← r.number anchor
    let (n, r) ← match token, shape? inBlock indentless token with
      | some (.scalar plain text), _ =>
        pure (.scalar (scalarTag plain text name) text, r.advance)
      | _, some .indentless => do
        let (items, r) ← readIndentless fuel (depth + 1) [] r
        pure (.sequence id (collectionTag .seq name) items, r)
      | _, some .blockSequence => do
        let (items, r) ← readBlockSequence fuel (depth + 1) [] r.advance
        pure (.sequence id (collectionTag .seq name) items, r)
      | _, some .flowSequence => do
        let (items, r) ← readFlowSequence fuel (depth + 1) true [] r.advance
        pure (.sequence id (collectionTag .seq name) items, r)
      | _, some .blockMapping => do
        let (entries, r) ← readBlockMapping fuel (depth + 1) [] r.advance
        pure (.mapping id (collectionTag .map name) entries, r)
      | _, some .flowMapping => do
        let (entries, r) ← readFlowMapping fuel (depth + 1) true [] r.advance
        pure (.mapping id (collectionTag .map name) entries, r)
      | _, none =>
        if anchor.isSome || name.isSome then pure (.scalar (scalarTag true [] name) [], r)
        else throw .malformed
    return (n, r.keep anchor id n)

/-- Reads a node, unless one of the given tokens comes instead. -/
def readUnless : Nat → List Token → Nat → Bool → Bool → Reader → Result
  | 0, _, _, _, _, _ => .error .malformed
  | fuel + 1, stops, depth, inBlock, indentless, r => do
    if ← r.sees stops then return (absent, r) else read fuel depth inBlock indentless r

/-- Reads the value of a key, if it has one. -/
def readValue : Nat → List Token → Nat → Bool → Reader → Result
  | 0, _, _, _, _ => .error .malformed
  | fuel + 1, stops, depth, inBlock, r => do
    if ← r.sees [.value] then readUnless fuel stops depth inBlock inBlock r.advance
    else return (absent, r)

/-- Reads the parts of a block sequence, gathered with the latest first. -/
def readBlockSequence : Nat → Nat → List Node → Reader → Except LoadError (List Node × Reader)
  | 0, _, _, _ => .error .malformed
  | fuel + 1, depth, items, r => do
    if ← r.sees [.blockEntry] then
      let (n, r) ← readUnless fuel [.blockEntry, .blockEnd] depth true false r.advance
      readBlockSequence fuel depth (n :: items) r
    else
      let r ← r.take .blockEnd
      return (items.reverse, r)

/-- Reads the parts of a sequence that has no indentation of its own. -/
def readIndentless : Nat → Nat → List Node → Reader → Except LoadError (List Node × Reader)
  | 0, _, _, _ => .error .malformed
  | fuel + 1, depth, items, r => do
    if ← r.sees [.blockEntry] then
      let (n, r) ← readUnless fuel [.blockEntry, .key, .value, .blockEnd] depth true false r.advance
      readIndentless fuel depth (n :: items) r
    else return (items.reverse, r)

/-- Reads the entries of a block mapping, gathered with the latest first. -/
def readBlockMapping :
    Nat → Nat → List (Node × Node) → Reader → Except LoadError (List (Node × Node) × Reader)
  | 0, _, _, _ => .error .malformed
  | fuel + 1, depth, entries, r => do
    let stops := [Token.key, .value, .blockEnd]
    if ← r.sees [.key] then
      let (k, r) ← readUnless fuel stops depth true true r.advance
      let (v, r) ← readValue fuel stops depth true r
      readBlockMapping fuel depth ((k, v) :: entries) r
    else
      let r ← r.take .blockEnd
      return (entries.reverse, r)

/-- Reads the parts of a flow sequence, gathered with the latest first.  A key makes a mapping of
one entry. -/
def readFlowSequence :
    Nat → Nat → Bool → List Node → Reader → Except LoadError (List Node × Reader)
  | 0, _, _, _, _ => .error .malformed
  | fuel + 1, depth, first, items, r => do
    if ← r.sees [.flowSequenceEnd] then return (items.reverse, r.advance)
    let r ← if first then pure r else r.take .flowEntry
    if ← r.sees [.key] then
      if maxDepth < depth then throw .tooDeep
      let (id, r) ← r.advance.number none
      let (k, r) ←
        readUnless fuel [.value, .flowEntry, .flowSequenceEnd] (depth + 1) false false r
      let (v, r) ← readValue fuel [.flowEntry, .flowSequenceEnd] (depth + 1) false r
      readFlowSequence fuel depth false (.mapping id .map [(k, v)] :: items) r
    else if ← r.sees [.flowSequenceEnd] then return (items.reverse, r.advance)
    else
      let (n, r) ← read fuel depth false false r
      readFlowSequence fuel depth false (n :: items) r

/-- Reads the entries of a flow mapping, gathered with the latest first. -/
def readFlowMapping : Nat → Nat → Bool → List (Node × Node) → Reader →
    Except LoadError (List (Node × Node) × Reader)
  | 0, _, _, _, _ => .error .malformed
  | fuel + 1, depth, first, entries, r => do
    if ← r.sees [.flowMappingEnd] then return (entries.reverse, r.advance)
    let r ← if first then pure r else r.take .flowEntry
    if ← r.sees [.key] then
      let (k, r) ←
        readUnless fuel [.value, .flowEntry, .flowMappingEnd] depth false false r.advance
      let (v, r) ← readValue fuel [.flowEntry, .flowMappingEnd] depth false r
      readFlowMapping fuel depth false ((k, v) :: entries) r
    else if ← r.sees [.flowMappingEnd] then return (entries.reverse, r.advance)
    else
      let (n, r) ← read fuel depth false false r
      readFlowMapping fuel depth false ((n, absent) :: entries) r

end

end Node

namespace Document

open Node

/-- Whether a token stands before the content of a document. -/
def isOpening : Token → Bool
  | .directive _ | .documentStart => true
  | _ => false

/-- Reads directives: at most one states the version, which is the first, and a handle has at most
one meaning. -/
def readDirectives (versioned : Bool) (handles : List (Text × Text)) :
    Nat → Reader → Except LoadError Reader
  | 0, _ => .error .malformed
  | fuel + 1, r => do
    match ← r.peek with
    | some (.directive (.version major)) =>
      if versioned || major != 1 then throw .malformed
      readDirectives true handles fuel r.advance
    | some (.directive (.handle name start)) =>
      if (handles.lookup name).isSome then throw .malformed
      readDirectives versioned ((name, start) :: handles) fuel r.advance
    | some (.directive .other) => readDirectives versioned handles fuel r.advance
    | _ => return { r with handles := handles ++ usualHandles }

/-- Reads directives and the start of the document they are for. -/
def readStart (r : Reader) : Except LoadError Reader := do
  let r ← readDirectives false [] (r.tokens.length + 1) r
  r.take .documentStart

/-- Reads the marks at the end of a document. -/
def skipEnds : Nat → Reader → Except LoadError Reader
  | 0, r => .ok r
  | fuel + 1, r => do
    if ← r.sees [.documentEnd] then skipEnds fuel r.advance else return r

/-- Checks that no document follows. -/
def checkEnd (r : Reader) : Except LoadError Unit := do
  let r ← skipEnds (r.tokens.length + 1) r
  let rest ← r.peek
  if rest.isSome then
    let _ ← readStart r
    throw .malformed

/-- Reads the content of a document. -/
def readContent (explicit : Bool) (r : Reader) : Except LoadError Document := do
  let first ← r.peek
  let isAbsent := explicit && (first.isNone || first.any fun t => isOpening t || t == .documentEnd)
  let (root, r) ←
    if isAbsent then pure (absent, r)
    else read (4 * r.tokens.length + 8) 0 true false r
  checkEnd r
  return { root, named := r.named, count := r.next }

/-- Reads the document of a stream that has at most one; a stream without any has an absent node. -/
def ofTokens (tokens : List Token) (failure : Option LoadError) : Except LoadError Document := do
  let r : Reader := { tokens, failure }
  match ← r.peek with
  | none => return { root := absent }
  | some t =>
    if isOpening t then
      let r ← readStart r
      readContent true r
    else readContent false r

end Document

end RiscAsm.Yaml

import RiscAsm.Text.Utf8

/-!
# File trees

A `FileTree` is what a command sees of a file system: the files and directories by their places,
and the directory in which it works.  Places are lists of names from the root on.  `read` and
`write` follow a path name by name and say which of its steps is wrong.
-/

namespace RiscAsm

/-! ## Paths -/

namespace Path

/-- The names of a path, empty ones included. -/
def names (path : Text) : List Text := path.splitOn '/'

/-- The slashes that a path from the root keeps: two stay two, more are one. -/
def rootMark (path : Text) : Text :=
  match path.takeWhile (· == '/') with
  | [] => []
  | ['/', '/'] => ['/', '/']
  | _ => ['/']

/-- A path without empty names and without names that stay where they are. -/
def normalize (path : Text) : Text :=
  let kept := (names path).filter fun name => !name.isEmpty && name != ['.']
  match rootMark path ++ Text.join ['/'] kept with
  | [] => ['.']
  | normal => normal

end Path

/-- What is wrong with a path. -/
inductive PathFault where
  | missing
  | notDirectory
  | isDirectory
  | nameTooLong
  /-- The path has a character that no path can have. -/
  | nullCharacter
  deriving DecidableEq, Repr

namespace PathFault

/-- The wording of a fault. -/
def reason : PathFault → Text
  | missing => "No such file or directory".toList
  | notDirectory => "Not a directory".toList
  | isDirectory => "Is a directory".toList
  | nameTooLong => "File name too long".toList
  | nullCharacter => "embedded null byte".toList

/-- The number by which a system reports a fault. -/
def number : PathFault → Nat
  | missing => 2
  | notDirectory => 20
  | isDirectory => 21
  | nameTooLong => 36
  | nullCharacter => 22

end PathFault

/-! ## Trees -/

/-- A file with its content, or a directory. -/
inductive Node where
  | file (content : List UInt8)
  | directory
  deriving DecidableEq, Repr

/-- The names that lead from the root to a node. -/
abbrev Place := List Text

/-- Files and directories by their places.  The root is a directory. -/
structure FileTree where
  nodes : List (Place × Node) := []
  workingDirectory : Place := []
  deriving DecidableEq, Repr

namespace FileTree

/-- The most bytes that a name can have. -/
def nameLimit : Nat := 255

/-- The most bytes that a path can have. -/
def pathLimit : Nat := 4095

/-- The node at a place. -/
def node? (t : FileTree) (place : Place) : Option Node :=
  if place.isEmpty then some .directory else t.nodes.lookup place

/-- Puts a node at a place, in the stead of the one that was there. -/
def set (t : FileTree) (place : Place) (node : Node) : FileTree :=
  { t with nodes := (place, node) :: t.nodes.filter fun entry => entry.1 != place }

/-- The place that a name points to from a place, whatever the nodes there are. -/
def pointed (here : Place) (name : Text) : Place :=
  if name.isEmpty || name == ['.'] then here
  else if name == ['.', '.'] then here.dropLast
  else here ++ [name]

/-- The place that a name leads to from a directory, whether or not there is a node. -/
def child (t : FileTree) (here : Place) (name : Text) : Except PathFault Place :=
  if t.node? here != some .directory then .error .notDirectory
  else if nameLimit < (Utf8.encode name).length then .error .nameTooLong
  else .ok (pointed here name)

/-- The node that a name leads to from a directory. -/
def step (t : FileTree) (here : Place) (name : Text) : Except PathFault Place := do
  let place ← t.child here name
  if (t.node? place).isSome then return place else throw .missing

/-- The place where a path starts. -/
def start (t : FileTree) (path : Text) : Place :=
  if path.head? == some '/' then [] else t.workingDirectory

/-- Refuses paths that no system looks up. -/
def checkPath (path : Text) : Except PathFault Unit :=
  if path.contains '\x00' then .error .nullCharacter
  else if path.isEmpty then .error .missing
  else if pathLimit < (Utf8.encode path).length then .error .nameTooLong
  else .ok ()

/-- The place of the node at a path. -/
def locate (t : FileTree) (path : Text) : Except PathFault Place := do
  checkPath path
  (Path.names path).foldlM t.step (t.start path)

/-- The content of the file at a path. -/
def read (t : FileTree) (path : Text) : Except PathFault (List UInt8) := do
  let place ← t.locate path
  match t.node? place with
  | some (.file content) => return content
  | some .directory => throw .isDirectory
  | none => throw .missing

/-- The place where a file at a path would stand.  A name that a slash follows can only be that of
a directory. -/
def target (t : FileTree) (path : Text) : Except PathFault Place := do
  let names := Path.names ((path.reverse.dropWhile (· == '/')).reverse)
  let last := names.getLast?.getD []
  let here ← names.dropLast.foldlM t.step (t.start path)
  if t.node? here != some .directory then throw .notDirectory
  if path.getLast? == some '/' && pointed here last == here ++ [last] then throw .isDirectory
  t.child here last

/-- Puts a file at a path: a new one, or in the stead of the file that was there. -/
def write (t : FileTree) (path : Text) (content : List UInt8) : Except PathFault FileTree := do
  checkPath path
  let place ← t.target path
  if t.node? place = some .directory then throw .isDirectory
  return t.set place (.file content)

/-- The places that a path points to on its way, the last one first. -/
def pointedOn (t : FileTree) (path : Text) : List Place :=
  (Path.names path).foldl (fun seen name => pointed (seen.head?.getD []) name :: seen)
    [t.start path]

/-! ## Building and comparing -/

/-- Puts a directory at a place and at the places above it, where there is no node. -/
def makeDirectory (t : FileTree) (place : Place) : FileTree :=
  ((List.range (place.length + 1)).map place.take).foldl
    (fun t above => if (t.node? above).isSome then t else t.set above .directory) t

/-- Puts a node below the working directory, with the directories above it. -/
def add (t : FileTree) (path : Text) (node : Node) : FileTree :=
  let place := (Path.names path).foldl pointed t.workingDirectory
  match node with
  | .directory => t.makeDirectory place
  | .file content => (t.makeDirectory place.dropLast).set place (.file content)

/-- The files that are new or have another content than before. -/
def changes (before after : FileTree) : List (Place × List UInt8) :=
  after.nodes.filterMap fun entry =>
    match entry.2 with
    | .directory => none
    | .file content =>
      if before.node? entry.1 = some (.file content) then none else some (entry.1, content)

end FileTree

end RiscAsm

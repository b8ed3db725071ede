import RiscAsm.CommandLine
import RiscAsm.Data.Yaml.Loader

/-!
# The command as a program

`main` looks at the files that the arguments name, runs the command on them, and does what its
outcome says.
-/

namespace RiscAsm.Disk

/-- The paths that a command looks at. -/
def pathsOf (arguments : List Text) : List Text :=
  match CommandLine.Invocation.read arguments with
  | .error _ => []
  | .ok i => i.input :: (i.config.toList ++ i.output.toList)

/-- The name of a place on disk. -/
def diskName (place : Place) : String := String.ofList ('/' :: Text.join ['/'] place)

/-- Adds the node that is found on disk at a place. -/
def addFound (files : FileTree) (place : Place) : IO FileTree := do
  let found := (← IO.currentDir) / diskName place
  if ← found.isDir then return files.set place .directory
  if ← found.pathExists then
    return files.set place (.file (← IO.FS.readBinFile found).toList)
  return files

/-- The files that a command finds on disk. -/
def findFiles (arguments : List Text) : IO FileTree := do
  let here := ((← IO.currentDir).toString.toList.splitOn '/').filter (!·.isEmpty)
  let empty : FileTree := { workingDirectory := here }
  ((pathsOf arguments).flatMap empty.pointedOn).foldlM addFound (empty.makeDirectory here)

end RiscAsm.Disk

open RiscAsm in
/-- Runs the command. -/
def main (arguments : List String) : IO UInt32 := do
  let texts := arguments.map String.toList
  let files ← Disk.findFiles texts
  let outcome := CommandLine.run { load := Yaml.load, room := .usual } files texts
  for (place, content) in files.changes outcome.files do
    IO.FS.writeBinFile (Disk.diskName place) ⟨content.toArray⟩
  (← IO.getStderr).putStr (String.ofList outcome.stderr)
  (← IO.getStdout).write ⟨outcome.stdout.toArray⟩
  match outcome.ending with
  | .exit code => return code.toUInt32
  | .crash _ => return 1

import JackSyntax.Disk.Changes
import JackSyntax.Program

/-!
# The executable

Takes the part of the disk that a command line is about into memory, runs the program on it, and
carries its changes back. Nothing is decided here.
-/

namespace JackSyntax

/-- Adds what really stands at a path; the bytes of a file only when they are wanted. -/
def observe (wanted : Path → Bool) (disk : Disk) (path : Path) : IO Disk := do
  let place := (← IO.currentDir) / path.toString
  if ← place.isDir then return disk.insert (disk.locate path) .directory
  else if ← place.pathExists then
    let bytes ← if wanted path then IO.FS.readBinFile place else pure ByteArray.empty
    return disk.insert (disk.locate path) (.file bytes)
  else return disk

/-- Adds a directory, those around it, and what is directly inside it. -/
def survey (wanted : Path → Bool) (disk : Disk) (path : Path) : IO Disk := do
  let around := (List.range (path.parts.length + 1)).map fun count =>
    { path with parts := path.parts.take count }
  let disk ← around.foldlM (observe wanted) disk
  let place := (← IO.currentDir) / path.toString
  if ← place.isDir then
    let inside ← place.readDir
    (inside.toList.map fun entry => path.child entry.fileName).foldlM (observe wanted) disk
  else return disk

/-- Carries out a change. -/
def Change.carryOut (change : Change) : IO Unit := do
  let here ← IO.currentDir
  match change with
  | made place => IO.FS.createDirAll (here / place.path.toString)
  | written place bytes => IO.FS.writeBinFile (here / place.path.toString) bytes
  | removed place => IO.FS.removeFile (here / place.path.toString)

/-- The disk as far as a command line is about it. -/
def surveyFor (words : List String) : IO Disk := do
  let disk : Disk := { here := (Path.ofString (← IO.currentDir).toString).parts }
  match CommandLine.parse words with
  | .error _ => return disk
  | .ok options => (Program.surveyed options).foldlM (survey (Program.concerns options)) disk

end JackSyntax

open JackSyntax in
/-- Runs the program on the words of the command line. -/
def main (words : List String) : IO UInt32 := do
  let disk ← surveyFor words
  let (ending, workspace) := Program.run words { disk }
  (disk.changes workspace.disk).forM Change.carryOut
  IO.print ending.answer
  IO.eprint (ending.complaint ++ Program.logged words workspace)
  if let .brokenOff fault := ending then IO.eprintln fault.message
  return ending.status.toUInt32

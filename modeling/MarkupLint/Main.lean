import MarkupLint.CommandLine.Run

/-!
# The program

Reads the files that the arguments name into a `FileTree`, lets `CommandLine.lint` answer, and
prints the answer: the report to the standard output, the log and a reminder of the usage to the
standard error.
-/

namespace MarkupLint

namespace Program

/-- The names on the way to the working directory. -/
def workingDirectory : IO (List String) :=
  return (Path.ofString (← IO.currentDir).toString).parts

/-- The way to a place. -/
def pathTo (place : List String) : String := "/" ++ "/".intercalate place

/-- Adds the directory or the file at a place, if there is one, and tells whether it was a
directory. What may not be read is added all the same. If nothing can be said about the place, it is
because the directory it lies in may not be entered. -/
def loadNode (tree : FileTree) (place : List String) : IO (FileTree × Bool) := do
  let path := (← IO.currentDir) / pathTo place
  match ← path.metadata.toBaseIO with
  | .error (.permissionDenied ..) => return (tree.bar place.dropLast, false)
  | .error _ => return (tree, false)
  | .ok data =>
    if data.type == .dir then return (tree.addDirectory place, true)
    match ← (IO.FS.readBinFile path).toBaseIO with
    | .ok content => return (tree.addFile place content, false)
    | .error _ => return ((tree.addFile place .empty).hide place, false)

/-- Adds what lies at a place and everything below it. -/
partial def loadAll (tree : FileTree) (place : List String) : IO FileTree := do
  let (tree, isDirectory) ← loadNode tree place
  if !isDirectory then return tree
  match ← ((← IO.currentDir) / pathTo place).readDir.toBaseIO with
  | .error _ => return tree.hide place
  | .ok entries =>
    let mut tree := tree
    for entry in entries do
      tree ← loadAll tree (place ++ [entry.fileName])
    return tree

/-- Adds what lies at the end of a path, and what the path goes through. -/
def loadPath (tree : FileTree) (path : Path) : IO FileTree := do
  let mut tree := tree
  let mut place := if path.isAbsolute then [] else tree.workingDirectory
  for name in path.parts do
    tree := (← loadNode tree place).1
    place := if name == ".." then place.dropLast else place ++ [name]
  loadAll tree place

/-- The files that the arguments name. Those that are switches name nothing. -/
def filesFor (arguments : List String) : IO FileTree := do
  let mut tree := FileTree.empty (← workingDirectory)
  match CommandLine.lintGrammar.parse {} arguments with
  | .accepted _ operands =>
    for path in operands.map Path.ofString do
      if !path.hasNull then tree ← loadPath tree path
  | _ => pure ()
  return tree

end Program

end MarkupLint

open MarkupLint in
/-- Lints the files and directories that the arguments name. -/
def main (arguments : List String) : IO UInt32 := do
  let response := CommandLine.lint (← Program.filesFor arguments) arguments
  for event in response.log do
    IO.eprintln event.line
  IO.print response.output
  match response.status with
  | .error fault =>
    IO.eprintln fault.message
    return 1
  | .ok status =>
    if status == 2 then IO.eprint CommandLine.lintUsage
    return status.toUInt32

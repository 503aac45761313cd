import MarkupLint.Fault
import MarkupLint.File.Content
import MarkupLint.File.Path

/-!
# File trees

The files that a run can see, with their contents, as a value. Places in a tree are lists of names
from the root. A directory is there if something says so or something lies in it.

A path is followed name by name: each step starts in a directory, and two dots lead to the one above
it. So a path that leads through a missing directory leads nowhere, even if it comes back at once.
Names and paths have limits, in bytes. A name is measured when it is come to, a path at the start.

Not all that is there is open to everyone. The content of a file may be hidden, and so may be what
lies in a directory: the former cannot be read, and the latter is not found when the directory is
looked through. A directory may be barred, too. Then no path leads through it, not even one to a
name that was found in it.
-/

namespace MarkupLint

/-- Files and directories. -/
structure FileTree where
  /-- The place from which relative paths start. -/
  workingDirectory : List String
  /-- The files with their contents. -/
  files : List (List String × ByteArray)
  /-- Directories that are there even if nothing lies in them. -/
  directories : List (List String)
  /-- The files and directories that may not be read. -/
  hidden : List (List String)
  /-- The directories that may not be entered. -/
  barred : List (List String)

namespace FileTree

/-- The tree that holds nothing but a working directory. -/
def empty (workingDirectory : List String) : FileTree := ⟨workingDirectory, [], [], [], []⟩

/-- The place where a path leads if there are no two dots in it. -/
def place (tree : FileTree) (path : Path) : List String :=
  if path.isAbsolute then path.parts else tree.workingDirectory ++ path.parts

/-- The tree with a file at the given place. -/
def addFile (tree : FileTree) (place : List String) (content : ByteArray) : FileTree :=
  { tree with files := (place, content) :: tree.files.filter (·.1 != place) }

/-- The tree with a directory at the given place. -/
def addDirectory (tree : FileTree) (place : List String) : FileTree :=
  { tree with directories := place :: tree.directories }

/-- The tree in which what is at the given place may not be read. -/
def hide (tree : FileTree) (place : List String) : FileTree :=
  { tree with hidden := place :: tree.hidden }

/-- The tree in which the directory at the given place may not be entered. -/
def bar (tree : FileTree) (place : List String) : FileTree :=
  { tree with barred := place :: tree.barred }

/-- The content of the file at a place. -/
def fileAt? (tree : FileTree) (place : List String) : Option ByteArray := tree.files.lookup place

/-- Whether there is a file at a place. -/
def isFileAt (tree : FileTree) (place : List String) : Bool := (tree.fileAt? place).isSome

/-- Whether there is a directory at a place. -/
def isDirectoryAt (tree : FileTree) (place : List String) : Bool :=
  (tree.workingDirectory :: tree.directories ++ tree.files.map (·.1.dropLast)).any
    (place.isPrefixOf ·)

/-- The greatest length of a name, in bytes. -/
def nameLimit : Nat := 255

/-- The greatest length of a path, in bytes. -/
def pathLimit : Nat := 4095

/-- Follows names from a place. -/
def follow (tree : FileTree) (place : List String) :
    List String → Except ReadFault (List String)
  | [] => .ok place
  | name :: rest =>
    if !tree.isDirectoryAt place then
      .error (if tree.isFileAt place then .notDirectory else .missing)
    else if tree.barred.contains place then .error .denied
    else if nameLimit < name.utf8ByteSize then .error .nameTooLong
    else tree.follow (if name == ".." then place.dropLast else place ++ [name]) rest

/-- The place where a path leads. There need not be anything there. -/
def locate (tree : FileTree) (path : Path) : Except ReadFault (List String) :=
  if pathLimit < path.display.utf8ByteSize then .error .nameTooLong
  else tree.follow (if path.isAbsolute then [] else tree.workingDirectory) path.parts

/-- Whether a path leads to a place of some sort. One that leads nowhere does not, but that it is
too long, or goes through a directory that may not be entered, is a fault. -/
def leadsTo (tree : FileTree) (isThere : List String → Bool) (path : Path) : Except Fault Bool :=
  if path.hasNull then .ok false
  else match tree.locate path with
    | .ok place => .ok (isThere place)
    | .error .nameTooLong => .error (.nameTooLong path.display)
    | .error .denied => .error (.denied path.display)
    | .error _ => .ok false

/-- Whether a path leads to a directory. -/
def isDirectory (tree : FileTree) (path : Path) : Except Fault Bool :=
  tree.leadsTo tree.isDirectoryAt path

/-- Whether a path leads to a file. -/
def isFile (tree : FileTree) (path : Path) : Except Fault Bool := tree.leadsTo tree.isFileAt path

/-- The content of the file at the end of a path. -/
def read (tree : FileTree) (path : Path) : Except ReadFault ByteArray := do
  let place ← tree.locate path
  if tree.hidden.contains place then throw .denied
  match tree.fileAt? place with
  | some content => return content
  | none => throw (if tree.isDirectoryAt place then .isDirectory else .missing)

/-- The text of the file at the end of a path. -/
def readText (tree : FileTree) (path : Path) : Except ReadFault Text := do
  decodeText (← tree.read path)

/-- Whether a directory that is passed on the way from one place down to another is hidden. -/
def isHiddenBetween (tree : FileTree) (place below : List String) : Bool :=
  tree.hidden.any fun other =>
    place.isPrefixOf other && other.isPrefixOf below && other.length < below.length

/-- The names that lead from a place to what is found below it. -/
def namesBelow (tree : FileTree) (place : List String) : List (List String) :=
  (tree.files.map Prod.fst ++ tree.directories).filterMap fun below =>
    if place.isPrefixOf below && place.length < below.length &&
        !tree.isHiddenBetween place below then
      some (below.drop place.length)
    else none

/-- The documents in the directory at the end of a path and in those below it, ordered by the names
on the way to them. All that is found there has to be looked at. -/
def documentsIn (tree : FileTree) (path : Path) : Except Fault (List Path) :=
  match tree.locate path with
  | .error _ => .ok []
  | .ok place => do
    let found ← (tree.namesBelow place).mapM fun names =>
      (tree.isFile (path.append names)).map (names, ·)
    let documents := found.filter fun entry => entry.2 && isDocumentName (entry.1.getLastD "")
    return ((documents.map Prod.fst).mergeSort fun a b =>
      (List.compareLex compare a b).isLE).map path.append

/-- The files that a path stands for: the documents of a directory, and everything else as it is. -/
def filesOf (tree : FileTree) (path : Path) : Except Fault (List Path) := do
  if ← tree.isDirectory path then tree.documentsIn path else return [path]

/-- The files that a list of paths stands for. -/
def collect (tree : FileTree) (paths : List Path) : Except Fault (List Path) :=
  (paths.mapM tree.filesOf).map List.flatten

end FileTree

end MarkupLint

import MarkupLint.Text.Lowercase

/-!
# Paths

A path is a list of names, from the working directory or from the root. Written paths may hold
repeated slashes and single dots, which mean nothing and are left out; two dots are kept, since only
the files themselves can tell where they lead. A path that begins with exactly two slashes keeps
both.
-/

namespace MarkupLint

/-- A path to a file or a directory. -/
structure Path where
  /-- The slashes at the front: none, one or two. -/
  root : String
  /-- The names on the way. -/
  parts : List String
deriving DecidableEq, Repr

namespace Path

/-- The slashes at the front of a written path, as they are kept. -/
def rootOf (text : Text) : String :=
  match (text.takeWhile (· == '/')).length with
  | 0 => ""
  | 2 => "//"
  | _ => "/"

/-- The path that is written as `s`. -/
def ofString (s : String) : Path where
  root := rootOf s.toList
  parts := ((s.toList.splitOn '/').map String.ofList).filter fun part => part != "" && part != "."

/-- The path as it is printed. The working directory itself is a dot. -/
def display (path : Path) : String :=
  let text := path.root ++ "/".intercalate path.parts
  if text.isEmpty then "." else text

/-- Whether the path starts at the root. -/
def isAbsolute (path : Path) : Bool := !path.root.isEmpty

/-- Whether there is a null character in the path. Nothing can be read at such a path, and nothing
is a directory there. -/
def hasNull (path : Path) : Bool := path.parts.any (·.toList.contains '\x00')

/-- The path that goes on with further names. -/
def append (path : Path) (parts : List String) : Path := ⟨path.root, path.parts ++ parts⟩

end Path

/-- The ending of a file name, from its last dot on. There is none if that dot is the first or the
last character. -/
def suffixOf (name : String) : String :=
  let ending := name.toList.reverse.takeWhile (· != '.')
  let stem := (name.toList.reverse.dropWhile (· != '.')).drop 1
  if ending.isEmpty || stem.isEmpty then "" else String.ofList ('.' :: ending.reverse)

/-- Whether a file name has the ending of a document, in any case. -/
def isDocumentName (name : String) : Bool :=
  [".html", ".htm"].contains (lowercase (suffixOf name))

end MarkupLint

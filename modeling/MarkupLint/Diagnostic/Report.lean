import MarkupLint.Diagnostic.Basic

/-!
# Reports

A report is a list of diagnostics. It can be put in order of place and cut down to what is bad
enough. Both keep the relative order of what they cannot tell apart.
-/

namespace MarkupLint

namespace Diagnostic

/-- Diagnostics are compared by where they start, where they stop, their codes and their messages,
in this order. Strings are compared by code points. -/
def compareByPlace (d e : Diagnostic) : Ordering :=
  (compare d.span.start e.span.start).then <|
    (compare d.span.stop e.span.stop).then <|
      (compare d.code e.code).then (compare d.message e.message)

/-- The line of a diagnostic in a report on the file at `path`. -/
def line (path : String) (d : Diagnostic) : String :=
  path ++ ":" ++ d.span.start.display ++ ": " ++ d.severity.name ++ " [" ++ d.code ++ "] " ++
    d.message

/-- Whether a diagnostic is as bad as an error. -/
def isError (d : Diagnostic) : Bool := d.severity == .error

end Diagnostic

namespace Report

/-- Whether a report holds an error. -/
def hasErrors (report : List Diagnostic) : Bool := report.any Diagnostic.isError

/-- The report in order of place. -/
def sorted (report : List Diagnostic) : List Diagnostic :=
  report.mergeSort fun d e => (d.compareByPlace e).isLE

/-- What is at least as bad as `least`. -/
def reaching (least : Severity) (report : List Diagnostic) : List Diagnostic :=
  report.filter (·.severity.reaches least)

/-- What is at least as bad as `least`, provided that everything can be compared: the threshold must
have a rank, even for an empty report, and so must each of the diagnostics. -/
def atLeast (least : Severity) (report : List Diagnostic) : Except Fault (List Diagnostic) :=
  match (least :: report.map Diagnostic.severity).find? (·.rank?.isNone) with
  | some severity => .error (.unknownSeverity severity.name)
  | none => .ok (reaching least report)

end Report

end MarkupLint

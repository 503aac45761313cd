import MarkupLint.Category
import MarkupLint.Fault
import MarkupLint.Text.Quoted

/-!
# The wording of faults

One function, `Fault.message`, gives every fault its text. Names that a caller supplied are shown
between quotes or backticks, so that an empty name can be seen.
-/

namespace MarkupLint

namespace Fault

/-- The categories a rule may have, as they are listed in a message. -/
def categoryNames : String := ", ".intercalate (Category.all.map Category.name)

/-- The starts a code may have, as they are listed in a message. -/
def codeStarts : String := ", ".intercalate (Category.all.map Category.codeStart)

/-- What a fault says. -/
def message : Fault → String
  | rangeNegative => "TextRange positions cannot be negative"
  | rangeReversed => "TextRange invariant violated: start > end"
  | positionBelowOne => "LineCol is 1-based; line and column must be >= 1"
  | spanReversed => "Span invariant violated: end before start"
  | offsetOutside offset length =>
    "Offset " ++ toString offset ++ " is outside the text (length " ++ toString length ++ ")"
  | linePastEnd line count =>
    "Line " ++ toString line ++ " is past the last line (" ++ toString count ++ ")"
  | columnPastEnd column line =>
    "Column " ++ toString column ++ " is past the end of line " ++ toString line
  | missingField name => Quoted.ofString name
  | loneOpenBrace => "Single '\x7b' encountered in format string"
  | loneCloseBrace => "Single '\x7d' encountered in format string"
  | unclosedField => "expected '\x7d' before end of string"
  | nestedField => "unexpected '\x7b' in field name"
  | numberedField number =>
    "Replacement index " ++ toString number ++ " out of range for positional args tuple"
  | fieldNumberTooGreat => "Too many decimal digits in format string"
  | unknownSeverity name => Quoted.ofString name
  | unknownKind name => Quoted.ofString name ++ " is not a valid DiagnosticKind"
  | unknownMode name => Quoted.ofString name ++ " is not a valid LintMode"
  | openMode => "[] is not a valid LintMode"
  | openSeverity => "unhashable type: 'list'"
  | nullInPath => "embedded null byte"
  | nameTooLong path => "[Errno 36] File name too long: " ++ Quoted.ofString path
  | denied path => "[Errno 13] Permission denied: " ++ Quoted.ofString path
  | optionsAndMode => "Pass either options or mode, not both"
  | unknownCategory rule category =>
    "Lint rule `" ++ rule ++ "` has invalid category `" ++ category ++ "`; expected one of " ++
      categoryNames ++ "."
  | repeatedRule rule => "Lint rule `" ++ rule ++ "` is registered more than once."
  | malformedCode rule code =>
    "Lint rule `" ++ rule ++ "` has invalid code `" ++ code ++ "`; expected a prefix from " ++
      codeStarts ++ "."
  | repeatedCode rule code =>
    "Lint rule `" ++ rule ++ "` reuses code `" ++ code ++ "` owned by another rule."
  | unrankedCategory => "tuple.index(x): x not in tuple"
  | ruleFailed reason => reason

end Fault

end MarkupLint

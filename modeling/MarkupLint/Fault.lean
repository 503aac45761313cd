/-!
# Faults

Every reason the library has for refusing something, as data. A fault carries what its wording
needs and nothing else; the wording itself is `Fault.message`, in `MarkupLint.Fault.Message`.

Faults are never the findings of the linter. Findings describe a document and are ordinary values;
a fault says that a request made no sense, for instance that an offset lies outside the text.
-/

namespace MarkupLint

/-- The reason a request was refused. -/
inductive Fault where
  /-- A range has a negative end. -/
  | rangeNegative
  /-- A range ends before it starts. -/
  | rangeReversed
  /-- A line or a column is below one. -/
  | positionBelowOne
  /-- A span ends before it starts. -/
  | spanReversed
  /-- An offset lies outside a text of the given length. -/
  | offsetOutside (offset : Int) (length : Nat)
  /-- A line number is greater than the number of lines. -/
  | linePastEnd (line count : Nat)
  /-- A column lies behind the end of its line. -/
  | columnPastEnd (column line : Nat)
  /-- A template asks for a field that was not given. -/
  | missingField (name : String)
  /-- A template opens a field at its very end. -/
  | loneOpenBrace
  /-- A template closes a field that was never opened. -/
  | loneCloseBrace
  /-- A template opens a field and never closes it. -/
  | unclosedField
  /-- A template opens a field inside a field. -/
  | nestedField
  /-- A template has a field with a number for a name, or with none, which counts as zero. -/
  | numberedField (number : Nat)
  /-- A template has a field with a number for a name, and the number is too great. -/
  | fieldNumberTooGreat
  /-- A severity has no rank. -/
  | unknownSeverity (name : String)
  /-- There is no kind of finding of this name. -/
  | unknownKind (name : String)
  /-- There is no mode of this name. -/
  | unknownMode (name : String)
  /-- A run was asked for with its mode left open. -/
  | openMode
  /-- A report was asked for with its least severity left open. -/
  | openSeverity
  /-- A path to be read has a null character in it. -/
  | nullInPath
  /-- A path, or a name in it, is too long. -/
  | nameTooLong (path : String)
  /-- A path leads through a directory that may not be entered. -/
  | denied (path : String)
  /-- Options and a mode were given together. -/
  | optionsAndMode
  /-- A rule belongs to a category that does not exist. -/
  | unknownCategory (rule category : String)
  /-- Two rules of one set have the same name. -/
  | repeatedRule (rule : String)
  /-- A rule declares a code that does not start like one. -/
  | malformedCode (rule code : String)
  /-- A rule declares a code that was declared before it. -/
  | repeatedCode (rule code : String)
  /-- A rule cannot be put in order, since its category has no place in it. -/
  | unrankedCategory
  /-- A rule gave up, for a reason of its own. -/
  | ruleFailed (reason : String)
deriving DecidableEq, Repr

end MarkupLint

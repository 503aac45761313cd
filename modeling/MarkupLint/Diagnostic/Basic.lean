import MarkupLint.Category
import MarkupLint.Text.Position
import MarkupLint.Text.Range

/-!
# Diagnostics

A diagnostic is one finding about a document: what is wrong, how bad it is, and where, both as a
span of lines and columns and as a range of offsets.

Three severities have a rank. Any other name may stand in the place of a severity, but has none, so
a diagnostic that carries it can be listed and sorted and cannot be compared with a threshold.
-/

namespace MarkupLint

/-- How bad a finding is. -/
inductive Severity where
  | info
  | warning
  | error
  /-- A severity that is not one of the ranked three. -/
  | other (name : String)
deriving DecidableEq, Repr

namespace Severity

/-- The severity of the given name. -/
def ofName : String → Severity
  | "info" => info
  | "warning" => warning
  | "error" => error
  | name => other name

/-- The name of a severity. -/
def name : Severity → String
  | info => "info"
  | warning => "warning"
  | error => "error"
  | other name => name

/-- The rank of a severity; the worse, the higher. -/
def rank? : Severity → Option Nat
  | info => some 0
  | warning => some 1
  | error => some 2
  | other _ => none

/-- Whether a severity is at least as bad as `least`. Without a rank it is not. -/
def reaches (severity least : Severity) : Bool :=
  match severity.rank?, least.rank? with
  | some rank, some threshold => threshold ≤ rank
  | _, _ => false

end Severity

/-- What kind of issue a finding is about. -/
inductive Kind where
  | unclosedTag
  | invalidNesting
  | missingAttribute
  | invalidAttribute
  | duplicateAttribute
  | syntaxError
  | accessibility
  | searchAdvice
deriving DecidableEq, Repr

namespace Kind

/-- All kinds. -/
def all : List Kind :=
  [ unclosedTag, invalidNesting, missingAttribute, invalidAttribute, duplicateAttribute,
    syntaxError, accessibility, searchAdvice ]

/-- The name of a kind. -/
def name : Kind → String
  | unclosedTag => "UnclosedTag"
  | invalidNesting => "InvalidNesting"
  | missingAttribute => "MissingAttribute"
  | invalidAttribute => "InvalidAttribute"
  | duplicateAttribute => "DuplicateAttribute"
  | syntaxError => "SyntaxError"
  | accessibility => "Accessibility"
  | searchAdvice => "SEO"

/-- The kind of the given name. -/
def ofName (name : String) : Except Fault Kind :=
  match all.find? (·.name == name) with
  | some kind => .ok kind
  | none => .error (.unknownKind name)

end Kind

/-- A finding about a document. -/
structure Diagnostic where
  /-- The code of the finding, the same wherever it is made. -/
  code : String
  /-- What kind of issue it is about. -/
  kind : Kind
  /-- What is wrong. -/
  message : String
  /-- Where, in lines and columns. -/
  span : Span
  /-- Where, in offsets. -/
  range : Range
  /-- How bad it is. -/
  severity : Severity
  /-- What to do about it. -/
  hint : Option String
  /-- The category of rules it belongs to. -/
  category : Option String
deriving DecidableEq, Repr

end MarkupLint

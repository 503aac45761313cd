import MarkupLint.Lint.Options
import MarkupLint.Tag.Scan

/-!
# Rules

A rule looks at the scan of a document and reports diagnostics. It has a name, a category and a list
of the codes it is going to use. Rules are open to everyone, so the category is any string until the
set of rules is checked, and a rule may give up with a fault.

Rules can be combined freely as long as their categories exist, no two of them share a name, and
every code starts like one and is declared only once. `RuleSet.validate` reports the first rule that
breaks this. `RuleSet.order` puts rules in the order of their categories, and keeps the order of
rules that share one.
-/

namespace MarkupLint

/-- A rule of the linter. -/
structure Rule where
  /-- The name. -/
  name : String
  /-- The name of the category. -/
  category : String
  /-- The codes of the diagnostics that the rule reports. -/
  codes : List String
  /-- What the rule reports on a document. -/
  check : Scan → Options → Except Fault (List Diagnostic)

namespace RuleSet

/-- Whether a code starts with the word of some category. -/
def isCode (code : String) : Bool := Category.all.any fun category =>
  category.codeStart.toList.isPrefixOf code.toList

/-- Checks the codes of a rule against those declared before, and returns all of them. -/
def addCodes (rule : String) (declared : List String) : List String → Except Fault (List String)
  | [] => .ok declared
  | code :: rest =>
    if !isCode code then .error (.malformedCode rule code)
    else if declared.contains code then .error (.repeatedCode rule code)
    else addCodes rule (code :: declared) rest

/-- Checks rules against the names and codes of those before them. -/
def validateFrom (names declared : List String) : List Rule → Except Fault Unit
  | [] => .ok ()
  | rule :: rest =>
    if (Category.ofName? rule.category).isNone then
      .error (.unknownCategory rule.name rule.category)
    else if names.contains rule.name then .error (.repeatedRule rule.name)
    else do
      let declared ← addCodes rule.name declared rule.codes
      validateFrom (rule.name :: names) declared rest

/-- Whether the rules can be combined. -/
def validate (rules : List Rule) : Except Fault Unit := validateFrom [] [] rules

/-- The rules in the order of their categories. -/
def order (rules : List Rule) : Except Fault (List Rule) :=
  if rules.all fun rule => (Category.ofName? rule.category).isSome then
    .ok (Category.all.flatMap fun category => rules.filter (·.category == category.name))
  else .error .unrankedCategory

end RuleSet

end MarkupLint

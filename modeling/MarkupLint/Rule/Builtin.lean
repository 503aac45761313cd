import MarkupLint.Attribute.Check
import MarkupLint.Nesting
import MarkupLint.Rule.Basic

/-!
# The rules of the library

Six rules, one for each category: tags that are never ended, nesting, attributes, the skeleton of a
document, accessibility, and advice for search engines.

Some rules look for markers, that is for texts which every document should hold in some case. They
are searched in the lowercase of the whole text, wherever they may stand.
-/

namespace MarkupLint

namespace Scan

/-- The diagnostic for a finding about a tag as a whole. -/
def atTag (scan : Scan) (finding : Finding) (tag : Tag) (fields : Template.Fields) :
    Except Fault Diagnostic := do
  let range ← tag.range
  let span ← scan.table.span range
  finding.diagnostic span range (("name", tag.name) :: fields)

/-- The findings of the markers that a document does not hold, in the order of the table. -/
def missingMarkers (scan : Scan) (markers : List (String × Finding)) : List Finding :=
  let folded := lowerText scan.text
  (markers.filter fun marker => !occursIn marker.1.toList folded).map Prod.snd

/-- The opening tags of headings, with their levels. -/
def headings (scan : Scan) : List (Tag × Nat) :=
  (scan.openingTags (Vocabulary.headings.map Prod.fst)).filterMap fun tag =>
    (Vocabulary.headingLevel? tag.name).map (tag, ·)

end Scan

namespace Rule

/-- Tags that are never ended are found by the scan. -/
def unterminatedTags : Rule where
  name := "malformedTag"
  category := Category.scanning.name
  codes := [Finding.unterminatedTag.code]
  check scan _ := .ok scan.diagnostics

/-- Every element is closed, and in the right order. -/
def tagBalance : Rule where
  name := "tagBalance"
  category := Category.nesting.name
  codes := [Finding.unexpectedCloser.code, Finding.mismatchedCloser.code, Finding.unclosedTag.code]
  check scan _ := Nesting.check scan.table scan.tags

/-- Attributes are not repeated, and those that need a value have one. -/
def attributeValues : Rule where
  name := "attributeValue"
  category := Category.attributes.name
  codes := [Finding.duplicateAttribute.code, Finding.emptyId.code, Finding.emptyHref.code,
    Finding.emptySource.code, Finding.unquotedValue.code]
  check scan options := do
    let found ← (scan.openingTags []).mapM fun tag =>
      tag.checkAttributes scan.table options.precisePositions options.checkUnquoted
    return found.flatten

/-- What every document should hold. -/
def documentMarkers : List (String × Finding) :=
  [ ("<!doctype", .missingDoctype), ("<html", .missingHtml), ("<head>", .missingHead),
    ("<body>", .missingBody) ]

/-- A document has a type declaration and the outer elements. -/
def documentSkeleton : Rule where
  name := "documentSkeleton"
  category := Category.document.name
  codes := documentMarkers.map (·.2.code)
  check scan _ := (scan.missingMarkers documentMarkers).mapM Finding.documentDiagnostic

/-- What is missing for accessibility on an image or an input field. -/
def accessibilityFinding? (tag : Tag) : Option Finding :=
  if tag.name == "img" && !tag.hasValued "alt" then some .missingAlt
  else if tag.name == "input" && !(tag.hasValued "aria-label" || tag.hasValued "id") then
    some .unlabelledInput
  else none

/-- Images have descriptions; input fields have labels or can be given some. -/
def accessibility : Rule where
  name := "accessibility"
  category := Category.accessibility.name
  codes := [Finding.missingAlt.code, Finding.unlabelledInput.code]
  check scan _ :=
    ((scan.openingTags ["img", "input"]).filterMap fun tag =>
      (accessibilityFinding? tag).map (·, tag)).mapM fun (finding, tag) => scan.atTag finding tag []

/-- What search engines look for. -/
def searchMarkers : List (String × Finding) :=
  [("<title>", .missingTitle), ("name=\"description\"", .missingDescription)]

/-- The headings that are more than one level below the heading before them, each with that
heading's level and its own. -/
def headingSkips (previous : Option Nat) : List (Tag × Nat) → List (Tag × Nat × Nat)
  | [] => []
  | (tag, level) :: rest =>
    let skips := headingSkips (some level) rest
    match previous with
    | none => skips
    | some above => if level > above + 1 then (tag, above, level) :: skips else skips

/-- A document has a title and a description, and its headings skip no level on the way down. -/
def searchAdvice : Rule where
  name := "seo"
  category := Category.search.name
  codes := searchMarkers.map (·.2.code) ++ [Finding.headingSkip.code]
  check scan _ := do
    let missing ← (scan.missingMarkers searchMarkers).mapM Finding.documentDiagnostic
    let skips ← (headingSkips none scan.headings).mapM fun (tag, previous, current) =>
      scan.atTag .headingSkip tag
        [("previous", toString previous), ("current", toString current)]
    return missing ++ skips

/-- The rules of the library, in the order of their categories. -/
def builtin : List Rule :=
  [unterminatedTags, tagBalance, attributeValues, documentSkeleton, accessibility, searchAdvice]

end Rule

end MarkupLint

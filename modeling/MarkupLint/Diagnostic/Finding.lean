import MarkupLint.Diagnostic.Basic
import MarkupLint.Text.Template

/-!
# The catalogue of findings

A `Finding` is what all diagnostics with one code have in common. Its message and its hint are
templates; `Finding.diagnostic` fills them for a place in a document, and
`Finding.documentDiagnostic` for a document as a whole, where there is nothing to fill in.

The catalogue lists every finding the rules of the library make. A message names the element or the
attribute that it is about.
-/

namespace MarkupLint

/-- What the diagnostics with one code have in common. -/
structure Finding where
  /-- The code. -/
  code : String
  /-- The kind of issue. -/
  kind : Kind
  /-- The message, with gaps for names. -/
  message : Template
  /-- The hint, with gaps for names. -/
  hint : Option Template := none
  /-- How bad it is. -/
  severity : Severity := .error
  /-- The category of rules it belongs to. -/
  category : Option String := none
deriving DecidableEq, Repr

namespace Finding

/-- The finding at a place. The message is filled before the hint. -/
def diagnostic (finding : Finding) (span : Span) (range : Range) (fields : Template.Fields) :
    Except Fault Diagnostic := do
  let message ← finding.message.fill fields
  let hint ← finding.hint.mapM (Template.fill fields)
  return ⟨finding.code, finding.kind, message, span, range, finding.severity, hint,
    finding.category⟩

/-- The finding about a document as a whole. -/
def documentDiagnostic (finding : Finding) : Except Fault Diagnostic :=
  finding.diagnostic .document .document []

/-! ### Scanning -/

/-- A tag is never ended. -/
def unterminatedTag : Finding where
  code := "SCANNER_MALFORMED_TAG"
  kind := .syntaxError
  message := [.text "malformed tag: missing closing '>' for `<", .field "name", .text "`"]
  hint := some [.text "Terminate the tag with `>`."]
  category := some Category.scanning.name

/-! ### Nesting -/

/-- A closing tag comes where no element is open. -/
def unexpectedCloser : Finding where
  code := "STRUCTURE_UNEXPECTED_CLOSING_TAG"
  kind := .syntaxError
  message := [.text "unexpected closing tag `</", .field "name", .text ">`"]
  hint := some [.text "Remove the closing tag or add the matching `<", .field "name",
    .text ">` before it."]
  category := some Category.nesting.name

/-- A closing tag comes where another element has to be closed first. -/
def mismatchedCloser : Finding where
  code := "STRUCTURE_MISMATCHED_CLOSING_TAG"
  kind := .unclosedTag
  message := [.text "mismatched closing tag: expected `</", .field "expected",
    .text ">` but found `</", .field "found", .text ">`"]
  hint := some [.text "Close `<", .field "expected", .text ">` before closing `<", .field "found",
    .text ">`."]
  category := some Category.nesting.name

/-- An element is never closed. -/
def unclosedTag : Finding where
  code := "STRUCTURE_UNCLOSED_TAG"
  kind := .unclosedTag
  message := [.text "unclosed tag `<", .field "name", .text ">`"]
  hint := some [.text "Add `</", .field "name", .text ">`."]
  category := some Category.nesting.name

/-! ### Attributes -/

/-- An attribute is given again. -/
def duplicateAttribute : Finding where
  code := "ATTRIBUTE_DUPLICATE"
  kind := .duplicateAttribute
  message := [.text "duplicate attribute `", .field "attribute", .text "` on `<", .field "name",
    .text ">`"]
  hint := some [.text "Keep a single `", .field "attribute", .text "` attribute."]
  severity := .warning
  category := some Category.attributes.name

/-- An `id` has no value. -/
def emptyId : Finding where
  code := "ATTRIBUTE_EMPTY_ID"
  kind := .invalidAttribute
  message := [.text "empty `id` attribute on `<", .field "name", .text ">`"]
  hint := some [.text "Give the element a non-empty id or remove the attribute."]
  severity := .warning
  category := some Category.attributes.name

/-- A link points nowhere. -/
def emptyHref : Finding where
  code := "ATTRIBUTE_EMPTY_HREF"
  kind := .invalidAttribute
  message := [.text "empty `href` attribute on `<a>`"]
  hint := some [.text "Point the link at a URL or fragment."]
  severity := .warning
  category := some Category.attributes.name

/-- An element that loads something does not say what. -/
def emptySource : Finding where
  code := "ATTRIBUTE_EMPTY_SRC"
  kind := .invalidAttribute
  message := [.text "empty `src` attribute on `<", .field "name", .text ">`"]
  hint := some [.text "Reference the resource the element should load."]
  category := some Category.attributes.name

/-- The value of an attribute stands without quotes. -/
def unquotedValue : Finding where
  code := "ATTRIBUTE_UNQUOTED_VALUE"
  kind := .invalidAttribute
  message := [.text "unquoted value for attribute `", .field "attribute", .text "` on `<",
    .field "name", .text ">`"]
  hint := some [.text "Wrap the value in quotes: ", .field "attribute", .text "=\"...\"."]
  severity := .info
  category := some Category.attributes.name

/-! ### The document as a whole -/

/-- There is no document type declaration. -/
def missingDoctype : Finding where
  code := "DOCUMENT_MISSING_DOCTYPE"
  kind := .missingAttribute
  message := [.text "missing `<!DOCTYPE html>` declaration"]
  hint := some [.text "Start the document with `<!DOCTYPE html>`."]
  severity := .warning
  category := some Category.document.name

/-- There is no `html` element. -/
def missingHtml : Finding where
  code := "DOCUMENT_MISSING_HTML"
  kind := .missingAttribute
  message := [.text "missing `<html>` element"]
  severity := .warning
  category := some Category.document.name

/-- There is no `head` element. -/
def missingHead : Finding where
  code := "DOCUMENT_MISSING_HEAD"
  kind := .missingAttribute
  message := [.text "missing `<head>` element"]
  severity := .warning
  category := some Category.document.name

/-- There is no `body` element. -/
def missingBody : Finding where
  code := "DOCUMENT_MISSING_BODY"
  kind := .missingAttribute
  message := [.text "missing `<body>` element"]
  severity := .warning
  category := some Category.document.name

/-! ### Accessibility -/

/-- An image has no description. -/
def missingAlt : Finding where
  code := "A11Y_MISSING_ALT"
  kind := .accessibility
  message := [.text "image is missing an `alt` attribute"]
  hint := some
    [.text "Describe the image with alt=\"...\" (use alt=\"\" for decorative images)."]
  severity := .warning
  category := some Category.accessibility.name

/-- An input field has no label and cannot be given one. -/
def unlabelledInput : Finding where
  code := "A11Y_UNLABELLED_INPUT"
  kind := .accessibility
  message := [.text "input has neither `aria-label` nor `id` for a `<label for>`"]
  hint := some [.text "Add aria-label or an id referenced by a label."]
  severity := .info
  category := some Category.accessibility.name

/-! ### Advice for search engines -/

/-- There is no title. -/
def missingTitle : Finding where
  code := "SEO_MISSING_TITLE"
  kind := .searchAdvice
  message := [.text "missing `<title>` element"]
  severity := .info
  category := some Category.search.name

/-- There is no description of the page. -/
def missingDescription : Finding where
  code := "SEO_MISSING_DESCRIPTION"
  kind := .searchAdvice
  message := [.text "missing `<meta name=\"description\">`"]
  severity := .info
  category := some Category.search.name

/-- A heading is more than one level below the heading before it. -/
def headingSkip : Finding where
  code := "SEO_HEADING_SKIP"
  kind := .searchAdvice
  message := [.text "heading hierarchy skipped from h", .field "previous", .text " to h",
    .field "current"]
  hint := some [.text "Use consecutive heading levels."]
  severity := .info
  category := some Category.search.name

/-- Every finding of the catalogue. -/
def all : List Finding :=
  [ unterminatedTag, unexpectedCloser, mismatchedCloser, unclosedTag, duplicateAttribute, emptyId,
    emptyHref, emptySource, unquotedValue, missingDoctype, missingHtml, missingHead, missingBody,
    missingAlt, unlabelledInput, missingTitle, missingDescription, headingSkip ]

end Finding

end MarkupLint

import MarkupLint.Diagnostic.Finding
import MarkupLint.Tag.Basic
import MarkupLint.Text.LineTable

/-!
# Nesting

Elements must be closed in the reverse order of their opening. `Nesting.verdicts` walks over the
tags with the list of the open ones, innermost first. A closing tag closes the innermost open
element if it has its name. Otherwise it is reported and changes nothing, so that the element can
still be closed by a later tag. What is open in the end is reported last, outermost first.

The walk itself looks at names and marks only. Where a verdict is to be reported is worked out
afterwards, by `Nesting.Verdict.diagnostic`.
-/

namespace MarkupLint

namespace Nesting

/-- What can be wrong with the nesting of tags. -/
inductive Verdict where
  /-- A closing tag where no element is open. -/
  | unexpected (closer : Tag)
  /-- A closing tag where the innermost open element has another name. -/
  | mismatched (opener closer : Tag)
  /-- An element that is never closed. -/
  | unclosed (opener : Tag)
deriving DecidableEq, Repr

namespace Verdict

/-- The tag that a verdict is about. -/
def tag : Verdict → Tag
  | unexpected closer => closer
  | mismatched _ closer => closer
  | unclosed opener => opener

/-- The finding of a verdict, with the names to fill in. -/
def finding : Verdict → Finding × Template.Fields
  | unexpected closer => (.unexpectedCloser, [("name", closer.name)])
  | mismatched opener closer =>
    (.mismatchedCloser, [("expected", opener.name), ("found", closer.name)])
  | unclosed opener => (.unclosedTag, [("name", opener.name)])

/-- The diagnostic of a verdict. -/
def diagnostic (table : LineTable) (verdict : Verdict) : Except Fault Diagnostic := do
  let range ← verdict.tag.range
  let span ← table.span range
  verdict.finding.1.diagnostic span range verdict.finding.2

end Verdict

/-- The verdicts on the tags that come while `openers` are open, innermost first. -/
def verdictsFrom (openers : List Tag) : List Tag → List Verdict
  | [] => openers.reverse.map .unclosed
  | tag :: rest =>
    if tag.isClosing then
      match openers with
      | [] => .unexpected tag :: verdictsFrom [] rest
      | opener :: outer =>
        if opener.name = tag.name then verdictsFrom outer rest
        else .mismatched opener tag :: verdictsFrom (opener :: outer) rest
    else if tag.opensElement then verdictsFrom (tag :: openers) rest
    else verdictsFrom openers rest

/-- What is wrong with the nesting of a list of tags. -/
def verdicts (tags : List Tag) : List Verdict := verdictsFrom [] tags

/-- Checks the nesting of a list of tags. -/
def check (table : LineTable) (tags : List Tag) : Except Fault (List Diagnostic) :=
  (verdicts tags).mapM (Verdict.diagnostic table)

end Nesting

end MarkupLint

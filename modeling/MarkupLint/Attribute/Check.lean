import MarkupLint.Attribute.Reader
import MarkupLint.Diagnostic.Finding
import MarkupLint.Element.Vocabulary
import MarkupLint.Text.LineTable

/-!
# Checking attributes

An attribute is a duplicate if an earlier attribute of the tag has its name. An empty `id`, an empty
`href` of a link and an empty `src` of an element that needs one are reported, and so are values
without quotes if one asks for it. What is found at an attribute is decided first and put into a
place afterwards, so that the two ways of giving the place cannot make a difference to it.

The place of an attribute can be given in two ways. Precise places are those of its own characters.
The others count columns from the start of the tag, on the line where the tag starts, even if the
tag goes on over several lines.
-/

namespace MarkupLint

namespace Attribute

/-- What is wrong with an attribute that has no value, if it needs one on the given element. -/
def emptyFinding? (element : String) (attr : Attribute) : Option Finding :=
  if !attr.isEmpty then none
  else if attr.name == "id" then some .emptyId
  else if attr.name == "href" && element == "a" then some .emptyHref
  else if attr.name == "src" && Vocabulary.requiresSource element then some .emptySource
  else none

/-- What is wrong with an attribute of the given element. `seen` are the names of the attributes
before it. -/
def findings (element : String) (unquoted : Bool) (seen : List String) (attr : Attribute) :
    List Finding :=
  (if seen.contains attr.name then [.duplicateAttribute] else []) ++
    (attr.emptyFinding? element).toList ++
    (if unquoted && attr.isUnquoted then [.unquotedValue] else [])

/-- What is wrong with the attributes of an element, in their order, where `seen` are the names of
the attributes before them. -/
def findingsFrom (element : String) (unquoted : Bool) (seen : List String) :
    List Attribute → List (Finding × Attribute)
  | [] => []
  | attr :: rest =>
    (attr.findings element unquoted seen).map (·, attr) ++
      findingsFrom element unquoted (attr.name :: seen) rest

end Attribute

namespace Tag

/-- The range of an attribute of a tag, given by its place in the tag and its length. -/
def attributeRange (tag : Tag) (offset length : Int) : Except Fault Range :=
  Range.ofLength (tag.start + offset) length

/-- The span of an attribute of a tag, given by its place in the tag and its length. Its range has
to be one in either case. -/
def attributeSpan (tag : Tag) (table : LineTable) (precise : Bool) (offset length : Int) :
    Except Fault Span := do
  let range ← tag.attributeRange offset length
  if precise then table.span range
  else
    let tagStart ← table.position tag.start
    let start ← tagStart.shiftColumn offset
    let stop ← tagStart.shiftColumn (offset + length)
    Span.between start stop

/-- The diagnostic for something wrong with an attribute of a tag. -/
def attributeDiagnostic (tag : Tag) (table : LineTable) (precise : Bool) (finding : Finding)
    (attr : Attribute) : Except Fault Diagnostic := do
  let span ← tag.attributeSpan table precise attr.offset attr.length
  let range ← tag.attributeRange attr.offset attr.length
  finding.diagnostic span range [("name", tag.name), ("attribute", attr.name)]

/-- What is wrong with the attributes of a tag. Those of closing tags do not matter. -/
def attributeFindings (tag : Tag) (unquoted : Bool) : List (Finding × Attribute) :=
  if tag.isClosing then [] else Attribute.findingsFrom tag.name unquoted [] tag.attributes

/-- Checks the attributes of a tag. -/
def checkAttributes (tag : Tag) (table : LineTable) (precise unquoted : Bool) :
    Except Fault (List Diagnostic) :=
  (tag.attributeFindings unquoted).mapM fun (finding, attr) =>
    tag.attributeDiagnostic table precise finding attr

end Tag

end MarkupLint

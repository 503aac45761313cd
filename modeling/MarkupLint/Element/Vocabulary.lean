import MarkupLint.Text.Lowercase

/-!
# The vocabulary of elements

Which element names are special, and in what way. Void elements have no content and no closing tag.
The block and inline names are for reference: no rule says which elements may stand inside which.
-/

namespace MarkupLint

namespace Vocabulary

/-- Elements that have no content and take no closing tag. -/
def void : List String :=
  [ "area", "base", "br", "col", "embed", "hr", "img", "input", "link", "meta", "param", "source",
    "track", "wbr" ]

/-- Elements that start a block of their own. -/
def block : List String :=
  [ "address", "article", "aside", "blockquote", "dd", "details", "dialog", "div", "dl", "dt",
    "fieldset", "figcaption", "figure", "footer", "form", "h1", "h2", "h3", "h4", "h5", "h6",
    "header", "hgroup", "hr", "li", "main", "nav", "ol", "p", "pre", "section", "table", "ul" ]

/-- Elements that run along with the text. -/
def inline : List String :=
  [ "a", "abbr", "b", "bdo", "br", "button", "cite", "code", "dfn", "em", "i", "img", "input",
    "kbd", "label", "map", "object", "q", "samp", "script", "select", "small", "span", "strong",
    "sub", "sup", "textarea", "time", "tt", "var" ]

/-- Elements whose `src` must point somewhere. -/
def sourceRequired : List String := ["iframe", "img", "script"]

/-- The headings with their levels. -/
def headings : List (String × Nat) :=
  [("h1", 1), ("h2", 2), ("h3", 3), ("h4", 4), ("h5", 5), ("h6", 6)]

/-- Whether a name, in any case, is that of a void element. -/
def isVoid (name : String) : Bool := void.contains (lowercase name)

/-- The level of the heading with this name, in any case. -/
def headingLevel? (name : String) : Option Nat := headings.lookup (lowercase name)

/-- Whether a name in small letters is that of a block element. -/
def isBlock (name : String) : Bool := block.contains name

/-- Whether a name in small letters is that of an inline element. -/
def isInline (name : String) : Bool := inline.contains name

/-- Whether the element with this name, in small letters, must have a source. -/
def requiresSource (name : String) : Bool := sourceRequired.contains name

end Vocabulary

end MarkupLint

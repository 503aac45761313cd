/-!
# Categories of rules

Every rule belongs to a category, and the categories are reported in a fixed order, from the scan of
the tags to advice for search engines. The codes of findings start with a word for the category they
were made for; a rule may nevertheless use a code of any category.
-/

namespace MarkupLint

/-- The categories, in the order in which their findings are reported. -/
inductive Category where
  | scanning
  | nesting
  | attributes
  | document
  | accessibility
  | search
deriving DecidableEq, Repr

namespace Category

/-- All categories, in reporting order. -/
def all : List Category := [scanning, nesting, attributes, document, accessibility, search]

/-- The name of a category. -/
def name : Category → String
  | scanning => "scanner"
  | nesting => "structure"
  | attributes => "attribute"
  | document => "document"
  | accessibility => "accessibility"
  | search => "seo"

/-- How the codes made for a category start. -/
def codeStart : Category → String
  | scanning => "SCANNER_"
  | nesting => "STRUCTURE_"
  | attributes => "ATTRIBUTE_"
  | document => "DOCUMENT_"
  | accessibility => "A11Y_"
  | search => "SEO_"

/-- The category of the given name. -/
def ofName? (name : String) : Option Category := all.find? (·.name == name)

end Category

end MarkupLint

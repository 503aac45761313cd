import MarkupLint.Attribute.Reader
import MarkupLint.Tag.Scan

/-!
# The outline of a document

The outline lists the elements of a document with their places, for whoever wants to go from an
element back to the text. It is more forgiving than the check of the nesting: a closing tag belongs
to the innermost open element of its name, whatever was opened since, and the elements in between
stay open. A closing tag without such an element is ignored.

Elements are listed in the order in which they are completed. Those that are never closed come last,
outermost first, and end with their opening tags.
-/

namespace MarkupLint

namespace Outline

/-- An element that was opened, with the number of elements that were open then. -/
structure Opened where
  /-- The opening tag. -/
  tag : Tag
  /-- How many elements were open. -/
  depth : Nat
deriving DecidableEq, Repr

/-- An element that was completed. -/
structure Extent where
  /-- The opening tag and its depth. -/
  opened : Opened
  /-- The offset right behind the element. -/
  stop : Int
  /-- Whether the element was closed. -/
  closed : Bool
deriving DecidableEq, Repr

/-- The elements that are completed by the tags that come while `openers` are open, innermost
first. -/
def extentsFrom (openers : List Opened) : List Tag → List Extent
  | [] => openers.reverse.map fun opened => ⟨opened, opened.tag.stop, false⟩
  | tag :: rest =>
    if tag.isClosing then
      match openers.find? (·.tag.name == tag.name) with
      | some opened =>
        ⟨opened, tag.stop, true⟩ :: extentsFrom (openers.eraseP (·.tag.name == tag.name)) rest
      | none => extentsFrom openers rest
    else if tag.isSelfClosing then
      ⟨⟨tag, openers.length⟩, tag.stop, true⟩ :: extentsFrom openers rest
    else extentsFrom (⟨tag, openers.length⟩ :: openers) rest

/-- The elements of a list of tags, in the order in which they are completed. -/
def extents (tags : List Tag) : List Extent := extentsFrom [] tags

end Outline

/-- An element of a document, from its opening tag through its closing tag, if there is one. -/
structure Element where
  /-- The name, in small letters. -/
  name : String
  /-- The offset at which the element starts. -/
  start : Int
  /-- The offset right behind the element. -/
  stop : Int
  /-- Where the element starts. -/
  startPosition : Position
  /-- Where the element ends. -/
  stopPosition : Position
  /-- How many elements were open when this one was opened. -/
  depth : Nat
  /-- The attributes of the opening tag. -/
  attributes : List Attribute
  /-- Whether the element was closed. -/
  closed : Bool
deriving DecidableEq, Repr

namespace Element

/-- The first attribute of the given name. -/
def attribute? (element : Element) (name : String) : Option Attribute :=
  element.attributes.find? (·.name == name)

/-- The element of a given extent. -/
def ofExtent (table : LineTable) (extent : Outline.Extent) : Except Fault Element := do
  let tag := extent.opened.tag
  let startPosition ← table.position tag.start
  let stopPosition ← table.position extent.stop
  return ⟨tag.name, tag.start, extent.stop, startPosition, stopPosition, extent.opened.depth,
    tag.attributes, extent.closed⟩

end Element

/-- The outline of a scanned document. -/
def Scan.outline (scan : Scan) : Except Fault (List Element) :=
  (Outline.extents scan.tags).mapM (Element.ofExtent scan.table)

end MarkupLint

/-!
# Attributes

An attribute has a name and perhaps a value. A value stands in double quotes, in single quotes or in
none; an attribute without a value is bare. Places and lengths are those of the attribute as it is
written, counted from the `<` of its tag.
-/

namespace MarkupLint

/-- The quotes that a value can stand in. -/
inductive Quote where
  | double
  | single
deriving DecidableEq, Repr

namespace Quote

/-- The character of a quote. -/
def char : Quote → Char
  | double => '\x22'
  | single => '\x27'

/-- The quote that a character is. -/
def ofChar? (c : Char) : Option Quote :=
  if c = double.char then some double
  else if c = single.char then some single
  else none

end Quote

namespace Attribute

/-- The value of an attribute. -/
structure Value where
  /-- The value, without its quotes. -/
  text : String
  /-- The quotes it stands in, if any. -/
  quote : Option Quote
deriving DecidableEq, Repr

end Attribute

/-- An attribute of a tag. -/
structure Attribute where
  /-- The name, in small letters. -/
  name : String
  /-- The value, unless the attribute is bare. -/
  value : Option Attribute.Value
  /-- Where the attribute starts, counted from the start of its tag. -/
  offset : Nat
  /-- The length of the attribute, value and quotes included. -/
  length : Nat
deriving DecidableEq, Repr

namespace Attribute

/-- Whether the attribute has a value, be it an empty one. -/
def hasValue (attr : Attribute) : Bool := attr.value.isSome

/-- Whether the attribute says nothing: it is bare or its value is empty. -/
def isEmpty (attr : Attribute) : Bool :=
  match attr.value with
  | none => true
  | some value => value.text.isEmpty

/-- Whether the attribute has a value that stands in no quotes. -/
def isUnquoted (attr : Attribute) : Bool :=
  match attr.value with
  | none => false
  | some value => value.quote.isNone

end Attribute

end MarkupLint

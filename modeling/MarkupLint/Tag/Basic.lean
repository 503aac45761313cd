import MarkupLint.Text.Range

/-!
# Tags

A tag is one occurrence of markup: from a `<` through the first `>` behind its name. Its marks say
how it takes part in the nesting of elements.

A scan makes tags that agree with the text they come from. Tags can also be put together by hand, in
which case nothing about them is checked: the offset at which such a tag starts may be any integer,
and its range is a fault when it cannot be one. Its marks may be more than have a meaning.
-/

namespace MarkupLint

namespace Tag

/-- What is known of a tag besides its name. -/
structure Marks where
  /-- The tag closes an element: `</name>`. -/
  closing : Bool
  /-- The tag ends with `/>`. -/
  slashed : Bool
  /-- The name is that of a void element. -/
  void : Bool
  /-- Further marks, which mean nothing. A scan makes none. -/
  others : Nat := 0
deriving DecidableEq, Repr

namespace Marks

/-- The marks as a number, one bit for each. -/
def toNat (marks : Marks) : Nat :=
  marks.closing.toNat + 2 * marks.slashed.toNat + 4 * marks.void.toNat + 8 * marks.others

/-- The marks that the bits of a number stand for. The lowest three have a meaning. -/
def ofNat (n : Nat) : Marks := ⟨n.testBit 0, n.testBit 1, n.testBit 2, n / 8⟩

/-- The marks that an integer stands for. A negative one is counted down from a power of two: from
eight, where all marks with a meaning are just passed, if it is not below minus eight, and otherwise
from the least power of two above its size. So minus one stands for all three marks. -/
def ofInt : Int → Marks
  | .ofNat n => ofNat n
  | .negSucc n => ofNat (if n < 8 then 7 - n else Nat.pow 2 ((n + 1).log2 + 1) - (n + 1))

/-- The names of the marks that are set, in the order of their bits. -/
def names (marks : Marks) : List String :=
  (if marks.closing then ["CLOSING"] else []) ++
    (if marks.slashed then ["EXPLICIT_SELF_CLOSE"] else []) ++
    (if marks.void then ["VOID"] else [])

/-- The marks as they are listed: `<TagFlags.CLOSING|VOID: 5>`. -/
def display (marks : Marks) : String :=
  let names := if marks.names.isEmpty then "NONE" else "|".intercalate marks.names
  "<TagFlags." ++ names ++ ": " ++ toString marks.toNat ++ ">"

end Marks

end Tag

/-- One tag, from its `<` through its `>`. -/
structure Tag where
  /-- The name, in small letters. -/
  name : String
  /-- The text of the tag. -/
  raw : Text
  /-- The offset of the `<`. -/
  start : Int
  /-- How the tag takes part in the nesting. -/
  marks : Tag.Marks
deriving DecidableEq, Repr

namespace Tag

/-- The offset right behind the tag. -/
def stop (tag : Tag) : Int := tag.start + tag.raw.length

/-- The range of the tag. -/
def range (tag : Tag) : Except Fault Range := Range.ofBounds tag.start tag.stop

/-- Whether the tag closes an element. -/
def isClosing (tag : Tag) : Bool := tag.marks.closing

/-- Whether the tag starts an element, with or without content. -/
def isOpening (tag : Tag) : Bool := !tag.isClosing

/-- Whether the tag is complete without a closing tag: it ends with `/>` or its element is void. -/
def isSelfClosing (tag : Tag) : Bool := tag.marks.slashed || tag.marks.void

/-- Whether the tag opens an element that has to be closed. -/
def opensElement (tag : Tag) : Bool := tag.isOpening && !tag.isSelfClosing

/-- The place in the text of the tag where its name ends. -/
def attributeOffset (tag : Tag) : Nat := (if tag.isClosing then 2 else 1) + tag.name.length

/-- What stands between the name and the `>` or `/>`. -/
def attributeText (tag : Tag) : Text :=
  let body := tag.raw.dropLast.drop tag.attributeOffset
  if body.getLast? = some '/' then body.dropLast else body

end Tag

end MarkupLint

import MarkupLint.Fault
import MarkupLint.Text.CharRanges

/-!
# Templates

A template is a text with named gaps. In writing a gap is its name between braces, and a brace that
is meant as such is doubled; `Template.parse` reads that form and `Template.source` writes it.
`Template.fill` puts values into the gaps, as they are: a brace in a value means nothing.

A text may have a brace in it that is neither, or a gap with a number or nothing for a name, which
no value can be given to. It is still the written form of a template, but of one that cannot be
filled: the template breaks off at this brace. What stands before the brace is filled first, so a
gap without a value is noticed before it.
-/

namespace MarkupLint

namespace Template

/-- A piece of a template. -/
inductive Part where
  /-- Text that stands for itself. -/
  | text (content : String)
  /-- A gap for the value of a field. -/
  | field (name : String)
  /-- A brace that is neither doubled nor part of a gap with a name, with all that follows it. -/
  | broken (fault : Fault) (rest : String)
deriving DecidableEq, Repr

end Template

/-- A text with named gaps, as the list of its pieces. -/
abbrev Template := List Template.Part

namespace Template

/-- The greatest number that a gap can have. -/
def numberLimit : Nat := 9223372036854775807

/-- What is wrong with a gap of the given name: there must be one, and it must not be a number. -/
def nameFault? (name : Text) : Option Fault :=
  (numberOf? name).map fun n => if n ≤ numberLimit then .numberedField n else .fieldNumberTooGreat

/-- Reads the written form from inside a text or, if `inGap`, from inside the name of a gap.
`pending` is what was read of it, with the last character first. -/
def parseFrom : (inGap : Bool) → (pending : Text) → Text → Template
  | false, pending, [] => [.text (String.ofList pending.reverse)]
  | false, pending, '\x7b' :: '\x7b' :: rest => parseFrom false ('\x7b' :: pending) rest
  | false, pending, '\x7d' :: '\x7d' :: rest => parseFrom false ('\x7d' :: pending) rest
  | false, pending, '\x7b' :: rest =>
    .text (String.ofList pending.reverse) :: parseFrom true [] rest
  | false, pending, '\x7d' :: rest =>
    [.text (String.ofList pending.reverse),
      .broken .loneCloseBrace (String.ofList ('\x7d' :: rest))]
  | false, pending, c :: rest => parseFrom false (c :: pending) rest
  | true, [], [] => [.broken .loneOpenBrace "\x7b"]
  | true, c :: pending, [] =>
    [.broken .unclosedField (String.ofList ('\x7b' :: (c :: pending).reverse))]
  | true, pending, '\x7b' :: rest =>
    [.broken .nestedField (String.ofList ('\x7b' :: pending.reverse ++ '\x7b' :: rest))]
  | true, pending, '\x7d' :: rest =>
    match nameFault? pending.reverse with
    | some fault =>
      [.broken fault (String.ofList ('\x7b' :: pending.reverse ++ '\x7d' :: rest))]
    | none => .field (String.ofList pending.reverse) :: parseFrom false [] rest
  | true, pending, c :: rest => parseFrom true (c :: pending) rest

/-- The template with the given written form. -/
def parse (s : String) : Template := parseFrom false [] s.toList

/-- A character of the text of a template, in its written form. -/
def escapeBrace (c : Char) : List Char :=
  if c = '\x7b' || c = '\x7d' then [c, c] else [c]

/-- The written form of a piece. -/
def Part.source : Part → String
  | .text content => String.ofList (content.toList.flatMap escapeBrace)
  | .field name => "\x7b" ++ name ++ "\x7d"
  | .broken _ rest => rest

/-- The written form of a template. -/
def source (template : Template) : String := String.join (template.map Part.source)

/-- The values of the fields, by name. -/
abbrev Fields := List (String × String)

/-- A piece with its value put in. -/
def Part.fill (fields : Fields) : Part → Except Fault String
  | .text content => .ok content
  | .field name => match fields.lookup name with
    | some value => .ok value
    | none => .error (.missingField name)
  | .broken fault _ => .error fault

/-- The text of a template whose gaps hold the given values. The first piece that cannot be filled
is a fault. -/
def fill (fields : Fields) (template : Template) : Except Fault String :=
  (template.mapM (Part.fill fields)).map String.join

end Template

end MarkupLint

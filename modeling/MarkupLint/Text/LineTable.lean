import MarkupLint.Text.Position
import MarkupLint.Text.Range

/-!
# The line table of a text

A `LineTable` remembers the length of a text and where its lines start, which is all that is needed
to turn offsets into positions and back. Only a line feed ends a line; a carriage return before it
is an ordinary character and takes a column.

The first line starts at zero in every text, so only the starts of the later lines are stored. Every
table therefore has at least one line, and the line of an offset is one more than the number of
later lines that start at it or before it.
-/

namespace MarkupLint

/-- The length of a text and the offsets at which its lines start. -/
structure LineTable where
  /-- The number of characters of the text. -/
  length : Nat
  /-- The offsets at which the second and the later lines start, in ascending order. -/
  laterStarts : List Nat
deriving DecidableEq, Repr

namespace LineTable

/-- The line table of `text`: a line starts right behind each line feed. -/
def ofText (text : Text) : LineTable where
  length := text.length
  laterStarts := text.zipIdx.filterMap fun (c, i) => if c = '\n' then some (i + 1) else none

/-- The offsets at which the lines start. -/
def starts (table : LineTable) : List Nat := 0 :: table.laterStarts

/-- The number of lines. A text that ends with a line feed has an empty last line. -/
def lineCount (table : LineTable) : Nat := table.starts.length

/-- The position of an offset that is known to lie in the text. -/
def locate (table : LineTable) (offset : Nat) : Position :=
  let passed := table.laterStarts.takeWhile (· ≤ offset)
  ⟨passed.length + 1, offset - passed.getLastD 0 + 1, Nat.le_add_left 1 _, Nat.le_add_left 1 _⟩

/-- The position of an offset. The length of the text is an offset too: its end. -/
def position (table : LineTable) (offset : Int) : Except Fault Position :=
  if offset < 0 ∨ offset > table.length then .error (.offsetOutside offset table.length)
  else .ok (table.locate offset.toNat)

/-- The offset of a position. A column may be that of the line feed that ends its line, but not lie
behind it. -/
def offset (table : LineTable) (p : Position) : Except Fault Nat :=
  match table.starts.drop (p.line - 1) with
  | [] => .error (.linePastEnd p.line table.lineCount)
  | start :: later =>
    let last := match later with
      | next :: _ => next - 1
      | [] => table.length
    if start + (p.column - 1) > last then .error (.columnPastEnd p.column p.line)
    else .ok (start + (p.column - 1))

/-- The span of a range of offsets. -/
def span (table : LineTable) (range : Range) : Except Fault Span := do
  let start ← table.position range.start
  let stop ← table.position range.stop
  Span.between start stop

end LineTable

end MarkupLint

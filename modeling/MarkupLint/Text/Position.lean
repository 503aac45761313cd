import MarkupLint.Fault

/-!
# Positions and spans

People count lines and columns, from one. A `Position` is such a pair and a `Span` is two of them in
order. Both invariants are part of the types. A position need not lie in any text: whether it does
is a question for a `LineTable`.
-/

namespace MarkupLint

/-- A line and a column, both counted from one. Columns count characters from the line's start. -/
structure Position where
  /-- The line, counted from one. -/
  line : Nat
  /-- The column, counted from one. -/
  column : Nat
  /-- Lines are counted from one. -/
  one_le_line : 1 ≤ line
  /-- Columns are counted from one. -/
  one_le_column : 1 ≤ column
deriving DecidableEq, Repr

namespace Position

/-- The position at a line and a column, if both are at least one. -/
def ofLineColumn (line column : Int) : Except Fault Position :=
  if h : line < 1 ∨ column < 1 then .error .positionBelowOne
  else .ok ⟨line.toNat, column.toNat, by omega, by omega⟩

/-- The first position of every document. -/
def origin : Position := ⟨1, 1, Nat.le_refl 1, Nat.le_refl 1⟩

/-- The position `delta` columns further on the same line. The line may well be shorter. -/
def shiftColumn (p : Position) (delta : Int) : Except Fault Position :=
  ofLineColumn p.line (p.column + delta)

/-- Positions are ordered by line, and on one line by column. -/
instance : LT Position :=
  ⟨fun p q => p.line < q.line ∨ (p.line = q.line ∧ p.column < q.column)⟩

instance : LE Position :=
  ⟨fun p q => p.line < q.line ∨ (p.line = q.line ∧ p.column ≤ q.column)⟩

instance (p q : Position) : Decidable (p < q) :=
  inferInstanceAs (Decidable (p.line < q.line ∨ (p.line = q.line ∧ p.column < q.column)))

instance (p q : Position) : Decidable (p ≤ q) :=
  inferInstanceAs (Decidable (p.line < q.line ∨ (p.line = q.line ∧ p.column ≤ q.column)))

/-- The same order as a comparison. -/
instance : Ord Position :=
  ⟨fun p q => (compare p.line q.line).then (compare p.column q.column)⟩

/-- The position as `line:column`. -/
def display (p : Position) : String := s!"{p.line}:{p.column}"

end Position

/-- Two positions, the second not before the first. -/
structure Span where
  /-- Where the span starts. -/
  start : Position
  /-- Where the span stops. -/
  stop : Position
  /-- A span does not end before it starts. -/
  start_le_stop : ¬ stop < start
deriving DecidableEq, Repr

namespace Span

/-- The span between two positions, if they are in order. -/
def between (start stop : Position) : Except Fault Span :=
  if h : stop < start then .error .spanReversed else .ok ⟨start, stop, h⟩

theorem not_lt_self (p : Position) : ¬ p < p := fun h =>
  h.elim (Nat.lt_irrefl _) fun h => Nat.lt_irrefl _ h.2

/-- The span that starts and stops at one position. -/
def point (p : Position) : Span := ⟨p, p, not_lt_self p⟩

/-- The span of findings that concern a document as a whole. -/
def document : Span := point .origin

end Span

end MarkupLint

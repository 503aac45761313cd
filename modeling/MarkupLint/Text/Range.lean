import MarkupLint.Fault
import MarkupLint.Text.Basic

/-!
# Ranges of offsets

A place in a text is an offset, counted in characters from zero. A `Range` is a half-open interval
of offsets. That its ends are in order is part of the type, so whoever holds a range need not check
it again; `Range.ofBounds` is the only place where arbitrary integers are turned into one, and it
says why it refuses.
-/

namespace MarkupLint

/-- The half-open interval of offsets from `start` up to, not including, `stop`. -/
structure Range where
  /-- The first offset of the range. -/
  start : Nat
  /-- The offset right behind the range. -/
  stop : Nat
  /-- A range does not end before it starts. -/
  start_le_stop : start ≤ stop
deriving DecidableEq, Repr

namespace Range

/-- The range between two integers. A negative end is reported before reversed ends are. -/
def ofBounds (start stop : Int) : Except Fault Range :=
  if start < 0 ∨ stop < 0 then .error .rangeNegative
  else if h : stop < start then .error .rangeReversed
  else .ok ⟨start.toNat, stop.toNat, by omega⟩

/-- The range that starts at `offset` and has the given length. -/
def ofLength (offset length : Int) : Except Fault Range := ofBounds offset (offset + length)

/-- The range at `offset` that holds nothing. -/
def empty (offset : Int) : Except Fault Range := ofBounds offset offset

/-- The range of findings that concern a document as a whole. -/
def document : Range := ⟨0, 0, Nat.le_refl 0⟩

/-- Ranges are ordered by their starts, and those that start together by their stops. -/
instance : LT Range :=
  ⟨fun r s => r.start < s.start ∨ (r.start = s.start ∧ r.stop < s.stop)⟩

instance : LE Range :=
  ⟨fun r s => r.start < s.start ∨ (r.start = s.start ∧ r.stop ≤ s.stop)⟩

instance (r s : Range) : Decidable (r < s) :=
  inferInstanceAs (Decidable (r.start < s.start ∨ (r.start = s.start ∧ r.stop < s.stop)))

instance (r s : Range) : Decidable (r ≤ s) :=
  inferInstanceAs (Decidable (r.start < s.start ∨ (r.start = s.start ∧ r.stop ≤ s.stop)))

/-- The two ends, written as a pair: `(3, 7)`. -/
def pair (r : Range) : String := s!"({r.start}, {r.stop})"

/-- The range as it is shown in diagnostics of the library itself. -/
def display (r : Range) : String := "TextRange" ++ r.pair

end Range

end MarkupLint

import Mathlib.Data.List.Infix
import MarkupLint.Text.LineTable

/-!
# Places inside a text

Ranges and positions are checked when they are made, and a check that fails is a fault. This file
says when none does. Two integers are the bounds of a range exactly when they are its bounds as
natural numbers; an offset has a position as long as it does not lie behind the end of the text; and
positions come in the order of their offsets, so a range that lies inside the text has a span.

Nothing here depends on where the lines of a table start. The lines that have started up to an
offset are a front part of those that have started up to any later offset, whatever the list of
starts is, and that alone puts the positions in order.

## Main results

* `Range.ofBounds_eq_ok_iff` — which integers are the bounds of a range
* `LineTable.locate_mono` — positions come in the order of their offsets
* `LineTable.span_of_stop_le` — a range inside the text has a span
-/

namespace MarkupLint

namespace Range

theorem ofBounds_eq_ok_iff {start stop : Int} {range : Range} :
    ofBounds start stop = .ok range ↔ start = range.start ∧ stop = range.stop := by
  obtain ⟨first, last, hle⟩ := range
  unfold ofBounds
  constructor
  · intro h
    split at h
    · cases h
    · split at h
      · cases h
      · next hnonneg hle =>
        cases h
        dsimp only
        constructor <;> omega
  · rintro ⟨rfl, rfl⟩
    rw [if_neg (by omega), dif_neg (by simpa using hle)]
    rfl

end Range

namespace Position

/-- A position has others behind it on its line, whether the line is long enough or not. -/
theorem exists_shiftColumn (p : Position) (n : ℕ) :
    ∃ q, p.shiftColumn n = .ok q ∧ q.line = p.line ∧ q.column = p.column + n := by
  have hline := p.one_le_line
  have hcolumn := p.one_le_column
  refine ⟨⟨p.line, p.column + n, hline, hcolumn.trans (Nat.le_add_right _ _)⟩, ?_, rfl, rfl⟩
  rw [shiftColumn, ofLineColumn, dif_neg (by omega)]
  rfl

end Position

namespace LineTable

@[simp] theorem length_ofText (text : Text) : (ofText text).length = text.length := rfl

/-- The lines that have started up to an offset are the first of those that have started up to a
later one. -/
theorem takeWhile_le_isPrefix {a b : ℕ} (h : a ≤ b) (starts : List ℕ) :
    starts.takeWhile (· ≤ a) <+: starts.takeWhile (· ≤ b) := by
  induction starts with
  | nil => exact List.prefix_rfl
  | cons start starts ih =>
    by_cases ha : start ≤ a
    · have hb : start ≤ b := ha.trans h
      simpa [List.takeWhile_cons, ha, hb] using ih
    · simp [List.takeWhile_cons, ha]

/-- Positions come in the order of their offsets. -/
theorem locate_mono (table : LineTable) {a b : ℕ} (h : a ≤ b) :
    ¬ table.locate b < table.locate a := by
  have hfront := takeWhile_le_isPrefix h table.laterStarts
  rintro (hline | ⟨hline, hcolumn⟩)
  · have hlength := hfront.length_le
    simp only [locate] at hline
    omega
  · -- on one line the two columns are counted from the same start
    simp only [locate, Nat.add_right_cancel_iff] at hline hcolumn
    rw [hfront.eq_of_length hline.symm] at hcolumn
    omega

/-- An offset inside the text has a position. -/
theorem position_of_le {table : LineTable} {offset : ℤ} (hzero : 0 ≤ offset)
    (hle : offset ≤ table.length) : table.position offset = .ok (table.locate offset.toNat) := by
  rw [position, if_neg (by omega)]

/-- The span of a range that lies inside the text. -/
def locateRange (table : LineTable) (range : Range) : Span :=
  ⟨table.locate range.start, table.locate range.stop, table.locate_mono range.start_le_stop⟩

/-- **A range inside the text has a span.** -/
theorem span_of_stop_le {table : LineTable} {range : Range} (h : range.stop ≤ table.length) :
    table.span range = .ok (table.locateRange range) := by
  have hle := range.start_le_stop
  have hmono := table.locate_mono hle
  rw [span, position_of_le (by omega) (by omega), position_of_le (by omega) (by omega)]
  show Span.between (table.locate range.start) (table.locate range.stop) = _
  rw [Span.between, dif_neg hmono]
  rfl

end LineTable

end MarkupLint

import MarkupLint.Proofs.Joining

/-!
# Two ways of placing an attribute, compared

The place of an attribute can be looked up in the line table, or it can be counted in columns from
the start of its tag. Counting is right as long as the line goes on. This file says what happens
where it does not: each line feed on the way puts the position that is looked up one line further
down, while the one that is counted stays on the line of the tag. So the two are the same exactly if
there is no line feed between the `<` of the tag and the place in question, and otherwise their
lines tell how many there are.

Nothing of this is about attributes. It holds of any position that is counted from some offset, and
an attribute has two of them, which may differ: a value can go on over several lines even if its
attribute starts on the line of the tag.

## Main results

* `Position.CountedFrom.line_locate` — line feeds on the way are lines that were not counted
* `Position.CountedFrom.eq_locate_iff` — counting is right if there are none
* `Scan.attribute_places_compared` — both places of every attribute of a text
-/

namespace MarkupLint

/-! ### Counted positions -/

namespace Position.CountedFrom

variable {p : Position} {text : Text} {origin offset : ℕ}

/-- What comes in front of an offset is what comes in front of the origin and what is counted. -/
theorem take_eq (h : p.CountedFrom (.ofText text) origin offset) :
    text.take offset = text.take origin ++ (text.drop origin).take (offset - origin) := by
  rw [← List.take_add, Nat.add_sub_of_le h.origin_le]

/-- **Line feeds on the way are lines that were not counted.** -/
theorem line_locate (h : p.CountedFrom (.ofText text) origin offset) (hle : offset ≤ text.length) :
    ((LineTable.ofText text).locate offset).line =
      p.line + ((text.drop origin).take (offset - origin)).count '\n' := by
  rw [h.line_eq, LineTable.line_locate hle, LineTable.line_locate (h.origin_le.trans hle),
    h.take_eq, List.count_append]
  omega

/-- Where the line goes on, the column is the one that was counted. -/
theorem column_locate (h : p.CountedFrom (.ofText text) origin offset) (hle : offset ≤ text.length)
    (hfeed : '\n' ∉ (text.drop origin).take (offset - origin)) :
    ((LineTable.ofText text).locate offset).column = p.column := by
  have hlength : ((text.drop origin).take (offset - origin)).length = offset - origin := by
    rw [List.length_take, List.length_drop]
    omega
  have hrun : ((text.drop origin).take (offset - origin)).rtakeWhile (· != '\n') =
      (text.drop origin).take (offset - origin) := by
    rw [List.rtakeWhile_eq_self_iff]
    exact fun c hc => bne_iff_ne.mpr fun heq => hfeed (heq ▸ hc)
  rw [h.column_eq, LineTable.column_locate hle, LineTable.column_locate (h.origin_le.trans hle),
    h.take_eq, LineTable.length_rtakeWhile_append, hrun, hlength,
    if_pos (List.count_eq_zero.mpr hfeed)]
  omega

/-- **Counting is right if there is no line feed on the way**, and only then. -/
theorem eq_locate_iff (h : p.CountedFrom (.ofText text) origin offset)
    (hle : offset ≤ text.length) :
    p = (LineTable.ofText text).locate offset ↔
      '\n' ∉ (text.drop origin).take (offset - origin) := by
  have hline := h.line_locate hle
  constructor
  · intro heq
    rw [← heq] at hline
    exact List.count_eq_zero.mp (by omega)
  · intro hfeed
    rw [List.count_eq_zero.mpr hfeed, Nat.add_zero] at hline
    exact eq_of_line_of_column hline.symm (h.column_locate hle hfeed).symm

end Position.CountedFrom

/-! ### Attributes -/

/-- A position that was looked up has the offset it was looked up for. -/
theorem LineTable.offset_locate {text : Text} {offset : ℕ} (h : offset ≤ text.length) :
    (ofText text).offset ((ofText text).locate offset) = .ok offset := by
  rw [offset_eq_ok_iff, position_of_le (Int.natCast_nonneg offset) (Int.ofNat_le.mpr h),
    Int.toNat_natCast]

namespace Tag

/-- The characters behind the start of a tag are its own. -/
theorem OccursIn.take_drop_eq {tag : Tag} {text : Text} (h : tag.OccursIn text) {n : ℕ}
    (hn : n ≤ tag.raw.length) : (text.drop tag.start.toNat).take n = tag.raw.take n := by
  obtain ⟨start, inner, hdescribes⟩ := h.describes
  obtain ⟨rest, hrest⟩ := hdescribes.raw_isPrefix
  rw [← hrest, List.take_append_of_le_length hn]

/-- One place inside a tag: the position `p` that is counted from the tag, and the position `q` that
is looked up. -/
theorem OccursIn.compare_positions {tag : Tag} {text : Text} (h : tag.OccursIn text) {n : ℕ}
    (hn : n ≤ tag.raw.length) {p q : Position}
    (hp : p.CountedFrom (.ofText text) tag.start.toNat (tag.start.toNat + n))
    (hq : q.CountedFrom (.ofText text) (tag.start.toNat + n) (tag.start.toNat + n)) :
    (p = q ↔ '\n' ∉ tag.raw.take n) ∧ q.line = p.line + (tag.raw.take n).count '\n' ∧
      (LineTable.ofText text).offset q = .ok (tag.start.toNat + n) := by
  have hle : tag.start.toNat + n ≤ text.length := by
    obtain ⟨hzero, hstop⟩ := h.stop_le
    rw [Tag.stop] at hstop
    omega
  have hcounted : (text.drop tag.start.toNat).take (tag.start.toNat + n - tag.start.toNat) =
      tag.raw.take n := by
    rw [Nat.add_sub_cancel_left, h.take_drop_eq hn]
  have hlookedUp : q = (LineTable.ofText text).locate (tag.start.toNat + n) :=
    (Position.countedFrom_locate _ _).eq_of_locate_eq hq rfl
  rw [hlookedUp, hp.eq_locate_iff hle, hp.line_locate hle, hcounted]
  exact ⟨Iff.rfl, rfl, LineTable.offset_locate hle⟩

/-- The counted and the looked-up span of an attribute of a tag, and its range. -/
structure PlacesCompared (tag : Tag) (attr : Attribute) (table : LineTable)
    (counted lookedUp : Span) (range : Range) : Prop where
  /-- The two start together if the tag has no line feed in front of the attribute. -/
  start_eq_iff : counted.start = lookedUp.start ↔ '\n' ∉ tag.raw.take attr.offset
  /-- The two stop together if the tag has no line feed before the end of the attribute. -/
  stop_eq_iff : counted.stop = lookedUp.stop ↔ '\n' ∉ tag.raw.take (attr.offset + attr.length)
  /-- The lines on which they start are as far apart as there are line feeds. -/
  start_line : lookedUp.start.line = counted.start.line + (tag.raw.take attr.offset).count '\n'
  /-- So are the lines on which they stop. -/
  stop_line : lookedUp.stop.line =
    counted.stop.line + (tag.raw.take (attr.offset + attr.length)).count '\n'
  /-- The offset of where the looked-up span starts is that of the attribute. -/
  offset_start : table.offset lookedUp.start = .ok range.start
  /-- The offset of where it stops is that of the end of the attribute. -/
  offset_stop : table.offset lookedUp.stop = .ok range.stop

theorem OccursIn.placesCompared {tag : Tag} {text : Text} (htag : tag.OccursIn text)
    {attr : Attribute} (hattr : attr ∈ tag.attributes) {counted lookedUp : Span} {range : Range}
    (hcounted : tag.attributeSpan (.ofText text) false attr.offset attr.length = .ok counted)
    (hlookedUp : tag.attributeSpan (.ofText text) true attr.offset attr.length = .ok lookedUp)
    (hrange : tag.attributeRange attr.offset attr.length = .ok range) :
    tag.PlacesCompared attr (.ofText text) counted lookedUp range := by
  have hinside : tag.Inside (.ofText text) := htag.stop_le
  have hle := attribute_stop_le hattr
  obtain ⟨hextent, -, hstart, hstop⟩ := resolved_attributeSpan hinside hattr hcounted hrange
  obtain ⟨-, -, hstart', hstop'⟩ := resolved_attributeSpan hinside hattr hlookedUp hrange
  have hfirst : range.start = tag.start.toNat + attr.offset := by rw [hextent]; rfl
  have hlast : range.stop = tag.start.toNat + (attr.offset + attr.length) := by
    rw [hextent, ← Nat.add_assoc]
    rfl
  rw [hfirst] at hstart hstart'
  rw [hlast] at hstop hstop'
  obtain ⟨hstartEq, hstartLine, hstartOffset⟩ :=
    htag.compare_positions ((Nat.le_add_right _ _).trans hle) hstart hstart'
  obtain ⟨hstopEq, hstopLine, hstopOffset⟩ := htag.compare_positions hle hstop hstop'
  exact ⟨hstartEq, hstopEq, hstartLine, hstopLine, hfirst ▸ hstartOffset, hlast ▸ hstopOffset⟩

end Tag

/-- **Both places of every attribute of a text.** -/
theorem Scan.attribute_places_compared (text : Text) :
    ∃ scan, ofText text = .ok scan ∧ scan.table = .ofText text ∧
      ∀ tag ∈ scan.tags, ∀ attr ∈ tag.attributes, ∃ counted lookedUp range,
        tag.attributeSpan scan.table false attr.offset attr.length = .ok counted ∧
        tag.attributeSpan scan.table true attr.offset attr.length = .ok lookedUp ∧
        tag.attributeRange attr.offset attr.length = .ok range ∧
        tag.PlacesCompared attr scan.table counted lookedUp range := by
  obtain ⟨scan, hscan, -, htable, -⟩ := exists_ofText text
  refine ⟨scan, hscan, htable, fun tag htag attr hattr => ?_⟩
  have hinside := inside_of_ofText hscan htag
  obtain ⟨counted, hcounted⟩ := Tag.exists_attributeSpan hinside hattr false
  obtain ⟨lookedUp, hlookedUp⟩ := Tag.exists_attributeSpan hinside hattr true
  obtain ⟨range, hrange, -⟩ := Tag.exists_attributeRange hinside hattr
  refine ⟨counted, lookedUp, range, hcounted, hlookedUp, hrange, ?_⟩
  rw [htable] at hcounted hlookedUp ⊢
  exact (occursIn_of_ofText hscan htag).placesCompared hattr hcounted hlookedUp hrange

end MarkupLint

import MarkupLint.Proofs.LinePositions
import MarkupLint.Proofs.Notices

/-!
# Where findings are reported

A diagnostic gives its place twice, as a span of lines and columns and as a range of offsets. The
two are worked out in different ways. For tags the span is looked up in the line table. For
attributes it may be counted instead, in columns from the start of the tag, and then it can run past
the end of the line. For a document as a whole it is a constant.

All of them come to the same, once a position is seen as counted from some offset: it stands on the
line of that offset, as many columns further on as the place lies behind it. A position that was
looked up is counted from its own offset, and the position of an attribute may be counted from its
tag. A position that is counted from an offset of the text denotes the place it was counted to, so
span and range describe the same place.

## Main results

* `Position.CountedFrom.denotes` — a position denotes the place it was counted to
* `Place.resolved` — how the span of a place is counted
* `Lint.validate_places_denoted` — span and range of a diagnostic describe the same place
-/

namespace MarkupLint

namespace Position

/-- The position is on the line of `origin`, as many columns further on as `offset` lies behind
it. -/
structure CountedFrom (p : Position) (table : LineTable) (origin offset : ℕ) : Prop where
  origin_le : origin ≤ offset
  line_eq : p.line = (table.locate origin).line
  column_eq : p.column = (table.locate origin).column + (offset - origin)

/-- **A position denotes the place it was counted to.** -/
theorem CountedFrom.denotes {p : Position} {text : Text} {origin offset : ℕ}
    (h : p.CountedFrom (.ofText text) origin offset) (hle : origin ≤ text.length) :
    p.Denotes text offset := by
  have hshift := (LineTable.denotes_locate hle).shift (offset - origin) h.line_eq h.column_eq
  rwa [Nat.add_sub_of_le h.origin_le] at hshift

theorem countedFrom_locate (table : LineTable) (offset : ℕ) :
    (table.locate offset).CountedFrom table offset offset :=
  ⟨le_rfl, rfl, by rw [Nat.sub_self, Nat.add_zero]⟩

theorem countedFrom_shiftColumn {table : LineTable} {origin n : ℕ} {p : Position}
    (h : (table.locate origin).shiftColumn n = .ok p) :
    p.CountedFrom table origin (origin + n) := by
  obtain ⟨q, hq, hline, hcolumn⟩ := (table.locate origin).exists_shiftColumn n
  cases h.symm.trans hq
  exact ⟨Nat.le_add_right origin n, hline, by rw [hcolumn, Nat.add_sub_cancel_left]⟩

end Position

theorem Span.between_eq_ok {start stop : Position} {span : Span}
    (h : between start stop = .ok span) : span.start = start ∧ span.stop = stop := by
  unfold between at h
  split at h
  · cases h
  · cases h
    exact ⟨rfl, rfl⟩

/-- The first position of a text is that of its first offset. -/
theorem LineTable.locate_zero (text : Text) : (ofText text).locate 0 = .origin := by
  have hpassed : (ofText text).laterStarts.takeWhile (· ≤ 0) = [] :=
    takeWhile_laterStarts (Nat.zero_le text.length)
  simp only [locate, hpassed]
  rfl

/-! ### Places -/

namespace Place

/-- The offsets of a place. -/
def extent : Place → Range
  | document => .document
  | stub s => s.range
  | tag t => ⟨t.start.toNat, t.start.toNat + t.raw.length, Nat.le_add_right _ _⟩
  | attr t a => ⟨t.start.toNat + a.offset, t.start.toNat + a.offset + a.length,
      Nat.le_add_right _ _⟩

/-- The offset that the position of an offset of a place is counted from. Unless attributes are
placed precisely, theirs are counted from their tags. -/
def origin (precise : Bool) (offset : ℕ) : Place → ℕ
  | attr t _ => if precise then offset else t.start.toNat
  | _ => offset

/-- The span and the range are those of the place. -/
structure Resolved (place : Place) (table : LineTable) (precise : Bool) (span : Span)
    (range : Range) : Prop where
  range_eq : range = place.extent
  stop_le : range.stop ≤ table.length
  start_counted : span.start.CountedFrom table (place.origin precise range.start) range.start
  stop_counted : span.stop.CountedFrom table (place.origin precise range.stop) range.stop

/-- A place whose span is looked up in the table. -/
theorem resolved_of_span {place : Place} {table : LineTable} {precise : Bool} {span : Span}
    {range : Range} (hrange : range = place.extent) (hstop : range.stop ≤ table.length)
    (horigin : ∀ offset, place.origin precise offset = offset)
    (hspan : table.span range = .ok span) : place.Resolved table precise span range := by
  cases hspan.symm.trans (LineTable.span_of_stop_le hstop)
  refine ⟨hrange, hstop, ?_, ?_⟩ <;> rw [horigin]
  · exact Position.countedFrom_locate table range.start
  · exact Position.countedFrom_locate table range.stop

end Place

theorem Range.eq_of_ofBounds {start stop : ℤ} {first last : ℕ} {hle : first ≤ last} {range : Range}
    (h : ofBounds start stop = .ok range) (hstart : start = first) (hstop : stop = last) :
    range = ⟨first, last, hle⟩ := by
  obtain ⟨hfirst, hlast⟩ := ofBounds_eq_ok_iff.mp h
  obtain ⟨first', last', hle'⟩ := range
  dsimp only at hfirst hlast
  rw [Range.mk.injEq]
  omega

theorem Tag.resolved_attributeSpan {tag : Tag} {table : LineTable} (htag : tag.Inside table)
    {attr : Attribute} (hattr : attr ∈ tag.attributes) {precise : Bool} {span : Span}
    {range : Range} (hspan : tag.attributeSpan table precise attr.offset attr.length = .ok span)
    (hrange : tag.attributeRange attr.offset attr.length = .ok range) :
    (Place.attr tag attr).Resolved table precise span range := by
  have hzero := htag.1
  have hstop : range.stop ≤ table.length := by
    obtain ⟨range', hrange', hstop⟩ := exists_attributeRange htag hattr
    cases hrange.symm.trans hrange'
    exact hstop
  have hextent : range = (Place.attr tag attr).extent :=
    Range.eq_of_ofBounds hrange (by omega) (by omega)
  obtain ⟨range', hrange', hspan⟩ := bind_eq_ok_iff.mp hspan
  cases hrange.symm.trans hrange'
  cases precise with
  | true => exact Place.resolved_of_span hextent hstop (fun _ => rfl) hspan
  | false =>
    obtain ⟨tagStart, hposition, hspan⟩ := bind_eq_ok_iff.mp hspan
    cases hposition.symm.trans (LineTable.position_of_le hzero htag.start_le)
    obtain ⟨start, hstart, hspan⟩ := bind_eq_ok_iff.mp hspan
    obtain ⟨stop, hshift, hspan⟩ := bind_eq_ok_iff.mp hspan
    obtain ⟨hspanStart, hspanStop⟩ := Span.between_eq_ok hspan
    refine ⟨hextent, hstop, ?_, ?_⟩
    · rw [hspanStart, hextent]
      exact Position.countedFrom_shiftColumn hstart
    · rw [hspanStop, hextent]
      show stop.CountedFrom table tag.start.toNat (tag.start.toNat + attr.offset + attr.length)
      rw [Nat.add_assoc]
      exact Position.countedFrom_shiftColumn hshift

namespace Scan

variable {text : Text} {scan : Scan}

theorem table_of_ofText (h : ofText text = .ok scan) : scan.table = .ofText text := by
  obtain ⟨scan', hscan, -, htable, -⟩ := exists_ofText text
  cases h.symm.trans hscan
  exact htable

theorem stub_stop_le (h : ofText text = .ok scan) {stub : Stub} (hstub : stub ∈ scan.stubs) :
    stub.stop ≤ text.length := by
  obtain ⟨i, hi, hat, -⟩ := (reading_of_ofText h).mem_stubs_iff.mp hstub
  have hle := hat.stop_le
  rw [Stub.stop, hi]
  omega

end Scan

/-- **How the span of a place is counted.** -/
theorem Place.resolved {text : Text} {scan : Scan} (hscan : Scan.ofText text = .ok scan)
    {place : Place} (hplace : place.Of scan) {precise : Bool} {span : Span} {range : Range}
    (h : place.resolve scan.table precise = .ok (span, range)) :
    place.Resolved scan.table precise span range := by
  have htable := Scan.table_of_ofText hscan
  cases place with
  | document =>
    cases h
    have horigin : Position.origin = scan.table.locate 0 := by
      rw [htable, LineTable.locate_zero]
    refine ⟨rfl, Nat.zero_le _, ?_, ?_⟩
    all_goals
      show Position.origin.CountedFrom scan.table 0 0
      rw [horigin]
      exact Position.countedFrom_locate scan.table 0
  | stub s =>
    obtain ⟨span', hspan, heq⟩ := bind_eq_ok_iff.mp h
    cases heq
    have hstop : s.range.stop ≤ scan.table.length := by
      rw [htable]
      exact Scan.stub_stop_le hscan hplace
    exact resolved_of_span rfl hstop (fun _ => rfl) hspan
  | tag t =>
    obtain ⟨range', hrange, h⟩ := bind_eq_ok_iff.mp h
    obtain ⟨span', hspan, heq⟩ := bind_eq_ok_iff.mp h
    cases heq
    have hinside := Scan.inside_of_ofText hscan hplace
    have hextent : range = (Place.tag t).extent := by
      have hzero := hinside.1
      exact Range.eq_of_ofBounds hrange (by omega) (by rw [Tag.stop]; omega)
    have hstop : range.stop ≤ scan.table.length := by
      obtain ⟨range', hrange', -, -, hstop⟩ := hinside.exists_range
      cases hrange.symm.trans hrange'
      exact hstop
    exact resolved_of_span hextent hstop (fun _ => rfl) hspan
  | attr t a =>
    obtain ⟨span', hspan, h⟩ := bind_eq_ok_iff.mp h
    obtain ⟨range', hrange, heq⟩ := bind_eq_ok_iff.mp h
    cases heq
    exact Tag.resolved_attributeSpan (Scan.inside_of_ofText hscan hplace.1) hplace.2 hspan hrange

/-! ### Diagnostics -/

/-- The span and the range of the diagnostic describe the same place of the text. -/
structure Diagnostic.PlacedIn (d : Diagnostic) (text : Text) : Prop where
  /-- The range is one. -/
  start_le_stop : d.range.start ≤ d.range.stop
  /-- It lies inside the text. -/
  stop_le : d.range.stop ≤ text.length
  /-- It starts where the span does. -/
  start_denoted : d.span.start.Denotes text d.range.start
  /-- It stops where the span does. -/
  stop_denoted : d.span.stop.Denotes text d.range.stop

/-- **Span and range of a diagnostic describe the same place**, whichever way attributes are
placed. -/
theorem Lint.validate_places_denoted (text : Text) (options : Options) {d : Diagnostic}
    (h : d ∈ validate text options) : d.PlacedIn text := by
  obtain ⟨scan, hscan, -⟩ := Scan.exists_ofText text
  obtain ⟨notice, hnotice, hd⟩ := exists_mem_of_forall₂ (reports_validate hscan options) h
  obtain ⟨hresolve, -⟩ := Notice.diagnostic_eq_ok_iff.mp hd
  obtain ⟨-, hstop, hstart, hstop'⟩ :=
    Place.resolved hscan (Scan.place_of_mem_notices hnotice) hresolve
  rw [Scan.table_of_ofText hscan] at hstop hstart hstop'
  have hle := d.range.start_le_stop
  rw [LineTable.length_ofText] at hstop
  exact ⟨hle, hstop, hstart.denotes (hstart.origin_le.trans (hle.trans hstop)),
    hstop'.denotes (hstop'.origin_le.trans hstop)⟩

/-- An attribute on the second line of its tag, placed on the first, which has two characters. -/
theorem Lint.validate_places_denoted_past_line_end :
    ∃ d ∈ validate "<a\nid>".toList {}, d.span.start.line = 1 ∧ d.span.start.column = 4 ∧
      d.range.start = 3 ∧ d.PlacedIn "<a\nid>".toList := by
  have hfound : ∃ d ∈ validate "<a\nid>".toList {}, d.span.start.line = 1 ∧
      d.span.start.column = 4 ∧ d.range.start = 3 := by
    decide +kernel
  obtain ⟨d, hd, hline, hcolumn, hstart⟩ := hfound
  exact ⟨d, hd, hline, hcolumn, hstart, validate_places_denoted _ _ hd⟩

end MarkupLint

import Mathlib.Data.List.Pairwise
import Mathlib.Data.List.Sort
import Mathlib.Order.Compare
import MarkupLint.Proofs.Repetition
import MarkupLint.Proofs.ReportedPlaces

/-!
# The order of a report

A report is put in order by the spans of its diagnostics. If attributes are not placed precisely,
the spans of those on the later lines of a tag are made up: they lie on the first line of the tag,
behind everything that really stands there. This file shows that the order of a report does not
notice. Diagnostics are in the same order by their spans as by their ranges, and since no two of
them share place and code, there is only one way to put them in order.

The reason is that the pieces of a text do not overlap. A position is counted from the start of its
own piece, or from its own offset. Either way, of two positions on different lines the one on the
earlier line was counted from an earlier piece, and does not leave it.

## Main results

* `Piece.apart` — the pieces of a scan do not overlap
* `Position.CountedFrom.lt_iff` — positions are in order if the places they were counted to are
* `Place.compare_span` — places are in the same order by their spans and by their ranges
* `Lint.validate_canonical` — there is one way to put the report of a run in order
-/

namespace MarkupLint

/-! ### Comparisons -/

namespace Position

instance : Std.TransOrd Position :=
  inferInstanceAs (Std.TransCmp (compareLex (compareOn Position.line) (compareOn Position.column)))

theorem compare_eq_lt_iff {p q : Position} : compare p q = .lt ↔ p < q := by
  show (compare p.line q.line).then (compare p.column q.column) = .lt ↔ _
  rw [Ordering.then_eq_lt, Nat.compare_eq_lt, Nat.compare_eq_eq, Nat.compare_eq_lt]
  rfl

/-- Positions compare like the numbers that they are in order with. -/
theorem compare_eq_compare {p q : Position} {a b : ℕ} (hlt : p < q ↔ a < b)
    (hgt : q < p ↔ b < a) : compare p q = compare a b := by
  rw [← compare_eq_lt_iff, ← Nat.compare_eq_lt] at hlt hgt
  rw [Std.OrientedOrd.eq_swap (a := q), Std.OrientedOrd.eq_swap (a := b)] at hgt
  cases hpq : compare p q <;> cases hab : compare a b <;> simp_all

end Position

theorem Range.eq_iff {r s : Range} : r = s ↔ r.start = s.start ∧ r.stop = s.stop := by
  obtain ⟨first, last, hle⟩ := r
  obtain ⟨first', last', hle'⟩ := s
  rw [Range.mk.injEq]

/-- What a diagnostic reports that does not depend on how its place is shown. -/
structure Gist where
  /-- The code of the finding. -/
  code : String
  /-- The message. -/
  message : String
  /-- Where it was found. -/
  range : Range
deriving DecidableEq, Repr

namespace Gist

/-- Gists are compared by where they start, where they stop and their codes, in this order. -/
def compareByRange (g h : Gist) : Ordering :=
  ((compare g.range.start h.range.start).then (compare g.range.stop h.range.stop)).then
    (compare g.code h.code)

/-- The gist comes before another by range and code. -/
def Precedes (g h : Gist) : Prop := g.range < h.range ∨ (g.range = h.range ∧ g.code < h.code)

instance : Std.TransCmp compareByRange :=
  inferInstanceAs (Std.TransCmp (compareLex (compareLex (compareOn fun g : Gist => g.range.start)
    (compareOn fun g : Gist => g.range.stop)) (compareOn Gist.code)))

theorem compareByRange_eq_lt_iff {g h : Gist} : g.compareByRange h = .lt ↔ g.Precedes h := by
  have hlt : g.range < h.range ↔ g.range.start < h.range.start ∨
      (g.range.start = h.range.start ∧ g.range.stop < h.range.stop) := Iff.rfl
  have hcode : compare g.code h.code = .lt ↔ g.code < h.code := compareOfLessAndEq_eq_lt
  rw [compareByRange, Ordering.then_eq_lt, Ordering.then_eq_lt, Ordering.then_eq_eq,
    Nat.compare_eq_lt, Nat.compare_eq_eq, Nat.compare_eq_lt, Nat.compare_eq_eq, hcode, Precedes,
    hlt, Range.eq_iff]

theorem compareByRange_eq_eq_iff {g h : Gist} :
    g.compareByRange h = .eq ↔ g.range = h.range ∧ g.code = h.code := by
  rw [compareByRange, Ordering.then_eq_eq, Ordering.then_eq_eq, Nat.compare_eq_eq,
    Nat.compare_eq_eq, Std.compare_eq_iff_eq, Range.eq_iff]

theorem Precedes.asymm {g h : Gist} (hgh : g.Precedes h) : ¬ h.Precedes g := by
  have hswap : h.compareByRange g = (g.compareByRange h).swap := Std.OrientedCmp.eq_swap
  rw [← compareByRange_eq_lt_iff] at hgh ⊢
  rw [hswap, hgh]
  decide

end Gist

namespace Diagnostic

/-- The gist of the diagnostic. -/
def gist (d : Diagnostic) : Gist := ⟨d.code, d.message, d.range⟩

instance : Std.TransCmp compareByPlace :=
  inferInstanceAs (Std.TransCmp (compareLex (compareOn fun d : Diagnostic => d.span.start)
    (compareLex (compareOn fun d : Diagnostic => d.span.stop)
      (compareLex (compareOn Diagnostic.code) (compareOn Diagnostic.message)))))

end Diagnostic

/-! ### Pieces of a scan -/

namespace Piece

/-- The offset at which the piece starts. -/
def start : Piece → ℕ
  | tag t => t.start.toNat
  | stub s => s.start

/-- The offset right behind the piece. -/
def stop : Piece → ℕ
  | tag t => t.start.toNat + t.raw.length
  | stub s => s.stop

/-- The piece is one of those that were found. -/
def Of (scan : Scan) : Piece → Prop
  | tag t => t ∈ scan.tags
  | stub s => s ∈ scan.stubs

end Piece

namespace Scan

variable {text : Text} {scan : Scan}

theorem tags_apart (hscan : ofText text = .ok scan) {tag tag' : Tag} (htag : tag ∈ scan.tags)
    (htag' : tag' ∈ scan.tags) :
    tag = tag' ∨ tag.stop ≤ tag'.start ∨ tag'.stop ≤ tag.start :=
  (reading_of_ofText hscan).inOrder.apart htag htag'

theorem stub_stop_le_start (hscan : ofText text = .ok scan) {stub stub' : Stub}
    (hstub : stub ∈ scan.stubs) (hstub' : stub' ∈ scan.stubs) (hlt : stub.start < stub'.start) :
    stub.stop ≤ stub'.start := by
  obtain ⟨i, hi, hat, -⟩ := (reading_of_ofText hscan).mem_stubs_iff.mp hstub
  obtain ⟨j, hj, hat', -⟩ := (reading_of_ofText hscan).mem_stubs_iff.mp hstub'
  by_contra hinside
  rw [Stub.stop] at hinside
  obtain ⟨n, rfl⟩ := Nat.exists_eq_add_of_lt (show i < j by omega)
  exact hat.not_at_inside (i := n + 1) (by omega) (by omega) hat'

theorem stubs_apart (hscan : ofText text = .ok scan) {stub stub' : Stub}
    (hstub : stub ∈ scan.stubs) (hstub' : stub' ∈ scan.stubs) :
    stub = stub' ∨ stub.stop ≤ stub'.start ∨ stub'.stop ≤ stub.start := by
  rcases Nat.lt_trichotomy stub.start stub'.start with hlt | heq | hlt
  · exact .inr (.inl (stub_stop_le_start hscan hstub hstub' hlt))
  · -- only one tag start stands at an offset
    obtain ⟨i, hi, hat, -⟩ := (reading_of_ofText hscan).mem_stubs_iff.mp hstub
    obtain ⟨j, hj, hat', -⟩ := (reading_of_ofText hscan).mem_stubs_iff.mp hstub'
    obtain rfl : i = j := by omega
    have htagStart := hat.unique hat'
    obtain ⟨first, tagStart⟩ := stub
    obtain ⟨first', tagStart'⟩ := stub'
    left
    rw [Stub.mk.injEq]
    exact ⟨heq, htagStart⟩
  · exact .inr (.inr (stub_stop_le_start hscan hstub' hstub hlt))

/-- Behind a tag start that is never ended there are no tags. -/
theorem stop_le_stub (hscan : ofText text = .ok scan) {tag : Tag} {stub : Stub}
    (htag : tag ∈ scan.tags) (hstub : stub ∈ scan.stubs) : tag.stop ≤ stub.start := by
  obtain ⟨i, hi, hgt⟩ := (occursIn_of_ofText hscan htag).getElem?_eq
  obtain ⟨j, hj, hunended⟩ := (reading_of_ofText hscan).mem_stubs_iff.mp hstub
  have hlt := hunended.lt_of_getElem? hgt
  omega

end Scan

namespace Piece

variable {text : Text} {scan : Scan}

theorem start_lt_stop (hscan : Scan.ofText text = .ok scan) {piece : Piece}
    (h : piece.Of scan) : piece.start < piece.stop := by
  cases piece with
  | tag t =>
    have hlt := (Scan.reading_of_ofText hscan).inOrder.start_lt_stop t h
    rw [Tag.stop] at hlt
    simp only [start, stop]
    omega
  | stub s => exact Nat.lt_add_of_pos_right s.tagStart.length_text_pos

/-- **The pieces of a scan do not overlap.** -/
theorem apart (hscan : Scan.ofText text = .ok scan) {piece piece' : Piece} (h : piece.Of scan)
    (h' : piece'.Of scan) :
    piece = piece' ∨ piece.stop ≤ piece'.start ∨ piece'.stop ≤ piece.start := by
  cases piece with
  | tag t =>
    have hzero := (Scan.inside_of_ofText hscan h).1
    cases piece' with
    | tag t' =>
      have hzero' := (Scan.inside_of_ofText hscan h').1
      have hapart := Scan.tags_apart hscan h h'
      simp only [Tag.stop] at hapart
      rcases hapart with rfl | hle | hle
      · exact .inl rfl
      all_goals
        simp only [start, stop]
        omega
    | stub s' =>
      have hle := Scan.stop_le_stub hscan h h'
      rw [Tag.stop] at hle
      simp only [start, stop]
      omega
  | stub s =>
    cases piece' with
    | tag t' =>
      have hzero' := (Scan.inside_of_ofText hscan h').1
      have hle := Scan.stop_le_stub hscan h' h
      rw [Tag.stop] at hle
      simp only [start, stop]
      omega
    | stub s' =>
      rcases Scan.stubs_apart hscan h h' with rfl | hapart
      · exact .inl rfl
      · exact .inr hapart

end Piece

/-! ### Places of a scan -/

namespace Position.CountedFrom

variable {text : Text} {p q : Position} {o o' a b : ℕ}

/-- The position on the earlier line was counted to the earlier place, provided that none of the
two was counted past the offset that the other was counted from. -/
theorem lt_of_line_lt (hp : p.CountedFrom (.ofText text) o a)
    (hq : q.CountedFrom (.ofText text) o' b) (hapart : o = o' ∨ a < o' ∨ b < o)
    (hline : p.line < q.line) : a < b := by
  have hlt : o < o' := by
    rw [hp.line_eq, hq.line_eq] at hline
    exact (LineTable.ofText text).locate_lt_locate_iff.mp (.inl hline)
  have hle := hp.origin_le
  have hle' := hq.origin_le
  omega

/-- **Positions are in order if the places they were counted to are.** -/
theorem lt_iff (hp : p.CountedFrom (.ofText text) o a) (hq : q.CountedFrom (.ofText text) o' b)
    (ha : a ≤ text.length) (hb : b ≤ text.length) (hapart : o = o' ∨ a < o' ∨ b < o) :
    p < q ↔ a < b := by
  have hdenotes := hp.denotes (hp.origin_le.trans ha)
  have hdenotes' := hq.denotes (hq.origin_le.trans hb)
  constructor
  · rintro (hline | ⟨hline, hcolumn⟩)
    · exact hp.lt_of_line_lt hq hapart hline
    · exact (hdenotes.lt_iff_of_line_eq hdenotes' hline).mp hcolumn
  · intro hlt
    rcases Nat.lt_trichotomy p.line q.line with hline | hline | hline
    · exact .inl hline
    · exact .inr ⟨hline, (hdenotes.lt_iff_of_line_eq hdenotes' hline).mpr hlt⟩
    · have hgt := hq.lt_of_line_lt hp (by omega) hline
      omega

theorem compare_eq (hp : p.CountedFrom (.ofText text) o a)
    (hq : q.CountedFrom (.ofText text) o' b) (ha : a ≤ text.length) (hb : b ≤ text.length)
    (hapart : o = o' ∨ a < o' ∨ b < o) : compare p q = compare a b :=
  compare_eq_compare (hp.lt_iff hq ha hb hapart) (hq.lt_iff hp hb ha (by omega))

end Position.CountedFrom

/-- The attributes of a tag start in different places. -/
theorem Tag.attribute_eq_of_offset_eq {tag : Tag} {attr attr' : Attribute}
    (h : attr ∈ tag.attributes) (h' : attr' ∈ tag.attributes) (heq : attr.offset = attr'.offset) :
    attr = attr' := by
  have hlayout := Attribute.layout_readAll tag.attributeOffset tag.attributeText
  have hoffsets : (tag.attributes.map Attribute.offset).Nodup :=
    List.pairwise_map.mpr (hlayout.in_order.imp fun hlt => hlt.1.ne)
  exact List.inj_on_of_nodup_map hoffsets h h' heq

namespace Place

/-- The piece that the place is in. -/
def piece? : Place → Option Piece
  | document => none
  | stub s => some (.stub s)
  | tag t => some (.tag t)
  | attr t _ => some (.tag t)

/-- A place starts inside its piece, and unless it is placed precisely it is counted from there. -/
structure StartsIn (place : Place) (piece : Piece) : Prop where
  origin_eq : place.origin false place.extent.start = piece.start
  start_le : piece.start ≤ place.extent.start
  start_lt : place.extent.start < piece.stop

variable {text : Text} {scan : Scan} {p q : Place}

theorem of_piece? (hp : p.Of scan) {piece : Piece} (h : p.piece? = some piece) :
    piece.Of scan := by
  cases p with
  | document => cases h
  | stub s =>
    cases h
    exact hp
  | tag t =>
    cases h
    exact hp
  | attr t a =>
    cases h
    exact hp.1

theorem startsIn_piece? (hscan : Scan.ofText text = .ok scan) (hp : p.Of scan) {piece : Piece}
    (h : p.piece? = some piece) : p.StartsIn piece := by
  have hlt := Piece.start_lt_stop hscan (of_piece? hp h)
  cases p with
  | document => cases h
  | stub s =>
    cases h
    exact ⟨rfl, le_rfl, hlt⟩
  | tag t =>
    cases h
    exact ⟨rfl, le_rfl, hlt⟩
  | attr t a =>
    cases h
    have hstop := Tag.attribute_stop_lt hp.2
    refine ⟨rfl, Nat.le_add_right _ _, ?_⟩
    show t.start.toNat + a.offset < t.start.toNat + t.raw.length
    omega

theorem eq_document_of_piece? (h : p.piece? = none) : p = document := by
  cases p with
  | document => rfl
  | _ => cases h

/-- **No place starts between another and what that is counted from.** -/
theorem start_apart (hscan : Scan.ofText text = .ok scan) (hp : p.Of scan) (hq : q.Of scan)
    (precise : Bool) :
    p.origin precise p.extent.start = q.origin precise q.extent.start ∨
      p.extent.start < q.origin precise q.extent.start ∨
      q.extent.start < p.origin precise p.extent.start := by
  cases precise with
  | true =>
    have hwhole : ∀ place : Place, ∀ offset, place.origin true offset = offset := by
      rintro (_ | _ | _ | _) offset <;> rfl
    rw [hwhole, hwhole]
    omega
  | false =>
    cases hpiece : p.piece? with
    | none =>
      obtain rfl := eq_document_of_piece? hpiece
      show 0 = _ ∨ 0 < _ ∨ _
      omega
    | some piece =>
      have hin := startsIn_piece? hscan hp hpiece
      cases hpiece' : q.piece? with
      | none =>
        obtain rfl := eq_document_of_piece? hpiece'
        show _ = 0 ∨ _ ∨ 0 < _
        omega
      | some piece' =>
        have hin' := startsIn_piece? hscan hq hpiece'
        rw [hin.origin_eq, hin'.origin_eq]
        rcases Piece.apart hscan (of_piece? hp hpiece) (of_piece? hq hpiece') with rfl | hle | hle
        · exact .inl rfl
        · exact .inr (.inl (hin.start_lt.trans_le hle))
        · exact .inr (.inr (hin'.start_lt.trans_le hle))

/-- Places of one piece that start together are the same. -/
theorem eq_of_piece?_eq (hp : p.Of scan) (hq : q.Of scan) {piece : Piece}
    (h : p.piece? = some piece) (h' : q.piece? = some piece)
    (hstart : p.extent.start = q.extent.start) : p = q := by
  cases p with
  | document => cases h
  | stub s =>
    cases h
    cases q <;> cases h'
    rfl
  | tag t =>
    cases h
    cases q with
    | tag t' =>
      cases h'
      rfl
    | attr t' a' =>
      cases h'
      have hpos := Tag.attribute_offset_pos hq.2
      simp only [extent] at hstart
      omega
    | _ => cases h'
  | attr t a =>
    cases h
    cases q with
    | tag t' =>
      cases h'
      have hpos := Tag.attribute_offset_pos hp.2
      simp only [extent] at hstart
      omega
    | attr t' a' =>
      cases h'
      rw [Tag.attribute_eq_of_offset_eq hp.2 hq.2 (Nat.add_left_cancel hstart)]
    | _ => cases h'

/-- Nothing but the document as a whole starts where something else does. -/
theorem eq_or_eq_document (hscan : Scan.ofText text = .ok scan) (hp : p.Of scan) (hq : q.Of scan)
    (hstart : p.extent.start = q.extent.start) : p = q ∨ p = document ∨ q = document := by
  cases hpiece : p.piece? with
  | none => exact .inr (.inl (eq_document_of_piece? hpiece))
  | some piece =>
    cases hpiece' : q.piece? with
    | none => exact .inr (.inr (eq_document_of_piece? hpiece'))
    | some piece' =>
      have hin := startsIn_piece? hscan hp hpiece
      have hin' := startsIn_piece? hscan hq hpiece'
      have hlt := hin.start_lt
      have hlt' := hin'.start_lt
      have hle := hin.start_le
      have hle' := hin'.start_le
      rcases Piece.apart hscan (of_piece? hp hpiece) (of_piece? hq hpiece') with rfl | hgap | hgap
      · exact .inl (eq_of_piece?_eq hp hq hpiece hpiece' hstart)
      all_goals omega

theorem eq_document_of_stop_eq_zero (hscan : Scan.ofText text = .ok scan) (hp : p.Of scan)
    (h : p.extent.stop = 0) : p = document := by
  cases p with
  | document => rfl
  | stub s =>
    have hlt : (Piece.stub s).start < (Piece.stub s).stop := Piece.start_lt_stop hscan hp
    exact absurd h (Nat.ne_zero_of_lt hlt)
  | tag t =>
    have hlt : (Piece.tag t).start < (Piece.tag t).stop := Piece.start_lt_stop hscan hp
    exact absurd h (Nat.ne_zero_of_lt hlt)
  | attr t a =>
    have hpos := Tag.attribute_offset_pos hp.2
    simp only [extent] at h
    omega

/-- **Different places have different offsets.** -/
theorem eq_of_extent_eq (hscan : Scan.ofText text = .ok scan) (hp : p.Of scan) (hq : q.Of scan)
    (h : p.extent = q.extent) : p = q := by
  rcases eq_or_eq_document hscan hp hq (congrArg Range.start h) with heq | rfl | rfl
  · exact heq
  · exact (eq_document_of_stop_eq_zero hscan hq (congrArg Range.stop h).symm).symm
  · exact eq_document_of_stop_eq_zero hscan hp (congrArg Range.stop h)

/-- Attributes do not start where the text does, so nothing that does is counted from elsewhere. -/
theorem origin_of_start_eq_zero (hp : p.Of scan) (h : p.extent.start = 0) (precise : Bool)
    (offset : ℕ) : p.origin precise offset = offset := by
  cases p with
  | attr t a =>
    have hpos := Tag.attribute_offset_pos hp.2
    simp only [extent] at h
    omega
  | _ => rfl

/-- Among places that start together, no stop lies between another and what that is counted
from. -/
theorem stop_apart (hscan : Scan.ofText text = .ok scan) (hp : p.Of scan) (hq : q.Of scan)
    (precise : Bool) (hstart : p.extent.start = q.extent.start) :
    p.origin precise p.extent.stop = q.origin precise q.extent.stop ∨
      p.extent.stop < q.origin precise q.extent.stop ∨
      q.extent.stop < p.origin precise p.extent.stop := by
  have hzero : p = q ∨ p.extent.start = 0 := by
    rcases eq_or_eq_document hscan hp hq hstart with heq | rfl | rfl
    · exact .inl heq
    · exact .inr rfl
    · exact .inr hstart
  rcases hzero with rfl | hzero
  · exact .inl rfl
  · rw [origin_of_start_eq_zero hp hzero, origin_of_start_eq_zero hq (hstart ▸ hzero)]
    omega

/-- **Places are in the same order by their spans and by their ranges.** -/
theorem compare_span (hscan : Scan.ofText text = .ok scan) (hp : p.Of scan) (hq : q.Of scan)
    {precise : Bool} {span span' : Span} {range range' : Range}
    (h : p.Resolved scan.table precise span range)
    (h' : q.Resolved scan.table precise span' range') :
    (compare span.start span'.start).then (compare span.stop span'.stop) =
      (compare range.start range'.start).then (compare range.stop range'.stop) := by
  obtain ⟨rfl, hstop, hstart, hend⟩ := h
  obtain ⟨rfl, hstop', hstart', hend'⟩ := h'
  have hle := p.extent.start_le_stop
  have hle' := q.extent.start_le_stop
  rw [Scan.table_of_ofText hscan] at hstop hstart hend hstop' hstart' hend'
  rw [LineTable.length_ofText] at hstop hstop'
  rw [hstart.compare_eq hstart' (hle.trans hstop) (hle'.trans hstop')
    (start_apart hscan hp hq precise)]
  cases hcompare : compare p.extent.start q.extent.start with
  | lt => rfl
  | gt => rfl
  | eq =>
    rw [hend.compare_eq hend' hstop hstop'
      (stop_apart hscan hp hq precise (Nat.compare_eq_eq.mp hcompare))]

end Place

/-! ### Reports -/

/-- The diagnostics are in the same order by their spans and by their ranges, and they differ in
range or code. -/
structure Diagnostic.Apart (d e : Diagnostic) : Prop where
  compare_span : (compare d.span.start e.span.start).then (compare d.span.stop e.span.stop) =
    (compare d.range.start e.range.start).then (compare d.range.stop e.range.stop)
  compareByRange_ne : d.gist.compareByRange e.gist ≠ .eq

namespace Diagnostic.Apart

variable {d e : Diagnostic}

theorem compareByPlace_eq (h : d.Apart e) : d.compareByPlace e = d.gist.compareByRange e.gist := by
  have hthen : d.compareByPlace e =
      (d.gist.compareByRange e.gist).then (compare d.message e.message) := by
    rw [compareByPlace, ← Ordering.then_assoc, ← Ordering.then_assoc, h.compare_span]
    rfl
  rw [hthen]
  cases hcompare : d.gist.compareByRange e.gist with
  | lt => rfl
  | gt => rfl
  | eq => exact absurd hcompare h.compareByRange_ne

theorem span_code_ne (h : d.Apart e) : (d.span, d.code) ≠ (e.span, e.code) := by
  intro heq
  obtain ⟨hspan, hcode⟩ := Prod.mk.inj heq
  have hcompare := h.compare_span
  rw [hspan, Std.ReflOrd.compare_self, Std.ReflOrd.compare_self] at hcompare
  obtain ⟨hstart, hstop⟩ := Ordering.then_eq_eq.mp hcompare.symm
  refine h.compareByRange_ne (Gist.compareByRange_eq_eq_iff.mpr ⟨?_, hcode⟩)
  exact Range.eq_iff.mpr ⟨Nat.compare_eq_eq.mp hstart, Nat.compare_eq_eq.mp hstop⟩

theorem symm (h : d.Apart e) : e.Apart d := by
  refine ⟨?_, fun heq => h.compareByRange_ne ?_⟩
  · have hswap := congrArg Ordering.swap h.compare_span
    rwa [Ordering.swap_then, Ordering.swap_then, ← Std.OrientedOrd.eq_swap,
      ← Std.OrientedOrd.eq_swap, ← Std.OrientedOrd.eq_swap, ← Std.OrientedOrd.eq_swap] at hswap
  · have ⟨hrange, hcode⟩ := Gist.compareByRange_eq_eq_iff.mp heq
    exact Gist.compareByRange_eq_eq_iff.mpr ⟨hrange.symm, hcode.symm⟩

end Diagnostic.Apart

namespace Report

variable {report other : List Diagnostic}

theorem sorted_perm (report : List Diagnostic) : (sorted report).Perm report :=
  List.mergeSort_perm _ _

theorem isLE_trans (d e f : Diagnostic) (hde : (d.compareByPlace e).isLE)
    (hef : (e.compareByPlace f).isLE) : (d.compareByPlace f).isLE :=
  Std.TransCmp.isLE_trans hde hef

theorem isLE_total (d e : Diagnostic) :
    (d.compareByPlace e).isLE || (e.compareByPlace d).isLE := by
  have hswap : e.compareByPlace d = (d.compareByPlace e).swap := Std.OrientedCmp.eq_swap
  rw [hswap]
  cases d.compareByPlace e <;> rfl

theorem pairwise_sorted (report : List Diagnostic) :
    (sorted report).Pairwise fun d e => (d.compareByPlace e).isLE :=
  List.pairwise_mergeSort isLE_trans isLE_total report

theorem pairwise_apart_sorted (h : report.Pairwise Diagnostic.Apart) :
    (sorted report).Pairwise Diagnostic.Apart :=
  ((sorted_perm report).pairwise_iff Diagnostic.Apart.symm).mpr h

/-- Put in order by its spans, a report is in order by its ranges as well. -/
theorem pairwise_precedes (h : report.Pairwise Diagnostic.Apart) :
    ((sorted report).map Diagnostic.gist).Pairwise Gist.Precedes := by
  rw [List.pairwise_map]
  refine ((pairwise_sorted report).and (pairwise_apart_sorted h)).imp ?_
  rintro d e ⟨hle, hapart⟩
  rw [hapart.compareByPlace_eq] at hle
  rw [← Gist.compareByRange_eq_lt_iff]
  exact (Ordering.isLE_iff_eq_lt_or_eq_eq.mp hle).resolve_right hapart.compareByRange_ne

/-- There is one way to put such a report in order. -/
theorem sorted_eq_of_perm (h : report.Pairwise Diagnostic.Apart) (hperm : other.Perm report) :
    sorted other = sorted report := by
  have hsymm : Std.Symm Diagnostic.Apart := ⟨fun _ _ => Diagnostic.Apart.symm⟩
  have hsorted : (sorted other).Perm (sorted report) :=
    (sorted_perm other).trans (hperm.trans (sorted_perm report).symm)
  refine hsorted.eq_of_pairwise (fun d e hd he hle hge => ?_) (pairwise_sorted other)
    (pairwise_sorted report)
  by_contra hne
  have hapart := (pairwise_apart_sorted h).forall (hsorted.mem_iff.mp hd) he hne
  have hcompare : d.compareByPlace e = .eq := Std.OrientedCmp.isLE_antisymm hle hge
  exact hapart.compareByRange_ne (hapart.compareByPlace_eq ▸ hcompare)

/-- Reports with the same gists are put into the same order. -/
theorem sorted_gists_eq (h : report.Pairwise Diagnostic.Apart)
    (h' : other.Pairwise Diagnostic.Apart)
    (hgists : other.map Diagnostic.gist = report.map Diagnostic.gist) :
    (sorted other).map Diagnostic.gist = (sorted report).map Diagnostic.gist := by
  have hperm : ((sorted other).map Diagnostic.gist).Perm ((sorted report).map Diagnostic.gist) :=
    ((sorted_perm other).map _).trans (hgists ▸ ((sorted_perm report).map _).symm)
  exact hperm.eq_of_pairwise (fun g g' _ _ hlt hgt => absurd hgt hlt.asymm) (pairwise_precedes h')
    (pairwise_precedes h)

/-- The report can be put in order in one way only, by its spans and by its ranges alike. -/
structure Canonical (report : List Diagnostic) : Prop where
  /-- Nothing is lost when it is put in order. -/
  perm : (sorted report).Perm report
  /-- No two diagnostics share span and code. -/
  distinct : report.Pairwise fun d e => (d.span, d.code) ≠ (e.span, e.code)
  /-- The order they are found in does not matter. -/
  sorted_eq_of_perm : ∀ other : List Diagnostic, other.Perm report → sorted other = sorted report
  /-- In order, they come strictly one behind the other by range and code. -/
  increasing : ((sorted report).map Diagnostic.gist).Pairwise Gist.Precedes

end Report

namespace Lint

theorem apart_validate (text : Text) (options : Options) :
    (validate text options).Pairwise Diagnostic.Apart := by
  obtain ⟨scan, hscan, -⟩ := Scan.exists_ofText text
  have hreading := Scan.reading_of_ofText hscan
  have hstubs : scan.stubs.Nodup := hreading.stubs_pairwise.imp fun hlt heq => by
    rw [heq] at hlt
    omega
  have hkeys := Scan.pairwise_key_notices hreading.inOrder.nodup hstubs options.checkUnquoted
  refine pairwise_of_forall₂ (reports_validate hscan options) hkeys
    fun {notice later d e} hnotice hlater hd he hne => ?_
  obtain ⟨hresolve, hsaid⟩ := Notice.diagnostic_eq_ok_iff.mp hd
  obtain ⟨hresolve', hsaid'⟩ := Notice.diagnostic_eq_ok_iff.mp he
  have hplace := Scan.place_of_mem_notices hnotice
  have hplace' := Scan.place_of_mem_notices hlater
  have hresolved := Place.resolved hscan hplace hresolve
  have hresolved' := Place.resolved hscan hplace' hresolve'
  refine ⟨Place.compare_span hscan hplace hplace' hresolved hresolved', fun heq => hne ?_⟩
  obtain ⟨hrange, hcode⟩ := Gist.compareByRange_eq_eq_iff.mp heq
  have hextent : notice.place.extent = later.place.extent := by
    rw [← hresolved.range_eq, ← hresolved'.range_eq]
    exact hrange
  rw [Notice.key, Notice.key, Place.eq_of_extent_eq hscan hplace hplace' hextent, ← hsaid.code_eq,
    ← hsaid'.code_eq]
  exact congrArg _ hcode

/-- What is shown of a place depends on the options, but the gists do not. -/
theorem gists_validate (text : Text) {options options' : Options}
    (h : options.checkUnquoted = options'.checkUnquoted) :
    (validate text options).map Diagnostic.gist = (validate text options').map Diagnostic.gist := by
  obtain ⟨scan, hscan, -⟩ := Scan.exists_ofText text
  have hreports' := reports_validate hscan options'
  rw [← h] at hreports'
  rw [← List.forall₂_eq_eq_eq, List.forall₂_map_left_iff, List.forall₂_map_right_iff]
  refine forall₂_of_common (reports_validate hscan options) hreports'
    fun {notice d e} hnotice hd he => ?_
  obtain ⟨hresolve, hsaid⟩ := Notice.diagnostic_eq_ok_iff.mp hd
  obtain ⟨hresolve', hsaid'⟩ := Notice.diagnostic_eq_ok_iff.mp he
  have hplace := Scan.place_of_mem_notices hnotice
  have hmessage : d.message = e.message :=
    Except.ok.inj (hsaid.message_eq.symm.trans hsaid'.message_eq)
  rw [Diagnostic.gist, Diagnostic.gist, hsaid.code_eq, hsaid'.code_eq, hmessage,
    (Place.resolved hscan hplace hresolve).range_eq,
    (Place.resolved hscan hplace hresolve').range_eq]

/-- **There is one way to put the report of a run in order**, and neither the mode nor the way
attributes are placed has a say in it. -/
theorem validate_canonical (text : Text) (options : Options) :
    Report.Canonical (validate text options) ∧ ∀ (mode : Mode) (precise : Bool),
      (Report.sorted (validate text
          { options with mode := mode, precisePositions := precise })).map Diagnostic.gist =
        (Report.sorted (validate text options)).map Diagnostic.gist := by
  have hapart := apart_validate text options
  refine ⟨⟨Report.sorted_perm _, hapart.imp Diagnostic.Apart.span_code_ne, fun other hperm => ?_,
    Report.pairwise_precedes hapart⟩, fun mode precise => ?_⟩
  · exact Report.sorted_eq_of_perm hapart hperm
  · exact Report.sorted_gists_eq hapart (apart_validate text _) (gists_validate text rfl)

end Lint

end MarkupLint

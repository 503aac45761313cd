import MarkupLint.Proofs.Concatenation
import MarkupLint.Proofs.ReportedPlaces
import MarkupLint.Proofs.Walk

/-!
# Findings of texts one behind the other

Where a tag ends, a document can be cut in two, and what is found at the tags of the whole is what
is found in the two parts. The findings of the second part have to be moved: their ranges by the
length of the first part, and their spans to the corner where it ends. Lines that come later start
at the left again, so only on the first line of the second part do columns change.

A position is counted from some offset of the text, its own or that of a tag. It is enough to know
how the position of that offset moves, since all that is counted from it moves along. This holds for
both ways of placing attributes, even where a column runs past the end of its line.

What the rules look for splits in the same way: all of them look at one tag at a time, except for
the check of the nesting. That one looks at what is open in front, so the first part has to leave
nothing open.

## Main results

* `LineTable.locate_append_left`, `LineTable.locate_append_right` — positions in a text of two parts
* `Scan.Joined.diagnostic_first`, `Scan.Joined.diagnostic_second` — the same notice in one of the
  parts and in the whole
* `Scan.Joined.adds` — a rule that looks for the same things in the whole and in its parts
* `Rule.check_append_of_settled` — what the rules report on a text of two parts
-/

namespace MarkupLint

/-! ### Positions behind a text -/

namespace Position

/-- A position is known by its line and its column. -/
theorem eq_of_line_of_column {p q : Position} (hline : p.line = q.line)
    (hcolumn : p.column = q.column) : p = q := by
  cases p
  cases q
  rw [Position.mk.injEq]
  exact ⟨hline, hcolumn⟩

/-- The position `p` of a text that starts at `corner` instead of at the origin. Only its first line
has something in front of it. -/
def behind (corner p : Position) : Position :=
  if p.line = 1 then
    ⟨corner.line, corner.column + p.column - 1, corner.one_le_line, by
      have hcorner := corner.one_le_column
      have hp := p.one_le_column
      omega⟩
  else
    ⟨corner.line + p.line - 1, p.column, by
      have hcorner := corner.one_le_line
      have hp := p.one_le_line
      omega, p.one_le_column⟩

theorem line_behind (corner p : Position) :
    (corner.behind p).line = corner.line + p.line - 1 := by
  unfold behind
  split
  · next h => rw [h, Nat.add_sub_cancel]
  · rfl

theorem column_behind (corner p : Position) :
    (corner.behind p).column = if p.line = 1 then corner.column + p.column - 1 else p.column := by
  unfold behind
  split <;> rfl

/-- Positions keep their order. -/
theorem lt_of_behind_lt_behind {corner p q : Position} (h : corner.behind p < corner.behind q) :
    p < q := by
  have hp := p.one_le_line
  have hq := q.one_le_line
  rcases h with hline | ⟨hline, hcolumn⟩
  · rw [line_behind, line_behind] at hline
    exact .inl (by omega)
  · rw [line_behind, line_behind] at hline
    obtain heq : p.line = q.line := by omega
    rw [column_behind, column_behind, heq] at hcolumn
    refine .inr ⟨heq, ?_⟩
    split at hcolumn
    · omega
    · exact hcolumn

end Position

/-- The span of a text that starts at `corner` instead of at the origin. -/
def Span.behind (corner : Position) (span : Span) : Span where
  start := corner.behind span.start
  stop := corner.behind span.stop
  start_le_stop := fun h => span.start_le_stop (Position.lt_of_behind_lt_behind h)

/-- The diagnostic on a text that starts at an offset and a position other than the first. -/
def Diagnostic.behind (offset : ℕ) (corner : Position) (d : Diagnostic) : Diagnostic :=
  { d with span := d.span.behind corner, range := d.range.shift offset }

namespace LineTable

/-- The last line of two texts together is that of the second, unless that has one line only. -/
theorem length_rtakeWhile_append (front text : Text) :
    ((front ++ text).rtakeWhile (· != '\n')).length =
      (text.rtakeWhile (· != '\n')).length +
        if text.count '\n' = 0 then (front.rtakeWhile (· != '\n')).length else 0 := by
  induction text using List.reverseRecOn with
  | nil => simp
  | append_singleton text c ih =>
    rw [← List.append_assoc, List.rtakeWhile_concat, List.rtakeWhile_concat]
    by_cases hc : c = '\n'
    · simp [hc]
    · simp [hc, ih, Nat.add_right_comm]

/-- What comes behind an offset does not matter to its position. -/
theorem locate_append_left {front : Text} {offset : ℕ} (h : offset ≤ front.length) (back : Text) :
    (ofText (front ++ back)).locate offset = (ofText front).locate offset := by
  have hle : offset ≤ (front ++ back).length := by
    rw [List.length_append]
    exact h.trans (Nat.le_add_right _ _)
  apply Position.eq_of_line_of_column
  · rw [line_locate hle, line_locate h, List.take_append_of_le_length h]
  · rw [column_locate hle, column_locate h, List.take_append_of_le_length h]

/-- **Behind a text** positions are counted from where it ends. -/
theorem locate_append_right (front : Text) {back : Text} {offset : ℕ} (h : offset ≤ back.length) :
    (ofText (front ++ back)).locate (offset + front.length) =
      ((ofText front).locate front.length).behind ((ofText back).locate offset) := by
  have hle : offset + front.length ≤ (front ++ back).length := by
    rw [List.length_append]
    omega
  have htake : (front ++ back).take (offset + front.length) = front ++ back.take offset := by
    rw [Nat.add_comm, List.take_length_add_append]
  apply Position.eq_of_line_of_column
  · rw [Position.line_behind, line_locate hle, line_locate le_rfl, line_locate h, htake,
      List.take_length, List.count_append]
    omega
  · rw [Position.column_behind, column_locate hle, column_locate le_rfl, line_locate h,
      column_locate h, htake, List.take_length, length_rtakeWhile_append]
    split <;> split <;> omega

end LineTable

/-! ### Places behind a text -/

namespace Position.CountedFrom

variable {p q : Position} {table table' : LineTable} {origin offset : ℕ}

/-- Positions that are counted alike are the same. -/
theorem eq_of_locate_eq (hp : p.CountedFrom table origin offset)
    (hq : q.CountedFrom table' origin offset) (h : table'.locate origin = table.locate origin) :
    q = p := by
  apply eq_of_line_of_column
  · rw [hq.line_eq, hp.line_eq, h]
  · rw [hq.column_eq, hp.column_eq, h]

/-- Behind a corner, positions are counted on as they are at the origin. -/
theorem eq_behind {n : ℕ} {corner : Position} (hp : p.CountedFrom table origin offset)
    (hq : q.CountedFrom table' (origin + n) (offset + n))
    (h : table'.locate (origin + n) = corner.behind (table.locate origin)) :
    q = corner.behind p := by
  apply eq_of_line_of_column
  · rw [hq.line_eq, h, line_behind, line_behind, hp.line_eq]
  · have hone := (table.locate origin).one_le_column
    have hle := hp.origin_le
    rw [hq.column_eq, h, column_behind, column_behind, hp.line_eq, hp.column_eq,
      Nat.add_sub_add_right]
    split <;> omega

end Position.CountedFrom

theorem Span.eq_of_start_of_stop {s t : Span} (hstart : s.start = t.start)
    (hstop : s.stop = t.stop) : s = t := by
  cases s
  cases t
  rw [Span.mk.injEq]
  exact ⟨hstart, hstop⟩

/-- What a notice says does not depend on where it is. -/
theorem Notice.Says.eq_withPlace {notice notice' : Notice} {d e : Diagnostic} (hd : notice.Says d)
    (he : notice'.Says e) (hfinding : notice'.finding = notice.finding)
    (hfields : notice'.fields = notice.fields) :
    e = { d with span := e.span, range := e.range } := by
  have hmessage := he.message_eq
  have hhint := he.hint_eq
  rw [hfinding, hfields] at hmessage hhint
  have hmessage := Except.ok.inj (hmessage.symm.trans hd.message_eq)
  have hhint := Except.ok.inj (hhint.symm.trans hd.hint_eq)
  rw [← hmessage, ← hhint, hd.code_eq, hd.kind_eq, hd.severity_eq, hd.category_eq, ← hfinding,
    ← he.code_eq, ← he.kind_eq, ← he.severity_eq, ← he.category_eq]

namespace Place

/-- The place that lies `n` offsets further on. -/
def shift (n : ℕ) : Place → Place
  | document => document
  | stub s => stub (s.shift n)
  | tag t => tag (t.shift n)
  | attr t a => attr (t.shift n) a

/-- The offsets of a place move with it, and so do those that its positions are counted from. -/
theorem extent_shift {text : Text} {scan : Scan} (hscan : Scan.ofText text = .ok scan)
    {place : Place} (hplace : place.Of scan) (hne : place ≠ document) (n : ℕ) :
    (place.shift n).extent = place.extent.shift n ∧ ∀ precise offset,
      (place.shift n).origin precise (offset + n) = place.origin precise offset + n := by
  cases place with
  | document => exact absurd rfl hne
  | stub s => exact ⟨s.range_shift n, fun _ _ => rfl⟩
  | tag t =>
    have hstart := (Scan.inside_of_ofText hscan hplace).1
    refine ⟨?_, fun _ _ => rfl⟩
    simp only [shift, Tag.shift, extent, Range.shift, Range.mk.injEq]
    omega
  | attr t a =>
    have hstart := (Scan.inside_of_ofText hscan hplace.1).1
    refine ⟨?_, ?_⟩
    · simp only [shift, Tag.shift, extent, Range.shift, Range.mk.injEq]
      omega
    · intro precise offset
      simp only [shift, Tag.shift, origin]
      split
      · rfl
      · omega

end Place

/-- The notice about the same thing, `n` offsets further on. -/
def Notice.shift (n : ℕ) (notice : Notice) : Notice := { notice with place := notice.place.shift n }

/-- The scans of two texts and of both together, the first of which ends with a tag. -/
structure Scan.Joined (front back : Text) (first second whole : Scan) : Prop where
  first_eq : ofText front = .ok first
  second_eq : ofText back = .ok second
  whole_eq : ofText (front ++ back) = .ok whole
  stubs_first : first.stubs = []
  tags_whole : whole.tags = first.tags ++ second.tags.map (Tag.shift front.length)
  stubs_whole : whole.stubs = second.stubs.map (Stub.shift front.length)

theorem Scan.exists_joined {front : Text} (h : Settled front) (back : Text) :
    ∃ first second whole, Joined front back first second whole := by
  obtain ⟨first, hfirst, -⟩ := exists_ofText front
  obtain ⟨second, hsecond, -⟩ := exists_ofText back
  obtain ⟨whole, hwhole, -⟩ := exists_ofText (front ++ back)
  obtain ⟨htags, hstubs⟩ := parts_append h hfirst hsecond hwhole
  exact ⟨first, second, whole, hfirst, hsecond, hwhole,
    (reading_of_ofText hfirst).stubs_eq_nil h, htags, hstubs⟩

namespace Scan.Joined

variable {front back : Text} {first second whole : Scan}

/-- A place of the front is a place of the whole. -/
theorem of_first (h : Joined front back first second whole) {place : Place}
    (hplace : place.Of first) : place.Of whole := by
  have hmem : ∀ t ∈ first.tags, t ∈ whole.tags := by
    intro t ht
    rw [h.tags_whole]
    exact List.mem_append_left _ ht
  cases place with
  | document => trivial
  | stub s =>
    have hstub : s ∈ first.stubs := hplace
    rw [h.stubs_first] at hstub
    cases hstub
  | tag t => exact hmem t hplace
  | attr t a => exact ⟨hmem t hplace.1, hplace.2⟩

/-- A place of the back, moved behind the front, is a place of the whole. -/
theorem of_second (h : Joined front back first second whole) {place : Place}
    (hplace : place.Of second) : (place.shift front.length).Of whole := by
  have hmem : ∀ t ∈ second.tags, t.shift front.length ∈ whole.tags := by
    intro t ht
    rw [h.tags_whole]
    exact List.mem_append_right _ (List.mem_map_of_mem ht)
  cases place with
  | document => trivial
  | stub s =>
    show s.shift front.length ∈ whole.stubs
    rw [h.stubs_whole]
    exact List.mem_map_of_mem hplace
  | tag t => exact hmem t hplace
  | attr t a => exact ⟨hmem t hplace.1, hplace.2⟩

/-- **What is reported on the front** is reported on the whole as it is. -/
theorem diagnostic_first (h : Joined front back first second whole) {notice : Notice}
    (hplace : notice.place.Of first) {precise : Bool} {d e : Diagnostic}
    (hd : notice.diagnostic first.table precise = .ok d)
    (he : notice.diagnostic whole.table precise = .ok e) : e = d := by
  obtain ⟨hresolve, hsaid⟩ := Notice.diagnostic_eq_ok_iff.mp hd
  obtain ⟨hresolve', hsaid'⟩ := Notice.diagnostic_eq_ok_iff.mp he
  have hd := Place.resolved h.first_eq hplace hresolve
  have he := Place.resolved h.whole_eq (h.of_first hplace) hresolve'
  have hrange : e.range = d.range := he.range_eq.trans hd.range_eq.symm
  rw [table_of_ofText h.first_eq] at hd
  rw [table_of_ofText h.whole_eq, hrange] at he
  have hle := d.range.start_le_stop
  have hstop : d.range.stop ≤ front.length := hd.stop_le
  have hspan : e.span = d.span := by
    refine Span.eq_of_start_of_stop (hd.start_counted.eq_of_locate_eq he.start_counted ?_)
      (hd.stop_counted.eq_of_locate_eq he.stop_counted ?_)
    · exact LineTable.locate_append_left (hd.start_counted.origin_le.trans (hle.trans hstop)) back
    · exact LineTable.locate_append_left (hd.stop_counted.origin_le.trans hstop) back
  rw [hsaid.eq_withPlace hsaid' rfl rfl, hspan, hrange]

/-- **What is reported on the back** is reported on the whole behind the front. -/
theorem diagnostic_second (h : Joined front back first second whole) {notice : Notice}
    (hplace : notice.place.Of second) (hne : notice.place ≠ .document) {precise : Bool}
    {d e : Diagnostic} (hd : notice.diagnostic second.table precise = .ok d)
    (he : (notice.shift front.length).diagnostic whole.table precise = .ok e) :
    e = d.behind front.length ((LineTable.ofText front).locate front.length) := by
  obtain ⟨hresolve, hsaid⟩ := Notice.diagnostic_eq_ok_iff.mp hd
  obtain ⟨hresolve', hsaid'⟩ := Notice.diagnostic_eq_ok_iff.mp he
  obtain ⟨hextent, horigin⟩ := Place.extent_shift h.second_eq hplace hne front.length
  have hd := Place.resolved h.second_eq hplace hresolve
  have he := Place.resolved h.whole_eq (h.of_second hplace) hresolve'
  have hrange : e.range = d.range.shift front.length := by
    rw [he.range_eq, hd.range_eq]
    exact hextent
  rw [table_of_ofText h.second_eq] at hd
  rw [table_of_ofText h.whole_eq, hrange] at he
  have hle := d.range.start_le_stop
  have hstop : d.range.stop ≤ back.length := hd.stop_le
  have hstart := he.start_counted
  have hstop' := he.stop_counted
  simp only [Range.shift, horigin] at hstart hstop'
  have hspan : e.span =
      d.span.behind ((LineTable.ofText front).locate front.length) := by
    refine Span.eq_of_start_of_stop (hd.start_counted.eq_behind hstart ?_)
      (hd.stop_counted.eq_behind hstop' ?_)
    · exact LineTable.locate_append_right front (hd.start_counted.origin_le.trans (hle.trans hstop))
    · exact LineTable.locate_append_right front (hd.stop_counted.origin_le.trans hstop)
  rw [hsaid.eq_withPlace hsaid' rfl rfl, hspan, hrange]
  rfl

end Scan.Joined

/-! ### What the rules look for -/

theorem Tag.attributeNotices_shift (n : ℕ) (tag : Tag) (unquoted : Bool) :
    (tag.shift n).attributeNotices unquoted =
      (tag.attributeNotices unquoted).map (Notice.shift n) := by
  rw [attributeNotices, attributeNotices, List.map_map]
  rfl

/-- The notice is about a tag, an attribute or a tag start of the scan. -/
def Notice.AtTag (scan : Scan) (notice : Notice) : Prop :=
  notice.place.Of scan ∧ notice.place ≠ .document

namespace Scan

variable {scan : Scan}

theorem atTag_of_mem_stubNotices : ∀ notice ∈ scan.stubNotices, notice.AtTag scan := by
  intro notice h
  obtain ⟨stub, hstub, rfl⟩ := List.mem_map.mp h
  exact ⟨hstub, by rintro ⟨⟩⟩

theorem atTag_of_mem_attributeNotices {unquoted : Bool} :
    ∀ notice ∈ (scan.openingTags []).flatMap (·.attributeNotices unquoted),
      notice.AtTag scan := by
  intro notice h
  obtain ⟨tag, htag, h⟩ := List.mem_flatMap.mp h
  obtain ⟨found, hfound, rfl⟩ := List.mem_map.mp h
  exact ⟨⟨mem_tags_of_mem_openingTags htag, (Tag.mem_of_mem_attributeFindings hfound).2⟩,
    by rintro ⟨⟩⟩

theorem atTag_of_mem_accessibilityNotices :
    ∀ notice ∈ scan.accessibilityNotices, notice.AtTag scan := by
  intro notice h
  obtain ⟨tag, htag, h⟩ := List.mem_filterMap.mp h
  obtain ⟨finding, -, rfl⟩ := Option.map_eq_some_iff.mp h
  exact ⟨mem_tags_of_mem_openingTags htag, by rintro ⟨⟩⟩

theorem atTag_of_mem_verdicts :
    ∀ notice ∈ (Nesting.verdicts scan.tags).map Nesting.Verdict.notice, notice.AtTag scan := by
  intro notice h
  obtain ⟨verdict, hverdict, rfl⟩ := List.mem_map.mp h
  exact ⟨Nesting.tag_mem_of_mem_verdicts hverdict, by rintro ⟨⟩⟩

end Scan

namespace Scan.Joined

variable {front back : Text} {first second whole : Scan}

/-- A list of notices on the whole that are those on the front and, moved, those on the back. -/
theorem reports_append (h : Joined front back first second whole) {precise : Bool}
    {notices later : List Notice} {ds es fs : List Diagnostic}
    (hnotices : ∀ notice ∈ notices, notice.AtTag first)
    (hlater : ∀ notice ∈ later, notice.AtTag second)
    (hds : first.Reports precise notices ds) (hes : second.Reports precise later es)
    (hfs : whole.Reports precise (notices ++ later.map (Notice.shift front.length)) fs) :
    fs = ds ++ es.map (.behind front.length ((LineTable.ofText front).locate front.length)) := by
  have hsplit := mapM_eq_ok_iff.mpr hfs
  rw [List.mapM_append] at hsplit
  obtain ⟨fs₁, hfs₁, hsplit⟩ := bind_eq_ok_iff.mp hsplit
  obtain ⟨fs₂, hfs₂, heq⟩ := bind_eq_ok_iff.mp hsplit
  cases heq
  rw [mapM_eq_ok_iff] at hfs₁ hfs₂
  rw [List.forall₂_map_left_iff] at hfs₂
  congr 1
  · rw [← List.forall₂_eq_eq_eq]
    exact forall₂_of_common hfs₁ hds fun hmem he hd => h.diagnostic_first (hnotices _ hmem).1 hd he
  · rw [← List.forall₂_eq_eq_eq, List.forall₂_map_right_iff]
    refine forall₂_of_common hfs₂ hes fun hmem he hd => ?_
    exact h.diagnostic_second (hlater _ hmem).1 (hlater _ hmem).2 hd he

theorem openingTags_eq (h : Joined front back first second whole) (names : List String) :
    whole.openingTags names =
      first.openingTags names ++ (second.openingTags names).map (Tag.shift front.length) := by
  rw [openingTags, h.tags_whole, List.filter_append, List.filter_map]
  rfl

theorem stubNotices_eq (h : Joined front back first second whole) :
    whole.stubNotices =
      first.stubNotices ++ second.stubNotices.map (Notice.shift front.length) := by
  rw [stubNotices, stubNotices, stubNotices, h.stubs_first, h.stubs_whole, List.map_nil,
    List.nil_append, List.map_map, List.map_map]
  rfl

theorem diagnostics_first (h : Joined front back first second whole) : first.diagnostics = [] := by
  have hranges := ranges_of_ofText h.first_eq
  rw [h.stubs_first, List.map_nil] at hranges
  exact List.map_eq_nil_iff.mp hranges

theorem attributeNotices_eq (h : Joined front back first second whole) (unquoted : Bool) :
    (whole.openingTags []).flatMap (·.attributeNotices unquoted) =
      (first.openingTags []).flatMap (·.attributeNotices unquoted) ++
        ((second.openingTags []).flatMap (·.attributeNotices unquoted)).map
          (Notice.shift front.length) := by
  rw [h.openingTags_eq, List.flatMap_append, List.flatMap_map, List.map_flatMap]
  congr 2
  funext tag
  exact tag.attributeNotices_shift front.length unquoted

theorem accessibilityNotices_eq (h : Joined front back first second whole) :
    whole.accessibilityNotices = first.accessibilityNotices ++
      second.accessibilityNotices.map (Notice.shift front.length) := by
  rw [accessibilityNotices, h.openingTags_eq, List.filterMap_append, List.filterMap_map,
    accessibilityNotices, accessibilityNotices, List.map_filterMap]
  congr 2
  funext tag
  rw [Option.map_map]
  rfl

theorem verdictNotices_eq (h : Joined front back first second whole)
    (hclosed : ∀ opener, .unclosed opener ∉ Nesting.verdicts first.tags) :
    (Nesting.verdicts whole.tags).map Nesting.Verdict.notice =
      (Nesting.verdicts first.tags).map Nesting.Verdict.notice ++
        ((Nesting.verdicts second.tags).map Nesting.Verdict.notice).map
          (Notice.shift front.length) := by
  have hmoved : Nesting.verdicts (second.tags.map (Tag.shift front.length)) =
      (Nesting.verdicts second.tags).map (.map (Tag.shift front.length)) :=
    Nesting.verdictsFrom_map (f := Tag.shift front.length) (fun _ => rfl) (fun _ => rfl) []
      second.tags
  rw [h.tags_whole, Nesting.verdicts_append hclosed, hmoved, List.map_append, List.map_map,
    List.map_map]
  congr 2
  funext verdict
  cases verdict <;> rfl

end Scan.Joined

/-! ### Rules -/

/-- On the whole, the rule reports what it reports on the first part and, moved, what it reports on
the second. -/
def Rule.Adds (rule : Rule) (options : Options) (move : Diagnostic → Diagnostic)
    (first second whole : Scan) : Prop :=
  ∃ ds es, rule.check first options = .ok ds ∧ rule.check second options = .ok es ∧
    rule.check whole options = .ok (ds ++ es.map move)

/-- An element that is never closed is reported with its code. -/
theorem Rule.exists_code_of_unclosed_mem {scan : Scan} {options : Options} {ds : List Diagnostic}
    (h : tagBalance.check scan options = .ok ds) {opener : Tag}
    (hmem : .unclosed opener ∈ Nesting.verdicts scan.tags) :
    ∃ d ∈ ds, d.code = "STRUCTURE_UNCLOSED_TAG" := by
  have hreports : scan.Reports false _ ds := Scan.reports_tagBalance h
  obtain ⟨d, hd, hnotice⟩ := exists_mem_of_forall₂ hreports.flip (List.mem_map_of_mem hmem)
  exact ⟨d, hd, (Notice.diagnostic_eq_ok_iff.mp hnotice).2.code_eq⟩

/-- **A rule that looks for the same things** in the whole and in its parts. -/
theorem Scan.Joined.adds {front back : Text} {first second whole : Scan}
    (h : Joined front back first second whole) {rule : Rule} (hrule : rule ∈ Rule.builtin)
    (options : Options) {notices : Scan → List Notice}
    (hreports : ∀ text scan, ofText text = .ok scan → ∀ found, rule.check scan options = .ok found →
      scan.Reports options.precisePositions (notices scan) found)
    (htags : ∀ scan, ∀ notice ∈ notices scan, notice.AtTag scan)
    (hnotices : notices whole = notices first ++ (notices second).map (.shift front.length)) :
    rule.Adds options (.behind front.length ((LineTable.ofText front).locate front.length)) first
      second whole := by
  have hfound : ∀ text scan, ofText text = .ok scan →
      ∃ found, rule.check scan options = .ok found := fun text scan hscan =>
    Rule.exists_check_of_mem_builtin
      (fun tag htag => inside_of_ofText hscan htag) options hrule
  obtain ⟨ds, hds⟩ := hfound front first h.first_eq
  obtain ⟨es, hes⟩ := hfound back second h.second_eq
  obtain ⟨fs, hfs⟩ := hfound (front ++ back) whole h.whole_eq
  have hwhole := hreports _ _ h.whole_eq fs hfs
  rw [hnotices] at hwhole
  have heq := h.reports_append (htags first) (htags second) (hreports _ _ h.first_eq ds hds)
    (hreports _ _ h.second_eq es hes) hwhole
  exact ⟨ds, es, hds, hes, heq ▸ hfs⟩

/-- **What the rules report on a text of two parts**, the first of which is empty or ends with a
tag. -/
theorem Rule.check_append_of_settled (front back : Text) (h : Settled front) (options : Options) :
    ∃ first second whole corner, Scan.ofText front = .ok first ∧ Scan.ofText back = .ok second ∧
      Scan.ofText (front ++ back) = .ok whole ∧
      (LineTable.ofText front).position front.length = .ok corner ∧
      attributeValues.Adds options (.behind front.length corner) first second whole ∧
      accessibility.Adds options (.behind front.length corner) first second whole ∧
      (∃ es, unterminatedTags.check second options = .ok es ∧
        unterminatedTags.check whole options = .ok (es.map (.behind front.length corner))) ∧
      ∃ ds, tagBalance.check first options = .ok ds ∧
        ((∀ d ∈ ds, d.code ≠ "STRUCTURE_UNCLOSED_TAG") →
          tagBalance.Adds options (.behind front.length corner) first second whole) := by
  obtain ⟨first, second, whole, hjoined⟩ := Scan.exists_joined h back
  refine ⟨first, second, whole, (LineTable.ofText front).locate front.length, hjoined.first_eq,
    hjoined.second_eq, hjoined.whole_eq, ?_, ?_, ?_, ?_, ?_⟩
  · exact LineTable.position_of_le (Int.natCast_nonneg _) le_rfl
  · exact hjoined.adds (by simp [builtin]) options
      (fun _ _ _ _ => Scan.reports_attributeValues)
      (fun _ => Scan.atTag_of_mem_attributeNotices)
      (hjoined.attributeNotices_eq options.checkUnquoted)
  · exact hjoined.adds (by simp [builtin]) options (fun _ _ _ _ => Scan.reports_accessibility)
      (fun _ => Scan.atTag_of_mem_accessibilityNotices) hjoined.accessibilityNotices_eq
  · have hadds : unterminatedTags.Adds options
        (.behind front.length ((LineTable.ofText front).locate front.length)) first second
          whole := by
      refine hjoined.adds (by simp [builtin]) options (fun _ _ hscan found hfound => ?_)
        (fun _ => Scan.atTag_of_mem_stubNotices) hjoined.stubNotices_eq
      cases hfound
      exact Scan.reports_stubs hscan
    obtain ⟨ds, es, hds, hes, hwhole⟩ := hadds
    cases hds
    rw [hjoined.diagnostics_first, List.nil_append] at hwhole
    exact ⟨es, hes, hwhole⟩
  · obtain ⟨ds, hds⟩ := exists_check_of_mem_builtin
      (fun tag htag => Scan.inside_of_ofText hjoined.first_eq htag) options
      (show tagBalance ∈ builtin by simp [builtin])
    refine ⟨ds, hds, fun hclosed => ?_⟩
    refine hjoined.adds (by simp [builtin]) options (fun _ _ _ _ => Scan.reports_tagBalance)
      (fun _ => Scan.atTag_of_mem_verdicts) (hjoined.verdictNotices_eq fun opener hmem => ?_)
    obtain ⟨d, hd, hcode⟩ := exists_code_of_unclosed_mem hds hmem
    exact hclosed d hd hcode

/-- A link over two lines and a closing tag that is not expected, and behind them, on the second
line, an image without a source. -/
theorem Rule.check_append_of_settled_link :
    Settled "<a\nid></a></p>".toList ∧
      ∃ first second whole corner, Scan.ofText "<a\nid></a></p>".toList = .ok first ∧
        Scan.ofText "<img src>".toList = .ok second ∧
        Scan.ofText "<a\nid></a></p><img src>".toList = .ok whole ∧
        (corner.line, corner.column) = (2, 12) ∧
        attributeValues.Adds {} (.behind 14 corner) first second whole ∧
        tagBalance.Adds {} (.behind 14 corner) first second whole ∧
        (attributeValues.check whole {}).toOption.map (·.map fun d =>
          (d.span.start.line, d.span.start.column)) = some [(1, 4), (2, 17)] := by
  have hsettled : Settled "<a\nid></a></p>".toList := by decide
  obtain ⟨first, second, whole, corner, hfirst, hsecond, hwhole, hcorner, hattributes, -, -, ds,
    hds, hbalance⟩ := check_append_of_settled "<a\nid></a></p>".toList "<img src>".toList hsettled {}
  have hcodes : (Scan.ofText "<a\nid></a></p>".toList >>= (tagBalance.check · {})).toOption.map
      (·.map Diagnostic.code) = some ["STRUCTURE_UNEXPECTED_CLOSING_TAG"] := by
    decide +kernel
  have hplaces : (Scan.ofText ("<a\nid></a></p>".toList ++ "<img src>".toList) >>=
      (attributeValues.check · {})).toOption.map (·.map fun d =>
        (d.span.start.line, d.span.start.column)) = some [(1, 4), (2, 17)] := by
    decide +kernel
  rw [hfirst] at hcodes
  rw [hwhole] at hplaces
  refine ⟨hsettled, first, second, whole, corner, hfirst, hsecond, hwhole, ?_, hattributes,
    hbalance fun d hd => ?_, hplaces⟩
  · cases hcorner
    rfl
  · have hcodes : ds.map Diagnostic.code = ["STRUCTURE_UNEXPECTED_CLOSING_TAG"] := by
      change (tagBalance.check first {}).toOption.map _ = _ at hcodes
      rw [hds] at hcodes
      exact Option.some.inj hcodes
    have hcode := List.mem_map_of_mem (f := Diagnostic.code) hd
    rw [hcodes, List.mem_singleton] at hcode
    rw [hcode]
    decide

end MarkupLint

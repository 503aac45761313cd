import MarkupLint.Proofs.Reading
import MarkupLint.Proofs.Reporting
import MarkupLint.Tag.Scan

/-!
# What a scan recognises

A scan finds the tags of a text and the tag starts that are never ended. This file says that it
finds them all and nothing else, for every text, and that it always comes to an end with a result.

A text is laid out in tiles: a gap in which no tag starts, a tag, another gap, and so on, with a
rest behind the last tag. Each tag is what its own characters say. In the rest there may be tag
starts, but none of them is ended, and together they are all tag starts of the text that are not. A
tag may well hold further tag starts inside, as in `<a <b>`; those are ended too, by the `>` of the
tag.

## Main results

* `Tag.OccursIn.describes` — a tag is what its characters say
* `Reading.exists_tiling` — gaps, tags and the rest
* `Scan.exists_ofText` — a scan has a result
* `Scan.ofText_recognises` — the scan of a text recognises its tags
-/

namespace MarkupLint

/-! ### Tags and their characters -/

namespace Tag

/-- The tag is what its characters say: a tag start, then characters other than `>`, then a `>`. -/
structure Describes (tag : Tag) (text : Text) (start : TagStart) (inner : Text) : Prop where
  /-- The tag start stands in the text where the tag does. -/
  at_start : ∃ offset : ℕ, tag.start = offset ∧ start.At text offset
  /-- The tag is its start, what is inside, and a `>`. -/
  raw_eq : tag.raw = start.text ++ inner ++ ['>']
  /-- It ends with the first `>`. -/
  gt_notMem : '>' ∉ inner
  /-- Its characters are those of the text. -/
  raw_isPrefix : tag.raw <+: text.drop tag.start.toNat
  /-- The name is the written one in small letters. -/
  name_eq : tag.name = String.ofList (start.written.map Char.toLower)
  /-- It closes an element if it begins with `</`. -/
  closing_iff : tag.isClosing = true ↔ ['<', '/'] <+: tag.raw
  /-- It is marked as self-closing if it ends with `/>`. -/
  slashed_iff : tag.marks.slashed = true ↔ ['/', '>'] <:+ tag.raw
  /-- It is marked as void if its name is that of a void element. -/
  void_iff : tag.marks.void = true ↔ tag.name ∈ Vocabulary.void
  /-- It has no other marks. -/
  others_eq : tag.marks.others = 0

theorem closing_ofStart_iff {start : TagStart} (h : TagStart.IsName start.written) (offset : ℕ)
    (inner : Text) :
    (ofStart offset start inner).isClosing = true ↔
      ['<', '/'] <+: (ofStart offset start inner).raw := by
  obtain ⟨closing, written⟩ := start
  obtain ⟨c, rest, rfl, hc, -⟩ := h
  cases closing with
  | true => exact ⟨fun _ => ⟨_, rfl⟩, fun _ => rfl⟩
  | false =>
    refine ⟨fun hclosing => (by cases hclosing), fun hraw => ?_⟩
    have hslash : '/' = c := (List.cons_prefix_cons.mp (List.cons_prefix_cons.mp hraw).2).1
    rw [← hslash] at hc
    cases hc

theorem slash_gt_isSuffix_iff {text : Text} :
    ['/', '>'] <:+ text ++ ['>'] ↔ text.getLast? = some '/' := by
  constructor
  · rintro ⟨front, h⟩
    have hfront : (front ++ ['/']) ++ ['>'] = text ++ ['>'] := by simpa using h
    rw [← List.append_cancel_right hfront, List.getLast?_concat]
  · intro h
    obtain ⟨front, rfl⟩ := List.getLast?_eq_some_iff.mp h
    exact ⟨front, by simp⟩

theorem slashed_ofStart_iff {start : TagStart} (h : TagStart.IsName start.written) (offset : ℕ)
    (inner : Text) :
    (ofStart offset start inner).marks.slashed = true ↔
      ['/', '>'] <:+ (ofStart offset start inner).raw := by
  show (inner.getLast? == some '/') = true ↔ ['/', '>'] <:+ start.text ++ inner ++ ['>']
  rw [beq_iff_eq, slash_gt_isSuffix_iff, List.getLast?_append]
  cases hlast : inner.getLast? with
  | some c => rfl
  | none =>
    -- then the last character before the `>` is that of the name, and that is no slash
    refine ⟨fun heq => (by cases heq), fun heq => ?_⟩
    have htext : start.text = ('<' :: if start.closing then ['/'] else []) ++ start.written := rfl
    have hwritten : start.written ≠ [] := by
      obtain ⟨c, rest, hname, -, -⟩ := h
      simp [hname]
    rw [Option.none_or, htext, List.getLast?_append_of_ne_nil _ hwritten] at heq
    exact absurd (h.isAlphanum (List.mem_of_getLast? heq)) (by decide)

theorem OccursIn.describes {tag : Tag} {text : Text} (h : tag.OccursIn text) :
    ∃ start inner, tag.Describes text start inner := by
  obtain ⟨offset, start, inner, after, rfl, hinner, hbegins⟩ := h
  refine ⟨start, inner, ⟨offset, rfl, _, hbegins⟩, rfl, hinner, ⟨after, ?_⟩, rfl,
    closing_ofStart_iff hbegins.isName offset inner,
    slashed_ofStart_iff hbegins.isName offset inner, List.contains_iff_mem, rfl⟩
  simp [ofStart, hbegins.text_eq]

/-- A tag of a text lies inside it. -/
theorem OccursIn.stop_le {tag : Tag} {text : Text} (h : tag.OccursIn text) :
    0 ≤ tag.start ∧ tag.stop ≤ text.length := by
  obtain ⟨offset, start, inner, after, rfl, -, hbegins⟩ := h
  have hlength := congrArg List.length hbegins.text_eq
  simp only [List.length_drop, List.length_append, List.length_cons] at hlength
  simp only [stop, ofStart, List.length_append, List.length_singleton]
  omega

/-- The last character of a tag is a `>`. -/
theorem OccursIn.getElem?_eq {tag : Tag} {text : Text} (h : tag.OccursIn text) :
    ∃ i : ℕ, tag.stop = i + 1 ∧ text[i]? = some '>' := by
  obtain ⟨offset, start, inner, after, rfl, -, hbegins⟩ := h
  refine ⟨offset + (start.text ++ inner).length, ?_, ?_⟩
  · simp only [stop, ofStart, List.length_append, List.length_singleton]
    omega
  · rw [← List.getElem?_drop, hbegins.text_eq, ← List.append_assoc,
      List.getElem?_append_right (Nat.le_refl _)]
    simp

end Tag

/-! ### Gaps, tags and the rest -/

/-- A tag with what stands between it and the tag before it. -/
structure Tile where
  /-- What stands in front of the tag. -/
  gap : Text
  /-- The tag. -/
  tag : Tag

/-- The text that tiles make up, one behind the other. -/
def Tile.cover (tiles : List Tile) : Text := tiles.flatMap fun tile => tile.gap ++ tile.tag.raw

/-- The text, which starts at `offset`, is laid out in tiles, with `rest` behind them. -/
structure Tiling (offset : ℕ) (text : Text) (tiles : List Tile) (rest : Text) : Prop where
  /-- The text is made up of the tiles and the rest. -/
  text_eq : text = Tile.cover tiles ++ rest
  /-- Each tag starts where it stands. -/
  start_eq : ∀ before tile after, tiles = before ++ tile :: after →
    tile.tag.start = ↑(offset + (Tile.cover before).length + tile.gap.length)
  /-- No tag starts in a gap. -/
  gap_quiet : ∀ before tile after, tiles = before ++ tile :: after → ∀ i < tile.gap.length,
    ∀ start : TagStart, ¬ start.At text ((Tile.cover before).length + i)
  /-- The tag starts in the rest are never ended. -/
  rest_unended : ∀ i, (Tile.cover tiles).length ≤ i → ∀ start : TagStart, start.At text i →
    start.Unended text i

theorem Tiling.nil {offset : ℕ} {text : Text}
    (h : ∀ i, ∀ start : TagStart, start.At text i → start.Unended text i) :
    Tiling offset text [] text where
  text_eq := rfl
  start_eq before tile after heq := by simp at heq
  gap_quiet before tile after heq := by simp at heq
  rest_unended i _ := h i

theorem Tiling.cons {offset : ℕ} {gap text rest : Text} {tag : Tag} {tiles : List Tile}
    (h : Tiling (offset + gap.length + tag.raw.length) text tiles rest)
    (hstart : tag.start = ↑(offset + gap.length))
    (hquiet : Quiet (gap ++ (tag.raw ++ text)) gap.length) :
    Tiling offset (gap ++ (tag.raw ++ text)) (⟨gap, tag⟩ :: tiles) rest := by
  have hcover : ∀ before, Tile.cover (⟨gap, tag⟩ :: before) = gap ++ tag.raw ++ Tile.cover before :=
    fun before => rfl
  refine ⟨by rw [hcover, h.text_eq]; simp, ?_, ?_, ?_⟩
  · intro before tile after heq
    cases before with
    | nil =>
      cases heq
      simpa [Tile.cover] using hstart
    | cons first before =>
      obtain ⟨rfl, htiles⟩ := List.cons.inj heq
      rw [h.start_eq before tile after htiles, hcover]
      simp only [List.length_append]
      omega
  · intro before tile after heq i hi start hat
    cases before with
    | nil =>
      cases heq
      exact hquiet i hi start (by simpa [Tile.cover] using hat)
    | cons first before =>
      obtain ⟨rfl, htiles⟩ := List.cons.inj heq
      refine h.gap_quiet before tile after htiles i hi start ?_
      rwa [hcover, List.length_append, Nat.add_assoc, ← List.append_assoc,
        TagStart.at_append_iff] at hat
  · intro i hi start hat
    rw [hcover, List.length_append] at hi
    obtain ⟨j, rfl⟩ := Nat.exists_eq_add_of_le ((Nat.le_add_right _ _).trans hi)
    rw [← List.append_assoc, TagStart.at_append_iff] at hat
    rw [← List.append_assoc, TagStart.unended_append_iff]
    exact h.rest_unended j (by omega) start hat

/-- **Gaps, tags and the rest.** -/
theorem Reading.exists_tiling {offset : ℕ} {text : Text} {tags : List Tag} {stubs : List Stub}
    (h : Reading offset text tags stubs) :
    ∃ (tiles : List Tile) (rest : Text),
      tags = tiles.map Tile.tag ∧ Tiling offset text tiles rest := by
  induction h with
  | @quiet offset text hquiet =>
    exact ⟨[], text, rfl, .nil fun i start hat => absurd hat (hquiet i hat.lt_length start)⟩
  | @stub offset gap rest start stubs hquiet hbegins hgt _ _ =>
    refine ⟨[], gap ++ (start.text ++ rest), rfl, .nil fun i start' hat => ⟨hat, fun hmem => ?_⟩⟩
    -- a tag start stands behind the gap, and there is no `>` behind the gap
    obtain ⟨j, rfl⟩ := Nat.exists_eq_add_of_le
      (Nat.not_lt.mp fun hlt => hquiet i hlt start' hat)
    rw [Nat.add_assoc, List.drop_length_add_append] at hmem
    rcases List.mem_append.mp (List.mem_of_mem_drop hmem) with hmem | hmem
    · exact TagStart.gt_notMem_text hbegins.isName hmem
    · exact hgt hmem
  | @tag offset gap inner after start tags stubs hquiet _ _ _ ih =>
    obtain ⟨tiles, rest, rfl, htiling⟩ := ih
    have htext : gap ++ (start.text ++ (inner ++ '>' :: after)) =
        gap ++ ((Tag.ofStart (offset + gap.length) start inner).raw ++ after) := by
      simp [Tag.ofStart]
    rw [htext] at hquiet ⊢
    refine ⟨⟨gap, .ofStart (offset + gap.length) start inner⟩ :: tiles, rest, rfl, ?_⟩
    refine .cons ?_ rfl hquiet
    rwa [show offset + gap.length + (Tag.ofStart (offset + gap.length) start inner).raw.length =
      offset + gap.length + start.text.length + inner.length + 1 by simp [Tag.ofStart]; omega]

/-! ### Scans -/

/-- A tag start inside the text is reported. -/
theorem Stub.diagnostic_of_stop_le {table : LineTable} {stub : Stub}
    (h : stub.stop ≤ table.length) :
    ∃ d, stub.diagnostic table = .ok d ∧ d.code = Finding.unterminatedTag.code ∧
      d.range = stub.range := by
  have hfits : Finding.unterminatedTag.fits
      (List.map Prod.fst [("name", stub.tagStart.name)]) = true := rfl
  obtain ⟨d, hd, hcode, -, -, hrange⟩ :=
    Finding.diagnostic_of_fits hfits (table.locateRange stub.range) stub.range
  refine ⟨d, ?_, hcode, hrange⟩
  rw [Stub.diagnostic, LineTable.span_of_stop_le h]
  exact hd

theorem TagStart.At.stop_le {start : TagStart} {text : Text} {offset : ℕ}
    (h : start.At text offset) : offset + start.text.length ≤ text.length := by
  obtain ⟨rest, h⟩ := h
  have hlength := congrArg List.length h.text_eq
  have hpos := start.length_text_pos
  simp only [List.length_drop, List.length_append] at hlength
  omega

namespace Scan

/-- **A scan has a result.** Its tags and tag starts are the pieces of the text, and each of the
latter is reported where it stands. -/
theorem exists_ofText (text : Text) :
    ∃ scan, ofText text = .ok scan ∧ scan.text = text ∧ scan.table = .ofText text ∧
      scan.tags = (Cursor.pieces ⟨0, text⟩).filterMap Piece.tag? ∧
      scan.stubs = (Cursor.pieces ⟨0, text⟩).filterMap Piece.stub? ∧
      scan.diagnostics.map (fun d => (d.code, d.range)) =
        scan.stubs.map fun stub => (Finding.unterminatedTag.code, stub.range) := by
  have hreading : Reading 0 text _ _ := Cursor.reading_pieces ⟨0, text⟩
  have hreport : ∀ stub ∈ (Cursor.pieces ⟨0, text⟩).filterMap Piece.stub?, ∃ d,
      stub.diagnostic (.ofText text) = .ok d ∧
        (Finding.unterminatedTag.code, stub.range) = (d.code, d.range) := by
    intro stub hmem
    obtain ⟨i, hi, hat, -⟩ := hreading.mem_stubs_iff.mp hmem
    have hle : stub.stop ≤ (LineTable.ofText text).length := by
      have hle := hat.stop_le
      simp only [Stub.stop, LineTable.length_ofText, hi]
      omega
    obtain ⟨d, hd, hcode, hrange⟩ := Stub.diagnostic_of_stop_le hle
    exact ⟨d, hd, by rw [hcode, hrange]⟩
  obtain ⟨diagnostics, hdiagnostics, hall⟩ := exists_mapM_forall₂ hreport
  refine ⟨⟨text, _, _, diagnostics, _⟩, ?_, rfl, rfl, rfl, rfl, ?_⟩
  · rw [ofText, withTable, hdiagnostics]
    rfl
  · rw [eq_comm, ← List.forall₂_eq_eq_eq, List.forall₂_map_left_iff, List.forall₂_map_right_iff]
    exact hall

/-- If all pieces of a text are tags, its scan finds them and has nothing to report. -/
theorem exists_ofText_of_pieces {text : Text} {tags : List Tag}
    (h : Cursor.pieces ⟨0, text⟩ = tags.map Piece.tag) :
    ∃ scan, ofText text = .ok scan ∧ scan.tags = tags ∧ scan.diagnostics = [] := by
  obtain ⟨scan, hscan, -, -, htags, hstubs, hdiagnostics⟩ := exists_ofText text
  have htag : Piece.tag? ∘ Piece.tag = some := rfl
  have hstub : Piece.stub? ∘ Piece.tag = fun _ => none := rfl
  rw [h, List.filterMap_map, htag, List.filterMap_some] at htags
  rw [h, List.filterMap_map, hstub, List.filterMap_none] at hstubs
  rw [hstubs, List.map_nil, List.map_eq_nil_iff] at hdiagnostics
  exact ⟨scan, hscan, htags, hdiagnostics⟩

theorem reading_of_ofText {text : Text} {scan : Scan} (h : ofText text = .ok scan) :
    Reading 0 text scan.tags scan.stubs := by
  obtain ⟨scan', hscan, -, -, htags, hstubs, -⟩ := exists_ofText text
  cases h.symm.trans hscan
  rw [htags, hstubs]
  exact Cursor.reading_pieces ⟨0, text⟩

/-- The tags of a scan stand in the text. -/
theorem occursIn_of_ofText {text : Text} {scan : Scan} (h : ofText text = .ok scan) {tag : Tag}
    (htag : tag ∈ scan.tags) : tag.OccursIn text :=
  (reading_of_ofText h).occursIn [] rfl htag

/-- The tags of a scan lie inside the text of its line table. -/
theorem inside_of_ofText {text : Text} {scan : Scan} (h : ofText text = .ok scan) {tag : Tag}
    (htag : tag ∈ scan.tags) : tag.Inside scan.table := by
  obtain ⟨scan', hscan, -, htable, -, -, -⟩ := exists_ofText text
  cases h.symm.trans hscan
  rw [htable]
  exact (occursIn_of_ofText h htag).stop_le

/-- The scan finds the tags of `text` and the tag starts that are never ended: all of them, and
nothing else. -/
structure Recognises (scan : Scan) (text : Text) : Prop where
  /-- The text is laid out in gaps without tag starts, the tags, and a rest without tags. -/
  tiled : ∃ (tiles : List Tile) (rest : Text),
    scan.tags = tiles.map Tile.tag ∧ Tiling 0 text tiles rest
  /-- Each tag is what its characters say. -/
  described : ∀ tag ∈ scan.tags, ∃ start inner, tag.Describes text start inner
  /-- What is reported is a tag start that is never ended. -/
  code_eq : ∀ d ∈ scan.diagnostics, d.code = "SCANNER_MALFORMED_TAG"
  /-- The tag starts that are never ended are reported, each where it stands. -/
  reported_iff : ∀ first last, (∃ d ∈ scan.diagnostics, d.range.start = first ∧
    d.range.stop = last) ↔
      ∃ start : TagStart, start.Unended text first ∧ last = first + start.text.length
  /-- Equally, a tag start is reported if the last `>` of the text is before its end. -/
  reported_iff_lastClose : ∀ first last : ℕ, (∃ d ∈ scan.diagnostics, d.range.start = first ∧
    d.range.stop = last) ↔
      ∃ start : TagStart, start.At text first ∧ last = first + start.text.length ∧
        lastClose text < last
  /-- They are reported once, in the order of the text. -/
  in_order : scan.diagnostics.Pairwise (·.range.start < ·.range.start)
  /-- They lie behind all tags. -/
  behind_tags : ∀ tag ∈ scan.tags, ∀ d ∈ scan.diagnostics, tag.stop ≤ d.range.start

/-- **The scan of a text recognises its tags.** -/
theorem ofText_recognises (text : Text) :
    ∃ scan, ofText text = .ok scan ∧ scan.Recognises text := by
  obtain ⟨scan, hscan, -, -, -, -, hreports⟩ := exists_ofText text
  have hreading := reading_of_ofText hscan
  have hoccurs : ∀ tag ∈ scan.tags, tag.OccursIn text := fun tag htag =>
    occursIn_of_ofText hscan htag
  have hmem : ∀ stub, stub ∈ scan.stubs ↔ stub.tagStart.Unended text stub.start := by
    intro stub
    rw [hreading.mem_stubs_iff]
    simp
  -- the diagnostics and the tag starts are the same list, seen through code and range
  have hreported : ∀ code range, (∃ d ∈ scan.diagnostics, (d.code, d.range) = (code, range)) ↔
      ∃ stub ∈ scan.stubs, (Finding.unterminatedTag.code, stub.range) = (code, range) := by
    intro code range
    rw [← List.mem_map, hreports, List.mem_map]
  have hbehind : ∀ d ∈ scan.diagnostics, d.code = Finding.unterminatedTag.code ∧
      ∃ stub ∈ scan.stubs, stub.range = d.range := by
    intro d hd
    obtain ⟨stub, hstub, heq⟩ := (hreported d.code d.range).mp ⟨d, hd, rfl⟩
    exact ⟨(Prod.mk.inj heq).1.symm, stub, hstub, (Prod.mk.inj heq).2⟩
  have hiff : ∀ first last : ℕ, (∃ d ∈ scan.diagnostics, d.range.start = first ∧
      d.range.stop = last) ↔
        ∃ start : TagStart, start.Unended text first ∧ last = first + start.text.length := by
    intro first last
    constructor
    · rintro ⟨d, hd, rfl, rfl⟩
      obtain ⟨-, stub, hstub, hrange⟩ := hbehind d hd
      rw [← hrange]
      exact ⟨stub.tagStart, (hmem stub).mp hstub, rfl⟩
    · rintro ⟨start, hunended, rfl⟩
      obtain ⟨d, hd, heq⟩ := (hreported _ _).mpr ⟨⟨first, start⟩, (hmem _).mpr hunended, rfl⟩
      refine ⟨d, hd, ?_⟩
      rw [(Prod.mk.inj heq).2]
      exact ⟨rfl, rfl⟩
  refine ⟨scan, hscan, hreading.exists_tiling, fun tag htag => (hoccurs tag htag).describes,
    fun d hd => (hbehind d hd).1, hiff, ?_, ?_, ?_⟩
  · intro first last
    rw [hiff]
    refine exists_congr fun start => ?_
    constructor
    · rintro ⟨hunended, rfl⟩
      obtain ⟨hat, hlt⟩ := TagStart.unended_iff_lastClose.mp hunended
      exact ⟨hat, rfl, hlt⟩
    · rintro ⟨hat, rfl, hlt⟩
      exact ⟨TagStart.unended_iff_lastClose.mpr ⟨hat, hlt⟩, rfl⟩
  · have hpairwise : (scan.diagnostics.map fun d => (d.code, d.range)).Pairwise
        (·.2.start < ·.2.start) := by
      rw [hreports, List.pairwise_map]
      exact hreading.stubs_pairwise
    rw [List.pairwise_map] at hpairwise
    exact hpairwise
  · intro tag htag d hd
    obtain ⟨i, hi, hgt⟩ := (hoccurs tag htag).getElem?_eq
    obtain ⟨-, stub, hstub, hrange⟩ := hbehind d hd
    have hlt := ((hmem stub).mp hstub).lt_of_getElem? hgt
    rw [← hrange, hi]
    show (i : ℤ) + 1 ≤ stub.start
    omega

end Scan

end MarkupLint

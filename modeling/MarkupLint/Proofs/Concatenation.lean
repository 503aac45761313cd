import MarkupLint.Proofs.Recognition

/-!
# Scanning texts one behind the other

Where a tag ends, a text can be cut in two: the scan of the whole is the scan of the front and,
moved to its place, the scan of the back. That is not so everywhere. Behind `<a` the scan of the
whole may find a longer name, and a `>` far back may end a tag that the front alone leaves open. A
text is settled if it is empty or its last character is a `>`. Neither can happen then: a tag start
holds no `>`, so it does not reach over the cut, and all that starts in front of the cut is ended
there at the latest.

The other half is that a scan does not depend on where its text starts. The offset is only ever
added to, so reading the same text from another place gives the same pieces, all of them moved by
the same distance.

## Main results

* `Cursor.pieces_shift` — the same text at another place
* `Quiet.append` — no tag start reaches over the cut
* `Reading.pieces_append` — the pieces of a text that is cut where a tag ends
* `Scan.ofText_append_of_settled` — the scan of such a text
-/

namespace MarkupLint

/-! ### The same text at another place -/

/-- The range that lies `n` offsets further on. -/
def Range.shift (n : ℕ) (range : Range) : Range :=
  ⟨range.start + n, range.stop + n, Nat.add_le_add_right range.start_le_stop n⟩

/-- The tag that stands `n` offsets further on. -/
def Tag.shift (n : ℕ) (tag : Tag) : Tag := { tag with start := tag.start + n }

/-- The tag start that stands `n` offsets further on and is not ended either. -/
def Stub.shift (n : ℕ) (stub : Stub) : Stub := { stub with start := stub.start + n }

theorem Stub.range_shift (n : ℕ) (stub : Stub) : (stub.shift n).range = stub.range.shift n := by
  simp only [range, stop, shift, Range.shift, Range.mk.injEq, true_and]
  omega

namespace Piece

/-- The piece that stands `n` offsets further on. -/
def shift (n : ℕ) : Piece → Piece
  | tag t => .tag (t.shift n)
  | stub s => .stub (s.shift n)

theorem tag?_shift (n : ℕ) (piece : Piece) :
    (piece.shift n).tag? = piece.tag?.map (Tag.shift n) := by
  cases piece <;> rfl

theorem stub?_shift (n : ℕ) (piece : Piece) :
    (piece.shift n).stub? = piece.stub?.map (Stub.shift n) := by
  cases piece <;> rfl

/-- What is picked out of pieces is moved with them. -/
theorem filterMap_shift {α : Type} {n : ℕ} {pick? : Piece → Option α} {move : α → α}
    (h : ∀ piece : Piece, pick? (piece.shift n) = (pick? piece).map move) (pieces : List Piece) :
    (pieces.map (shift n)).filterMap pick? = (pieces.filterMap pick?).map move := by
  rw [List.filterMap_map, List.map_filterMap]
  congr 1
  funext piece
  exact h piece

end Piece

namespace Cursor

/-- The same text, `n` offsets further on. -/
def shift (n : ℕ) (cursor : Cursor) : Cursor := ⟨cursor.offset + n, cursor.rest⟩

theorem finish_shift (n offset : ℕ) (start : TagStart) (rest : Text) :
    finish (offset + n) start rest =
      Prod.map (Piece.shift n) (shift n) (finish offset start rest) := by
  by_cases hgt : '>' ∈ rest
  · obtain ⟨inner, after, rfl, hinner⟩ := List.eq_append_cons_of_mem hgt
    have hcursor : offset + n + start.text.length + inner.length + 1 =
        offset + start.text.length + inner.length + 1 + n := by omega
    rw [finish_append hinner, finish_append hinner, hcursor]
    rfl
  · rw [finish_of_notMem hgt, finish_of_notMem hgt, Nat.add_right_comm]
    rfl

theorem find?_shift (n offset : ℕ) (text : Text) :
    find? (offset + n) text = (find? offset text).map (Prod.map (Piece.shift n) (shift n)) := by
  induction text generalizing offset with
  | nil => rfl
  | cons c text ih =>
    rw [find?, find?]
    cases TagStart.read? (c :: text) with
    | none =>
      dsimp only
      rw [Nat.add_right_comm, ih]
    | some found =>
      dsimp only
      rw [finish_shift, Option.map_some]

theorem next?_shift (n : ℕ) (cursor : Cursor) :
    (cursor.shift n).next? = cursor.next?.map (Prod.map (Piece.shift n) (shift n)) :=
  find?_shift n cursor.offset cursor.rest

/-- **The same text at another place** has the same pieces, moved by the same distance. -/
theorem pieces_shift (n : ℕ) (cursor : Cursor) :
    (cursor.shift n).pieces = cursor.pieces.map (Piece.shift n) := by
  fun_induction Cursor.pieces cursor with
  | case1 cursor hnext =>
    have hshift := next?_shift n cursor
    rw [hnext, Option.map_none] at hshift
    rw [pieces_of_next?_eq_none hshift, List.map_nil]
  | case2 cursor piece cursor' hnext ih =>
    have hshift := next?_shift n cursor
    rw [hnext, Option.map_some] at hshift
    rw [pieces_of_next?_eq_some hshift, List.map_cons, ih]

end Cursor

/-! ### Where a tag ends -/

/-- The text is empty or ends with a `>`. -/
def Settled (text : Text) : Prop := text = [] ∨ text.getLast? = some '>'

instance (text : Text) : Decidable (Settled text) := inferInstanceAs (Decidable (_ ∨ _))

namespace Settled

/-- The `>` at the end of a settled text. -/
theorem getElem?_eq {text : Text} (h : Settled text) (hne : text ≠ []) :
    text[text.length - 1]? = some '>' := by
  rw [← List.getLast?_eq_getElem?]
  exact h.resolve_left hne

/-- What comes last in a settled text is settled. -/
theorem of_append {front text : Text} (h : Settled (front ++ text)) : Settled text := by
  by_cases hne : text = []
  · exact .inl hne
  · right
    rcases h with h | h
    · exact absurd (List.append_eq_nil_iff.mp h).2 hne
    · rwa [List.getLast?_append_of_ne_nil _ hne] at h

end Settled

/-- What comes behind the rest of a text does not matter to the tag start in front of it. -/
theorem TagStart.Begins.append {start : TagStart} {text rest : Text} (h : start.Begins text rest)
    (hne : rest ≠ []) (later : Text) : start.Begins (text ++ later) (rest ++ later) := by
  refine ⟨by rw [h.text_eq, List.append_assoc], h.isName, ?_⟩
  rw [EndsName, List.head?_append_of_ne_nil _ hne]
  exact h.endsName

/-- A tag start that begins in front of the cut stands in the front. -/
theorem TagStart.At.of_append {start : TagStart} {text later : Text} {offset : ℕ}
    (h : start.At (text ++ later) offset) (hsettled : Settled text) (hlt : offset < text.length) :
    start.At text offset := by
  have hne : text ≠ [] := List.ne_nil_of_length_pos (Nat.zero_lt_of_lt hlt)
  have hgt : (text ++ later)[text.length - 1]? = some '>' := by
    rw [List.getElem?_append_left (by omega), hsettled.getElem?_eq hne]
  have hle := h.le_of_getElem? (by omega) hgt
  obtain ⟨rest, hbegins⟩ := h
  have htext := hbegins.text_eq
  rw [List.drop_append_of_le_length hlt.le] at htext
  obtain ⟨inner, hinner, rfl⟩ : ∃ inner, text.drop offset = start.text ++ inner ∧
      rest = inner ++ later := by
    rcases List.append_eq_append_iff.mp htext with ⟨tail, htail, -⟩ | ⟨inner, hinner, hrest⟩
    · have hlength := congrArg List.length htail
      simp only [List.length_drop, List.length_append] at hlength
      omega
    · exact ⟨inner, hinner, hrest⟩
  have hinner_ne : inner ≠ [] := by
    rintro rfl
    have hlength := congrArg List.length hinner
    simp only [List.length_drop, List.append_nil] at hlength
    omega
  refine ⟨inner, hinner, hbegins.isName, ?_⟩
  have hends := hbegins.endsName
  rwa [EndsName, List.head?_append_of_ne_nil _ hinner_ne] at hends

/-- **No tag start reaches over the cut.** -/
theorem Quiet.append {text : Text} {n : ℕ} (h : Quiet text n) (hsettled : Settled text)
    (hle : n ≤ text.length) (later : Text) : Quiet (text ++ later) n :=
  fun i hi start hat => h i hi start (hat.of_append hsettled (hi.trans_le hle))

namespace Reading

variable {offset : ℕ} {text : Text} {tags : List Tag} {stubs : List Stub}

/-- In a settled text all tag starts are ended. -/
theorem stubs_eq_nil (h : Reading offset text tags stubs) (hsettled : Settled text) :
    stubs = [] := by
  rw [List.eq_nil_iff_forall_not_mem]
  intro stub hstub
  obtain ⟨i, -, hunended⟩ := h.mem_stubs_iff.mp hstub
  have hlt := hunended.1.lt_length
  have hne : text ≠ [] := List.ne_nil_of_length_pos (Nat.zero_lt_of_lt hlt)
  have hlast := hunended.lt_of_getElem? (hsettled.getElem?_eq hne)
  omega

/-- **The pieces of a text that is cut where a tag ends.** -/
theorem pieces_append (h : Reading offset text tags stubs) (hsettled : Settled text)
    (later : Text) :
    Cursor.pieces ⟨offset, text ++ later⟩ =
      tags.map Piece.tag ++ Cursor.pieces ⟨offset + text.length, later⟩ := by
  induction h with
  | @quiet offset text hquiet =>
    exact Cursor.pieces_of_quiet (hquiet.append hsettled le_rfl later) offset
  | @stub offset gap rest start stubs hquiet hbegins hgt hlater ih =>
    have hnil := (Reading.stub hquiet hbegins hgt hlater).stubs_eq_nil hsettled
    cases hnil
  | @tag offset gap inner after start tags stubs hquiet hbegins hinner _ ih =>
    have hafter : Settled after := by
      have hsplit : gap ++ (start.text ++ (inner ++ '>' :: after)) =
          (gap ++ start.text ++ inner ++ ['>']) ++ after := by simp
      rw [hsplit] at hsettled
      exact hsettled.of_append
    have hgap := hquiet.append hsettled (by simp) later
    have hstart := hbegins.append (by simp) later
    simp only [List.append_assoc, List.cons_append] at hgap hstart ⊢
    rw [Cursor.pieces_of_quiet hgap, Cursor.pieces_of_tag hinner hstart, List.map_cons,
      List.cons_append]
    have hnext : offset + gap.length + (Tag.ofStart (offset + gap.length) start inner).raw.length =
        offset + gap.length + start.text.length + inner.length + 1 := by
      simp [Tag.ofStart]
      omega
    have hstop : offset + gap.length + start.text.length + inner.length + 1 + after.length =
        offset + (gap ++ (start.text ++ (inner ++ '>' :: after))).length := by
      simp
      omega
    rw [hnext, ih hafter, hstop]

end Reading

/-! ### Scans -/

namespace Scan

theorem ranges_of_ofText {text : Text} {scan : Scan} (h : ofText text = .ok scan) :
    scan.diagnostics.map Diagnostic.range = scan.stubs.map Stub.range := by
  obtain ⟨scan', hscan, -, -, -, -, hreports⟩ := exists_ofText text
  cases h.symm.trans hscan
  have hranges := congrArg (List.map Prod.snd) hreports
  rwa [List.map_map, List.map_map] at hranges

/-- The tags of a text that is cut where a tag ends, and its tag starts that are never ended. -/
theorem parts_append {front back : Text} (h : Settled front) {first second whole : Scan}
    (hfirst : ofText front = .ok first) (hsecond : ofText back = .ok second)
    (hwhole : ofText (front ++ back) = .ok whole) :
    whole.tags = first.tags ++ second.tags.map (Tag.shift front.length) ∧
      whole.stubs = second.stubs.map (Stub.shift front.length) := by
  obtain ⟨second', hsecond', -, -, htags, hstubs, -⟩ := exists_ofText back
  cases hsecond.symm.trans hsecond'
  obtain ⟨whole', hwhole', -, -, htags', hstubs', -⟩ := exists_ofText (front ++ back)
  cases hwhole.symm.trans hwhole'
  have hpieces := (reading_of_ofText hfirst).pieces_append h back
  have hshift : Cursor.pieces ⟨0 + front.length, back⟩ =
      (Cursor.pieces ⟨0, back⟩).map (Piece.shift front.length) :=
    Cursor.pieces_shift front.length ⟨0, back⟩
  have htag : Piece.tag? ∘ Piece.tag = some := rfl
  have hstub : Piece.stub? ∘ Piece.tag = fun _ => none := rfl
  rw [hpieces, hshift, List.filterMap_append, List.filterMap_map] at htags' hstubs'
  rw [htag, List.filterMap_some, Piece.filterMap_shift (Piece.tag?_shift _), ← htags] at htags'
  rw [hstub, List.filterMap_none, List.nil_append, Piece.filterMap_shift (Piece.stub?_shift _),
    ← hstubs] at hstubs'
  exact ⟨htags', hstubs'⟩

/-- **The scan of a text that is cut where a tag ends.** The front has nothing to report. The tags
of the whole are those of the front and, moved behind it, those of the back, and what the whole
reports is what the back does, moved likewise. -/
theorem ofText_append_of_settled (front back : Text) (h : Settled front) :
    ∃ first second whole, ofText front = .ok first ∧ ofText back = .ok second ∧
      ofText (front ++ back) = .ok whole ∧ first.diagnostics = [] ∧
      whole.tags = first.tags ++ second.tags.map (Tag.shift front.length) ∧
      whole.diagnostics.map Diagnostic.range =
        (second.diagnostics.map Diagnostic.range).map (Range.shift front.length) := by
  obtain ⟨first, hfirst, -⟩ := exists_ofText front
  obtain ⟨second, hsecond, -⟩ := exists_ofText back
  obtain ⟨whole, hwhole, -⟩ := exists_ofText (front ++ back)
  obtain ⟨htags, hstubs⟩ := parts_append h hfirst hsecond hwhole
  refine ⟨first, second, whole, hfirst, hsecond, hwhole, ?_, htags, ?_⟩
  · have hranges := ranges_of_ofText hfirst
    rw [(reading_of_ofText hfirst).stubs_eq_nil h, List.map_nil] at hranges
    exact List.map_eq_nil_iff.mp hranges
  · rw [ranges_of_ofText hwhole, ranges_of_ofText hsecond, hstubs, List.map_map, List.map_map]
    exact List.map_congr_left fun stub _ => stub.range_shift front.length

/-- A tag that holds the start of another, and behind the cut a tag start that is never ended. -/
theorem ofText_append_of_settled_nested :
    Settled "<p><a <b>".toList ∧
    ∃ first second whole, ofText "<p><a <b>".toList = .ok first ∧
      ofText "</a> <i".toList = .ok second ∧ ofText "<p><a <b></a> <i".toList = .ok whole ∧
      first.diagnostics = [] ∧ whole.tags = first.tags ++ second.tags.map (Tag.shift 9) ∧
      whole.diagnostics.map Diagnostic.range =
        (second.diagnostics.map Diagnostic.range).map (Range.shift 9) :=
  ⟨by decide, ofText_append_of_settled "<p><a <b>".toList "</a> <i".toList (by decide)⟩

end Scan

end MarkupLint

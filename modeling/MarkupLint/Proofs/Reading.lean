import MarkupLint.Proofs.TagStart
import MarkupLint.Tag.Piece

/-!
# How a text is read

`Cursor.pieces` takes one piece after the other from the front of a text. `Reading` says the same
without a cursor: a text has no tag start, or it has a first one, and then a `>` comes behind that
or it does not. Each case is one constructor, and it carries what the search for the next piece has
found out on the way, above all that it passed no tag start.

Once a tag start is never ended, no `>` is left, so no tag comes behind it. Hence the two lists of a
reading, first all tags and then all tag starts that are never ended, are in the order of the text.

## Main results

* `Cursor.find?_eq_none_iff`, `Cursor.exists_of_find?_eq_some` — what the search for a piece finds
* `Cursor.reading_pieces` — the pieces of a text are a reading of it
* `Cursor.pieces_of_quiet`, `Cursor.pieces_of_tag` — reading past a gap and past a tag
* `Reading.occursIn`, `Reading.mem_stubs_iff` — the tags and the tag starts that are never ended, as
  parts of the whole text
* `Reading.inOrder` — the tags come one behind the other
-/

namespace MarkupLint

/-- No tag start stands at one of the first `n` offsets of a text. -/
def Quiet (text : Text) (n : ℕ) : Prop := ∀ i < n, ∀ start : TagStart, ¬ start.At text i

/-- The tag stands in `text` as it is: at its offset there is a tag start, and behind it come
characters other than `>` and a `>`. -/
def Tag.OccursIn (tag : Tag) (text : Text) : Prop :=
  ∃ (offset : ℕ) (start : TagStart) (inner after : Text),
    tag = .ofStart offset start inner ∧ '>' ∉ inner ∧
      start.Begins (text.drop offset) (inner ++ '>' :: after)

/-- The tags stand one behind the other, and each of them takes up some of the text. -/
structure Tag.InOrder (tags : List Tag) : Prop where
  /-- No tag is empty. -/
  start_lt_stop : ∀ tag ∈ tags, tag.start < tag.stop
  /-- A tag stops before the next one starts. -/
  stop_le_start : tags.Pairwise (·.stop ≤ ·.start)

namespace Cursor

/-! ### One piece -/

theorem finish_of_notMem {rest : Text} (h : '>' ∉ rest) (offset : ℕ) (start : TagStart) :
    finish offset start rest = (.stub ⟨offset, start⟩, ⟨offset + start.text.length, rest⟩) := by
  have hdrop : rest.dropWhile (· != '>') = [] := by
    rw [List.dropWhile_eq_nil_iff]
    intro c hc
    exact bne_iff_ne.mpr fun heq => h (heq ▸ hc)
  rw [finish, hdrop]

theorem finish_append {inner : Text} (h : '>' ∉ inner) (offset : ℕ) (start : TagStart)
    (after : Text) : finish offset start (inner ++ '>' :: after) =
      (.tag (.ofStart offset start inner),
        ⟨offset + start.text.length + inner.length + 1, after⟩) := by
  have hinner : ∀ c ∈ inner, (c != '>') = true := fun c hc =>
    bne_iff_ne.mpr fun heq => h (heq ▸ hc)
  simp [finish, List.takeWhile_append_of_pos hinner, List.dropWhile_append_of_pos hinner]

theorem find?_of_begins {start : TagStart} {text rest : Text} (h : start.Begins text rest)
    (offset : ℕ) : find? offset text = some (finish offset start rest) := by
  cases text with
  | nil => cases h.text_eq
  | cons c text => rw [find?, TagStart.read?_eq_some_iff.mpr h]

theorem find?_cons_of_not_at {c : Char} {text : Text}
    (h : ∀ start : TagStart, ¬ start.At (c :: text) 0) (offset : ℕ) :
    find? offset (c :: text) = find? (offset + 1) text := by
  cases hread : TagStart.read? (c :: text) with
  | none => rw [find?, hread]
  | some result =>
    have hbegins := TagStart.read?_eq_some_iff.mp hread
    exact absurd (TagStart.at_zero_iff.mpr ⟨_, hbegins⟩) (h result.1)

theorem find?_eq_none_iff {offset : ℕ} {text : Text} :
    find? offset text = none ↔ Quiet text text.length := by
  induction text generalizing offset with
  | nil => exact ⟨fun _ i hi => absurd hi (Nat.not_lt_zero i), fun _ => rfl⟩
  | cons c text ih =>
    constructor
    · intro h i hi start hat
      have hfront : ∀ start : TagStart, ¬ start.At (c :: text) 0 := by
        intro start hat
        obtain ⟨rest, hbegins⟩ := TagStart.at_zero_iff.mp hat
        rw [find?_of_begins hbegins] at h
        cases h
      cases i with
      | zero => exact hfront start hat
      | succ i =>
        rw [find?_cons_of_not_at hfront] at h
        exact ih.mp h i (Nat.lt_of_succ_lt_succ hi) start hat
    · intro h
      rw [find?_cons_of_not_at fun start => h 0 (Nat.succ_pos _) start]
      exact ih.mpr fun i hi start => h (i + 1) (Nat.succ_lt_succ hi) start

/-- The search stops at the first tag start. -/
theorem exists_of_find?_eq_some {offset : ℕ} {text : Text} {found : Piece × Cursor}
    (h : find? offset text = some found) :
    ∃ (gap : Text) (start : TagStart) (rest : Text), text = gap ++ (start.text ++ rest) ∧
      Quiet text gap.length ∧ start.Begins (start.text ++ rest) rest ∧
      found = finish (offset + gap.length) start rest := by
  induction text generalizing offset with
  | nil => cases h
  | cons c text ih =>
    by_cases hfront : ∃ start : TagStart, start.At (c :: text) 0
    · obtain ⟨start, hat⟩ := hfront
      obtain ⟨rest, hbegins⟩ := TagStart.at_zero_iff.mp hat
      rw [find?_of_begins hbegins] at h
      refine ⟨[], start, rest, hbegins.text_eq, fun i hi => absurd hi (Nat.not_lt_zero i), ?_,
        (Option.some.inj h).symm⟩
      rw [← hbegins.text_eq]
      exact hbegins
    · have hfront := not_exists.mp hfront
      rw [find?_cons_of_not_at hfront] at h
      obtain ⟨gap, start, rest, rfl, hquiet, hbegins, rfl⟩ := ih h
      refine ⟨c :: gap, start, rest, rfl, ?_, hbegins, by rw [List.length_cons]; congr 1; omega⟩
      intro i hi start'
      cases i with
      | zero => exact hfront start'
      | succ i => exact hquiet i (Nat.lt_of_succ_lt_succ hi) start'

/-! ### Reading on

The same step the other way round: what the pieces of a text are when it is known how it begins. -/

/-- A gap without tag starts is passed. -/
theorem pieces_of_quiet {gap text : Text} (h : Quiet (gap ++ text) gap.length) (offset : ℕ) :
    pieces ⟨offset, gap ++ text⟩ = pieces ⟨offset + gap.length, text⟩ := by
  have hfind : find? offset (gap ++ text) = find? (offset + gap.length) text := by
    induction gap generalizing offset with
    | nil => rfl
    | cons c gap ih =>
      have hfront : ∀ start : TagStart, ¬ start.At (c :: (gap ++ text)) 0 := fun start =>
        h 0 (Nat.succ_pos _) start
      have hlater : Quiet (gap ++ text) gap.length := fun i hi start hat =>
        h (i + 1) (Nat.succ_lt_succ hi) start hat
      rw [List.cons_append, find?_cons_of_not_at hfront, ih hlater, List.length_cons]
      congr 1
      omega
  have hnext : next? ⟨offset, gap ++ text⟩ = next? ⟨offset + gap.length, text⟩ := hfind
  cases hfound : next? ⟨offset + gap.length, text⟩ with
  | none => rw [pieces_of_next?_eq_none (hnext.trans hfound), pieces_of_next?_eq_none hfound]
  | some found =>
    rw [pieces_of_next?_eq_some (hnext.trans hfound), pieces_of_next?_eq_some hfound]

/-- Characters other than `<` are passed. -/
theorem pieces_of_lt_notMem {gap : Text} (h : '<' ∉ gap) (offset : ℕ) (text : Text) :
    pieces ⟨offset, gap ++ text⟩ = pieces ⟨offset + gap.length, text⟩ := by
  refine pieces_of_quiet (fun i hi start hat => h ?_) offset
  have hlt := hat.getElem?_zero
  rw [List.getElem?_append_left hi] at hlt
  exact List.mem_of_getElem? hlt

/-- A tag at the front is the first piece. -/
theorem pieces_of_tag {start : TagStart} {inner after : Text} (hinner : '>' ∉ inner)
    (hbegins : start.Begins (start.text ++ (inner ++ '>' :: after)) (inner ++ '>' :: after))
    (offset : ℕ) :
    pieces ⟨offset, start.text ++ (inner ++ '>' :: after)⟩ =
      .tag (.ofStart offset start inner) ::
        pieces ⟨offset + (Tag.ofStart offset start inner).raw.length, after⟩ := by
  have hnext : next? ⟨offset, start.text ++ (inner ++ '>' :: after)⟩ = _ :=
    find?_of_begins hbegins offset
  rw [finish_append hinner] at hnext
  rw [pieces_of_next?_eq_some hnext]
  congr 3
  simp [Tag.ofStart]
  omega

end Cursor

/-! ### The whole text -/

/-- The text from `offset` on holds the given tags and, behind them, the given tag starts that are
never ended. -/
inductive Reading : ℕ → Text → List Tag → List Stub → Prop
  /-- The text has no tag start. -/
  | quiet {offset : ℕ} {text : Text} (quiet : Quiet text text.length) : Reading offset text [] []
  /-- The first tag start of the text has no `>` behind it. -/
  | stub {offset : ℕ} {gap rest : Text} {start : TagStart} {stubs : List Stub}
      (quiet : Quiet (gap ++ (start.text ++ rest)) gap.length)
      (begins : start.Begins (start.text ++ rest) rest) (unended : '>' ∉ rest)
      (later : Reading (offset + gap.length + start.text.length) rest [] stubs) :
      Reading offset (gap ++ (start.text ++ rest)) [] (⟨offset + gap.length, start⟩ :: stubs)
  /-- The first tag start of the text has a `>` behind it, and `inner` stands between them. -/
  | tag {offset : ℕ} {gap inner after : Text} {start : TagStart} {tags : List Tag}
      {stubs : List Stub}
      (quiet : Quiet (gap ++ (start.text ++ (inner ++ '>' :: after))) gap.length)
      (begins : start.Begins (start.text ++ (inner ++ '>' :: after)) (inner ++ '>' :: after))
      (ended : '>' ∉ inner)
      (later : Reading (offset + gap.length + start.text.length + inner.length + 1) after tags
        stubs) :
      Reading offset (gap ++ (start.text ++ (inner ++ '>' :: after)))
        (.ofStart (offset + gap.length) start inner :: tags) stubs

namespace Reading

/-- Without a `>` there is no tag. -/
theorem tags_eq_nil {offset : ℕ} {text : Text} {tags : List Tag} {stubs : List Stub}
    (h : Reading offset text tags stubs) (hgt : '>' ∉ text) : tags = [] := by
  cases h with
  | quiet => rfl
  | stub => rfl
  | tag => simp at hgt

/-- The tags of a reading stand in the text. `front` is what was read before. -/
theorem occursIn {offset : ℕ} {text : Text} {tags : List Tag} {stubs : List Stub}
    (h : Reading offset text tags stubs) (front : Text) (hfront : front.length = offset) {tag : Tag}
    (htag : tag ∈ tags) : tag.OccursIn (front ++ text) := by
  induction h generalizing front with
  | quiet => cases htag
  | stub => cases htag
  | @tag offset gap inner after start tags stubs _ hbegins hinner _ ih =>
    rcases List.mem_cons.mp htag with rfl | htag
    · refine ⟨offset + gap.length, start, inner, after, rfl, hinner, ?_⟩
      rw [← hfront, List.drop_length_add_append, List.drop_append_length]
      exact hbegins
    · have hlength : (front ++ (gap ++ (start.text ++ (inner ++ ['>'])))).length =
          offset + gap.length + start.text.length + inner.length + 1 := by
        simp only [List.length_append, List.length_singleton]
        omega
      simpa using ih _ hlength htag

/-- **The tag starts that are never ended**, counted from where the reading starts. -/
theorem mem_stubs_iff {offset : ℕ} {text : Text} {tags : List Tag} {stubs : List Stub}
    (h : Reading offset text tags stubs) {stub : Stub} :
    stub ∈ stubs ↔ ∃ i, stub.start = offset + i ∧ stub.tagStart.Unended text i := by
  induction h with
  | quiet hquiet =>
    refine ⟨fun hmem => (by cases hmem), ?_⟩
    rintro ⟨i, -, hat, -⟩
    exact absurd hat (hquiet i hat.lt_length _)
  | @stub offset gap rest start stubs hquiet hbegins hgt _ ih =>
    have hstart : start.Unended (gap ++ (start.text ++ rest)) (gap.length + 0) := by
      rw [TagStart.unended_append_iff]
      exact ⟨TagStart.at_zero_iff.mpr ⟨rest, hbegins⟩, by simpa using hgt⟩
    constructor
    · intro hmem
      rcases List.mem_cons.mp hmem with rfl | hmem
      · exact ⟨gap.length, rfl, hstart⟩
      · obtain ⟨j, hj, hunended⟩ := ih.mp hmem
        refine ⟨gap.length + (start.text.length + j), by omega, ?_⟩
        rwa [TagStart.unended_append_iff, TagStart.unended_append_iff]
    · rintro ⟨i, hi, hunended⟩
      -- before the tag start, at it, inside it, behind it
      rcases Nat.lt_trichotomy i gap.length with hlt | rfl | hgt'
      · exact absurd hunended.1 (hquiet i hlt _)
      · obtain ⟨first, tagStart⟩ := stub
        obtain rfl : tagStart = start := hunended.1.unique hstart.1
        obtain rfl : first = offset + gap.length := hi
        exact List.mem_cons_self
      · obtain ⟨j, rfl⟩ := Nat.exists_eq_add_of_le hgt'.le
        by_cases hinside : j < start.text.length
        · exact absurd hunended.1 (hstart.1.not_at_inside (by omega) hinside)
        · obtain ⟨k, rfl⟩ := Nat.exists_eq_add_of_le (Nat.not_lt.mp hinside)
          rw [TagStart.unended_append_iff, TagStart.unended_append_iff] at hunended
          exact List.mem_cons_of_mem _ (ih.mpr ⟨k, by omega, hunended⟩)
  | @tag offset gap inner after start tags stubs _ hbegins hinner _ ih =>
    have htext : gap ++ (start.text ++ (inner ++ '>' :: after)) =
        (gap ++ (start.text ++ (inner ++ ['>']))) ++ after := by simp
    have hlength : (gap ++ (start.text ++ (inner ++ ['>']))).length =
        gap.length + start.text.length + inner.length + 1 := by simp; omega
    have hgt : (gap ++ (start.text ++ (inner ++ '>' :: after)))[gap.length + start.text.length +
        inner.length]? = some '>' := by
      have hsplit : gap ++ (start.text ++ (inner ++ '>' :: after)) =
          (gap ++ start.text ++ inner) ++ '>' :: after := by simp
      rw [hsplit, ← List.length_append, ← List.length_append,
        List.getElem?_append_right (Nat.le_refl _)]
      simp
    rw [ih, htext]
    constructor
    · rintro ⟨j, hj, hunended⟩
      refine ⟨_ + j, by omega, TagStart.unended_append_iff.mpr hunended⟩
    · rintro ⟨i, hi, hunended⟩
      rw [← htext] at hunended
      have hlt := hunended.lt_of_getElem? hgt
      obtain ⟨j, rfl⟩ := Nat.exists_eq_add_of_le (Nat.succ_le_of_lt hlt)
      rw [htext, Nat.succ_eq_add_one, ← hlength, TagStart.unended_append_iff] at hunended
      exact ⟨j, by omega, hunended⟩

theorem stubs_pairwise {offset : ℕ} {text : Text} {tags : List Tag} {stubs : List Stub}
    (h : Reading offset text tags stubs) : stubs.Pairwise (·.start < ·.start) := by
  induction h with
  | quiet => exact .nil
  | @stub offset gap rest start stubs _ _ _ hlater ih =>
    refine .cons (fun stub hmem => ?_) ih
    obtain ⟨j, hj, -⟩ := hlater.mem_stubs_iff.mp hmem
    have hpos := start.length_text_pos
    dsimp only
    omega
  | tag _ _ _ _ ih => exact ih

/-- The tags of a reading stand behind the place where it starts. -/
theorem le_start {offset : ℕ} {text : Text} {tags : List Tag} {stubs : List Stub}
    (h : Reading offset text tags stubs) {tag : Tag} (htag : tag ∈ tags) : offset ≤ tag.start := by
  induction h with
  | quiet => cases htag
  | stub => cases htag
  | @tag offset gap inner after start tags stubs _ _ _ _ ih =>
    rcases List.mem_cons.mp htag with rfl | htag
    · simp only [Tag.ofStart]
      omega
    · have hlater := ih htag
      omega

/-- **The tags of a reading come in order.** -/
theorem inOrder {offset : ℕ} {text : Text} {tags : List Tag} {stubs : List Stub}
    (h : Reading offset text tags stubs) : Tag.InOrder tags := by
  induction h with
  | quiet => exact ⟨fun _ htag => (by cases htag), .nil⟩
  | stub => exact ⟨fun _ htag => (by cases htag), .nil⟩
  | @tag offset gap inner after start tags stubs _ _ _ hlater ih =>
    have hstop : (Tag.ofStart (offset + gap.length) start inner).stop =
        ↑(offset + gap.length + start.text.length + inner.length + 1) := by
      simp only [Tag.stop, Tag.ofStart, List.length_append, List.length_singleton]
      omega
    refine ⟨fun tag htag => ?_, .cons (fun tag htag => ?_) ih.stop_le_start⟩
    · rcases List.mem_cons.mp htag with rfl | htag
      · rw [hstop]
        simp only [Tag.ofStart]
        omega
      · exact ih.start_lt_stop tag htag
    · rw [hstop]
      exact hlater.le_start htag

end Reading

/-- **The pieces of a text are a reading of it.** -/
theorem Cursor.reading_pieces (cursor : Cursor) :
    Reading cursor.offset cursor.rest (cursor.pieces.filterMap Piece.tag?)
      (cursor.pieces.filterMap Piece.stub?) := by
  fun_induction Cursor.pieces cursor with
  | case1 cursor hnext => exact .quiet (Cursor.find?_eq_none_iff.mp hnext)
  | case2 cursor piece cursor' hnext ih =>
    obtain ⟨gap, start, rest, htext, hquiet, hbegins, hfound⟩ :=
      Cursor.exists_of_find?_eq_some hnext
    rw [htext] at hquiet ⊢
    by_cases hgt : '>' ∈ rest
    · obtain ⟨inner, after, rfl, hinner⟩ := List.eq_append_cons_of_mem hgt
      rw [Cursor.finish_append hinner] at hfound
      cases hfound
      exact .tag hquiet hbegins hinner ih
    · rw [Cursor.finish_of_notMem hgt] at hfound
      cases hfound
      have htags := ih.tags_eq_nil hgt
      simp only [htags] at ih
      simp only [List.filterMap_cons, Piece.tag?, Piece.stub?, htags]
      exact .stub hquiet hbegins hgt ih

end MarkupLint

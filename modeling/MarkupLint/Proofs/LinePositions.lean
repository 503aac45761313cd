import Mathlib.Data.List.DropRight
import MarkupLint.Proofs.Places

/-!
# Offsets and positions

A `LineTable` is read in two ways. `LineTable.position` looks for the last line that starts at an
offset or before it, and `LineTable.offset` looks a line up by its number and then asks how long it
is. This file shows that the two are inverse to each other on the table of a text, and that both
keep the order.

A place in a table is a way to split the starts of the later lines in two: those that were passed
and those that are still to come. Both readings depend on the split only. The first finds it by
comparing starts with the offset, the second by counting lines, and since the starts ascend, there
is one split for each line. For the table of a text the starts that were passed at an offset are
those of the text in front of it, so lines are counted by the line feeds there.

A position that lies behind the end of its line has no offset in this sense. It still denotes one,
counted on from the start of its line. This is what the columns of attributes rely on that are
counted from their tags.

## Main results

* `LineTable.takeWhile_laterStarts` — the lines passed at an offset are those of the text before it
* `LineTable.offset_eq_ok_iff` — the offset of a position is the one that has this position
* `LineTable.locate_lt_locate` — positions come in the strict order of their offsets
* `LineTable.ofText_corresponds` — offsets and positions of a text correspond
* `Position.Denotes.unique`, `LineTable.denotes_locate` — what a position denotes
-/

namespace MarkupLint

namespace LineTable

/-! ### Splitting a table -/

section Split

variable {table : LineTable} {passed coming : List ℕ} {offset : ℕ}

/-- The start of the line is the last of those that were passed. -/
theorem drop_starts_append (first : ℕ) (passed coming : List ℕ) :
    (first :: (passed ++ coming)).drop passed.length = passed.getLastD first :: coming := by
  induction passed generalizing first with
  | nil => rfl
  | cons start passed ih =>
    rw [List.length_cons, List.drop_succ_cons, List.cons_append, ih]
    cases passed <;> rfl

theorem drop_starts (h : table.laterStarts = passed ++ coming) :
    table.starts.drop passed.length = passed.getLastD 0 :: coming := by
  rw [starts, h, drop_starts_append]

theorem takeWhile_of_split (h : table.laterStarts = passed ++ coming)
    (hpassed : ∀ start ∈ passed, start ≤ offset)
    (hcoming : ∀ start ∈ coming.head?, offset < start) :
    table.laterStarts.takeWhile (· ≤ offset) = passed := by
  rw [h, List.takeWhile_append_of_pos fun start hstart => by simpa using hpassed start hstart]
  cases coming with
  | nil => simp
  | cons next later =>
    have hnext : offset < next := hcoming next rfl
    simp [Nat.not_le.mpr hnext]

/-- The position that a split gives, if the offset lies on its line. -/
theorem locate_of_split (h : table.laterStarts = passed ++ coming)
    (hpassed : ∀ start ∈ passed, start ≤ offset) (hcoming : ∀ start ∈ coming.head?, offset < start)
    {p : Position} (hline : p.line = passed.length + 1)
    (hoffset : passed.getLastD 0 + (p.column - 1) = offset) : table.locate offset = p := by
  obtain ⟨line, column, hone, hcolumn⟩ := p
  simp only [locate, takeWhile_of_split h hpassed hcoming, Position.mk.injEq]
  dsimp only at hline hoffset
  omega

theorem getLastD_le (hpassed : ∀ start ∈ passed, start ≤ offset) : passed.getLastD 0 ≤ offset := by
  rw [List.getLastD_eq_getLast?]
  cases hlast : passed.getLast? with
  | none => exact Nat.zero_le offset
  | some start => exact hpassed start (List.mem_of_getLast? hlast)

theorem le_getLastD (hpassed : passed.Pairwise (· < ·)) {start : ℕ} (hstart : start ∈ passed) :
    start ≤ passed.getLastD 0 := by
  rcases passed.eq_nil_or_concat' with rfl | ⟨front, last, rfl⟩
  · cases hstart
  · rw [List.getLastD_concat]
    rcases List.mem_append.mp hstart with hfront | hlast
    · have hlt := (List.pairwise_append.mp hpassed).2.2 start hfront last
      exact (hlt (List.mem_singleton_self last)).le
    · exact (List.mem_singleton.mp hlast).le

theorem le_of_mem_takeWhile {starts : List ℕ} {start : ℕ}
    (h : start ∈ starts.takeWhile (· ≤ offset)) : start ≤ offset := by
  simpa using List.mem_takeWhile_imp h

end Split

/-- **Positions come in the strict order of their offsets.** -/
theorem locate_lt_locate (table : LineTable) {a b : ℕ} (h : a < b) :
    table.locate a < table.locate b := by
  have hfront := takeWhile_le_isPrefix h.le table.laterStarts
  have hlength := hfront.length_le
  rcases hlength.lt_or_eq with hlt | heq
  · exact .inl (Nat.succ_lt_succ hlt)
  · -- on one line both columns are counted from the same start, which lies before both offsets
    have hstart : (table.laterStarts.takeWhile (· ≤ a)).getLastD 0 ≤ a :=
      getLastD_le fun _ => le_of_mem_takeWhile
    refine .inr ⟨congrArg (· + 1) heq, ?_⟩
    simp only [locate, ← hfront.eq_of_length heq]
    omega

theorem locate_lt_locate_iff (table : LineTable) {a b : ℕ} :
    table.locate a < table.locate b ↔ a < b := by
  refine ⟨fun h => ?_, table.locate_lt_locate⟩
  by_contra hle
  exact table.locate_mono (Nat.not_lt.mp hle) h

/-! ### The starts of the lines of a text -/

theorem laterStarts_append (front text : Text) :
    (ofText (front ++ text)).laterStarts =
      (ofText front).laterStarts ++ (ofText text).laterStarts.map (front.length + ·) := by
  have hshift : text.zipIdx front.length =
      text.zipIdx.map (Prod.map id (front.length + ·)) := List.zipIdx_eq_map_add
  simp only [ofText, List.zipIdx_append, Nat.zero_add, List.filterMap_append, hshift,
    List.filterMap_map, List.map_filterMap]
  congr 2
  funext indexed
  obtain ⟨c, i⟩ := indexed
  by_cases hc : c = '\n' <;> simp [hc, Nat.add_assoc]

theorem laterStarts_concat (front : Text) (c : Char) :
    (ofText (front ++ [c])).laterStarts =
      (ofText front).laterStarts ++ if c = '\n' then [front.length + 1] else [] := by
  rw [laterStarts_append]
  by_cases hc : c = '\n' <;> simp [ofText, hc]

theorem bounds_of_mem_laterStarts {text : Text} {start : ℕ}
    (h : start ∈ (ofText text).laterStarts) : 0 < start ∧ start ≤ text.length := by
  obtain ⟨⟨c, i⟩, hmem, hstart⟩ := List.mem_filterMap.mp h
  have hi := (List.mem_zipIdx' hmem).1
  simp only [Option.ite_none_right_eq_some, Option.some.injEq] at hstart
  omega

theorem laterStarts_pairwise (text : Text) : (ofText text).laterStarts.Pairwise (· < ·) := by
  induction text using List.reverseRecOn with
  | nil => exact .nil
  | append_singleton front c ih =>
    rw [laterStarts_concat, List.pairwise_append]
    refine ⟨ih, by split <;> simp, fun start hstart later hlater => ?_⟩
    have hle := (bounds_of_mem_laterStarts hstart).2
    split at hlater
    · rw [List.mem_singleton.mp hlater]
      omega
    · cases hlater

theorem length_laterStarts (text : Text) :
    (ofText text).laterStarts.length = text.count '\n' := by
  induction text using List.reverseRecOn with
  | nil => rfl
  | append_singleton front c ih =>
    rw [laterStarts_concat, List.length_append, ih, List.count_append]
    by_cases hc : c = '\n' <;> simp [hc]

/-- Behind the last start come as many characters as there are behind the last line feed. -/
theorem getLastD_laterStarts (text : Text) :
    (ofText text).laterStarts.getLastD 0 + (text.rtakeWhile (· != '\n')).length = text.length := by
  induction text using List.reverseRecOn with
  | nil => rfl
  | append_singleton front c ih =>
    rw [laterStarts_concat]
    by_cases hc : c = '\n'
    · rw [if_pos hc, List.getLastD_concat, List.rtakeWhile_concat_neg _ _ _ (by simp [hc])]
      simp
    · rw [if_neg hc, List.append_nil, List.rtakeWhile_concat_pos _ _ _ (by simp [hc])]
      simp only [List.length_append, List.length_singleton]
      omega

/-- **The lines passed at an offset are those of the text before it.** -/
theorem takeWhile_laterStarts {text : Text} {offset : ℕ} (h : offset ≤ text.length) :
    (ofText text).laterStarts.takeWhile (· ≤ offset) = (ofText (text.take offset)).laterStarts := by
  have hlength : (text.take offset).length = offset := List.length_take_of_le h
  have hsplit := laterStarts_append (text.take offset) (text.drop offset)
  rw [List.take_append_drop] at hsplit
  refine takeWhile_of_split hsplit (fun start hstart => ?_) (fun start hstart => ?_)
  · have hle := (bounds_of_mem_laterStarts hstart).2
    omega
  · obtain ⟨later, hlater, rfl⟩ := List.mem_map.mp (List.mem_of_mem_head? hstart)
    have hpos := (bounds_of_mem_laterStarts hlater).1
    omega

theorem line_locate {text : Text} {offset : ℕ} (h : offset ≤ text.length) :
    ((ofText text).locate offset).line = (text.take offset).count '\n' + 1 := by
  rw [← length_laterStarts, ← takeWhile_laterStarts h]
  rfl

theorem column_locate {text : Text} {offset : ℕ} (h : offset ≤ text.length) :
    ((ofText text).locate offset).column =
      ((text.take offset).rtakeWhile (· != '\n')).length + 1 := by
  have hlast := getLastD_laterStarts (text.take offset)
  rw [← takeWhile_laterStarts h, List.length_take_of_le h] at hlast
  simp only [locate]
  omega

/-! ### Offsets and positions of a text -/

theorem position_eq_ok_iff {table : LineTable} {offset : ℤ} {p : Position} :
    table.position offset = .ok p ↔
      (0 ≤ offset ∧ offset ≤ table.length) ∧ table.locate offset.toNat = p := by
  unfold position
  split
  · next houtside =>
    refine ⟨fun h => (by cases h), fun h => ?_⟩
    omega
  · next hinside =>
    rw [Except.ok.injEq]
    exact ⟨fun h => ⟨by omega, h⟩, fun h => h.2⟩

/-- A line, by its number, and a column on it have an offset if the line exists and is long
enough. -/
theorem offset_of_split {table : LineTable} {passed coming : List ℕ} {p : Position}
    (h : table.laterStarts = passed ++ coming) (hline : p.line = passed.length + 1) {offset : ℕ} :
    table.offset p = .ok offset ↔ passed.getLastD 0 + (p.column - 1) = offset ∧
      offset ≤ coming.head?.elim table.length (· - 1) := by
  have hdrop : table.starts.drop (p.line - 1) = passed.getLastD 0 :: coming := by
    rw [hline, Nat.add_sub_cancel, drop_starts h]
  have hbound : ∀ (fault : Fault) (found last : ℕ),
      (if found > last then Except.error fault else .ok found) = .ok offset ↔
        found = offset ∧ offset ≤ last := by
    intro fault found last
    split
    · refine ⟨fun h => (by cases h), fun h => ?_⟩
      omega
    · rw [Except.ok.injEq]
      omega
  rw [LineTable.offset, hdrop]
  cases coming <;> exact hbound _ _ _

/-- **The offset of a position is the one that has this position.** -/
theorem offset_eq_ok_iff {text : Text} {p : Position} {offset : ℕ} :
    (ofText text).offset p = .ok offset ↔ (ofText text).position offset = .ok p := by
  rw [position_eq_ok_iff, Int.toNat_natCast]
  constructor
  · intro h
    -- the line exists, so its number splits the starts
    have hexists : p.line - 1 < (ofText text).starts.length := by
      by_contra hpast
      rw [LineTable.offset, List.drop_eq_nil_of_le (Nat.not_lt.mp hpast)] at h
      cases h
    have hone := p.one_le_line
    have hsplit := (List.take_append_drop (p.line - 1) (ofText text).laterStarts).symm
    have hline : p.line = ((ofText text).laterStarts.take (p.line - 1)).length + 1 := by
      rw [starts, List.length_cons] at hexists
      rw [List.length_take]
      omega
    generalize (ofText text).laterStarts.take (p.line - 1) = passed at hsplit hline
    generalize (ofText text).laterStarts.drop (p.line - 1) = coming at hsplit
    obtain ⟨hoffset, hlast⟩ := (offset_of_split hsplit hline).mp h
    have hbounds : ∀ start ∈ passed ++ coming, 0 < start ∧ start ≤ text.length :=
      fun start hstart => bounds_of_mem_laterStarts (hsplit ▸ hstart)
    have hsorted := laterStarts_pairwise text
    rw [hsplit] at hsorted
    have hpassed : ∀ start ∈ passed, start ≤ offset := by
      intro start hstart
      have hle := le_getLastD (List.pairwise_append.mp hsorted).1 hstart
      omega
    have hcoming : ∀ start ∈ coming.head?, offset < start := by
      intro start hstart
      have hpos := (hbounds start (List.mem_append_right _ (List.mem_of_mem_head? hstart))).1
      rw [Option.mem_def.mp hstart, Option.elim] at hlast
      omega
    have hle : offset ≤ text.length := by
      cases hhead : coming.head? with
      | none =>
        rw [hhead] at hlast
        exact hlast
      | some next =>
        have hlt := hcoming next hhead
        have hnext := (hbounds next (List.mem_append_right _ (List.mem_of_mem_head? hhead))).2
        omega
    exact ⟨⟨Int.natCast_nonneg offset, Int.ofNat_le.mpr hle⟩,
      locate_of_split hsplit hpassed hcoming hline hoffset⟩
  · rintro ⟨⟨-, hle⟩, rfl⟩
    have hle : offset ≤ (ofText text).length := Int.ofNat_le.mp hle
    have hsplit := (List.takeWhile_append_dropWhile (p := (· ≤ offset))
      (l := (ofText text).laterStarts)).symm
    have hstart : ((ofText text).laterStarts.takeWhile (· ≤ offset)).getLastD 0 ≤ offset :=
      getLastD_le fun _ => le_of_mem_takeWhile
    refine (offset_of_split hsplit rfl).mpr ⟨?_, ?_⟩
    · simp only [locate]
      omega
    · cases hcoming : ((ofText text).laterStarts.dropWhile (· ≤ offset)).head? with
      | none => exact hle
      | some next =>
        have hnext := List.head?_dropWhile_not (· ≤ offset) (ofText text).laterStarts
        simp only [hcoming, decide_eq_false_iff_not] at hnext
        show offset ≤ next - 1
        omega

/-- Offsets and positions of `text` correspond to each other, in order, by the given table. -/
structure Corresponds (table : LineTable) (text : Text) : Prop where
  /-- The offsets with a position are those of the text, its end included. -/
  position_ok_iff : ∀ offset : ℤ,
    (∃ p, table.position offset = .ok p) ↔ 0 ≤ offset ∧ offset ≤ text.length
  /-- The line counts the line feeds before the offset, and the column the characters behind the
  last of them, both from one. -/
  position_counts : ∀ (offset : ℕ) (p : Position), table.position offset = .ok p →
    p.line = 1 + (text.take offset).count '\n' ∧
      p.column = 1 + ((text.take offset).rtakeWhile (· != '\n')).length
  /-- The offset of a position is the one that has this position, and there is none if no offset
  has it. -/
  offset_ok_iff : ∀ (p : Position) (offset : ℕ),
    table.offset p = .ok offset ↔ table.position offset = .ok p
  /-- Positions come in the order of their offsets. -/
  lt_iff : ∀ (a b : ℕ) (p q : Position), table.position a = .ok p → table.position b = .ok q →
    (a < b ↔ p < q)

/-- **Offsets and positions of a text correspond.** -/
theorem ofText_corresponds (text : Text) : (ofText text).Corresponds text where
  position_ok_iff offset := by
    simp only [position_eq_ok_iff, length_ofText, exists_and_left, exists_eq', and_true]
  position_counts offset p h := by
    obtain ⟨⟨-, hle⟩, rfl⟩ := position_eq_ok_iff.mp h
    have hle : offset ≤ text.length := Int.ofNat_le.mp hle
    rw [Int.toNat_natCast, line_locate hle, column_locate hle]
    exact ⟨Nat.add_comm _ 1, Nat.add_comm _ 1⟩
  offset_ok_iff p offset := offset_eq_ok_iff
  lt_iff a b p q hp hq := by
    rw [← (position_eq_ok_iff.mp hp).2, ← (position_eq_ok_iff.mp hq).2, Int.toNat_natCast,
      Int.toNat_natCast, locate_lt_locate_iff]

end LineTable

/-! ### What a position denotes -/

/-- The given line of a text starts at the given offset: the text in front of it has all the lines
before and ends with a line feed, unless there is nothing in front. -/
def StartsLine (text : Text) (line offset : ℕ) : Prop :=
  ∃ front rest, text = front ++ rest ∧ front.length = offset ∧ line = front.count '\n' + 1 ∧
    ∀ c ∈ front.getLast?, c = '\n'

/-- A line starts in one place only. -/
theorem StartsLine.unique {text : Text} {line a b : ℕ} (ha : StartsLine text line a)
    (hb : StartsLine text line b) : a = b := by
  wlog hle : a ≤ b generalizing a b
  · exact (this hb ha (Nat.le_of_not_le hle)).symm
  obtain ⟨front, rest, htext, rfl, hline, -⟩ := ha
  obtain ⟨front', rest', htext', rfl, hline', hlast⟩ := hb
  -- what lies between the two places has no line feed, yet it ends with one
  obtain ⟨between, rfl⟩ : front <+: front' :=
    List.prefix_of_prefix_length_le ⟨rest, htext.symm⟩ ⟨rest', htext'.symm⟩ hle
  rcases between.eq_nil_or_concat' with rfl | ⟨others, last, rfl⟩
  · rw [List.append_nil]
  · exfalso
    rw [← List.append_assoc, List.getLast?_concat] at hlast
    rw [hlast last rfl] at hline'
    simp only [List.count_append, List.count_singleton_self] at hline'
    omega

/-- The position stands for an offset of the text, counted from the start of its line. The line may
be too short for it. -/
def Position.Denotes (p : Position) (text : Text) (offset : ℕ) : Prop :=
  ∃ first, StartsLine text p.line first ∧ offset = first + p.column - 1

namespace Position.Denotes

variable {text : Text} {p q : Position} {a b : ℕ}

/-- On one line, positions are in order if what they denote is. -/
theorem lt_iff_of_line_eq (hp : p.Denotes text a) (hq : q.Denotes text b)
    (hline : p.line = q.line) : p.column < q.column ↔ a < b := by
  obtain ⟨first, hfirst, rfl⟩ := hp
  obtain ⟨first', hfirst', rfl⟩ := hq
  obtain rfl := hfirst.unique (hline ▸ hfirst')
  have hone := p.one_le_column
  have hone' := q.one_le_column
  omega

/-- Columns and offsets are counted alike. -/
theorem shift (hp : p.Denotes text a) (n : ℕ) (hline : q.line = p.line)
    (hcolumn : q.column = p.column + n) : q.Denotes text (a + n) := by
  obtain ⟨first, hfirst, rfl⟩ := hp
  have hone := p.one_le_column
  refine ⟨first, hline ▸ hfirst, ?_⟩
  omega

end Position.Denotes

/-- The position of an offset denotes it. -/
theorem LineTable.denotes_locate {text : Text} {offset : ℕ} (h : offset ≤ text.length) :
    ((ofText text).locate offset).Denotes text offset := by
  have hline := line_locate h
  have hcolumn := column_locate h
  have hsplit := List.rdropWhile_append_rtakeWhile (p := (· != '\n')) (l := text.take offset)
  have hrun : ((text.take offset).rtakeWhile (· != '\n')).count '\n' = 0 := by
    refine List.count_eq_zero.mpr fun hmem => ?_
    simpa using List.mem_rtakeWhile_imp hmem
  have hcount := congrArg (List.count '\n') hsplit
  rw [List.count_append, hrun, Nat.add_zero] at hcount
  refine ⟨((text.take offset).rdropWhile (· != '\n')).length,
    ⟨_, (text.take offset).rtakeWhile (· != '\n') ++ text.drop offset, ?_, rfl, ?_, ?_⟩, ?_⟩
  · rw [← List.append_assoc, hsplit, List.take_append_drop]
  · rw [hline, hcount]
  · intro c hc
    have hne := List.ne_nil_of_mem (List.mem_of_getLast? hc)
    have hlast := List.rdropWhile_last_not (· != '\n') (text.take offset) hne
    rw [List.getLast?_eq_some_getLast hne, Option.mem_def, Option.some.injEq] at hc
    rw [hc] at hlast
    simpa using hlast
  · have hlength := congrArg List.length hsplit
    rw [List.length_append, List.length_take_of_le h] at hlength
    omega

end MarkupLint

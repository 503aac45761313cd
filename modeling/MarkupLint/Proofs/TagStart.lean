import Mathlib.Data.List.DropRight
import Mathlib.Data.List.TakeWhile
import MarkupLint.Tag.Start

/-!
# Where tags start

`TagStart.read?` takes a tag start from the front of a text. This file says what a tag start is
without saying how it is read: `<`, perhaps a `/`, a name, and behind the name no character that
could still belong to it. The last clause is what makes the name as long as it can be, and it is the
only thing that a tag start demands of the text behind it.

From this follows where tag starts can stand. Two tag starts at one offset are the same, a tag start
holds no `<` but its first character, and it holds no `>`. So tag starts do not overlap, and a `>`
that is not in front of a tag start is behind its end.

To see whether a tag start is ever ended, it is not necessary to look through the text behind it:
the last `>` of the whole text tells it, for all tag starts at once.

## Main results

* `TagStart.read?_eq_some_iff` — what is read is what stands at the front
* `TagStart.At.unique`, `TagStart.At.not_at_inside` — tag starts do not overlap
* `TagStart.Unended.lt_of_getElem?` — no `>` follows a tag start that is never ended
* `TagStart.unended_iff_lastClose` — it is enough to know the last `>` of a text
-/

namespace MarkupLint

namespace TagStart

/-! ### Tag starts at the front of a text -/

/-- A name is a letter with letters and digits behind it. -/
def IsName (name : Text) : Prop :=
  ∃ c rest, name = c :: rest ∧ c.isAlpha = true ∧ ∀ d ∈ rest, d.isAlphanum = true

theorem isName_cons_iff {c : Char} {rest : Text} :
    IsName (c :: rest) ↔ (c.isAlpha && rest.all Char.isAlphanum) = true := by
  rw [Bool.and_eq_true, List.all_eq_true]
  constructor
  · rintro ⟨_, _, heq, h⟩
    cases heq
    exact h
  · rintro ⟨hc, hrest⟩
    exact ⟨c, rest, rfl, hc, hrest⟩

instance : DecidablePred IsName
  | [] => isFalse (by rintro ⟨c, rest, heq, -⟩; cases heq)
  | _ :: _ => decidable_of_iff _ isName_cons_iff.symm

/-- A text does not go on with a letter or a digit. -/
def EndsName (rest : Text) : Prop := ∀ c ∈ rest.head?, c.isAlphanum = false

instance : DecidablePred EndsName
  | [] => isTrue fun _ hc => (by cases hc)
  | c :: _ => decidable_of_iff (c.isAlphanum = false)
      ⟨fun h _ hc => Option.some.inj hc ▸ h, fun h => h c rfl⟩

/-- The tag start stands at the front of `text`, and `rest` is all that comes behind it. -/
structure Begins (start : TagStart) (text rest : Text) : Prop where
  /-- The text is that of the tag start and the rest. -/
  text_eq : text = start.text ++ rest
  /-- The name is one. -/
  isName : IsName start.written
  /-- The name is as long as it can be. -/
  endsName : EndsName rest

theorem IsName.isAlphanum {name : Text} (h : IsName name) {c : Char} (hc : c ∈ name) :
    c.isAlphanum = true := by
  obtain ⟨first, rest, rfl, hfirst, hrest⟩ := h
  rcases List.mem_cons.mp hc with rfl | hc
  · simp [Char.isAlphanum, hfirst]
  · exact hrest c hc

theorem readName?_eq_some_iff {text name rest : Text} :
    readName? text = some (name, rest) ↔ text = name ++ rest ∧ IsName name ∧ EndsName rest := by
  constructor
  · intro h
    cases text with
    | nil => cases h
    | cons c text =>
      simp only [readName?, Option.ite_none_right_eq_some, Option.some.injEq, Prod.mk.injEq] at h
      obtain ⟨hc, rfl, rfl⟩ := h
      refine ⟨?_, ⟨c, _, rfl, hc, fun d hd => List.mem_takeWhile_imp hd⟩, head?_dropWhile _ text⟩
      rw [List.cons_append, List.takeWhile_append_dropWhile]
  · rintro ⟨rfl, ⟨c, tail, rfl, hc, htail⟩, hrest⟩
    simp only [readName?, List.cons_append, hc, if_true]
    rw [takeWhile_run htail hrest, dropWhile_run htail hrest]

/-- **What is read is what stands at the front.** -/
theorem read?_eq_some_iff {text rest : Text} {start : TagStart} :
    read? text = some (start, rest) ↔ start.Begins text rest := by
  constructor
  · intro h
    unfold read? at h
    split at h
    · obtain ⟨⟨name, rest'⟩, hname, heq⟩ := Option.map_eq_some_iff.mp h
      cases heq
      obtain ⟨rfl, hname, hrest⟩ := readName?_eq_some_iff.mp hname
      exact ⟨rfl, hname, hrest⟩
    · obtain ⟨⟨name, rest'⟩, hname, heq⟩ := Option.map_eq_some_iff.mp h
      cases heq
      obtain ⟨rfl, hname, hrest⟩ := readName?_eq_some_iff.mp hname
      exact ⟨rfl, hname, hrest⟩
    · cases h
  · rintro ⟨rfl, hname, hrest⟩
    have hread := readName?_eq_some_iff.mpr ⟨rfl, hname, hrest⟩
    obtain ⟨closing, written⟩ := start
    cases closing with
    | true => simp [text, read?, hread]
    | false =>
      -- the name does not start with a slash, so the first row of `read?` does not apply
      obtain ⟨c, tail, rfl, hc, -⟩ := hname
      have hslash : c ≠ '/' := by rintro rfl; exact absurd hc (by decide)
      simp only [text, Bool.false_eq_true, if_false, List.nil_append, List.cons_append] at hread ⊢
      rw [read?]
      · rw [hread]; rfl
      · rintro rest' heq
        exact hslash (List.cons.inj heq).1

theorem Begins.unique {start start' : TagStart} {text rest rest' : Text}
    (h : start.Begins text rest) (h' : start'.Begins text rest') :
    start = start' ∧ rest = rest' := by
  have heq := (read?_eq_some_iff.mpr h).symm.trans (read?_eq_some_iff.mpr h')
  exact Prod.mk.inj (Option.some.inj heq)

/-! ### The characters of a tag start -/

@[simp] theorem length_text_pos (start : TagStart) : 0 < start.text.length := Nat.succ_pos _

/-- Behind its first character a tag start has a slash, letters and digits only. -/
theorem mem_tail_text {start : TagStart} (h : IsName start.written) {c : Char}
    (hc : c ∈ start.text.tail) : c = '/' ∨ c.isAlphanum = true := by
  rcases List.mem_append.mp hc with hc | hc
  · left
    split at hc
    · exact List.mem_singleton.mp hc
    · cases hc
  · exact .inr (h.isAlphanum hc)

theorem lt_notMem_tail_text {start : TagStart} (h : IsName start.written) :
    '<' ∉ start.text.tail := by
  intro hc
  rcases mem_tail_text h hc with hc | hc <;> exact absurd hc (by decide)

theorem gt_notMem_text {start : TagStart} (h : IsName start.written) : '>' ∉ start.text := by
  intro hc
  rcases List.mem_cons.mp hc with hc | hc
  · exact absurd hc (by decide)
  · rcases mem_tail_text h hc with hc | hc <;> exact absurd hc (by decide)

/-! ### Tag starts anywhere in a text -/

/-- The tag start stands at the given offset of a text. -/
def At (start : TagStart) (text : Text) (offset : ℕ) : Prop :=
  ∃ rest, start.Begins (text.drop offset) rest

/-- The tag start stands at the given offset of a text, and no `>` comes behind it. -/
def Unended (start : TagStart) (text : Text) (offset : ℕ) : Prop :=
  start.At text offset ∧ '>' ∉ text.drop (offset + start.text.length)

theorem at_zero_iff {start : TagStart} {text : Text} :
    start.At text 0 ↔ ∃ rest, start.Begins text rest := Iff.rfl

@[simp] theorem at_append_iff {start : TagStart} {front text : Text} {offset : ℕ} :
    start.At (front ++ text) (front.length + offset) ↔ start.At text offset := by
  rw [At, List.drop_length_add_append, At]

@[simp] theorem unended_append_iff {start : TagStart} {front text : Text} {offset : ℕ} :
    start.Unended (front ++ text) (front.length + offset) ↔ start.Unended text offset := by
  rw [Unended, at_append_iff, Nat.add_assoc, List.drop_length_add_append, Unended]

theorem At.unique {start start' : TagStart} {text : Text} {offset : ℕ} (h : start.At text offset)
    (h' : start'.At text offset) : start = start' := by
  obtain ⟨rest, h⟩ := h
  obtain ⟨rest', h'⟩ := h'
  exact (h.unique h').1

/-- A tag start is a piece of the text it stands in. -/
theorem At.getElem?_eq {start : TagStart} {text : Text} {offset i : ℕ} (h : start.At text offset)
    (hi : i < start.text.length) : text[offset + i]? = start.text[i]? := by
  obtain ⟨rest, h⟩ := h
  rw [← List.getElem?_drop, h.text_eq, List.getElem?_append_left hi]

theorem At.isName {start : TagStart} {text : Text} {offset : ℕ} (h : start.At text offset) :
    IsName start.written :=
  h.elim fun _ h => h.isName

theorem At.getElem?_zero {start : TagStart} {text : Text} {offset : ℕ}
    (h : start.At text offset) : text[offset]? = some '<' :=
  h.getElem?_eq start.length_text_pos

theorem At.lt_length {start : TagStart} {text : Text} {offset : ℕ} (h : start.At text offset) :
    offset < text.length := by
  by_contra hge
  have hnone := h.getElem?_zero
  rw [List.getElem?_eq_none (Nat.not_lt.mp hge)] at hnone
  cases hnone

/-- **Tag starts do not overlap.** -/
theorem At.not_at_inside {start start' : TagStart} {text : Text} {offset i : ℕ}
    (h : start.At text offset) (hpos : 0 < i) (hi : i < start.text.length) :
    ¬ start'.At text (offset + i) := by
  intro h'
  have hlt := h'.getElem?_zero
  rw [h.getElem?_eq hi] at hlt
  obtain ⟨i, rfl⟩ := Nat.exists_eq_succ_of_ne_zero hpos.ne'
  refine lt_notMem_tail_text h.isName (List.mem_of_getElem? (i := i) ?_)
  rw [List.getElem?_tail]
  exact hlt

/-- A `>` that is not in front of a tag start is behind its end. -/
theorem At.le_of_getElem? {start : TagStart} {text : Text} {offset i : ℕ}
    (h : start.At text offset) (hi : offset ≤ i) (hgt : text[i]? = some '>') :
    offset + start.text.length ≤ i := by
  by_contra hlt
  obtain ⟨j, rfl⟩ := Nat.exists_eq_add_of_le hi
  rw [h.getElem?_eq (by omega)] at hgt
  exact gt_notMem_text h.isName (List.mem_of_getElem? hgt)

/-- **No `>` follows a tag start that is never ended.** -/
theorem Unended.lt_of_getElem? {start : TagStart} {text : Text} {offset i : ℕ}
    (h : start.Unended text offset) (hgt : text[i]? = some '>') : i < offset := by
  by_contra hge
  have hle := h.1.le_of_getElem? (Nat.not_lt.mp hge) hgt
  obtain ⟨j, rfl⟩ := Nat.exists_eq_add_of_le hle
  refine h.2 (List.mem_of_getElem? (i := j) ?_)
  rw [List.getElem?_drop]
  exact hgt

end TagStart

/-! ### The last `>` -/

/-- The offset of the last `>` of a text, or minus one if there is none. -/
def lastClose (text : Text) : ℤ := (text.rdropWhile (· != '>')).length - 1

theorem lastClose_concat (text : Text) (c : Char) :
    lastClose (text ++ [c]) = if c = '>' then (text.length : ℤ) else lastClose text := by
  rw [lastClose, List.rdropWhile_concat, lastClose]
  by_cases hc : c = '>'
  · simp [hc]
  · simp [hc]

/-- **The last `>` of a text is before an offset exactly if no `>` follows there.** -/
theorem lastClose_lt_iff {text : Text} {offset : ℕ} :
    lastClose text < offset ↔ '>' ∉ text.drop offset := by
  induction text using List.reverseRecOn with
  | nil =>
    have hnone : lastClose [] = -1 := rfl
    rw [hnone, List.drop_nil]
    exact ⟨fun _ => List.not_mem_nil, fun _ => by omega⟩
  | append_singleton text c ih =>
    rw [lastClose_concat, List.drop_append]
    by_cases hc : c = '>'
    · rw [if_pos hc, hc]
      rcases Nat.lt_or_ge text.length offset with hlt | hge
      · have hdrop : ['>'].drop (offset - text.length) = [] :=
          List.drop_eq_nil_of_le (by simp only [List.length_singleton]; omega)
        rw [hdrop, List.drop_eq_nil_of_le hlt.le]
        simpa using hlt
      · rw [Nat.sub_eq_zero_of_le hge, List.drop_zero]
        simpa using hge
    · have hlast : '>' ∉ [c].drop (offset - text.length) := fun hmem =>
        hc (List.mem_singleton.mp (List.mem_of_mem_drop hmem)).symm
      rw [if_neg hc, ih, List.mem_append, not_or, and_iff_left hlast]

theorem TagStart.unended_iff_lastClose {start : TagStart} {text : Text} {offset : ℕ} :
    start.Unended text offset ↔
      start.At text offset ∧ lastClose text < (offset + start.text.length : ℕ) :=
  and_congr_right fun _ => lastClose_lt_iff.symm

end MarkupLint

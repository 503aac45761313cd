import MarkupLint.Proofs.AttributeBounds
import MarkupLint.Proofs.Recognition
import MarkupLint.Proofs.Spelling

/-!
# The attributes of a tag as parts of its text

A layout says how the inside of a tag is made up, from left to right. This file reads off what that
means for the tag as a whole: its attributes stand one behind the other inside the attribute text,
each of them is written where it says it is, and what is left over cannot stand in a name. Nothing
of the tag is lost, since the attribute text is all of it but the tag start in front and the `>` or
`/>` behind.

A name is as long as it can be on both sides. Behind it this is part of what a spelling is. In front
of it, it is not: an attribute can follow another without a blank between them, as in `a="1"b`. But
then the first has a value in quotes, and its last character is a quote.

## Main results

* `Attribute.Layout.in_order`, `Attribute.Layout.between` — where the attributes are and where not
* `Attribute.Layout.exists_writtenIn` — each attribute is written where it says it is
* `Tag.attributeText_ofStart` — what the attribute text of a tag is
* `Scan.attributes_decompose` — the attributes of every tag of a scan
-/

namespace MarkupLint

namespace Attribute

/-- The attribute is written in `text`, which starts at `offset` in its tag, between `before` and
`after`. -/
structure WrittenIn (attr : Attribute) (offset : ℕ) (text before : Text) (s : Spelling)
    (after : Text) : Prop where
  /-- The text is made up of these three. -/
  text_eq : text = before ++ (s.text ++ after)
  /-- The attribute is the one that is written there. -/
  attr_eq : attr = s.toAttribute (offset + before.length)
  /-- The name starts where a run of name characters does. -/
  name_starts : ∀ c ∈ before.getLast?, isNameChar c = false
  /-- The name stops where the run does. -/
  name_stops : ∀ c ∈ (s.form.text ++ after).head?, isNameChar c = false
  /-- What comes behind the attribute is not part of it. -/
  stops : s.form.StopsBefore after

/-! ### The parts of a layout -/

theorem Spelling.length_text_pos (s : Spelling) : 0 < s.text.length := by
  obtain ⟨c, rest, htext, -⟩ := s.exists_text_eq_cons
  rw [htext]
  exact Nat.succ_pos _

/-- Between two attributes without a gap stands the quote of the first. -/
theorem Spelling.isNameChar_getLast? {s : Spelling} {rest : Text} (h : s.form.StopsBefore rest)
    {first : Char} (hfirst : first ∈ rest.head?) (hname : Attribute.isNameChar first = true) :
    ∀ c ∈ s.text.getLast?, Attribute.isNameChar c = false := by
  intro c hc
  cases hform : s.form with
  | bare =>
    rw [hform] at h
    simp [h.1 first hfirst] at hname
  | quoted before after quote value quote_notMem =>
    rw [s.getLast?_text, hform] at hc
    rw [← Option.some.inj hc]
    exact isNameChar_quote quote
  | unquoted before after value ne_nil not_blank =>
    rw [hform] at h
    simp [isNameChar_of_isBlank (h.1 first hfirst)] at hname

namespace Layout

variable {offset : ℕ} {text : Text} {attrs : List Attribute}

theorem le_offset (h : Layout offset text attrs) {attr : Attribute} (hattr : attr ∈ attrs) :
    offset ≤ attr.offset := by
  rw [← layout_iff.mp h] at hattr
  exact (bounds_of_mem_readAll hattr).1

/-- **Attributes stand one behind the other.** -/
theorem in_order (h : Layout offset text attrs) :
    attrs.Pairwise fun a b => a.offset < b.offset ∧ a.offset + a.length ≤ b.offset := by
  induction h with
  | nil => exact .nil
  | skip hc later ih => exact ih
  | @attr offset rest attrs s stops later ih =>
    refine .cons (fun b hb => ?_) ih
    have hle := later.le_offset hb
    have hpos := s.length_text_pos
    simp only [Spelling.toAttribute]
    omega

/-- **A character that belongs to no attribute cannot stand in a name.** -/
theorem between (h : Layout offset text attrs) {i : ℕ} {c : Char} (hc : text[i]? = some c)
    (houtside : ∀ attr ∈ attrs,
      ¬ (attr.offset ≤ offset + i ∧ offset + i < attr.offset + attr.length)) :
    isNameChar c = false := by
  induction h generalizing i with
  | nil => simp at hc
  | @skip offset first text attrs hfirst later ih =>
    cases i with
    | zero =>
      rw [← Option.some.inj hc]
      exact hfirst
    | succ i =>
      refine ih hc fun attr hattr => ?_
      have hattr := houtside attr hattr
      omega
  | @attr offset rest attrs s stops later ih =>
    have hinside := houtside _ List.mem_cons_self
    simp only [Spelling.toAttribute] at hinside
    obtain ⟨j, rfl⟩ := Nat.exists_eq_add_of_le (show s.text.length ≤ i by omega)
    rw [List.getElem?_append_right (Nat.le_add_right _ _), Nat.add_sub_cancel_left] at hc
    refine ih hc fun attr hattr => ?_
    have hattr := houtside attr (List.mem_cons_of_mem _ hattr)
    omega

/-- **Each attribute is written where it says it is.** -/
theorem exists_writtenIn (h : Layout offset text attrs) {attr : Attribute} (hattr : attr ∈ attrs) :
    ∃ before s after, attr.WrittenIn offset text before s after := by
  induction h with
  | nil => cases hattr
  | @skip offset c text attrs hc later ih =>
    obtain ⟨before, s, after, hwritten⟩ := ih hattr
    refine ⟨c :: before, s, after, ?_, ?_, ?_, hwritten.name_stops, hwritten.stops⟩
    · rw [hwritten.text_eq, List.cons_append]
    · rw [hwritten.attr_eq, List.length_cons]
      congr 1
      omega
    · cases hbefore : before with
      | nil => simpa using hc
      | cons d others =>
        rw [List.getLast?_cons_cons, ← hbefore]
        exact hwritten.name_starts
  | @attr offset rest attrs first stops later ih =>
    rcases List.mem_cons.mp hattr with rfl | hattr
    · exact ⟨[], first, rest, rfl, rfl, by simp, Form.isNameChar_head? stops, stops⟩
    · obtain ⟨before, s, after, hwritten⟩ := ih hattr
      refine ⟨first.text ++ before, s, after, ?_, ?_, ?_, hwritten.name_stops, hwritten.stops⟩
      · rw [hwritten.text_eq, List.append_assoc]
      · rw [hwritten.attr_eq, List.length_append, Nat.add_assoc]
      · cases hbefore : before with
        | cons d others =>
          rw [List.getLast?_append_of_ne_nil _ (List.cons_ne_nil d others), ← hbefore]
          exact hwritten.name_starts
        | nil =>
          -- the name comes right behind the first attribute
          obtain ⟨c, others, htext, hc⟩ := s.exists_text_eq_cons
          have hrest : c ∈ rest.head? := by
            rw [hwritten.text_eq, hbefore, htext]
            rfl
          rw [List.append_nil]
          exact Spelling.isNameChar_getLast? stops hrest hc

end Layout

end Attribute

/-! ### The attribute text of a tag -/

namespace Tag

variable (offset : ℕ) (start : TagStart) (inner : Text)

theorem attributeOffset_ofStart :
    (ofStart offset start inner).attributeOffset = start.text.length := by
  obtain ⟨closing, written⟩ := start
  cases closing <;>
    simp [attributeOffset, isClosing, ofStart, TagStart.name, TagStart.text] <;> omega

theorem attributeText_ofStart :
    (ofStart offset start inner).attributeText =
      if inner.getLast? = some '/' then inner.dropLast else inner := by
  have hbody : (ofStart offset start inner).raw.dropLast.drop
      (ofStart offset start inner).attributeOffset = inner := by
    rw [attributeOffset_ofStart]
    simp [ofStart]
  simp only [attributeText, hbody]

variable {start} {inner : Text}

/-- The attribute text is all that is inside a tag, but for the `/` of a `/>`. -/
theorem exists_attributeText_append_eq (hname : TagStart.IsName start.written) :
    ∃ ending, (ofStart offset start inner).attributeText ++ ending = inner ++ ['>'] ∧
      (ending = ['/', '>'] ∧ ['/', '>'] <:+ (ofStart offset start inner).raw ∨
        ending = ['>'] ∧ ¬ ['/', '>'] <:+ (ofStart offset start inner).raw) := by
  have hslashed : inner.getLast? = some '/' ↔ ['/', '>'] <:+ (ofStart offset start inner).raw := by
    rw [← slashed_ofStart_iff hname]
    exact beq_iff_eq.symm
  rw [attributeText_ofStart, ← hslashed]
  split
  · next hlast =>
    obtain ⟨front, rfl⟩ := List.getLast?_eq_some_iff.mp hlast
    exact ⟨['/', '>'], by simp, .inl ⟨rfl, hlast⟩⟩
  · next hlast => exact ⟨['>'], rfl, .inr ⟨rfl, hlast⟩⟩

theorem exists_writtenIn {tag : Tag} {attr : Attribute} (h : attr ∈ tag.attributes) :
    ∃ before s after, attr.WrittenIn tag.attributeOffset tag.attributeText before s after :=
  (Attribute.layout_readAll tag.attributeOffset tag.attributeText).exists_writtenIn h

/-- The attributes of a tag make up its attribute text, with nothing else between them than blanks
and characters with a meaning of their own. -/
structure AttributesDecompose (tag : Tag) : Prop where
  /-- The attribute text stands between the tag start, which is that of the tag, and the end of the
  tag, which is a `/>` if the tag has one and otherwise a `>`. -/
  raw_eq : ∃ (start : TagStart) (ending : Text), start.name = tag.name ∧
    start.closing = tag.isClosing ∧ start.Begins tag.raw (tag.attributeText ++ ending) ∧
    tag.attributeOffset = start.text.length ∧
    (ending = ['/', '>'] ∧ ['/', '>'] <:+ tag.raw ∨
      ending = ['>'] ∧ ¬ ['/', '>'] <:+ tag.raw)
  /-- The attributes come in order, and no two of them overlap. -/
  in_order : tag.attributes.Pairwise fun a b =>
    a.offset < b.offset ∧ a.offset + a.length ≤ b.offset
  /-- They lie inside the attribute text. -/
  inside : ∀ attr ∈ tag.attributes, tag.attributeOffset ≤ attr.offset ∧
    attr.offset + attr.length ≤ tag.attributeOffset + tag.attributeText.length
  /-- What belongs to no attribute is blank or has a meaning of its own. -/
  between : ∀ i c, tag.attributeText[i]? = some c →
    (∀ attr ∈ tag.attributes, ¬ (attr.offset ≤ tag.attributeOffset + i ∧
      tag.attributeOffset + i < attr.offset + attr.length)) →
    isBlank c = true ∨ c ∈ ['\x22', '\x27', '<', '>', '/', '=']
  /-- Each attribute is written in the attribute text, and its place and length in the tag are those
  of its characters. -/
  written : ∀ attr ∈ tag.attributes, ∃ before s after,
    attr.WrittenIn tag.attributeOffset tag.attributeText before s after ∧
      (tag.raw.drop attr.offset).take attr.length = s.text

theorem attributesDecompose_ofStart (hname : TagStart.IsName start.written)
    (hends : TagStart.EndsName (inner ++ ['>'])) :
    (ofStart offset start inner).AttributesDecompose := by
  obtain ⟨ending, hinner, hending⟩ := exists_attributeText_append_eq offset hname
  have hbegins : start.Begins (ofStart offset start inner).raw
      ((ofStart offset start inner).attributeText ++ ending) := by
    refine ⟨?_, hname, hinner ▸ hends⟩
    rw [hinner, ← List.append_assoc]
    rfl
  have hsame : start.name = (ofStart offset start inner).name ∧
      start.closing = (ofStart offset start inner).isClosing := ⟨rfl, rfl⟩
  have hoffset := attributeOffset_ofStart offset start inner
  generalize ofStart offset start inner = tag at hbegins hsame hoffset hending
  have hraw := hbegins.text_eq
  have hlayout : Attribute.Layout tag.attributeOffset tag.attributeText tag.attributes :=
    Attribute.layout_readAll _ _
  refine ⟨⟨start, ending, hsame.1, hsame.2, hbegins, hoffset, hending⟩, hlayout.in_order,
    fun attr hattr => Attribute.bounds_of_mem_readAll hattr, fun i c hc houtside => ?_,
    fun attr hattr => ?_⟩
  · have hname := hlayout.between hc houtside
    simpa [Attribute.isNameChar, Attribute.markChars, or_iff_not_imp_left] using hname
  · obtain ⟨before, s, after, hwritten⟩ := exists_writtenIn hattr
    refine ⟨before, s, after, hwritten, ?_⟩
    have hdrop : tag.raw.drop attr.offset = s.text ++ (after ++ ending) := by
      have hplace : attr.offset = (start.text ++ before).length := by
        rw [hwritten.attr_eq, hoffset, List.length_append]
        rfl
      have hsplit : tag.raw = (start.text ++ before) ++ (s.text ++ (after ++ ending)) := by
        rw [hraw, hwritten.text_eq]
        simp
      rw [hplace, hsplit, List.drop_left]
    have hlength : attr.length = s.text.length := by rw [hwritten.attr_eq]; rfl
    rw [hdrop, hlength, List.take_left]

end Tag

/-- **The attributes of every tag of a scan decompose it.** -/
theorem Scan.attributes_decompose (text : Text) :
    ∃ scan, ofText text = .ok scan ∧ ∀ tag ∈ scan.tags, tag.AttributesDecompose := by
  obtain ⟨scan, hscan, -⟩ := exists_ofText text
  refine ⟨scan, hscan, fun tag htag => ?_⟩
  obtain ⟨offset, start, inner, after, rfl, -, hbegins⟩ := occursIn_of_ofText hscan htag
  refine Tag.attributesDecompose_ofStart offset hbegins.isName ?_
  -- nothing but the first character behind the name counts
  have hhead : (inner ++ ['>']).head? = (inner ++ '>' :: after).head? := by cases inner <;> rfl
  rw [TagStart.EndsName, hhead]
  exact hbegins.endsName

end MarkupLint

import MarkupLint.Proofs.Decomposition
import MarkupLint.Proofs.Rendering

/-!
# Rendering a tag with its attributes

An `OpeningTag` is an opening tag as its author means it: a name and attributes, each of them
behind at least one blank, then perhaps more blanks and a slash. This file shows that the attributes
of a rendered tag are read back as they were written, each at its place.

What an attribute must not do in a tag is hold a `>`, since the tag would end there, and have a
value without quotes that begins with a quote, since a later quote would then belong to it. That is
`Form.Plain`. With it, an attribute stops before whatever may follow it: nothing, or a blank and
later the name of the next attribute. In front of a plain `>` there is one more thing to look at. If
the last attribute is a value without quotes that ends with a slash, the slash is taken for that of
the tag.

## Main results

* `Attribute.Item.stopsBefore_textOf` — an attribute is not changed by what comes behind it
* `Attribute.Item.layout_place` — the layout of a list of attributes
* `OpeningTag.attributes_render` — the attributes of a rendered tag are those that were written
-/

namespace MarkupLint

theorem isAlphanum_of_isBlank {c : Char} (h : isBlank c = true) : c.isAlphanum = false := by
  have halphanum : c.isAlphanum = ((decide (65 ≤ c.val ∧ c.val ≤ 90) ||
      (decide (97 ≤ c.val) && decide (c.val ≤ 122))) ||
        (decide (48 ≤ c.val) && decide (c.val ≤ 57))) := rfl
  have hval : c.toNat = c.val.toNat := rfl
  simp only [isBlank, blankRanges, CharRanges.contains, List.any_cons, List.any_nil,
    Bool.or_eq_true, Bool.and_eq_true, decide_eq_true_eq, Bool.false_eq_true, or_false] at h
  rw [halphanum, ← Bool.not_eq_true]
  simp only [Bool.or_eq_true, Bool.and_eq_true, decide_eq_true_eq, UInt32.le_iff_toNat_le,
    UInt32.reduceToNat]
  omega

namespace Attribute

/-- What is written behind the name can stand in a tag: it does not end the tag, and a value without
quotes does not begin with one. -/
def Form.Plain : Form → Prop
  | bare => True
  | quoted _ _ _ value _ => '>' ∉ value
  | unquoted _ _ value _ _ => '>' ∉ value ∧ ∀ quote : Quote, value.head? ≠ some quote.char

/-- A value without quotes that ends with a slash. -/
def Form.EndsInSlash : Form → Prop
  | bare => False
  | quoted _ _ _ _ _ => False
  | unquoted _ _ value _ _ => value.getLast? = some '/'

/-- An attribute in a tag, with the blanks in front of it. -/
structure Item where
  /-- The blanks. -/
  gap : Blanks
  /-- There is at least one of them. -/
  gap_ne_nil : gap.text ≠ []
  /-- The attribute. -/
  spelling : Spelling
  /-- It can stand in a tag. -/
  plain : spelling.form.Plain

namespace Item

/-- The characters of an attribute and of the blanks in front of it. -/
def text (item : Item) : Text := item.gap.text ++ item.spelling.text

/-- The text of attributes with blanks behind the last of them. -/
def textOf (items : List Item) (tail : Blanks) : Text := items.flatMap text ++ tail.text

/-- The attributes of a text that starts at `offset` in its tag. -/
def place (offset : ℕ) : List Item → List Attribute
  | [] => []
  | item :: items =>
    item.spelling.toAttribute (offset + item.gap.text.length) ::
      place (offset + item.text.length) items

theorem textOf_cons (item : Item) (items : List Item) (tail : Blanks) :
    textOf (item :: items) tail =
      item.gap.text ++ (item.spelling.text ++ textOf items tail) := by
  simp [textOf, text]

end Item

/-! ### What comes behind an attribute -/

theorem Assigns.head?_dropWhile {text : Text} (h : Assigns text) :
    (text.dropWhile isBlank).head? = some '=' := by
  obtain ⟨before, after, c, rest, rfl, -⟩ := h
  rw [before.dropWhile_equals]
  rfl

namespace Item

theorem isBlank_head?_textOf (items : List Item) (tail : Blanks) :
    ∀ c ∈ (textOf items tail).head?, isBlank c = true := by
  intro c hc
  cases items with
  | nil => exact tail.isBlank c (List.mem_of_head? hc)
  | cons item items =>
    obtain ⟨first, others, hgap⟩ := List.exists_cons_of_ne_nil item.gap_ne_nil
    rw [textOf_cons, hgap] at hc
    rw [← Option.some.inj hc]
    exact item.gap.isBlank first (hgap ▸ List.mem_cons_self)

/-- Behind an attribute, the first character that is not blank is that of a name. -/
theorem not_assigns_textOf (items : List Item) (tail : Blanks) : ¬ Assigns (textOf items tail) := by
  intro hassigns
  have hhead := hassigns.head?_dropWhile
  cases items with
  | nil =>
    have hdrop : (textOf [] tail).dropWhile isBlank = [] := by
      rw [List.dropWhile_eq_nil_iff]
      exact tail.isBlank
    rw [hdrop] at hhead
    cases hhead
  | cons item items =>
    obtain ⟨c, rest, htext, hc⟩ := item.spelling.exists_text_eq_cons
    have hstop : ∀ d ∈ (item.spelling.text ++ textOf items tail).head?, isBlank d = false := by
      intro d hd
      rw [htext] at hd
      rw [← Option.some.inj hd]
      exact isBlank_of_isNameChar hc
    rw [textOf_cons, dropWhile_run item.gap.isBlank hstop, htext] at hhead
    rw [Option.some.inj hhead] at hc
    cases hc

/-- **An attribute is not changed by what comes behind it.** -/
theorem stopsBefore_textOf {form : Form} (h : form.Plain) (items : List Item) (tail : Blanks) :
    form.StopsBefore (textOf items tail) := by
  have hblank := isBlank_head?_textOf items tail
  cases form with
  | bare =>
    exact ⟨fun c hc => isNameChar_of_isBlank (hblank c hc), not_assigns_textOf items tail⟩
  | quoted before after quote value quote_notMem => trivial
  | unquoted before after value ne_nil not_blank =>
    exact ⟨hblank, fun quote hquote => absurd hquote (h.2 quote)⟩

end Item

/-! ### The layout of a list of attributes -/

theorem Layout.skip_append {gap : Text} (hgap : ∀ c ∈ gap, isNameChar c = false) {offset : ℕ}
    {text : Text} {attrs : List Attribute} (later : Layout (offset + gap.length) text attrs) :
    Layout offset (gap ++ text) attrs := by
  induction gap generalizing offset with
  | nil => exact later
  | cons c gap ih =>
    refine .skip (hgap c List.mem_cons_self) (ih (fun d hd => hgap d (.tail c hd)) ?_)
    rwa [Nat.add_assoc, Nat.add_comm 1]

theorem Blanks.isNameChar (blanks : Blanks) : ∀ c ∈ blanks.text, Attribute.isNameChar c = false :=
  fun c hc => isNameChar_of_isBlank (blanks.isBlank c hc)

namespace Item

/-- **The layout of a list of attributes** is the list, each of them behind its blanks. -/
theorem layout_place (items : List Item) (tail : Blanks) (offset : ℕ) :
    Layout offset (textOf items tail) (place offset items) := by
  induction items generalizing offset with
  | nil =>
    have hlayout : Layout offset (tail.text ++ []) [] := .skip_append tail.isNameChar .nil
    rwa [List.append_nil] at hlayout
  | cons item items ih =>
    rw [textOf_cons, place]
    refine .skip_append item.gap.isNameChar (.attr item.spelling
      (stopsBefore_textOf item.plain items tail) ?_)
    rw [Nat.add_assoc, ← List.length_append]
    exact ih _

/-! ### The characters of a list of attributes -/

theorem gt_notMem_text (item : Item) : '>' ∉ item.text := by
  have hblanks : ∀ blanks : Blanks, '>' ∉ blanks.text := fun blanks hmem =>
    absurd (blanks.isBlank _ hmem) (by decide)
  have hname : '>' ∉ item.spelling.name := fun hmem =>
    absurd (item.spelling.isNameChar _ hmem) (by decide)
  have hform : '>' ∉ item.spelling.form.text := by
    have hplain := item.plain
    cases hform : item.spelling.form with
    | bare => exact List.not_mem_nil
    | quoted before after quote value quote_notMem =>
      rw [hform] at hplain
      have hvalue : '>' ∉ value := hplain
      have hquote : '>' ≠ quote.char := by cases quote <;> decide
      simp [Form.text, hblanks, hquote, hvalue]
    | unquoted before after value ne_nil not_blank =>
      rw [hform] at hplain
      have hvalue : '>' ∉ value := hplain.1
      simp [Form.text, hblanks, hvalue]
  simp [text, Spelling.text, hblanks, hname, hform]

theorem gt_notMem_textOf (items : List Item) (tail : Blanks) : '>' ∉ textOf items tail := by
  have htail : '>' ∉ tail.text := fun hmem => absurd (tail.isBlank _ hmem) (by decide)
  simp [textOf, gt_notMem_text, htail]

/-- An attribute ends with a slash only if its value does. -/
theorem endsInSlash_of_getLast? {s : Spelling} (h : s.text.getLast? = some '/') :
    s.form.EndsInSlash := by
  rw [s.getLast?_text] at h
  cases hform : s.form with
  | bare =>
    rw [hform] at h
    exact absurd (s.isNameChar _ (List.mem_of_getLast? h)) (by decide)
  | quoted before after quote value quote_notMem =>
    rw [hform] at h
    cases quote <;> cases h
  | unquoted before after value ne_nil not_blank =>
    rwa [hform] at h

theorem getLast?_textOf_ne {items : List Item} {tail : Blanks}
    (h : tail.text = [] → ∀ item ∈ items.getLast?, ¬ item.spelling.form.EndsInSlash) :
    (textOf items tail).getLast? ≠ some '/' := by
  intro hlast
  rw [textOf] at hlast
  by_cases htail : tail.text = []
  · rcases List.eq_nil_or_concat' items with rfl | ⟨front, item, rfl⟩
    · simp [htail] at hlast
    · have hne : item.spelling.text ≠ [] := List.length_pos_iff.mp item.spelling.length_text_pos
      have htext : (front ++ [item]).flatMap text ++ tail.text =
          (front.flatMap text ++ item.gap.text) ++ item.spelling.text := by
        simp [htail, text]
      rw [htext, List.getLast?_append_of_ne_nil _ hne] at hlast
      exact h htail item List.getLast?_concat (endsInSlash_of_getLast? hlast)
  · rw [List.getLast?_append_of_ne_nil _ htail] at hlast
    exact absurd (tail.isBlank _ (List.mem_of_getLast? hlast)) (by decide)

end Item

end Attribute

/-! ### Opening tags -/

/-- An opening tag with its attributes. -/
structure OpeningTag where
  /-- The name. -/
  name : Forest.Name
  /-- The attributes. -/
  items : List Attribute.Item
  /-- The blanks behind the last attribute. -/
  tail : Attribute.Blanks
  /-- Whether the tag ends with `/>`. -/
  slashed : Bool
  /-- A slash at the end of the last value is not mistaken for the slash of the tag. -/
  not_endsInSlash : slashed = false → tail.text = [] → ∀ item ∈ items.getLast?,
    ¬ item.spelling.form.EndsInSlash

namespace OpeningTag

/-- What stands between the name and the `>`. -/
def inner (tag : OpeningTag) : Forest.Filler where
  text := Attribute.Item.textOf tag.items tag.tail ++ if tag.slashed then ['/'] else []
  gt_notMem := by
    have hgt := Attribute.Item.gt_notMem_textOf tag.items tag.tail
    cases tag.slashed <;> simpa using hgt
  endsName := by
    have hblank := Attribute.Item.isBlank_head?_textOf tag.items tag.tail
    intro c hc
    cases htext : Attribute.Item.textOf tag.items tag.tail with
    | nil =>
      -- then there can only be the slash
      cases hslashed : tag.slashed with
      | true =>
        rw [htext, hslashed] at hc
        rw [← Option.some.inj hc]
        rfl
      | false =>
        rw [htext, hslashed] at hc
        cases hc
    | cons first others =>
      rw [htext] at hc hblank
      rw [← Option.some.inj hc]
      exact isAlphanum_of_isBlank (hblank first rfl)

/-- The text of a tag. -/
def render (tag : OpeningTag) : Text :=
  '<' :: tag.name.written ++ tag.items.flatMap Attribute.Item.text ++ tag.tail.text ++
    if tag.slashed then ['/', '>'] else ['>']

theorem render_eq (tag : OpeningTag) : tag.render = Forest.tagText false tag.name tag.inner := by
  cases hslashed : tag.slashed <;>
    simp [render, Forest.tagText, inner, Attribute.Item.textOf, hslashed]

theorem attributeText_tagAt (tag : OpeningTag) (offset : ℕ) :
    (Forest.tagAt offset false tag.name tag.inner).attributeText =
      Attribute.Item.textOf tag.items tag.tail := by
  rw [Forest.tagAt, Tag.attributeText_ofStart]
  cases hslashed : tag.slashed with
  | true => simp [inner, hslashed]
  | false =>
    have hlast := Attribute.Item.getLast?_textOf_ne (tag.not_endsInSlash hslashed)
    simp [inner, hslashed, hlast]

/-- **The attributes of a rendered tag are those that were written.** The scan of its text finds
the tag and nothing else, and the attributes of the tag are read in order, each with its name in
small letters, its value and the quotes around it, the offset at which it is rendered and the length
of what is rendered there. -/
theorem attributes_render (tag : OpeningTag) :
    ∃ scan found, Scan.ofText tag.render = .ok scan ∧ scan.tags = [found] ∧
      scan.diagnostics = [] ∧ found.raw = tag.render ∧
      found.attributes = Attribute.Item.place (1 + tag.name.written.length) tag.items := by
  have hpieces : Cursor.pieces ⟨0, tag.render⟩ =
      [Forest.tagAt 0 false tag.name tag.inner].map Piece.tag := by
    have hend : Cursor.pieces ⟨0 + tag.render.length, []⟩ = [] :=
      Cursor.pieces_of_next?_eq_none rfl
    have htag := Forest.pieces_tagText false tag.name tag.inner 0 []
    rwa [← tag.render_eq, hend, List.append_nil] at htag
  obtain ⟨scan, hscan, htags, hdiagnostics⟩ := Scan.exists_ofText_of_pieces hpieces
  refine ⟨scan, _, hscan, htags, hdiagnostics, ?_, ?_⟩
  · rw [Forest.raw_tagAt, tag.render_eq]
  · have hoffset : (Forest.tagAt 0 false tag.name tag.inner).attributeOffset =
        1 + tag.name.written.length := by
      rw [Forest.tagAt, Tag.attributeOffset_ofStart, Nat.add_comm]
      rfl
    rw [Tag.attributes, tag.attributeText_tagAt, hoffset]
    exact Attribute.layout_iff.mp (Attribute.Item.layout_place tag.items tag.tail _)

-- `<Img ALT = 'a"' src=/ />`: the slash that is the last value is not that of the tag.
example :
    let nothing : Attribute.Blanks := ⟨[], nofun⟩
    let blank : Attribute.Blanks := ⟨[' '], List.forall_mem_singleton.mpr rfl⟩
    let alt : Attribute.Spelling := ⟨"ALT".toList, by decide, List.all_eq_true.mp rfl,
      .quoted blank blank .single "a\x22".toList (by decide)⟩
    let src : Attribute.Spelling := ⟨"src".toList, by decide, List.all_eq_true.mp rfl,
      .unquoted nothing nothing ['/'] (by decide) (List.forall_mem_singleton.mpr rfl)⟩
    let tag : OpeningTag := ⟨⟨"Img".toList, by decide⟩,
      [⟨blank, by decide, alt, show '>' ∉ "a\x22".toList by decide⟩,
        ⟨blank, by decide, src, by decide, fun quote => by cases quote <;> decide⟩],
      blank, true, nofun⟩
    tag.render = "<Img ALT = 'a\x22' src=/ />".toList ∧
      Attribute.Item.place (1 + tag.name.written.length) tag.items =
        [⟨"alt", some ⟨"a\x22", some .single⟩, 5, 10⟩, ⟨"src", some ⟨"/", none⟩, 16, 5⟩] := by
  decide

end OpeningTag

end MarkupLint

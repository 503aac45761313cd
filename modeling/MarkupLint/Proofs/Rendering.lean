import MarkupLint.Proofs.Outline
import MarkupLint.Proofs.Recognition
import MarkupLint.Proofs.Walk

/-!
# Rendering a well-formed document

A `Forest` is a document as its author means it: text, leaves and elements with their children. What
the markup allows the author to choose is part of it, such as the case of the letters in the two
names of an element, the attributes as they are written, and what stands behind the name in a
closing tag. Its constructors ask for what makes the markup well-formed, so every forest is.

This file shows what becomes of a forest that is rendered as text. The scan finds the tags that were
written and nothing else, the check of the nesting has nothing to report, and the outline is the
list of the elements, in the order in which they end. All three walk from left to right, and what
they do behind a forest does not depend on the forest. So the three inductions are over the forest,
for any text or tags behind it and any elements that are open around it.

## Main results

* `Forest.pieces_render` — the pieces of a rendered forest are its tags
* `Forest.verdictsFrom_tags` — the check passes over the tags of a forest
* `Forest.extentsFrom_tags` — the outline lists the elements of a forest
* `Forest.outline_render` — rendering a forest loses nothing
-/

namespace MarkupLint

namespace Forest

/-- A name as it is written in a tag. -/
structure Name where
  /-- The name, in letters of either case. -/
  written : Text
  /-- It is a letter with letters and digits behind it. -/
  isName : TagStart.IsName written

/-- The name in small letters. -/
def Name.small (name : Name) : String := String.ofList (name.written.map Char.toLower)

/-- What stands behind the name in a tag. -/
structure Filler where
  /-- The characters. -/
  text : Text
  /-- None of them ends the tag. -/
  gt_notMem : '>' ∉ text
  /-- The first of them does not go on with the name. -/
  endsName : TagStart.EndsName text

/-- Behind anything else there can still be a slash. -/
def Filler.slash (filler : Filler) : Filler where
  text := filler.text ++ ['/']
  gt_notMem := by simpa using filler.gt_notMem
  endsName := by
    have hends := filler.endsName
    cases htext : filler.text with
    | nil => simp [TagStart.EndsName]
    | cons c rest => simpa [htext, TagStart.EndsName] using hends

/-- The text of a tag: `<name inner>` or, if it is a closing one, `</name inner>`. -/
def tagText (closing : Bool) (name : Name) (inner : Filler) : Text :=
  (if closing then ['<', '/'] else ['<']) ++ name.written ++ inner.text ++ ['>']

end Forest

open Forest in
/-- A well-formed document. Each constructor but the first puts one tree in front of a forest. -/
inductive Forest where
  /-- No trees. -/
  | nil
  /-- A text. It may hold a `>`. -/
  | text (content : Text) (lt_notMem : '<' ∉ content) (next : Forest)
  /-- A leaf `<name attrs>` with the name of a void element. -/
  | void (name : Name) (attrs : Filler) (isVoid : name.small ∈ Vocabulary.void) (next : Forest)
  /-- A leaf `<name attrs/>`. -/
  | slashed (name : Name) (attrs : Filler) (next : Forest)
  /-- An element `<name attrs>children</closer tail>`. -/
  | element (name : Name) (attrs : Filler) (notVoid : name.small ∉ Vocabulary.void)
      (notSlashed : attrs.text.getLast? ≠ some '/') (children : Forest) (closer : Name)
      (tail : Filler) (sameName : closer.small = name.small) (next : Forest)

namespace Forest

/-- The text of a forest. -/
def render : Forest → Text
  | nil => []
  | text content _ next => content ++ next.render
  | void name attrs _ next => tagText false name attrs ++ next.render
  | slashed name attrs next => tagText false name attrs.slash ++ next.render
  | element name attrs _ _ children closer tail _ next =>
    tagText false name attrs ++ (children.render ++ (tagText true closer tail ++ next.render))

/-- The elements of a forest that is rendered from `offset` on, with `depth` elements around it. An
element comes behind its children. -/
def entries (offset depth : ℕ) : Forest → List Outline.Entry
  | nil => []
  | text content _ next => next.entries (offset + content.length) depth
  | void name attrs _ next =>
    let stop := offset + (tagText false name attrs).length
    ⟨name.small, offset, stop, depth, true⟩ :: next.entries stop depth
  | slashed name attrs next =>
    let stop := offset + (tagText false name attrs.slash).length
    ⟨name.small, offset, stop, depth, true⟩ :: next.entries stop depth
  | element name attrs _ _ children closer tail _ next =>
    let inside := offset + (tagText false name attrs).length
    let stop := inside + children.render.length + (tagText true closer tail).length
    children.entries inside (depth + 1) ++
      ⟨name.small, offset, stop, depth, true⟩ :: next.entries stop depth

/-! ### One tag -/

/-- The tag `<name inner>` or `</name inner>` at an offset. -/
def tagAt (offset : ℕ) (closing : Bool) (name : Name) (inner : Filler) : Tag :=
  .ofStart offset ⟨closing, name.written⟩ inner.text

theorem raw_tagAt (offset : ℕ) (closing : Bool) (name : Name) (inner : Filler) :
    (tagAt offset closing name inner).raw = tagText closing name inner := by
  cases closing <;> rfl

theorem stop_tagAt (offset : ℕ) (closing : Bool) (name : Name) (inner : Filler) :
    (tagAt offset closing name inner).stop = ↑(offset + (tagText closing name inner).length) := by
  rw [Tag.stop, raw_tagAt]
  rfl

theorem isSelfClosing_tagAt_iff {offset : ℕ} {closing : Bool} {name : Name} {inner : Filler} :
    (tagAt offset closing name inner).isSelfClosing = true ↔
      inner.text.getLast? = some '/' ∨ name.small ∈ Vocabulary.void := by
  show (inner.text.getLast? == some '/' || Vocabulary.void.contains name.small) = true ↔ _
  rw [Bool.or_eq_true, beq_iff_eq, List.contains_iff_mem]

/-- A rendered tag is read as such, whatever comes behind it. -/
theorem pieces_tagText (closing : Bool) (name : Name) (inner : Filler) (offset : ℕ) (after : Text) :
    Cursor.pieces ⟨offset, tagText closing name inner ++ after⟩ =
      .tag (tagAt offset closing name inner) ::
        Cursor.pieces ⟨offset + (tagText closing name inner).length, after⟩ := by
  have hends : TagStart.EndsName (inner.text ++ '>' :: after) := by
    have hinner := inner.endsName
    cases htext : inner.text with
    | nil => simp [TagStart.EndsName]
    | cons c rest => simpa [htext, TagStart.EndsName] using hinner
  have hbegins : TagStart.Begins ⟨closing, name.written⟩ _ (inner.text ++ '>' :: after) :=
    ⟨rfl, name.isName, hends⟩
  have hpieces := Cursor.pieces_of_tag inner.gt_notMem hbegins offset
  rw [← raw_tagAt offset]
  simpa [tagAt, Tag.ofStart] using hpieces

/-! ### The tags of a forest -/

/-- The tags of a forest that is rendered from `offset` on. -/
def tags (offset : ℕ) : Forest → List Tag
  | nil => []
  | text content _ next => next.tags (offset + content.length)
  | void name attrs _ next =>
    tagAt offset false name attrs :: next.tags (offset + (tagText false name attrs).length)
  | slashed name attrs next =>
    tagAt offset false name attrs.slash ::
      next.tags (offset + (tagText false name attrs.slash).length)
  | element name attrs _ _ children closer tail _ next =>
    let inside := offset + (tagText false name attrs).length
    let behind := inside + children.render.length
    tagAt offset false name attrs :: (children.tags inside ++
      tagAt behind true closer tail :: next.tags (behind + (tagText true closer tail).length))

/-- **The pieces of a rendered forest are its tags.** -/
theorem pieces_render (forest : Forest) (offset : ℕ) (after : Text) :
    Cursor.pieces ⟨offset, forest.render ++ after⟩ =
      (forest.tags offset).map Piece.tag ++
        Cursor.pieces ⟨offset + forest.render.length, after⟩ := by
  induction forest generalizing offset after with
  | nil => rfl
  | text content lt_notMem next ih =>
    rw [render, tags, List.append_assoc, Cursor.pieces_of_lt_notMem lt_notMem, ih,
      List.length_append, Nat.add_assoc]
  | void name attrs isVoid next ih =>
    rw [render, tags, List.append_assoc, pieces_tagText, ih, List.length_append, Nat.add_assoc]
    rfl
  | slashed name attrs next ih =>
    rw [render, tags, List.append_assoc, pieces_tagText, ih, List.length_append, Nat.add_assoc]
    rfl
  | element name attrs notVoid notSlashed children closer tail sameName next ihchildren ihnext =>
    simp only [render, tags, List.append_assoc, pieces_tagText, ihchildren, ihnext,
      List.length_append, List.map_cons, List.map_append, List.cons_append, Nat.add_assoc]

/-! ### The walks over the tags of a forest -/

theorem isSelfClosing_of_void {name : Name} (isVoid : name.small ∈ Vocabulary.void) (offset : ℕ)
    (attrs : Filler) : (tagAt offset false name attrs).isSelfClosing = true :=
  isSelfClosing_tagAt_iff.mpr (.inr isVoid)

theorem isSelfClosing_slash (offset : ℕ) (name : Name) (attrs : Filler) :
    (tagAt offset false name attrs.slash).isSelfClosing = true :=
  isSelfClosing_tagAt_iff.mpr (.inl List.getLast?_concat)

theorem isSelfClosing_of_element {name : Name} {attrs : Filler}
    (notVoid : name.small ∉ Vocabulary.void) (notSlashed : attrs.text.getLast? ≠ some '/')
    (offset : ℕ) : (tagAt offset false name attrs).isSelfClosing = false := by
  rw [← Bool.not_eq_true, isSelfClosing_tagAt_iff]
  exact not_or.mpr ⟨notSlashed, notVoid⟩

/-- **The check of the nesting passes over the tags of a forest.** -/
theorem verdictsFrom_tags (forest : Forest) (offset : ℕ) (openers rest : List Tag) :
    Nesting.verdictsFrom openers (forest.tags offset ++ rest) =
      Nesting.verdictsFrom openers rest := by
  induction forest generalizing offset openers rest with
  | nil => rfl
  | text content lt_notMem next ih => exact ih _ _ _
  | void name attrs isVoid next ih =>
    rw [tags, List.cons_append,
      Nesting.verdictsFrom_of_leaf _ rfl (isSelfClosing_of_void isVoid offset attrs), ih]
  | slashed name attrs next ih =>
    rw [tags, List.cons_append,
      Nesting.verdictsFrom_of_leaf _ rfl (isSelfClosing_slash offset name attrs), ih]
  | element name attrs notVoid notSlashed children closer tail sameName next ihchildren ihnext =>
    rw [tags, List.cons_append, List.append_assoc, List.cons_append,
      Nesting.verdictsFrom_of_opens _ rfl (isSelfClosing_of_element notVoid notSlashed offset),
      ihchildren, Nesting.verdictsFrom_of_closes _ rfl sameName.symm, ihnext]

/-- **The outline lists the elements of a forest**, however many are open around it. -/
theorem extentsFrom_tags (forest : Forest) (offset : ℕ) (openers : List Outline.Opened)
    (rest : List Tag) :
    (Outline.extentsFrom openers (forest.tags offset ++ rest)).map Outline.Extent.entry =
      forest.entries offset openers.length ++
        (Outline.extentsFrom openers rest).map Outline.Extent.entry := by
  induction forest generalizing offset openers rest with
  | nil => rfl
  | text content lt_notMem next ih => exact ih _ _ _
  | void name attrs isVoid next ih =>
    rw [tags, List.cons_append,
      Outline.extentsFrom_of_leaf _ rfl (isSelfClosing_of_void isVoid offset attrs), stop_tagAt,
      List.map_cons, ih]
    rfl
  | slashed name attrs next ih =>
    rw [tags, List.cons_append,
      Outline.extentsFrom_of_leaf _ rfl (isSelfClosing_slash offset name attrs), stop_tagAt,
      List.map_cons, ih]
    rfl
  | element name attrs notVoid notSlashed children closer tail sameName next ihchildren ihnext =>
    rw [tags, List.cons_append, List.append_assoc, List.cons_append,
      Outline.extentsFrom_of_opens _ rfl (isSelfClosing_of_element notVoid notSlashed offset),
      ihchildren, Outline.extentsFrom_of_closes _ rfl sameName.symm, stop_tagAt, List.map_cons,
      ihnext, entries, List.append_assoc]
    rfl

/-- The scan of a rendered forest finds its tags and nothing to report. -/
theorem exists_scan_render (forest : Forest) :
    ∃ scan, Scan.ofText forest.render = .ok scan ∧ scan.tags = forest.tags 0 ∧
      scan.diagnostics = [] := by
  have hend : Cursor.pieces ⟨0 + forest.render.length, []⟩ = [] :=
    Cursor.pieces_of_next?_eq_none rfl
  have hrender := forest.pieces_render 0 []
  rw [hend, List.append_nil, List.append_nil] at hrender
  exact Scan.exists_ofText_of_pieces hrender

/-- **Rendering a forest loses nothing.** The scan of its text reports no malformed tag, the check
of the nesting reports nothing, and the outline lists the elements of the forest: in the order in
which they end, each with its name in small letters, the offsets between which it is rendered and
the number of the elements around it, and all of them closed. -/
theorem outline_render (forest : Forest) :
    ∃ scan elements, Scan.ofText forest.render = .ok scan ∧ scan.diagnostics = [] ∧
      Nesting.check scan.table scan.tags = .ok [] ∧ scan.outline = .ok elements ∧
      elements.map Element.entry = forest.entries 0 0 := by
  obtain ⟨scan, hscan, htags, hdiagnostics⟩ := forest.exists_scan_render
  obtain ⟨elements, helements, hentries⟩ :=
    Scan.exists_outline fun tag htag => Scan.inside_of_ofText hscan htag
  refine ⟨scan, elements, hscan, hdiagnostics, ?_, helements, ?_⟩
  · have hverdicts := forest.verdictsFrom_tags 0 [] []
    rw [List.append_nil] at hverdicts
    rw [htags, Nesting.check, Nesting.verdicts, hverdicts]
    rfl
  · have hextents := forest.extentsFrom_tags 0 [] []
    rw [List.append_nil] at hextents
    rw [hentries, htags, Outline.extents, hextents]
    exact List.append_nil _

-- `<Div a='<'><BR>x > y</dIV >`: a mixed-case element with a void leaf and a text inside.
example :
    let leaf : Forest := void ⟨"BR".toList, by decide⟩ ⟨[], by decide, by decide⟩ (by decide)
      (text "x > y".toList (by decide) nil)
    let forest := element ⟨"Div".toList, by decide⟩ ⟨" a='<'".toList, by decide, by decide⟩
      (by decide) (by decide) leaf ⟨"dIV".toList, by decide⟩ ⟨" ".toList, by decide, by decide⟩
      (by decide) nil
    forest.render = "<Div a='<'><BR>x > y</dIV >".toList ∧
      forest.entries 0 0 = [⟨"br", 11, 15, 1, true⟩, ⟨"div", 0, 27, 0, true⟩] := by
  decide

end Forest

end MarkupLint

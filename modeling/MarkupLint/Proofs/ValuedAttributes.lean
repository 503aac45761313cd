import MarkupLint.Proofs.Arrangement
import MarkupLint.Proofs.Decomposition
import MarkupLint.Proofs.TagRendering

/-!
# Which attributes have a value

An attribute has a value if an equals sign comes behind its name, but not always: the sign has to
assign something. If nothing but blanks follows it up to the end of the attribute text, the
attribute is bare and the sign is skipped. The slash of a tag that ends with `/>` does not belong to
the attribute text, so `<img alt=/>` ends like that, too.

This is the only exception. `LoneEquals` says of the text behind a name that it is such a sign with
blanks around it, and an attribute has a value exactly if an equals sign follows that is not a lone
one. Since nothing else is left behind a lone sign, only the last attribute of a tag can have it.
But that is enough for an image to be reported on which `alt=` is written.

## Main results

* `Attribute.Form.isSome_value_iff` — a form has a value if it assigns one
* `Attribute.assigns_iff` — what an equals sign needs to assign something
* `Tag.valuesWritten` — the values of a tag, as they are written
* `Scan.attribute_values_written` — the same for all tags of a text, and the images reported
-/

namespace MarkupLint

namespace Attribute

/-! ### Equals signs -/

/-- The first character that is not blank is an equals sign. -/
def Equated (text : Text) : Prop := (text.dropWhile isBlank).head? = some '='

instance : DecidablePred Equated := fun _ => inferInstanceAs (Decidable (_ = _))

/-- The text is an equals sign with blanks around it. -/
def LoneEquals (text : Text) : Prop :=
  ∃ before after : Blanks, text = before.text ++ '=' :: after.text

/-- **What an equals sign needs to assign something.** -/
theorem assigns_iff {text : Text} : Assigns text ↔ Equated text ∧ ¬ LoneEquals text := by
  constructor
  · intro h
    refine ⟨h.head?_dropWhile, ?_⟩
    obtain ⟨before, after, c, rest, rfl, hc⟩ := h
    rintro ⟨before', after', heq⟩
    -- behind the sign comes `c`, and `c` would have to be blank
    have hbehind := congrArg (List.dropWhile isBlank) heq
    rw [before.dropWhile_equals, before'.dropWhile_equals] at hbehind
    have hmem : c ∈ after'.text := (List.cons.inj hbehind).2 ▸ by simp
    rw [after'.isBlank c hmem] at hc
    cases hc
  · rintro ⟨hequated, hlone⟩
    obtain ⟨behind, hbehind⟩ := List.head?_eq_some_iff.mp hequated
    have htext : text = text.takeWhile isBlank ++ '=' :: behind := by
      rw [← hbehind, List.takeWhile_append_dropWhile]
    have hbefore : ∀ c ∈ text.takeWhile isBlank, isBlank c = true := fun c hc =>
      List.mem_takeWhile_imp hc
    cases hcontent : behind.dropWhile isBlank with
    | nil =>
      have hafter := List.dropWhile_eq_nil_iff.mp hcontent
      exact absurd ⟨⟨_, hbefore⟩, ⟨behind, hafter⟩, htext⟩ hlone
    | cons c rest =>
      refine ⟨⟨_, hbefore⟩, ⟨behind.takeWhile isBlank, fun c hc => List.mem_takeWhile_imp hc⟩, c,
        rest, ?_, ?_⟩
      · rw [← hcontent, List.takeWhile_append_dropWhile]
        exact htext
      · exact head?_dropWhile isBlank behind c (by rw [hcontent]; rfl)

/-- A lone equals sign has no name beside it. -/
theorem LoneEquals.isNameChar {text : Text} (h : LoneEquals text) {c : Char} (hc : c ∈ text) :
    isNameChar c = false := by
  obtain ⟨before, after, rfl⟩ := h
  rcases List.mem_append.mp hc with hc | hc
  · exact isNameChar_of_isBlank (before.isBlank c hc)
  · rcases List.mem_cons.mp hc with rfl | hc
    · rfl
    · exact isNameChar_of_isBlank (after.isBlank c hc)

/-- **A form has a value if it assigns one.** -/
theorem Form.isSome_value_iff {form : Form} {rest : Text} (h : form.StopsBefore rest) :
    form.value.isSome = true ↔ Assigns (form.text ++ rest) := by
  cases form with
  | bare => exact ⟨fun hsome => (by cases hsome), fun hassigns => absurd hassigns h.2⟩
  | quoted before after quote value quote_notMem =>
    refine ⟨fun _ => ⟨before, after, quote.char, value ++ quote.char :: rest, ?_,
      quote.isBlank_char⟩, fun _ => rfl⟩
    simp [text]
  | unquoted before after value ne_nil not_blank =>
    obtain ⟨first, others, rfl⟩ := List.exists_cons_of_ne_nil ne_nil
    refine ⟨fun _ => ⟨before, after, first, others ++ rest, ?_,
      not_blank first List.mem_cons_self⟩, fun _ => rfl⟩
    simp [text]

end Attribute

/-! ### The values of a tag -/

namespace Tag

/-- What the attribute text has behind the name of an attribute. -/
def behindName (tag : Tag) (attr : Attribute) : Text :=
  (tag.attributeText.drop (attr.offset - tag.attributeOffset)).dropWhile Attribute.isNameChar

section Written

variable {tag : Tag} {attr : Attribute} {before after : Text} {s : Attribute.Spelling}

theorem offset_of_writtenIn
    (h : attr.WrittenIn tag.attributeOffset tag.attributeText before s after) :
    attr.offset = tag.attributeOffset + before.length := by
  rw [h.attr_eq]
  rfl

theorem behindName_of_writtenIn
    (h : attr.WrittenIn tag.attributeOffset tag.attributeText before s after) :
    tag.behindName attr = s.form.text ++ after := by
  rw [behindName, offset_of_writtenIn h, Nat.add_sub_cancel_left, h.text_eq, List.drop_left,
    Attribute.Spelling.text, List.append_assoc, dropWhile_run s.isNameChar h.name_stops]

theorem attributeText_of_writtenIn
    (h : attr.WrittenIn tag.attributeOffset tag.attributeText before s after) :
    tag.attributeText = before ++ (s.name ++ tag.behindName attr) := by
  rw [behindName_of_writtenIn h, h.text_eq, Attribute.Spelling.text, List.append_assoc]

end Written

/-- **An attribute has a value if its equals sign is not a lone one.** -/
theorem hasValue_iff {tag : Tag} {attr : Attribute} (h : attr ∈ tag.attributes) :
    attr.hasValue = true ↔ Attribute.Equated (tag.behindName attr) ∧
      ¬ Attribute.LoneEquals (tag.behindName attr) := by
  obtain ⟨before, s, after, hwritten⟩ := exists_writtenIn h
  have hvalue : attr.hasValue = s.form.value.isSome := by
    rw [hwritten.attr_eq]
    rfl
  rw [hvalue, Attribute.Form.isSome_value_iff hwritten.stops, behindName_of_writtenIn hwritten,
    Attribute.assigns_iff]

/-- An attribute that comes later starts behind the name of the earlier one. -/
theorem exists_mem_behindName {tag : Tag} {attr later : Attribute} (hattr : attr ∈ tag.attributes)
    (hlater : later ∈ tag.attributes) (hle : attr.offset + attr.length ≤ later.offset) :
    ∃ c ∈ tag.behindName attr, Attribute.isNameChar c = true := by
  obtain ⟨before, s, after, hwritten⟩ := exists_writtenIn hattr
  obtain ⟨before', s', after', hwritten'⟩ := exists_writtenIn hlater
  obtain ⟨c, others, htext, hc⟩ := s'.exists_text_eq_cons
  have hlength : attr.length = s.text.length := by
    rw [hwritten.attr_eq]
    rfl
  have hnames : (before ++ s.name).length ≤ before'.length := by
    have hoffset := offset_of_writtenIn hwritten
    have hoffset' := offset_of_writtenIn hwritten'
    simp only [Attribute.Spelling.text, List.length_append] at hlength ⊢
    omega
  obtain ⟨n, hn⟩ := Nat.exists_eq_add_of_le hnames
  have hdrop : (tag.behindName attr).drop n = s'.text ++ after' := by
    have hbehind : ((before ++ s.name) ++ tag.behindName attr).drop
        ((before ++ s.name).length + n) = (tag.behindName attr).drop n :=
      List.drop_length_add_append n
    rw [← hbehind, ← hn, List.append_assoc, ← attributeText_of_writtenIn hwritten,
      hwritten'.text_eq, List.drop_left]
  refine ⟨c, List.mem_of_mem_drop (i := n) ?_, hc⟩
  rw [hdrop, htext]
  exact List.mem_cons_self

/-- Only the last attribute can have a lone equals sign behind it. -/
theorem getLast?_of_loneEquals {tag : Tag} {attr : Attribute} (h : attr ∈ tag.attributes)
    (hlone : Attribute.LoneEquals (tag.behindName attr)) :
    tag.attributes.getLast? = some attr := by
  have horder : tag.attributes.Pairwise _ :=
    (Attribute.layout_readAll tag.attributeOffset tag.attributeText).in_order
  obtain ⟨front, last, hattrs⟩ := (tag.attributes.eq_nil_or_concat').resolve_left
    (List.ne_nil_of_mem h)
  rw [hattrs, List.getLast?_concat, Option.some.injEq]
  by_contra hne
  have hfront : attr ∈ front := by
    rw [hattrs] at h
    exact (List.mem_append.mp h).resolve_right fun hmem => hne (List.mem_singleton.mp hmem).symm
  have hle : attr.offset + attr.length ≤ last.offset := by
    rw [hattrs] at horder
    exact ((List.pairwise_append.mp horder).2.2 attr hfront last (List.mem_singleton_self last)).2
  obtain ⟨c, hc, hname⟩ := exists_mem_behindName h (hattrs ▸ by simp : last ∈ tag.attributes) hle
  rw [hlone.isNameChar hc] at hname
  cases hname

/-- The values of a tag, as they are written. -/
structure ValuesWritten (tag : Tag) : Prop where
  /-- The attribute text has the name of an attribute where the attribute is, and then what is
  behind it. -/
  named : ∀ attr ∈ tag.attributes, ∃ before name,
    tag.attributeText = before ++ (name ++ tag.behindName attr) ∧
      attr.offset = tag.attributeOffset + before.length ∧
      attr.name = String.ofList (lowerText name)
  /-- An attribute has a value if an equals sign comes behind its name that is not a lone one. -/
  hasValue_iff : ∀ attr ∈ tag.attributes, attr.hasValue = true ↔
    Attribute.Equated (tag.behindName attr) ∧ ¬ Attribute.LoneEquals (tag.behindName attr)
  /-- Only the last attribute can have a lone equals sign behind it. -/
  last_of_loneEquals : ∀ attr ∈ tag.attributes, Attribute.LoneEquals (tag.behindName attr) →
    tag.attributes.getLast? = some attr
  /-- The tag has a value for a name if an attribute of that name has one. -/
  hasValued_iff : ∀ name, tag.hasValued name = true ↔ ∃ attr ∈ tag.attributes, attr.name = name ∧
    Attribute.Equated (tag.behindName attr) ∧ ¬ Attribute.LoneEquals (tag.behindName attr)

theorem valuesWritten (tag : Tag) : tag.ValuesWritten where
  named attr hattr := by
    obtain ⟨before, s, after, hwritten⟩ := exists_writtenIn hattr
    refine ⟨before, s.name, attributeText_of_writtenIn hwritten, offset_of_writtenIn hwritten, ?_⟩
    rw [hwritten.attr_eq]
    rfl
  hasValue_iff attr hattr := hasValue_iff hattr
  last_of_loneEquals attr hattr := getLast?_of_loneEquals hattr
  hasValued_iff name := by
    simp only [hasValued, List.any_eq_true, Bool.and_eq_true, beq_iff_eq]
    refine exists_congr fun attr => and_congr_right fun hattr => and_congr_right fun _ => ?_
    exact hasValue_iff hattr

end Tag

/-! ### Images without a description -/

namespace Rule

theorem accessibilityFinding?_eq_missingAlt_iff {tag : Tag} :
    accessibilityFinding? tag = some .missingAlt ↔
      tag.name = "img" ∧ tag.hasValued "alt" = false := by
  by_cases himg : tag.name = "img"
  · by_cases halt : tag.hasValued "alt" = true <;> simp [accessibilityFinding?, himg, halt]
  · have hcodes : Finding.unlabelledInput ≠ Finding.missingAlt := by decide
    simp [accessibilityFinding?, himg, hcodes]

theorem eq_missingAlt_of_code {finding : Finding} (h : finding ∈ accessibility.findings)
    (hcode : finding.code = Finding.missingAlt.code) : finding = .missingAlt :=
  (by decide : ∀ finding ∈ accessibility.findings,
    finding.code = Finding.missingAlt.code → finding = .missingAlt) finding h hcode

end Rule

/-- What a notice about a tag reports is at the range of the tag. -/
theorem Tag.range_of_notice {tag : Tag} {finding : Finding} {fields : Template.Fields}
    {table : LineTable} {precise : Bool} {d : Diagnostic}
    (h : (tag.notice finding fields).diagnostic table precise = .ok d) :
    tag.range = .ok d.range ∧ d.code = finding.code := by
  obtain ⟨hresolve, hsaid⟩ := Notice.diagnostic_eq_ok_iff.mp h
  obtain ⟨range, hrange, hresolve⟩ := bind_eq_ok_iff.mp hresolve
  obtain ⟨span, -, heq⟩ := bind_eq_ok_iff.mp hresolve
  obtain ⟨-, rfl⟩ := Prod.mk.inj (Except.ok.inj heq)
  exact ⟨hrange, hsaid.code_eq⟩

/-- Tags of a text can be told by their ranges. -/
theorem Scan.eq_of_range_eq {text : Text} {scan : Scan} (hscan : ofText text = .ok scan)
    {tag tag' : Tag} (htag : tag ∈ scan.tags) (htag' : tag' ∈ scan.tags) {range : Range}
    (hrange : tag.range = .ok range) (hrange' : tag'.range = .ok range) : tag = tag' := by
  have hstart := (Range.ofBounds_eq_ok_iff.mp hrange).1
  have hstart' := (Range.ofBounds_eq_ok_iff.mp hrange').1
  exact (reading_of_ofText hscan).inOrder.eq_of_start_eq htag htag' (hstart.trans hstart'.symm)

/-- **An image is reported to have no description** if there is no value for one. -/
theorem Lint.missingAlt_mem_validate_iff {text : Text} {scan : Scan}
    (hscan : Scan.ofText text = .ok scan) (options : Options) {tag : Tag}
    (htag : tag ∈ scan.tags) :
    (∃ d ∈ validate text options, d.code = Finding.missingAlt.code ∧ tag.range = .ok d.range) ↔
      tag.isOpening = true ∧ tag.name = "img" ∧ tag.hasValued "alt" = false := by
  have hrule : Rule.accessibility ∈ Rule.builtin := by simp [Rule.builtin]
  obtain ⟨found, hfound⟩ := Rule.exists_check_of_mem_builtin
    (fun tag htag => Scan.inside_of_ofText hscan htag) options hrule
  have hreports : scan.Reports options.precisePositions scan.accessibilityNotices found :=
    Scan.reports_accessibility hfound
  have hmem : ∀ d : Diagnostic, d.code = Finding.missingAlt.code →
      (d ∈ validate text options ↔ d ∈ found) := by
    intro d hcode
    rw [← filter_validate hscan hrule hfound, List.mem_filter, hcode]
    exact (and_iff_left (by decide)).symm
  constructor
  · rintro ⟨d, hd, hcode, hrange⟩
    obtain ⟨notice, hnotice, hdiagnostic⟩ := exists_mem_of_forall₂ hreports ((hmem d hcode).mp hd)
    obtain ⟨tag', htag', hmap⟩ := List.mem_filterMap.mp hnotice
    obtain ⟨finding, hfinding, rfl⟩ := Option.map_eq_some_iff.mp hmap
    obtain ⟨hrange', hcode'⟩ := Tag.range_of_notice hdiagnostic
    obtain rfl := Scan.eq_of_range_eq hscan htag (Scan.mem_tags_of_mem_openingTags htag') hrange
      hrange'
    have hopening := (Bool.and_eq_true_iff.mp (List.mem_filter.mp htag').2).1
    obtain rfl := Rule.eq_missingAlt_of_code (Rule.mem_findings_of_accessibilityFinding? hfinding)
      (hcode'.symm.trans hcode)
    exact ⟨hopening, Rule.accessibilityFinding?_eq_missingAlt_iff.mp hfinding⟩
  · rintro ⟨hopening, himg, halt⟩
    have hlisted : tag ∈ scan.openingTags ["img", "input"] :=
      List.mem_filter.mpr ⟨htag, by simp [hopening, himg]⟩
    have hfinding := Rule.accessibilityFinding?_eq_missingAlt_iff.mpr ⟨himg, halt⟩
    have hnotice : tag.notice .missingAlt [] ∈ scan.accessibilityNotices :=
      List.mem_filterMap.mpr ⟨tag, hlisted, by rw [hfinding, Option.map_some]⟩
    obtain ⟨d, hd, hdiagnostic⟩ := exists_mem_of_forall₂ hreports.flip hnotice
    obtain ⟨hrange, hcode⟩ := Tag.range_of_notice hdiagnostic
    exact ⟨d, (hmem d hcode).mpr hd, hcode, hrange⟩

/-- **The values of a text, as they are written.** An image is reported if no `alt=` is written on
it but, at most, one whose equals sign is a lone one. -/
theorem Scan.attribute_values_written (text : Text) :
    ∃ scan, ofText text = .ok scan ∧ ∀ tag ∈ scan.tags, tag.ValuesWritten ∧ ∀ options,
      ((∃ d ∈ Lint.validate text options, d.code = "A11Y_MISSING_ALT" ∧
          tag.range = .ok d.range) ↔
        tag.isOpening = true ∧ tag.name = "img" ∧ ∀ attr ∈ tag.attributes, attr.name = "alt" →
          Attribute.Equated (tag.behindName attr) →
            Attribute.LoneEquals (tag.behindName attr)) := by
  obtain ⟨scan, hscan, -⟩ := exists_ofText text
  refine ⟨scan, hscan, fun tag htag => ⟨tag.valuesWritten, fun options => ?_⟩⟩
  refine (Lint.missingAlt_mem_validate_iff hscan options htag).trans ?_
  refine and_congr_right fun _ => and_congr_right fun _ => ?_
  rw [← Bool.not_eq_true, tag.valuesWritten.hasValued_iff]
  constructor
  · intro hnone attr hattr hname hequated
    by_contra hlone
    exact hnone ⟨attr, hattr, hname, hequated, hlone⟩
  · rintro hlone ⟨attr, hattr, hname, hequated, hne⟩
    exact hne (hlone attr hattr hname hequated)

/-- An image with an equals sign behind its `alt`, which has no value and is reported. -/
theorem Scan.missingAlt_behind_equals :
    ∃ scan tag attr, ofText "<img alt=>".toList = .ok scan ∧ tag ∈ scan.tags ∧
      attr ∈ tag.attributes ∧ attr.name = "alt" ∧ Attribute.Equated (tag.behindName attr) ∧
      attr.hasValue = false ∧ tag.hasValued "alt" = false ∧
      ∃ d ∈ Lint.validate "<img alt=>".toList {}, d.code = "A11Y_MISSING_ALT" ∧
        tag.range = .ok d.range := by
  have hscan : ofText "<img alt=>".toList = .ok ⟨"<img alt=>".toList,
      [⟨"img", "<img alt=>".toList, 0, ⟨false, false, true, 0⟩⟩], [], [],
      .ofText "<img alt=>".toList⟩ := by
    decide +kernel
  refine ⟨_, _, ⟨"alt", none, 5, 3⟩, hscan, List.mem_singleton_self _, ?_⟩
  decide +kernel

end MarkupLint

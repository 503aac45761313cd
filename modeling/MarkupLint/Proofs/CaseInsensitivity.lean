import MarkupLint.Proofs.LetterCase
import MarkupLint.Proofs.Notices
import MarkupLint.Proofs.Walk

/-!
# Letter case makes no difference

Two texts that differ only in the case of ASCII letters get the same report, down to the last
column, and the same outline but for the letters of attribute values. Both are compared with the
text in small letters, whose scan is the scan of either text, folded.

A rule sees a folded tag where it saw a tag. It asks for the name, the marks, the place and the
attributes, and of those for their names and for whether they have a value, which may be empty. All
this is the same. The only other thing that a rule looks at is the lowercase of the whole text.

## Main results

* `Nesting.verdictsFrom_foldCase`, `Outline.extentsFrom_foldCase` — the two walks over folded tags
* `Scan.notices_foldCase` — the notices of a folded scan
* `Lint.validate_ignores_case` — letter case makes no difference
-/

namespace MarkupLint

/-! ### Notices -/

/-- The same place in the folded text. -/
def Place.foldCase : Place → Place
  | document => document
  | stub s => stub s.foldCase
  | tag t => tag t.foldCase
  | attr t a => attr t.foldCase a.foldCase

theorem Place.resolve_foldCase (place : Place) (table : LineTable) (precise : Bool) :
    place.foldCase.resolve table precise = place.resolve table precise := by
  cases place with
  | document => rfl
  | stub s => rw [foldCase, resolve, Stub.range_foldCase, resolve]
  | tag t => rw [foldCase, resolve, Tag.range_foldCase, resolve]
  | attr t a => rfl

namespace Notice

/-- The same notice about the folded text. -/
def foldCase (notice : Notice) : Notice := { notice with place := notice.place.foldCase }

/-- A notice about the folded text reads the same. -/
theorem diagnostic_foldCase (notice : Notice) (table : LineTable) (precise : Bool) :
    notice.foldCase.diagnostic table precise = notice.diagnostic table precise := by
  rw [diagnostic, diagnostic, foldCase, Place.resolve_foldCase]

end Notice

/-! ### Nesting -/

namespace Nesting

/-- The same verdict on the folded tags. -/
def Verdict.foldCase : Verdict → Verdict
  | unexpected closer => unexpected closer.foldCase
  | mismatched opener closer => mismatched opener.foldCase closer.foldCase
  | unclosed opener => unclosed opener.foldCase

theorem Verdict.notice_foldCase (verdict : Verdict) :
    verdict.foldCase.notice = verdict.notice.foldCase := by
  cases verdict <;> rfl

/-- **The nesting of folded tags** is that of the tags. -/
theorem verdictsFrom_foldCase (openers tags : List Tag) :
    verdictsFrom (openers.map Tag.foldCase) (tags.map Tag.foldCase) =
      (verdictsFrom openers tags).map Verdict.foldCase := by
  have hmap : Verdict.foldCase = Verdict.map Tag.foldCase := by
    funext verdict
    cases verdict <;> rfl
  rw [hmap]
  exact verdictsFrom_map Tag.name_foldCase (fun _ => rfl) openers tags

end Nesting

/-! ### Attributes -/

namespace Attribute

theorem hasValue_foldCase (attr : Attribute) : attr.foldCase.hasValue = attr.hasValue := by
  simp [hasValue, foldCase]

theorem isEmpty_foldCase (attr : Attribute) : attr.foldCase.isEmpty = attr.isEmpty := by
  unfold isEmpty foldCase
  cases attr.value with
  | none => rfl
  | some value =>
    show (String.ofList (foldText value.text.toList)).isEmpty = value.text.isEmpty
    rw [Bool.eq_iff_iff, String.isEmpty_iff, String.isEmpty_iff]
    simp [foldText]

theorem isUnquoted_foldCase (attr : Attribute) : attr.foldCase.isUnquoted = attr.isUnquoted := by
  unfold isUnquoted foldCase
  cases attr.value <;> rfl

theorem findings_foldCase (element : String) (unquoted : Bool) (seen : List String)
    (attr : Attribute) :
    attr.foldCase.findings element unquoted seen = attr.findings element unquoted seen := by
  have hname : attr.foldCase.name = attr.name := rfl
  simp only [findings, emptyFinding?, isEmpty_foldCase, isUnquoted_foldCase, hname]

theorem findingsFrom_foldCase (element : String) (unquoted : Bool) (seen : List String)
    (attrs : List Attribute) :
    findingsFrom element unquoted seen (attrs.map foldCase) =
      (findingsFrom element unquoted seen attrs).map (Prod.map id foldCase) := by
  induction attrs generalizing seen with
  | nil => rfl
  | cons attr rest ih =>
    rw [List.map_cons, findingsFrom, findingsFrom, List.map_append, List.map_map, findings_foldCase]
    exact congrArg (_ ++ ·) (ih (attr.name :: seen))

end Attribute

theorem Tag.attributeNotices_foldCase (tag : Tag) (unquoted : Bool) :
    tag.foldCase.attributeNotices unquoted =
      (tag.attributeNotices unquoted).map Notice.foldCase := by
  rw [attributeNotices, attributeNotices, attributeFindings, attributeFindings, isClosing_foldCase]
  split
  · rfl
  · rw [attributes_foldCase, Attribute.findingsFrom_foldCase, List.map_map, List.map_map]
    rfl

theorem Tag.hasValued_foldCase (tag : Tag) (name : String) :
    tag.foldCase.hasValued name = tag.hasValued name := by
  rw [hasValued, attributes_foldCase, List.any_map, hasValued]
  congr 1
  funext attr
  exact congrArg (attr.name == name && ·) attr.hasValue_foldCase

/-! ### The notices of a scan -/

namespace Rule

theorem accessibilityFinding?_foldCase (tag : Tag) :
    accessibilityFinding? tag.foldCase = accessibilityFinding? tag := by
  simp only [accessibilityFinding?, Tag.name_foldCase, Tag.hasValued_foldCase]

theorem headingSkips_foldCase (previous : Option ℕ) (headings : List (Tag × ℕ)) :
    headingSkips previous (headings.map (Prod.map Tag.foldCase id)) =
      (headingSkips previous headings).map (Prod.map Tag.foldCase id) := by
  induction headings generalizing previous with
  | nil => rfl
  | cons heading rest ih =>
    obtain ⟨tag, level⟩ := heading
    cases previous with
    | none => exact ih (some level)
    | some above =>
      simp only [List.map_cons, Prod.map_apply, id_eq, headingSkips, ih]
      split <;> rfl

end Rule

namespace Scan

variable (scan : Scan)

theorem openingTags_foldCase (names : List String) :
    scan.foldCase.openingTags names = (scan.openingTags names).map Tag.foldCase := by
  rw [openingTags, openingTags, foldCase, List.filter_map]
  rfl

theorem markerNotices_foldCase (markers : List (String × Finding)) :
    scan.foldCase.markerNotices markers =
      (scan.markerNotices markers).map Notice.foldCase := by
  have hmissing : scan.foldCase.missingMarkers markers = scan.missingMarkers markers := by
    rw [missingMarkers, foldCase, lowerText_foldText, missingMarkers]
  rw [markerNotices, hmissing, markerNotices, List.map_map]
  rfl

theorem accessibilityNotices_foldCase :
    scan.foldCase.accessibilityNotices = scan.accessibilityNotices.map Notice.foldCase := by
  rw [accessibilityNotices, accessibilityNotices, openingTags_foldCase, List.filterMap_map,
    List.map_filterMap]
  congr 1
  funext tag
  rw [Function.comp_apply, Rule.accessibilityFinding?_foldCase, Option.map_map]
  rfl

theorem headingNotices_foldCase :
    scan.foldCase.headingNotices = scan.headingNotices.map Notice.foldCase := by
  have hheadings : scan.foldCase.headings = scan.headings.map (Prod.map Tag.foldCase id) := by
    rw [headings, headings, openingTags_foldCase, List.filterMap_map, List.map_filterMap]
    congr 1
    funext tag
    rw [Function.comp_apply, Tag.name_foldCase, Option.map_map]
    rfl
  rw [headingNotices, headingNotices, hheadings, Rule.headingSkips_foldCase, List.map_map,
    List.map_map]
  rfl

/-- **The notices of a folded scan** are those of the scan, about folded tags. -/
theorem notices_foldCase (unquoted : Bool) :
    scan.foldCase.notices unquoted = (scan.notices unquoted).map Notice.foldCase := by
  have hstubs : scan.foldCase.stubNotices = scan.stubNotices.map Notice.foldCase := by
    rw [stubNotices, stubNotices, foldCase, List.map_map, List.map_map]
    refine List.map_congr_left fun stub _ => ?_
    have hname : stub.foldCase.tagStart.name = stub.tagStart.name := stub.tagStart.name_foldCase
    rw [Function.comp_apply, hname]
    rfl
  have hverdicts : (Nesting.verdicts scan.foldCase.tags).map Nesting.Verdict.notice =
      ((Nesting.verdicts scan.tags).map Nesting.Verdict.notice).map Notice.foldCase := by
    have hwalk : Nesting.verdicts scan.foldCase.tags =
        (Nesting.verdicts scan.tags).map Nesting.Verdict.foldCase :=
      Nesting.verdictsFrom_foldCase [] scan.tags
    rw [hwalk, List.map_map, List.map_map]
    exact congrArg (List.map · _) (funext Nesting.Verdict.notice_foldCase)
  have hattributes :
      (scan.foldCase.openingTags []).flatMap (·.attributeNotices unquoted) =
        ((scan.openingTags []).flatMap (·.attributeNotices unquoted)).map Notice.foldCase := by
    rw [openingTags_foldCase, List.flatMap_map, List.map_flatMap]
    exact congrArg (List.flatMap · _) (funext fun tag => tag.attributeNotices_foldCase unquoted)
  simp only [notices, noticesByRule, List.map_flatten, List.map_cons, List.map_nil, List.map_append,
    hstubs, hverdicts, hattributes, markerNotices_foldCase, accessibilityNotices_foldCase,
    headingNotices_foldCase]

end Scan

/-! ### Outlines -/

namespace Outline

/-- The same open element of the folded text. -/
def Opened.foldCase (opened : Opened) : Opened := { opened with tag := opened.tag.foldCase }

/-- The same completed element of the folded text. -/
def Extent.foldCase (extent : Extent) : Extent := { extent with opened := extent.opened.foldCase }

/-- **The elements of folded tags** are those of the tags. -/
theorem extentsFrom_foldCase (openers : List Opened) (tags : List Tag) :
    extentsFrom (openers.map Opened.foldCase) (tags.map Tag.foldCase) =
      (extentsFrom openers tags).map Extent.foldCase := by
  induction tags using Tag.walkInduction generalizing openers with
  | nil =>
    simp only [List.map_nil, extentsFrom, ← List.map_reverse, List.map_map]
    refine List.map_congr_left fun opened _ => ?_
    simp [Opened.foldCase, Extent.foldCase]
  | leaf tag rest hopening hleaf ih =>
    have hopening' : tag.foldCase.isClosing = false := hopening
    have hleaf' : tag.foldCase.isSelfClosing = true := hleaf
    rw [List.map_cons, extentsFrom_of_leaf _ hopening' hleaf', extentsFrom_of_leaf _ hopening hleaf,
      ih, List.length_map, Tag.stop_foldCase]
    rfl
  | opens tag rest hopening hleaf ih =>
    have hopening' : tag.foldCase.isClosing = false := hopening
    have hleaf' : tag.foldCase.isSelfClosing = false := hleaf
    rw [List.map_cons, extentsFrom_of_opens _ hopening' hleaf',
      extentsFrom_of_opens _ hopening hleaf, List.length_map]
    exact ih (⟨tag, openers.length⟩ :: openers)
  | closing tag rest hclosing ih =>
    have hname : (fun opened : Opened => opened.tag.name == tag.name) ∘ Opened.foldCase =
        fun opened => opened.tag.name == tag.name := rfl
    simp only [List.map_cons, extentsFrom, Tag.isClosing_foldCase, Tag.name_foldCase, hclosing,
      if_true, List.find?_map, List.eraseP_map, hname, Tag.stop_foldCase, ih]
    cases openers.find? (·.tag.name == tag.name) with
    | none => rfl
    | some opened => rfl

end Outline

namespace Element

/-- The element with the letters of its attribute values made small. -/
def foldCase (element : Element) : Element :=
  { element with attributes := element.attributes.map Attribute.foldCase }

theorem ofExtent_foldCase {table : LineTable} {extent : Outline.Extent} {element : Element}
    (h : ofExtent table extent = .ok element) :
    ofExtent table extent.foldCase = .ok element.foldCase := by
  obtain ⟨start, hstart, h⟩ := bind_eq_ok_iff.mp h
  obtain ⟨stop, hstop, heq⟩ := bind_eq_ok_iff.mp h
  cases heq
  refine bind_eq_ok_iff.mpr ⟨start, hstart, bind_eq_ok_iff.mpr ⟨stop, hstop, ?_⟩⟩
  rw [Outline.Extent.foldCase, Outline.Opened.foldCase, Tag.attributes_foldCase]
  rfl

end Element

theorem Scan.outline_foldCase {scan : Scan} {elements : List Element}
    (h : scan.outline = .ok elements) :
    scan.foldCase.outline = .ok (elements.map Element.foldCase) := by
  have hextents : Outline.extents scan.foldCase.tags =
      (Outline.extents scan.tags).map Outline.Extent.foldCase :=
    Outline.extentsFrom_foldCase [] scan.tags
  rw [outline, hextents, mapM_eq_ok_iff, List.forall₂_map_left_iff, List.forall₂_map_right_iff]
  exact (mapM_eq_ok_iff.mp h).imp fun extent element => Element.ofExtent_foldCase

/-! ### Runs -/

namespace Lint

theorem validate_foldText (text : Text) (options : Options) :
    validate (foldText text) options = validate text options := by
  obtain ⟨scan, hscan, -⟩ := Scan.exists_ofText text
  have hreports := reports_validate hscan options
  have hfolded := reports_validate (Scan.ofText_foldText hscan) options
  rw [Scan.notices_foldCase, Scan.Reports, List.forall₂_map_left_iff] at hfolded
  simp only [Notice.diagnostic_foldCase] at hfolded
  exact Except.ok.inj ((mapM_eq_ok_iff.mpr hfolded).symm.trans (mapM_eq_ok_iff.mpr hreports))

/-- **Letter case makes no difference.** Texts that are the same up to the case of ASCII letters get
the same report whatever the options are, and the same outline up to the letters of attribute
values. -/
theorem validate_ignores_case {text text' : Text} (h : foldText text = foldText text') :
    (∀ options, validate text options = validate text' options) ∧
      ∃ scan scan' elements elements',
        Scan.ofText text = .ok scan ∧ Scan.ofText text' = .ok scan' ∧
        scan.outline = .ok elements ∧ scan'.outline = .ok elements' ∧
        elements.map Element.foldCase = elements'.map Element.foldCase := by
  refine ⟨fun options => ?_, ?_⟩
  · rw [← validate_foldText text, h, validate_foldText]
  · obtain ⟨scan, hscan, -⟩ := Scan.exists_ofText text
    obtain ⟨scan', hscan', -⟩ := Scan.exists_ofText text'
    obtain ⟨elements, helements, -⟩ :=
      Scan.exists_outline fun tag htag => Scan.inside_of_ofText hscan htag
    obtain ⟨elements', helements', -⟩ :=
      Scan.exists_outline fun tag htag => Scan.inside_of_ofText hscan' htag
    refine ⟨scan, scan', elements, elements', hscan, hscan', helements, helements', ?_⟩
    -- both scans become the scan of the text in small letters
    have hfolded : scan.foldCase = scan'.foldCase := by
      have hofText := Scan.ofText_foldText hscan
      rw [h] at hofText
      exact Except.ok.inj (hofText.symm.trans (Scan.ofText_foldText hscan'))
    have houtline := Scan.outline_foldCase helements
    rw [hfolded] at houtline
    exact Except.ok.inj (houtline.symm.trans (Scan.outline_foldCase helements'))

/-- A link that is never closed, with an empty `id` and a sigma at the end of a value. -/
theorem validate_ignores_case_link :
    foldText "<A HREF=OΣ ID=''>".toList = foldText "<a Href=oΣ iD=''>".toList ∧
      (validate "<A HREF=OΣ ID=''>".toList {}).length = 8 ∧
      ∀ options, validate "<A HREF=OΣ ID=''>".toList options =
        validate "<a Href=oΣ iD=''>".toList options := by
  have hfold : foldText "<A HREF=OΣ ID=''>".toList = foldText "<a Href=oΣ iD=''>".toList := by
    decide +kernel
  exact ⟨hfold, by decide +kernel, (validate_ignores_case hfold).1⟩

end Lint

end MarkupLint

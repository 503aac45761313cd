import MarkupLint.Proofs.Decomposition
import MarkupLint.Proofs.Repetition
import MarkupLint.Proofs.ReportedPlaces

/-!
# What the options have an effect on

Of the two features that can be switched on, one is about where attributes are placed and the other
about values without quotes. This file shows that neither has an effect on anything else, and that
the mode, which is a mere label, has none at all.

How attributes are placed is no part of a notice, so the notices are the same either way. They are
put into diagnostics one by one, and the places of all but attributes are found in one way only.
The other feature adds notices and changes none: values without quotes are looked for behind all
else that can be wrong with an attribute, and it does not depend on them which names count as seen.

## Main results

* `Notice.sameButSpan` — what the way of placing attributes has an effect on
* `Scan.filter_ne_notices` — values without quotes come on top of all else
* `Scan.mem_unquotedAttributes_iff` — which values are without quotes
* `Scan.filter_eq_notices` — every value without quotes is noticed once
* `Lint.validate_option_effects` — what the options have an effect on
-/

namespace MarkupLint

/-! ### The places of attributes -/

/-- The diagnostics are the same, but for the span if they are about attributes. -/
structure Diagnostic.SameButSpan (d e : Diagnostic) : Prop where
  /-- They agree in all but the span. -/
  eq_withSpan : e = { d with span := e.span }
  /-- They have the same span, too, in any other category. -/
  span_eq : d.category ≠ some Category.attributes.name → d.span = e.span

/-- Only for attributes there is more than one way to give the place. -/
theorem Place.resolve_congr {place : Place} (h : ∀ tag attr, place ≠ .attr tag attr)
    (table : LineTable) (precise precise' : Bool) :
    place.resolve table precise = place.resolve table precise' := by
  cases place with
  | attr tag attr => exact absurd rfl (h tag attr)
  | _ => rfl

theorem Scan.category_of_attr {scan : Scan} {unquoted : Bool} {notice : Notice}
    (h : notice ∈ scan.notices unquoted) {tag : Tag} {attr : Attribute}
    (hplace : notice.place = .attr tag attr) :
    notice.finding.category = some Category.attributes.name := by
  have hmarkers : ∀ markers, notice ∉ scan.markerNotices markers := by
    intro markers h
    obtain ⟨finding, -, rfl⟩ := List.mem_map.mp h
    cases hplace
  simp only [notices, noticesByRule, List.flatten_cons, List.flatten_nil, List.append_nil,
    List.mem_append] at h
  rcases h with h | h | h | h | h | h | h
  · obtain ⟨stub, -, rfl⟩ := List.mem_map.mp h
    cases hplace
  · obtain ⟨verdict, -, rfl⟩ := List.mem_map.mp h
    cases hplace
  · obtain ⟨tag', -, h⟩ := List.mem_flatMap.mp h
    obtain ⟨found, hfound, rfl⟩ := List.mem_map.mp h
    have hcategory : ∀ finding ∈ Attribute.possibleFindings,
        finding.category = some Category.attributes.name := by
      decide
    exact hcategory _ (Tag.mem_of_mem_attributeFindings hfound).1
  · exact absurd h (hmarkers _)
  · obtain ⟨tag', -, h⟩ := List.mem_filterMap.mp h
    obtain ⟨finding, -, rfl⟩ := Option.map_eq_some_iff.mp h
    cases hplace
  · exact absurd h (hmarkers _)
  · obtain ⟨skip, -, rfl⟩ := List.mem_map.mp h
    cases hplace

/-- **What the way of placing attributes has an effect on.** -/
theorem Notice.sameButSpan {text : Text} {scan : Scan} (hscan : Scan.ofText text = .ok scan)
    {unquoted : Bool} {notice : Notice} (h : notice ∈ scan.notices unquoted)
    {precise precise' : Bool} {d e : Diagnostic}
    (hd : notice.diagnostic scan.table precise = .ok d)
    (he : notice.diagnostic scan.table precise' = .ok e) : d.SameButSpan e := by
  obtain ⟨hresolve, hsaid⟩ := diagnostic_eq_ok_iff.mp hd
  obtain ⟨hresolve', hsaid'⟩ := diagnostic_eq_ok_iff.mp he
  constructor
  · have hplace := Scan.place_of_mem_notices h
    have hrange : e.range = d.range := by
      rw [(Place.resolved hscan hplace hresolve).range_eq,
        (Place.resolved hscan hplace hresolve').range_eq]
    have hmessage := Except.ok.inj (hsaid'.message_eq.symm.trans hsaid.message_eq)
    have hhint := Except.ok.inj (hsaid'.hint_eq.symm.trans hsaid.hint_eq)
    rw [← hrange, ← hmessage, ← hhint, hsaid.code_eq, hsaid.kind_eq, hsaid.severity_eq,
      hsaid.category_eq, ← hsaid'.code_eq, ← hsaid'.kind_eq, ← hsaid'.severity_eq,
      ← hsaid'.category_eq]
  · intro hcategory
    have hplace : ∀ tag attr, notice.place ≠ .attr tag attr := fun tag attr hattr =>
      hcategory (hsaid.category_eq.trans (Scan.category_of_attr h hattr))
    rw [Place.resolve_congr hplace scan.table precise precise', hresolve'] at hresolve
    exact (congrArg Prod.fst (Except.ok.inj hresolve)).symm

/-! ### Values without quotes -/

namespace Attribute

variable {element : String} {seen : List String} {attr : Attribute}

theorem findings_true :
    attr.findings element true seen = attr.findings element false seen ++
      if attr.isUnquoted then [.unquotedValue] else [] := by
  simp [findings]

theorem code_ne_of_mem_findings :
    ∀ finding ∈ attr.findings element false seen,
      finding.code ≠ Finding.unquotedValue.code := by
  intro finding h
  have hcodes : ∀ finding ∈ [Finding.duplicateAttribute, .emptyId, .emptyHref, .emptySource],
      finding.code ≠ Finding.unquotedValue.code := by
    decide
  refine hcodes finding ?_
  unfold findings emptyFinding? at h
  grind

theorem filter_ne_findings :
    (attr.findings element true seen).filter (·.code != Finding.unquotedValue.code) =
      attr.findings element false seen := by
  rw [findings_true, List.filter_append, filter_ne_eq_self code_ne_of_mem_findings]
  split <;> simp

theorem filter_eq_findings :
    (attr.findings element true seen).filter (·.code == Finding.unquotedValue.code) =
      if attr.isUnquoted then [.unquotedValue] else [] := by
  rw [findings_true, List.filter_append, filter_eq_eq_nil code_ne_of_mem_findings]
  split <;> simp

theorem filter_ne_findingsFrom (element : String) (seen : List String) (attrs : List Attribute) :
    (findingsFrom element true seen attrs).filter (·.1.code != Finding.unquotedValue.code) =
      findingsFrom element false seen attrs := by
  induction attrs generalizing seen with
  | nil => rfl
  | cons attr rest ih =>
    rw [findingsFrom, findingsFrom, List.filter_append, ih, ← filter_ne_findings, List.filter_map]
    rfl

/-- A value without quotes is written. -/
def Form.IsUnquoted (form : Form) : Prop :=
  ∃ before after value ne_nil not_blank, form = .unquoted before after value ne_nil not_blank

theorem WrittenIn.isUnquoted_iff {offset : ℕ} {text before after : Text} {s : Spelling}
    (h : attr.WrittenIn offset text before s after) :
    attr.isUnquoted = true ↔ s.form.IsUnquoted := by
  have hvalue : attr.value = s.form.value := by
    rw [h.attr_eq]
    rfl
  rw [isUnquoted, hvalue, Form.IsUnquoted]
  cases s.form with
  | bare => simp [Form.value]
  | quoted before after quote value quote_notMem => simp [Form.value]
  | unquoted before after value ne_nil not_blank =>
    exact iff_of_true rfl ⟨before, after, value, ne_nil, not_blank, rfl⟩

theorem filter_eq_findingsFrom (element : String) (seen : List String) (attrs : List Attribute) :
    (findingsFrom element true seen attrs).filter (·.1.code == Finding.unquotedValue.code) =
      (attrs.filter isUnquoted).map (.unquotedValue, ·) := by
  induction attrs generalizing seen with
  | nil => rfl
  | cons attr rest ih =>
    have hfirst : ((attr.findings element true seen).map (·, attr)).filter
        (·.1.code == Finding.unquotedValue.code) =
          ((attr.findings element true seen).filter
            (·.code == Finding.unquotedValue.code)).map (·, attr) :=
      List.filter_map
    rw [findingsFrom, List.filter_append, ih, hfirst, filter_eq_findings, List.filter_cons]
    split <;> rfl

end Attribute

namespace Tag

/-- The notice of a value without quotes. -/
def unquotedNotice (tag : Tag) (attr : Attribute) : Notice :=
  ⟨.unquotedValue, [("name", tag.name), ("attribute", attr.name)], .attr tag attr⟩

theorem filter_ne_attributeNotices (tag : Tag) :
    (tag.attributeNotices true).filter (·.finding.code != Finding.unquotedValue.code) =
      tag.attributeNotices false := by
  rw [attributeNotices, List.filter_map, attributeNotices]
  congr 1
  unfold attributeFindings
  split
  · rfl
  · exact Attribute.filter_ne_findingsFrom tag.name [] tag.attributes

theorem filter_eq_attributeNotices {tag : Tag} (h : tag.isOpening = true) :
    (tag.attributeNotices true).filter (·.finding.code == Finding.unquotedValue.code) =
      (tag.attributes.filter Attribute.isUnquoted).map tag.unquotedNotice := by
  have hclosing : ¬ tag.isClosing = true := by simpa [isOpening] using h
  have hfindings := Attribute.filter_eq_findingsFrom tag.name [] tag.attributes
  rw [attributeNotices, attributeFindings, if_neg hclosing, List.filter_map]
  refine (congrArg (List.map _) hfindings).trans ?_
  rw [List.map_map]
  rfl

end Tag

namespace Scan

/-- The values without quotes in opening tags, each with its tag. -/
def unquotedAttributes (scan : Scan) : List (Tag × Attribute) :=
  (scan.openingTags []).flatMap fun tag => (tag.attributes.filter Attribute.isUnquoted).map (tag, ·)

variable (scan : Scan)

/-- **Which values are without quotes**, by how the attributes are written. -/
theorem mem_unquotedAttributes_iff {tag : Tag} {attr : Attribute} :
    (tag, attr) ∈ scan.unquotedAttributes ↔ tag ∈ scan.tags ∧ tag.isOpening = true ∧
      attr ∈ tag.attributes ∧ ∃ before s after,
        attr.WrittenIn tag.attributeOffset tag.attributeText before s after ∧
          s.form.IsUnquoted := by
  have hspelled : attr ∈ tag.attributes → (attr.isUnquoted = true ↔ ∃ before s after,
      attr.WrittenIn tag.attributeOffset tag.attributeText before s after ∧
        s.form.IsUnquoted) := by
    intro hattr
    constructor
    · intro h
      obtain ⟨before, s, after, hwritten⟩ := Tag.exists_writtenIn hattr
      exact ⟨before, s, after, hwritten, hwritten.isUnquoted_iff.mp h⟩
    · rintro ⟨before, s, after, hwritten, h⟩
      exact hwritten.isUnquoted_iff.mpr h
  have hmem : (tag, attr) ∈ scan.unquotedAttributes ↔
      tag ∈ scan.openingTags [] ∧ attr ∈ tag.attributes ∧ attr.isUnquoted = true := by
    simp only [unquotedAttributes, List.mem_flatMap, List.mem_map, List.mem_filter]
    constructor
    · rintro ⟨tag', htag, attr', hattr, heq⟩
      cases heq
      exact ⟨htag, hattr⟩
    · rintro ⟨htag, hattr⟩
      exact ⟨tag, htag, attr, hattr, rfl⟩
  have hopening : tag ∈ scan.openingTags [] ↔ tag ∈ scan.tags ∧ tag.isOpening = true := by
    simp [openingTags]
  rw [hmem, hopening, and_assoc, and_congr_right_iff]
  exact fun _ => and_congr_right fun _ => and_congr_right hspelled

/-- Apart from the attributes, nothing depends on whether values without quotes are looked for. -/
theorem exists_notices_eq : ∃ before after : List Notice,
    (∀ notice ∈ before, notice.finding.code ≠ Finding.unquotedValue.code) ∧
    (∀ notice ∈ after, notice.finding.code ≠ Finding.unquotedValue.code) ∧
      ∀ unquoted, scan.notices unquoted =
        before ++ ((scan.openingTags []).flatMap (·.attributeNotices unquoted) ++ after) := by
  have hother : ∀ rule ∈ [Rule.unterminatedTags, .tagBalance, .documentSkeleton, .accessibility,
      .searchAdvice], ∀ finding ∈ rule.findings, finding.code ≠ Finding.unquotedValue.code := by
    decide
  have hfindings := Rule.findings_of_noticesByRule scan false
  simp only [Rule.builtin, noticesByRule, List.forall₂_cons] at hfindings
  obtain ⟨hstubs, hverdicts, -, hmarkers, haccessibility, hsearch, -⟩ := hfindings
  refine ⟨scan.stubNotices ++ (Nesting.verdicts scan.tags).map Nesting.Verdict.notice,
    scan.markerNotices Rule.documentMarkers ++ (scan.accessibilityNotices ++
      (scan.markerNotices Rule.searchMarkers ++ scan.headingNotices)), ?_, ?_, fun unquoted => ?_⟩
  · intro notice h
    rcases List.mem_append.mp h with h | h
    · exact hother _ (by simp) _ (hstubs notice h)
    · exact hother _ (by simp) _ (hverdicts notice h)
  · intro notice h
    rcases List.mem_append.mp h with h | h
    · exact hother _ (by simp) _ (hmarkers notice h)
    · rcases List.mem_append.mp h with h | h
      · exact hother _ (by simp) _ (haccessibility notice h)
      · exact hother _ (by simp) _ (hsearch notice h)
  · simp [notices, noticesByRule]

/-- **Values without quotes come on top of all else.** -/
theorem filter_ne_notices :
    (scan.notices true).filter (·.finding.code != Finding.unquotedValue.code) =
      scan.notices false := by
  obtain ⟨before, after, hbefore, hafter, hnotices⟩ := scan.exists_notices_eq
  rw [hnotices, hnotices, List.filter_append, List.filter_append, List.filter_flatMap,
    filter_ne_eq_self hbefore, filter_ne_eq_self hafter]
  simp only [Tag.filter_ne_attributeNotices]

/-- **Every value without quotes is noticed once.** -/
theorem filter_eq_notices :
    (scan.notices true).filter (·.finding.code == Finding.unquotedValue.code) =
      scan.unquotedAttributes.map fun place => place.1.unquotedNotice place.2 := by
  obtain ⟨before, after, hbefore, hafter, hnotices⟩ := scan.exists_notices_eq
  rw [hnotices, List.filter_append, List.filter_append, List.filter_flatMap,
    filter_eq_eq_nil hbefore, filter_eq_eq_nil hafter, List.nil_append, List.append_nil,
    unquotedAttributes, List.map_flatMap]
  refine List.flatMap_congr fun tag htag => ?_
  have hopening : tag.isOpening = true := by
    simpa [openingTags] using (List.mem_filter.mp htag).2
  rw [Tag.filter_eq_attributeNotices hopening, List.map_map]
  rfl

variable {scan} {precise : Bool}

theorem Reports.filter {notices : List Notice} {ds : List Diagnostic}
    (h : scan.Reports precise notices ds) (keep : String → Bool) :
    scan.Reports precise (notices.filter (keep ·.finding.code)) (ds.filter (keep ·.code)) := by
  refine List.rel_filter (fun notice d hd => ?_) h
  dsimp only
  rw [(Notice.diagnostic_eq_ok_iff.mp hd).2.code_eq]

theorem Reports.unique {notices : List Notice} {ds es : List Diagnostic}
    (h : scan.Reports precise notices ds) (h' : scan.Reports precise notices es) : ds = es :=
  Except.ok.inj ((mapM_eq_ok_iff.mpr h).symm.trans (mapM_eq_ok_iff.mpr h'))

theorem place_of_mem_unquotedAttributes {tag : Tag} {attr : Attribute}
    (h : (tag, attr) ∈ scan.unquotedAttributes) : (Place.attr tag attr).Of scan := by
  obtain ⟨tag', htag, h⟩ := List.mem_flatMap.mp h
  obtain ⟨attr', hattr, heq⟩ := List.mem_map.mp h
  cases heq
  exact ⟨mem_tags_of_mem_openingTags htag, List.mem_of_mem_filter hattr⟩

end Scan

/-! ### Reports -/

/-- The diagnostic says that the value of the attribute stands without quotes, and where. -/
structure Diagnostic.SaysUnquoted (tag : Tag) (attr : Attribute) (d : Diagnostic) : Prop where
  /-- It starts where the attribute does. -/
  start_eq : (d.range.start : ℤ) = tag.start + attr.offset
  /-- It is as long as the attribute. -/
  stop_eq : d.range.stop = d.range.start + attr.length
  /-- It names attribute and element. -/
  message_eq : d.message =
    "unquoted value for attribute `" ++ attr.name ++ "` on `<" ++ tag.name ++ ">`"

theorem Tag.saysUnquoted {text : Text} {scan : Scan} (hscan : Scan.ofText text = .ok scan)
    {tag : Tag} {attr : Attribute} (hplace : (Place.attr tag attr).Of scan) {precise : Bool}
    {d : Diagnostic} (h : (tag.unquotedNotice attr).diagnostic scan.table precise = .ok d) :
    d.SaysUnquoted tag attr := by
  obtain ⟨hresolve, hsaid⟩ := Notice.diagnostic_eq_ok_iff.mp h
  have hrange := (Place.resolved hscan hplace hresolve).range_eq
  have hzero := (Scan.inside_of_ofText hscan hplace.1).1
  refine ⟨?_, ?_, (Except.ok.inj hsaid.message_eq).symm⟩
  · rw [hrange]
    show ((tag.start.toNat + attr.offset : ℕ) : ℤ) = tag.start + attr.offset
    omega
  · rw [hrange]
    rfl

namespace Lint

/-- **What the options have an effect on.** The mode and the way of placing attributes change
nothing but the spans of diagnostics about attributes. Without the check for quotes the report is
the same, less the values without quotes. With it, each value that is written without quotes is
reported once, and where it stands. -/
theorem validate_option_effects (text : Text) (options : Options) (mode : Mode) :
    (∀ precise : Bool, List.Forall₂ Diagnostic.SameButSpan (validate text options)
      (validate text { options with mode := mode, precisePositions := precise })) ∧
    validate text { options with mode := mode, checkUnquoted := false } =
      (validate text { options with checkUnquoted := true }).filter
        (·.code != Finding.unquotedValue.code) ∧
    ∃ scan, Scan.ofText text = .ok scan ∧
      (∀ tag attr, (tag, attr) ∈ scan.unquotedAttributes ↔ tag ∈ scan.tags ∧
        tag.isOpening = true ∧ attr ∈ tag.attributes ∧ ∃ before s after,
          attr.WrittenIn tag.attributeOffset tag.attributeText before s after ∧
            s.form.IsUnquoted) ∧
      List.Forall₂ (fun place d => d.SaysUnquoted place.1 place.2) scan.unquotedAttributes
        ((validate text { options with checkUnquoted := true }).filter
          (·.code == Finding.unquotedValue.code)) := by
  obtain ⟨scan, hscan, -⟩ := Scan.exists_ofText text
  have hunquoted := reports_validate hscan { options with checkUnquoted := true }
  refine ⟨fun precise => ?_, ?_, scan, hscan, fun _ _ => scan.mem_unquotedAttributes_iff, ?_⟩
  · exact forall₂_of_common (reports_validate hscan options)
      (reports_validate hscan { options with mode := mode, precisePositions := precise })
      fun hnotice hd he => Notice.sameButSpan hscan hnotice hd he
  · have hkept := hunquoted.filter (· != Finding.unquotedValue.code)
    rw [Scan.filter_ne_notices] at hkept
    exact Scan.Reports.unique
      (reports_validate hscan { options with mode := mode, checkUnquoted := false }) hkept
  · have hkept := hunquoted.filter (· == Finding.unquotedValue.code)
    rw [Scan.filter_eq_notices, Scan.Reports, List.forall₂_map_left_iff] at hkept
    refine ((List.forall₂_and_left _ _).mpr ⟨fun _ => id, hkept⟩).imp ?_
    rintro ⟨tag, attr⟩ d ⟨hmem, hd⟩
    exact Tag.saysUnquoted hscan (Scan.place_of_mem_unquotedAttributes hmem) hd

end Lint

end MarkupLint

import Mathlib.Data.List.Pairwise
import MarkupLint.Proofs.Decomposition
import MarkupLint.Proofs.Notices

/-!
# Nothing is reported twice

Two notices of a run are about different places or have different codes. Between rules this is clear
from the codes, since no two rules share one. Inside a rule it has to do with what the rule looks
at. The nesting has at most one thing to say about a tag, and so have the rules on accessibility and
on headings. An attribute can be wrong in several ways at once, but these have different codes. What
is missing from the document as a whole is missing once, by its marker.

For all that the tags of a scan must be different from each other, and so must the attributes of a
tag. Both are because they stand in different places.

## Main results

* `Rule.findings_of_noticesByRule` — a rule only makes findings that it declares
* `Nesting.nodup_tag_verdicts`, `Attribute.nodup_findingsFrom` — what a tag and an attribute get
* `Scan.pairwise_key_notices` — nothing is reported twice
-/

namespace MarkupLint

/-- What tells notices apart: the place and the code. -/
def Notice.key (notice : Notice) : Place × String := (notice.place, notice.finding.code)

theorem Notice.key_ne_of_place_ne {notice later : Notice} (h : notice.place ≠ later.place) :
    notice.key ≠ later.key :=
  fun heq => h (congrArg Prod.fst heq)

theorem Notice.key_ne_of_code_ne {notice later : Notice}
    (h : notice.finding.code ≠ later.finding.code) : notice.key ≠ later.key :=
  fun heq => h (congrArg Prod.snd heq)

/-! ### Tags and attributes -/

theorem Tag.InOrder.nodup {tags : List Tag} (h : InOrder tags) : tags.Nodup := by
  refine h.stop_le_start.imp_of_mem fun {tag later} htag _ hle heq => ?_
  have hlt := h.start_lt_stop tag htag
  rw [← heq] at hle
  omega

/-- Tags that stand in order do not overlap. -/
theorem Tag.InOrder.apart {tags : List Tag} (h : InOrder tags) {tag tag' : Tag} (htag : tag ∈ tags)
    (htag' : tag' ∈ tags) : tag = tag' ∨ tag.stop ≤ tag'.start ∨ tag'.stop ≤ tag.start := by
  have hpairwise : tags.Pairwise fun t t' => t.stop ≤ t'.start ∨ t'.stop ≤ t.start :=
    h.stop_le_start.imp .inl
  have hsymm : Std.Symm fun t t' : Tag => t.stop ≤ t'.start ∨ t'.stop ≤ t.start :=
    ⟨fun _ _ => Or.symm⟩
  by_cases heq : tag = tag'
  · exact .inl heq
  · exact .inr (hpairwise.forall htag htag' heq)

/-- Tags that stand in order can be told by where they start. -/
theorem Tag.InOrder.eq_of_start_eq {tags : List Tag} (h : InOrder tags) {tag tag' : Tag}
    (htag : tag ∈ tags) (htag' : tag' ∈ tags) (heq : tag.start = tag'.start) : tag = tag' := by
  have hlt := h.start_lt_stop tag htag
  have hlt' := h.start_lt_stop tag' htag'
  rcases h.apart htag htag' with rfl | hle | hle
  · rfl
  · omega
  · omega

/-- Tags that stand in order can be told by where they stop. -/
theorem Tag.InOrder.eq_of_stop_eq {tags : List Tag} (h : InOrder tags) {tag tag' : Tag}
    (htag : tag ∈ tags) (htag' : tag' ∈ tags) (heq : tag.stop = tag'.stop) : tag = tag' := by
  have hlt := h.start_lt_stop tag htag
  have hlt' := h.start_lt_stop tag' htag'
  rcases h.apart htag htag' with rfl | hle | hle
  · rfl
  · omega
  · omega

theorem Tag.nodup_attributes (tag : Tag) : tag.attributes.Nodup := by
  have hlayout := Attribute.layout_readAll tag.attributeOffset tag.attributeText
  refine hlayout.in_order.imp fun {a b} hlt heq => ?_
  rw [heq] at hlt
  omega

/-- The nesting has at most one thing to say about a tag. -/
theorem Nesting.nodup_tag_verdicts {tags : List Tag} (h : tags.Nodup) :
    ((verdicts tags).map Verdict.tag).Nodup := by
  have hplaces : (placedVerdicts tags).Pairwise (·.1 ≠ ·.1) :=
    List.pairwise_map.mp (nodup_reported tags)
  rw [verdicts_eq, List.map_map, List.Nodup, List.pairwise_map]
  refine hplaces.imp_of_mem fun {placed placed'} hmem hmem' hne heq => hne ?_
  -- different places hold different tags
  have hplace := (mem_placedVerdicts_iff.mp hmem).getElem?
  have hplace' := (mem_placedVerdicts_iff.mp hmem').getElem?
  have htags : tags[placed.1]? = tags[placed'.1]? := by
    rw [hplace, hplace']
    exact congrArg some heq
  exact (List.getElem?_inj (List.getElem?_eq_some_iff.mp hplace).1 h).mp htags

namespace Attribute

/-- What is wrong with one attribute has different codes. -/
theorem nodup_code_findings (element : String) (unquoted : Bool) (seen : List String)
    (attr : Attribute) : ((attr.findings element unquoted seen).map Finding.code).Nodup := by
  unfold findings emptyFinding?
  split_ifs <;> decide

/-- What is wrong with attributes comes in the order of the attributes. -/
theorem findingsFrom_pairwise {element : String} {unquoted : Bool}
    {R : Attribute → Attribute → Prop} {Q : Finding × Attribute → Finding × Attribute → Prop}
    (hone : ∀ (seen : List String) (attr : Attribute),
      ((attr.findings element unquoted seen).map (·, attr)).Pairwise Q)
    (hQ : ∀ {found later}, R found.2 later.2 → Q found later) (seen : List String)
    {attrs : List Attribute} (h : attrs.Pairwise R) :
    (findingsFrom element unquoted seen attrs).Pairwise Q := by
  induction attrs generalizing seen with
  | nil => exact .nil
  | cons attr rest ih =>
    obtain ⟨hattr, hrest⟩ := List.pairwise_cons.mp h
    refine List.pairwise_append.mpr
      ⟨hone seen attr, ih _ hrest, fun found hfound later hlater => ?_⟩
    obtain ⟨finding, -, rfl⟩ := List.mem_map.mp hfound
    exact hQ (hattr later.2 (mem_of_mem_findingsFrom hlater).2)

theorem nodup_findingsFrom (element : String) (unquoted : Bool) (seen : List String)
    {attrs : List Attribute} (h : attrs.Nodup) :
    (findingsFrom element unquoted seen attrs).Pairwise fun found later =>
      found.2 ≠ later.2 ∨ found.1.code ≠ later.1.code := by
  refine findingsFrom_pairwise (fun seen attr => List.pairwise_map.mpr ?_) .inl seen h
  exact (List.pairwise_map.mp (nodup_code_findings element unquoted seen attr)).imp .inr

end Attribute

/-! ### Headings -/

namespace Rule

theorem headingSkips_sublist (previous : Option ℕ) (headings : List (Tag × ℕ)) :
    ((headingSkips previous headings).map Prod.fst).Sublist (headings.map Prod.fst) := by
  induction headings generalizing previous with
  | nil => exact .slnil
  | cons heading rest ih =>
    have hskip := (ih (some heading.2)).cons heading.1
    unfold headingSkips
    dsimp only
    split
    · exact hskip
    · split
      · exact (ih (some heading.2)).cons_cons heading.1
      · exact hskip

end Rule

theorem Scan.headings_sublist (scan : Scan) : (scan.headings.map Prod.fst).Sublist scan.tags := by
  have hfilter : scan.headings.map Prod.fst =
      (scan.openingTags (Vocabulary.headings.map Prod.fst)).filter fun tag =>
        (Vocabulary.headingLevel? tag.name).isSome := by
    rw [headings, List.map_filterMap, ← List.filterMap_eq_filter]
    congr 1
    funext tag
    cases hlevel : Vocabulary.headingLevel? tag.name <;> simp [Option.guard, hlevel]
  rw [hfilter]
  exact List.filter_sublist.trans List.filter_sublist

/-! ### Findings of rules -/

namespace Rule

/-- The findings of the catalogue that the rule declares. -/
def findings (rule : Rule) : List Finding := Finding.all.filter (·.code ∈ rule.codes)

theorem code_mem_codes {rule : Rule} {finding : Finding} (h : finding ∈ rule.findings) :
    finding.code ∈ rule.codes :=
  of_decide_eq_true (List.mem_filter.mp h).2

theorem mem_findings_of_verdict (verdict : Nesting.Verdict) :
    verdict.finding.1 ∈ tagBalance.findings := by
  cases verdict with
  | unexpected => exact (by decide : Finding.unexpectedCloser ∈ tagBalance.findings)
  | mismatched => exact (by decide : Finding.mismatchedCloser ∈ tagBalance.findings)
  | unclosed => exact (by decide : Finding.unclosedTag ∈ tagBalance.findings)

theorem mem_findings_of_possibleFindings :
    ∀ finding ∈ Attribute.possibleFindings, finding ∈ attributeValues.findings := by
  decide

theorem mem_findings_of_accessibilityFinding? {tag : Tag} {finding : Finding}
    (h : accessibilityFinding? tag = some finding) : finding ∈ accessibility.findings := by
  unfold accessibilityFinding? at h
  split at h
  · cases h
    decide
  · split at h
    · cases h
      decide
    · cases h

theorem mem_of_mem_markerNotices {scan : Scan} {markers : List (String × Finding)}
    {notice : Notice} (h : notice ∈ scan.markerNotices markers) :
    notice.finding ∈ markers.map Prod.snd := by
  obtain ⟨finding, hfinding, rfl⟩ := List.mem_map.mp h
  obtain ⟨marker, hmarker, rfl⟩ := List.mem_map.mp hfinding
  exact List.mem_map_of_mem (List.mem_of_mem_filter hmarker)

/-- **A rule only makes findings that it declares.** -/
theorem findings_of_noticesByRule (scan : Scan) (unquoted : Bool) :
    List.Forall₂ (fun rule notices => ∀ notice ∈ notices, notice.finding ∈ rule.findings)
      builtin (scan.noticesByRule unquoted) := by
  refine .cons ?stubs <| .cons ?verdicts <| .cons ?attributes <| .cons ?markers <|
    .cons ?accessibility <| .cons ?search .nil
  case stubs =>
    intro notice h
    obtain ⟨stub, -, rfl⟩ := List.mem_map.mp h
    exact (by decide : Finding.unterminatedTag ∈ unterminatedTags.findings)
  case verdicts =>
    intro notice h
    obtain ⟨verdict, -, rfl⟩ := List.mem_map.mp h
    exact mem_findings_of_verdict verdict
  case attributes =>
    intro notice h
    obtain ⟨tag, -, h⟩ := List.mem_flatMap.mp h
    obtain ⟨⟨finding, attr⟩, hfound, rfl⟩ := List.mem_map.mp h
    exact mem_findings_of_possibleFindings _ (Tag.mem_of_mem_attributeFindings hfound).1
  case markers =>
    intro notice h
    have hdeclared : ∀ finding ∈ documentMarkers.map Prod.snd,
        finding ∈ documentSkeleton.findings := by
      decide
    exact hdeclared _ (mem_of_mem_markerNotices h)
  case accessibility =>
    intro notice h
    obtain ⟨tag, -, h⟩ := List.mem_filterMap.mp h
    obtain ⟨finding, hfinding, rfl⟩ := Option.map_eq_some_iff.mp h
    exact mem_findings_of_accessibilityFinding? hfinding
  case search =>
    intro notice h
    rcases List.mem_append.mp h with h | h
    · have hdeclared : ∀ finding ∈ searchMarkers.map Prod.snd,
          finding ∈ searchAdvice.findings := by
        decide
      exact hdeclared _ (mem_of_mem_markerNotices h)
    · obtain ⟨skip, -, rfl⟩ := List.mem_map.mp h
      exact (by decide : Finding.headingSkip ∈ searchAdvice.findings)

/-- What a rule declares is of its category. -/
theorem category_of_mem_findings :
    ∀ rule ∈ builtin, ∀ finding ∈ rule.findings, finding.category = some rule.category := by
  decide

/-- No two rules of the library share a code. -/
theorem pairwise_codes_builtin :
    builtin.Pairwise fun rule later => ∀ code ∈ rule.codes, code ∉ later.codes := by
  decide

end Rule

/-! ### Notices in the order of the tags -/

namespace Scan

section Order

variable {scan : Scan} {R : Tag → Tag → Prop} {Q : Notice → Notice → Prop}

theorem pairwise_attributeNotices {unquoted : Bool} (htags : scan.tags.Pairwise R)
    (hone : ∀ tag : Tag, (tag.attributeNotices unquoted).Pairwise Q)
    (hQ : ∀ {tag tag' : Tag} {attr attr' : Attribute} {notice later : Notice}, R tag tag' →
      attr ∈ tag.attributes → notice.place = .attr tag attr → later.place = .attr tag' attr' →
      Q notice later) :
    ((scan.openingTags []).flatMap (·.attributeNotices unquoted)).Pairwise Q := by
  refine List.pairwise_flatMap.mpr ⟨fun tag _ => hone tag, ?_⟩
  refine (htags.sublist List.filter_sublist).imp fun {tag tag'} hR notice hnotice later hlater => ?_
  obtain ⟨found, hfound, rfl⟩ := List.mem_map.mp hnotice
  obtain ⟨found', -, rfl⟩ := List.mem_map.mp hlater
  exact hQ hR (Tag.mem_of_mem_attributeFindings hfound).2 rfl rfl

variable (hQ : ∀ {tag tag' : Tag} {notice later : Notice}, R tag tag' →
  notice.place = .tag tag → later.place = .tag tag' → Q notice later)

include hQ

theorem pairwise_accessibilityNotices (htags : scan.tags.Pairwise R) :
    scan.accessibilityNotices.Pairwise Q := by
  refine List.Pairwise.filterMap _ (fun tag tag' hR notice hnotice later hlater => ?_)
    (htags.sublist List.filter_sublist)
  obtain ⟨finding, -, rfl⟩ := Option.map_eq_some_iff.mp hnotice
  obtain ⟨finding', -, rfl⟩ := Option.map_eq_some_iff.mp hlater
  exact hQ hR rfl rfl

theorem pairwise_headingNotices (htags : scan.tags.Pairwise R) :
    scan.headingNotices.Pairwise Q := by
  have hskips : ((Rule.headingSkips none scan.headings).map Prod.fst).Pairwise R :=
    htags.sublist ((Rule.headingSkips_sublist none scan.headings).trans scan.headings_sublist)
  rw [headingNotices, List.pairwise_map]
  exact (List.pairwise_map.mp hskips).imp fun hR => hQ hR rfl rfl

end Order

/-! ### Keys -/

variable {scan : Scan}

theorem pairwise_key_markerNotices {markers : List (String × Finding)}
    (h : (markers.map (·.2.code)).Nodup) :
    (scan.markerNotices markers).Pairwise (·.key ≠ ·.key) := by
  have hcodes : ((scan.missingMarkers markers).map Finding.code).Nodup := by
    rw [missingMarkers, List.map_map]
    exact h.sublist (List.filter_sublist.map _)
  rw [markerNotices, List.pairwise_map]
  exact (List.pairwise_map.mp hcodes).imp fun hne => Notice.key_ne_of_code_ne hne

theorem pairwise_key_attributeNotices (tag : Tag) (unquoted : Bool) :
    (tag.attributeNotices unquoted).Pairwise (·.key ≠ ·.key) := by
  unfold Tag.attributeNotices Tag.attributeFindings
  rw [List.pairwise_map]
  split
  · exact .nil
  · refine (Attribute.nodup_findingsFrom tag.name unquoted [] tag.nodup_attributes).imp ?_
    rintro ⟨finding, attr⟩ ⟨finding', attr'⟩ (hattr | hcode)
    · exact Notice.key_ne_of_place_ne fun heq => hattr (Place.attr.inj heq).2
    · exact Notice.key_ne_of_code_ne hcode

/-- Notices about attributes of different tags differ. -/
theorem key_ne_of_attr_tag_ne {tag tag' : Tag} {attr attr' : Attribute} (h : tag ≠ tag')
    {notice later : Notice} (hnotice : notice.place = .attr tag attr)
    (hlater : later.place = .attr tag' attr') : notice.key ≠ later.key := by
  refine Notice.key_ne_of_place_ne fun heq => h ?_
  rw [hnotice, hlater] at heq
  exact (Place.attr.inj heq).1

/-- Notices about different tags as a whole differ. -/
theorem key_ne_of_tag_ne {tag tag' : Tag} {notice later : Notice} (h : tag ≠ tag')
    (hnotice : notice.place = .tag tag) (hlater : later.place = .tag tag') :
    notice.key ≠ later.key := by
  refine Notice.key_ne_of_place_ne fun heq => h ?_
  rw [hnotice, hlater] at heq
  exact Place.tag.inj heq

theorem pairwise_key_verdicts (htags : scan.tags.Nodup) :
    ((Nesting.verdicts scan.tags).map Nesting.Verdict.notice).Pairwise (·.key ≠ ·.key) := by
  rw [List.pairwise_map]
  exact (List.pairwise_map.mp (Nesting.nodup_tag_verdicts htags)).imp fun hne =>
    key_ne_of_tag_ne hne rfl rfl

/-- **Nothing is reported twice.** -/
theorem pairwise_key_notices (htags : scan.tags.Nodup) (hstubs : scan.stubs.Nodup)
    (unquoted : Bool) : (scan.notices unquoted).Pairwise (·.key ≠ ·.key) := by
  refine List.pairwise_flatten.mpr ⟨fun notices hmem => ?_, ?_⟩
  · simp only [noticesByRule, List.mem_cons, List.not_mem_nil, or_false] at hmem
    rcases hmem with rfl | rfl | rfl | rfl | rfl | rfl
    · rw [stubNotices, List.pairwise_map]
      exact hstubs.imp fun hne => Notice.key_ne_of_place_ne fun heq => hne (Place.stub.inj heq)
    · exact pairwise_key_verdicts htags
    · exact pairwise_attributeNotices htags (pairwise_key_attributeNotices · unquoted)
        fun hne _ => key_ne_of_attr_tag_ne hne
    · exact pairwise_key_markerNotices (by decide)
    · exact pairwise_accessibilityNotices key_ne_of_tag_ne htags
    · refine List.pairwise_append.mpr ⟨pairwise_key_markerNotices (by decide),
        pairwise_headingNotices key_ne_of_tag_ne htags, fun notice hnotice later hlater => ?_⟩
      obtain ⟨finding, -, rfl⟩ := List.mem_map.mp hnotice
      obtain ⟨skip, -, rfl⟩ := List.mem_map.mp hlater
      exact Notice.key_ne_of_place_ne fun heq => (by cases heq)
  · -- different rules have different codes
    refine pairwise_of_forall₂ (Rule.findings_of_noticesByRule scan unquoted)
      Rule.pairwise_codes_builtin
      fun _ _ hfindings hfindings' hdisjoint notice hnotice later hlater => ?_
    refine Notice.key_ne_of_code_ne fun heq => ?_
    exact hdisjoint _ (Rule.code_mem_codes (hfindings notice hnotice))
      (heq ▸ Rule.code_mem_codes (hfindings' later hlater))

end Scan

end MarkupLint

import MarkupLint.Lint.Run
import MarkupLint.Proofs.AttributeBounds
import MarkupLint.Proofs.Outline
import MarkupLint.Proofs.Pairing

/-!
# Runs complete

A run that fails says so only by what is missing: it keeps the diagnostics it has and marks its
outcome as not completed. This file shows that no document can bring that about. Whatever the text
and the options are, the scan has a result, all six rules report, and the outline lists its
elements.

Only one thing is asked of a scan, that its tags lie inside the text of its line table. From there
each rule is a list of findings at tags or at attributes of tags, and for each of them the catalogue
is compared with the values that the rule has to offer.

## Main results

* `Tag.exists_checkAttributes` — the check of the attributes
* `Rule.exists_check_of_mem_builtin` — every rule reports
* `Lint.check_completes` — a run over a text completes
-/

namespace MarkupLint

/-! ### Attributes -/

namespace Attribute

/-- All that can be wrong with an attribute. -/
def possibleFindings : List Finding :=
  [.duplicateAttribute, .emptyId, .emptyHref, .emptySource, .unquotedValue]

theorem mem_possibleFindings {element : String} {unquoted : Bool} {seen : List String}
    {attr : Attribute} {finding : Finding} (h : finding ∈ attr.findings element unquoted seen) :
    finding ∈ possibleFindings := by
  unfold findings emptyFinding? at h
  unfold possibleFindings
  grind

/-- What can be wrong with an attribute speaks of the element and of the attribute only. -/
theorem fits_of_mem_possibleFindings :
    ∀ finding ∈ possibleFindings, finding.fits ["name", "attribute"] = true := by
  decide

theorem mem_of_mem_findingsFrom {element : String} {unquoted : Bool} {seen : List String}
    {attrs : List Attribute} {found : Finding × Attribute}
    (h : found ∈ findingsFrom element unquoted seen attrs) :
    found.1 ∈ possibleFindings ∧ found.2 ∈ attrs := by
  induction attrs generalizing seen with
  | nil => cases h
  | cons attr rest ih =>
    rcases List.mem_append.mp h with h | h
    · obtain ⟨finding, hfinding, rfl⟩ := List.mem_map.mp h
      exact ⟨mem_possibleFindings hfinding, List.mem_cons_self⟩
    · exact (ih h).imp_right (List.mem_cons_of_mem attr)

end Attribute

namespace Tag

theorem exists_attributeRange {tag : Tag} {table : LineTable} (htag : tag.Inside table)
    {attr : Attribute} (hattr : attr ∈ tag.attributes) :
    ∃ range, tag.attributeRange attr.offset attr.length = .ok range ∧
      range.stop ≤ table.length := by
  obtain ⟨hstart, hstop⟩ := htag
  have hle := attribute_stop_le hattr
  rw [Tag.stop] at hstop
  refine ⟨⟨tag.start.toNat + attr.offset, tag.start.toNat + attr.offset + attr.length,
    Nat.le_add_right _ _⟩, Range.ofBounds_eq_ok_iff.mpr ⟨?_, ?_⟩, ?_⟩
  all_goals dsimp only; omega

/-- Both ways of giving the place of an attribute give one. -/
theorem exists_attributeSpan {tag : Tag} {table : LineTable} (htag : tag.Inside table)
    {attr : Attribute} (hattr : attr ∈ tag.attributes) (precise : Bool) :
    ∃ span, tag.attributeSpan table precise attr.offset attr.length = .ok span := by
  obtain ⟨range, hrange, hstop⟩ := exists_attributeRange htag hattr
  rw [attributeSpan, hrange]
  cases precise with
  | true => exact ⟨_, LineTable.span_of_stop_le hstop⟩
  | false =>
    have hposition := LineTable.position_of_le htag.1 htag.start_le
    obtain ⟨start, hstart, hline, hcolumn⟩ :=
      (table.locate tag.start.toNat).exists_shiftColumn attr.offset
    obtain ⟨stop, hshift, hline', hcolumn'⟩ :=
      (table.locate tag.start.toNat).exists_shiftColumn (attr.offset + attr.length)
    have horder : ¬ stop < start := by
      rintro (h | ⟨-, h⟩) <;> omega
    refine ⟨⟨start, stop, horder⟩, ?_⟩
    show (do
      let tagStart ← table.position tag.start
      let start ← tagStart.shiftColumn attr.offset
      let stop ← tagStart.shiftColumn (attr.offset + attr.length)
      Span.between start stop) = _
    rw [hposition]
    simp only [bind_eq_ok_iff]
    refine ⟨_, rfl, start, hstart, stop, hshift, ?_⟩
    rw [Span.between, dif_neg horder]

theorem exists_checkAttributes {tag : Tag} {table : LineTable} (htag : tag.Inside table)
    (precise unquoted : Bool) : ∃ ds, tag.checkAttributes table precise unquoted = .ok ds := by
  refine exists_mapM_eq_ok fun ⟨finding, attr⟩ hmem => ?_
  unfold attributeFindings at hmem
  split at hmem
  · cases hmem
  · obtain ⟨hfinding, hattr⟩ := Attribute.mem_of_mem_findingsFrom hmem
    obtain ⟨span, hspan⟩ := exists_attributeSpan htag hattr precise
    obtain ⟨range, hrange, -⟩ := exists_attributeRange htag hattr
    have hfits : finding.fits (List.map Prod.fst
        [("name", tag.name), ("attribute", attr.name)]) = true :=
      Attribute.fits_of_mem_possibleFindings _ hfinding
    obtain ⟨d, hd, -⟩ := Finding.diagnostic_of_fits hfits span range
    refine ⟨d, ?_⟩
    show tag.attributeDiagnostic table precise finding attr = .ok d
    rw [attributeDiagnostic, hspan, hrange]
    exact hd

end Tag

/-! ### Rules -/

namespace Scan

theorem mem_tags_of_mem_openingTags {scan : Scan} {names : List String} {tag : Tag}
    (h : tag ∈ scan.openingTags names) : tag ∈ scan.tags :=
  List.mem_of_mem_filter h

theorem exists_atTag {scan : Scan} {tag : Tag} (htag : tag.Inside scan.table) {finding : Finding}
    {fields : Template.Fields} (hfits : finding.fits ("name" :: fields.map Prod.fst) = true) :
    ∃ d, scan.atTag finding tag fields = .ok d := by
  have hfits : finding.fits (List.map Prod.fst (("name", tag.name) :: fields)) = true := hfits
  obtain ⟨d, hd, -⟩ := Tag.diagnostic_of_inside htag hfits
  exact ⟨d, hd⟩

/-- What is missing from a document speaks of nothing in it. -/
theorem exists_missingMarkers (scan : Scan) {markers : List (String × Finding)}
    (hfits : ∀ marker ∈ markers, marker.2.fits [] = true) :
    ∃ ds, (scan.missingMarkers markers).mapM Finding.documentDiagnostic = .ok ds := by
  refine exists_mapM_eq_ok fun finding hmem => ?_
  obtain ⟨marker, hmarker, rfl⟩ := List.mem_map.mp hmem
  have hfits : marker.2.fits (List.map Prod.fst ([] : Template.Fields)) = true :=
    hfits marker (List.mem_of_mem_filter hmarker)
  obtain ⟨d, hd, -⟩ := Finding.diagnostic_of_fits hfits .document .document
  exact ⟨d, hd⟩

end Scan

namespace Rule

theorem fits_documentMarkers : ∀ marker ∈ documentMarkers, marker.2.fits [] = true := by
  decide

theorem fits_searchMarkers : ∀ marker ∈ searchMarkers, marker.2.fits [] = true := by
  decide

theorem fits_of_accessibilityFinding? {tag : Tag} {finding : Finding}
    (h : accessibilityFinding? tag = some finding) : finding.fits ["name"] = true := by
  unfold accessibilityFinding? at h
  split at h
  · cases h
    rfl
  · split at h
    · cases h
      rfl
    · cases h

theorem mem_of_mem_headingSkips {previous : Option ℕ} {headings : List (Tag × ℕ)}
    {skip : Tag × ℕ × ℕ} (h : skip ∈ headingSkips previous headings) :
    ∃ level, (skip.1, level) ∈ headings := by
  induction headings generalizing previous with
  | nil => cases h
  | cons heading rest ih =>
    have hlater : skip ∈ headingSkips (some heading.2) rest →
        ∃ level, (skip.1, level) ∈ heading :: rest := fun hskip =>
      (ih hskip).imp fun _ hmem => List.mem_cons_of_mem heading hmem
    unfold headingSkips at h
    dsimp only at h
    split at h
    · exact hlater h
    · split at h
      · rcases List.mem_cons.mp h with rfl | h
        · exact ⟨heading.2, List.mem_cons_self⟩
        · exact hlater h
      · exact hlater h

/-- **Every rule of the library reports.** -/
theorem exists_check_of_mem_builtin {scan : Scan} (h : ∀ tag ∈ scan.tags, tag.Inside scan.table)
    (options : Options) {rule : Rule} (hrule : rule ∈ builtin) :
    ∃ found, rule.check scan options = .ok found := by
  have hopening : ∀ names, ∀ tag ∈ scan.openingTags names, tag.Inside scan.table :=
    fun names tag htag => h tag (Scan.mem_tags_of_mem_openingTags htag)
  simp only [builtin, List.mem_cons, List.not_mem_nil, or_false] at hrule
  rcases hrule with rfl | rfl | rfl | rfl | rfl | rfl
  · exact ⟨scan.diagnostics, rfl⟩
  · obtain ⟨-, diagnostics, hcheck, -⟩ := Nesting.accounted_of_inside h
    exact ⟨diagnostics, hcheck⟩
  · obtain ⟨found, hfound⟩ := exists_mapM_eq_ok fun tag htag =>
      Tag.exists_checkAttributes (hopening [] tag htag) options.precisePositions
        options.checkUnquoted
    refine ⟨found.flatten, bind_eq_ok_iff.mpr ⟨found, hfound, rfl⟩⟩
  · exact scan.exists_missingMarkers fits_documentMarkers
  · refine exists_mapM_eq_ok fun ⟨finding, tag⟩ hmem => ?_
    obtain ⟨tag', htag', hmap⟩ := List.mem_filterMap.mp hmem
    obtain ⟨finding', hfinding, heq⟩ := Option.map_eq_some_iff.mp hmap
    cases heq
    exact Scan.exists_atTag (hopening _ tag htag') (fits_of_accessibilityFinding? hfinding)
  · obtain ⟨missing, hmissing⟩ := scan.exists_missingMarkers fits_searchMarkers
    obtain ⟨skips, hskips⟩ : ∃ skips, (headingSkips none scan.headings).mapM
        (fun skip => scan.atTag .headingSkip skip.1
          [("previous", toString skip.2.1), ("current", toString skip.2.2)]) = .ok skips := by
      refine exists_mapM_eq_ok fun ⟨tag, previous, current⟩ hmem => ?_
      obtain ⟨level, hheading⟩ := mem_of_mem_headingSkips hmem
      obtain ⟨tag', htag', hmap⟩ := List.mem_filterMap.mp hheading
      obtain ⟨level', -, heq⟩ := Option.map_eq_some_iff.mp hmap
      cases heq
      exact Scan.exists_atTag (hopening _ tag htag') rfl
    refine ⟨missing ++ skips, bind_eq_ok_iff.mpr ⟨missing, hmissing, ?_⟩⟩
    exact bind_eq_ok_iff.mpr ⟨skips, hskips, rfl⟩

theorem validate_builtin : RuleSet.validate builtin = .ok () := rfl

theorem order_builtin : RuleSet.order builtin = .ok builtin := rfl

end Rule

/-! ### Runs -/

namespace Lint

theorem completed_gather {scan : Scan} {options : Options} {rules : List Rule}
    (h : ∀ rule ∈ rules, ∃ found, rule.check scan options = .ok found) :
    (gather scan options rules).completed = true := by
  induction rules with
  | nil => rfl
  | cons rule rest ih =>
    obtain ⟨found, hfound⟩ := h rule List.mem_cons_self
    rw [gather, hfound]
    exact ih fun rule' hrule' => h rule' (List.mem_cons_of_mem rule hrule')

/-- **A run over a text completes.** The scan has a result, every rule of the library reports on it,
and the outline lists its elements. -/
theorem check_completes (text : Text) (options : Options) :
    ∃ scan outcome, Scan.ofText text = .ok scan ∧
      check (some text) (some options) none none = .ok outcome ∧
      outcome.completed = true ∧ outcome.scan = some scan ∧
      (∀ rule ∈ Rule.builtin, ∃ found, rule.check scan options = .ok found) ∧
      ∃ elements, scan.outline = .ok elements := by
  obtain ⟨scan, hscan, -⟩ := Scan.exists_ofText text
  have hinside : ∀ tag ∈ scan.tags, tag.Inside scan.table := fun tag htag =>
    Scan.inside_of_ofText hscan htag
  have hrules : ∀ rule ∈ Rule.builtin, ∃ found, rule.check scan options = .ok found :=
    fun rule hrule => Rule.exists_check_of_mem_builtin hinside options hrule
  have hrun : run (some text) options Rule.builtin = runScan scan options Rule.builtin := by
    rw [run, Option.map_some, hscan]
  obtain ⟨elements, helements, -⟩ := Scan.exists_outline hinside
  refine ⟨scan, run (some text) options Rule.builtin, hscan, ?_, ?_, ?_, hrules, elements,
    helements⟩
  · refine bind_eq_ok_iff.mpr ⟨options, rfl, bind_eq_ok_iff.mpr ⟨(), Rule.validate_builtin, ?_⟩⟩
    exact bind_eq_ok_iff.mpr ⟨Rule.builtin, Rule.order_builtin, rfl⟩
  · rw [hrun]
    exact completed_gather hrules
  · rw [hrun]
    rfl

end Lint

end MarkupLint

import MarkupLint.Proofs.Completion

/-!
# What a run reports, before it is put into words

Each rule works out in its own way what it reports, but it always comes to the same: a finding, the
values for the gaps of its texts, and a place. A `Notice` holds these three, and `Notice.diagnostic`
is the only way from there to a diagnostic. So a run can be described in two steps. `Scan.notices`
lists what is to be reported, rule by rule; and the diagnostics of the run are those notices, one
by one and in the same order.

The point of this is what the first step does not look at. It knows tags and attributes, but no line
table and no choice between the two ways of giving the place of an attribute. Both enter only when a
`Place` is resolved. Whatever is true of a run because of which findings it makes, and of how often
it makes them, can be shown about the list of notices alone.

## Main results

* `Place.Of`, `Scan.place_of_mem_notices` — notices are about parts of the scan
* `Notice.diagnostic_eq_ok_iff` — what the diagnostic of a notice says
* `Lint.reports_validate` — the diagnostics of a run are its notices
-/

namespace MarkupLint

/-! ### Places and notices -/

/-- Where something is found. -/
inductive Place where
  /-- In the document as a whole. -/
  | document
  /-- At a tag start that is never ended. -/
  | stub (stub : Stub)
  /-- At a tag. -/
  | tag (tag : Tag)
  /-- At an attribute of a tag. -/
  | attr (tag : Tag) (attr : Attribute)
deriving DecidableEq, Repr

namespace Place

/-- The span and the range of a place. The span of an attribute depends on how it is asked for. -/
def resolve (table : LineTable) (precise : Bool) : Place → Except Fault (Span × Range)
  | document => .ok (.document, .document)
  | stub s => do
    let span ← table.span s.range
    return (span, s.range)
  | tag t => do
    let range ← t.range
    let span ← table.span range
    return (span, range)
  | attr t a => do
    let span ← t.attributeSpan table precise a.offset a.length
    let range ← t.attributeRange a.offset a.length
    return (span, range)

/-- The place is a part of what was scanned. -/
def Of (scan : Scan) : Place → Prop
  | document => True
  | stub s => s ∈ scan.stubs
  | tag t => t ∈ scan.tags
  | attr t a => t ∈ scan.tags ∧ a ∈ t.attributes

end Place

/-- Something to be reported. -/
structure Notice where
  /-- What is found. -/
  finding : Finding
  /-- The values for the gaps of its texts. -/
  fields : Template.Fields
  /-- Where it is found. -/
  place : Place

namespace Notice

/-- The diagnostic of a notice. -/
def diagnostic (table : LineTable) (precise : Bool) (notice : Notice) :
    Except Fault Diagnostic := do
  let (span, range) ← notice.place.resolve table precise
  notice.finding.diagnostic span range notice.fields

/-- The diagnostic says what the notice says. -/
structure Says (notice : Notice) (d : Diagnostic) : Prop where
  code_eq : d.code = notice.finding.code
  kind_eq : d.kind = notice.finding.kind
  message_eq : notice.finding.message.fill notice.fields = .ok d.message
  severity_eq : d.severity = notice.finding.severity
  hint_eq : notice.finding.hint.mapM (Template.fill notice.fields) = .ok d.hint
  category_eq : d.category = notice.finding.category

/-- **The diagnostic of a notice** says what the notice says, at the notice's place. -/
theorem diagnostic_eq_ok_iff {table : LineTable} {precise : Bool} {notice : Notice}
    {d : Diagnostic} :
    notice.diagnostic table precise = .ok d ↔
      notice.place.resolve table precise = .ok (d.span, d.range) ∧ notice.Says d := by
  obtain ⟨code, kind, message, span, range, severity, hint, category⟩ := d
  simp only [diagnostic, Finding.diagnostic, bind_eq_ok_iff]
  constructor
  · rintro ⟨⟨span', range'⟩, hplace, message', hmessage, hint', hhint, heq⟩
    cases heq
    exact ⟨hplace, rfl, rfl, hmessage, rfl, hhint, rfl⟩
  · rintro ⟨hplace, rfl, rfl, hmessage, rfl, hhint, rfl⟩
    exact ⟨_, hplace, message, hmessage, hint, hhint, rfl⟩

end Notice

/-! ### The notices of a scan -/

namespace Nesting

/-- The notice of a verdict. -/
def Verdict.notice (verdict : Verdict) : Notice :=
  ⟨verdict.finding.1, verdict.finding.2, .tag verdict.tag⟩

end Nesting

namespace Tag

/-- The notice of a finding about the tag as a whole. -/
def notice (tag : Tag) (finding : Finding) (fields : Template.Fields) : Notice :=
  ⟨finding, ("name", tag.name) :: fields, .tag tag⟩

/-- The notices about the attributes of the tag. -/
def attributeNotices (tag : Tag) (unquoted : Bool) : List Notice :=
  (tag.attributeFindings unquoted).map fun (finding, attr) =>
    ⟨finding, [("name", tag.name), ("attribute", attr.name)], .attr tag attr⟩

end Tag

namespace Scan

/-- The notices of tag starts that are never ended. -/
def stubNotices (scan : Scan) : List Notice :=
  scan.stubs.map fun stub =>
    ⟨.unterminatedTag, [("name", stub.tagStart.name)], .stub stub⟩

/-- The notices of markers that are missing. -/
def markerNotices (scan : Scan) (markers : List (String × Finding)) : List Notice :=
  (scan.missingMarkers markers).map fun finding => ⟨finding, [], .document⟩

/-- The notices about accessibility. -/
def accessibilityNotices (scan : Scan) : List Notice :=
  (scan.openingTags ["img", "input"]).filterMap fun tag =>
    (Rule.accessibilityFinding? tag).map (tag.notice · [])

/-- The notices of headings that skip a level. -/
def headingNotices (scan : Scan) : List Notice :=
  (Rule.headingSkips none scan.headings).map fun (tag, previous, current) =>
    tag.notice .headingSkip [("previous", toString previous), ("current", toString current)]

/-- The notices of a scan, rule by rule. -/
def noticesByRule (scan : Scan) (unquoted : Bool) : List (List Notice) :=
  [ scan.stubNotices,
    (Nesting.verdicts scan.tags).map Nesting.Verdict.notice,
    (scan.openingTags []).flatMap (·.attributeNotices unquoted),
    scan.markerNotices Rule.documentMarkers,
    scan.accessibilityNotices,
    scan.markerNotices Rule.searchMarkers ++ scan.headingNotices ]

/-- The notices of a scan. -/
def notices (scan : Scan) (unquoted : Bool) : List Notice := (scan.noticesByRule unquoted).flatten

/-- The diagnostics are those of the notices, one by one. -/
def Reports (scan : Scan) (precise : Bool) (notices : List Notice) (ds : List Diagnostic) : Prop :=
  List.Forall₂ (fun notice d => notice.diagnostic scan.table precise = .ok d) notices ds

section Rules

variable {scan : Scan} {options : Options} {precise : Bool} {found : List Diagnostic}

theorem reports_stubs {text : Text} (h : ofText text = .ok scan) :
    scan.Reports precise scan.stubNotices scan.diagnostics := by
  simp only [ofText, withTable, bind_eq_ok_iff] at h
  obtain ⟨ds, hds, heq⟩ := h
  cases heq
  rw [Reports, stubNotices, List.forall₂_map_left_iff]
  refine (mapM_eq_ok_iff.mp hds).imp fun stub d hd => ?_
  simpa [Stub.diagnostic, Notice.diagnostic, Place.resolve, bind_assoc] using hd

theorem reports_tagBalance (h : Rule.tagBalance.check scan options = .ok found) :
    scan.Reports precise ((Nesting.verdicts scan.tags).map Nesting.Verdict.notice) found := by
  rw [Reports, List.forall₂_map_left_iff]
  refine (mapM_eq_ok_iff.mp h).imp fun verdict d hd => ?_
  simpa [Nesting.Verdict.diagnostic, Nesting.Verdict.notice, Notice.diagnostic, Place.resolve,
    bind_assoc] using hd

theorem reports_attributeValues (h : Rule.attributeValues.check scan options = .ok found) :
    scan.Reports options.precisePositions
      ((scan.openingTags []).flatMap (·.attributeNotices options.checkUnquoted)) found := by
  obtain ⟨byTag, hbyTag, heq⟩ := bind_eq_ok_iff.mp h
  cases heq
  rw [Reports, List.flatMap_def]
  refine List.rel_flatten (List.forall₂_map_left_iff.mpr ?_)
  refine (mapM_eq_ok_iff.mp hbyTag).imp fun tag ds hds => ?_
  rw [Tag.attributeNotices, List.forall₂_map_left_iff]
  refine (mapM_eq_ok_iff.mp hds).imp fun ⟨finding, attr⟩ d hd => ?_
  simpa [Tag.attributeDiagnostic, Notice.diagnostic, Place.resolve, bind_assoc] using hd

theorem reports_markers {markers : List (String × Finding)}
    (h : (scan.missingMarkers markers).mapM Finding.documentDiagnostic = .ok found) :
    scan.Reports precise (scan.markerNotices markers) found := by
  rw [Reports, markerNotices, List.forall₂_map_left_iff]
  exact mapM_eq_ok_iff.mp h

/-- A finding about a tag as a whole is reported by its notice. -/
theorem atTag_eq (finding : Finding) (tag : Tag) (fields : Template.Fields) :
    scan.atTag finding tag fields = (tag.notice finding fields).diagnostic scan.table precise := by
  simp [atTag, Tag.notice, Notice.diagnostic, Place.resolve, bind_assoc]

theorem reports_accessibility (h : Rule.accessibility.check scan options = .ok found) :
    scan.Reports precise scan.accessibilityNotices found := by
  have hnotices : scan.accessibilityNotices =
      ((scan.openingTags ["img", "input"]).filterMap fun tag =>
        (Rule.accessibilityFinding? tag).map (·, tag)).map fun found =>
          found.2.notice found.1 [] := by
    rw [List.map_filterMap]
    simp only [Option.map_map]
    rfl
  rw [Reports, hnotices, List.forall₂_map_left_iff]
  refine (mapM_eq_ok_iff.mp h).imp fun found d hd => ?_
  rwa [← atTag_eq]

theorem reports_searchAdvice (h : Rule.searchAdvice.check scan options = .ok found) :
    scan.Reports precise (scan.markerNotices Rule.searchMarkers ++ scan.headingNotices) found := by
  obtain ⟨missing, hmissing, h⟩ := bind_eq_ok_iff.mp h
  obtain ⟨skips, hskips, heq⟩ := bind_eq_ok_iff.mp h
  cases heq
  refine List.rel_append (reports_markers hmissing) ?_
  rw [headingNotices, List.forall₂_map_left_iff]
  refine (mapM_eq_ok_iff.mp hskips).imp fun ⟨tag, previous, current⟩ d hd => ?_
  rwa [← atTag_eq]

end Rules

/-- Each rule of the library reports its notices. -/
theorem reports_builtin {text : Text} {scan : Scan} (h : ofText text = .ok scan)
    (options : Options) :
    List.Forall₂ (fun rule notices => ∀ found, rule.check scan options = .ok found →
      scan.Reports options.precisePositions notices found)
      Rule.builtin (scan.noticesByRule options.checkUnquoted) := by
  refine .cons (fun found hfound => ?_) <| .cons (fun found => reports_tagBalance) <|
    .cons (fun found => reports_attributeValues) <| .cons (fun found => reports_markers) <|
    .cons (fun found => reports_accessibility) <| .cons (fun found => reports_searchAdvice) .nil
  cases hfound
  exact reports_stubs h

end Scan

/-! ### Places of notices -/

/-- A verdict is about one of the tags. -/
theorem Nesting.tag_mem_of_mem_verdicts {tags : List Tag} {verdict : Verdict}
    (h : verdict ∈ verdicts tags) : verdict.tag ∈ tags := by
  rw [verdicts_eq] at h
  obtain ⟨⟨place, verdict⟩, hplaced, rfl⟩ := List.mem_map.mp h
  exact List.mem_of_getElem? (mem_placedVerdicts_iff.mp hplaced).getElem?

theorem Tag.mem_of_mem_attributeFindings {tag : Tag} {unquoted : Bool}
    {found : Finding × Attribute} (h : found ∈ tag.attributeFindings unquoted) :
    found.1 ∈ Attribute.possibleFindings ∧ found.2 ∈ tag.attributes := by
  unfold attributeFindings at h
  split at h
  · cases h
  · exact Attribute.mem_of_mem_findingsFrom h

theorem Rule.mem_tags_of_mem_headingSkips {scan : Scan} {skip : Tag × ℕ × ℕ}
    (h : skip ∈ headingSkips none scan.headings) : skip.1 ∈ scan.tags := by
  obtain ⟨level, hheading⟩ := mem_of_mem_headingSkips h
  obtain ⟨tag, htag, hmap⟩ := List.mem_filterMap.mp hheading
  obtain ⟨level', -, heq⟩ := Option.map_eq_some_iff.mp hmap
  cases heq
  exact Scan.mem_tags_of_mem_openingTags htag

/-- **Notices are about parts of the scan.** -/
theorem Scan.place_of_mem_notices {scan : Scan} {unquoted : Bool} {notice : Notice}
    (h : notice ∈ scan.notices unquoted) : notice.place.Of scan := by
  have hmarkers : ∀ markers, notice ∈ scan.markerNotices markers → notice.place.Of scan := by
    intro markers h
    obtain ⟨finding, -, rfl⟩ := List.mem_map.mp h
    trivial
  simp only [notices, noticesByRule, List.flatten_cons, List.flatten_nil, List.append_nil,
    List.mem_append] at h
  rcases h with h | h | h | h | h | h | h
  · obtain ⟨stub, hstub, rfl⟩ := List.mem_map.mp h
    exact hstub
  · obtain ⟨verdict, hverdict, rfl⟩ := List.mem_map.mp h
    exact Nesting.tag_mem_of_mem_verdicts hverdict
  · obtain ⟨tag, htag, h⟩ := List.mem_flatMap.mp h
    obtain ⟨found, hfound, rfl⟩ := List.mem_map.mp h
    exact ⟨mem_tags_of_mem_openingTags htag, (Tag.mem_of_mem_attributeFindings hfound).2⟩
  · exact hmarkers _ h
  · obtain ⟨tag, htag, h⟩ := List.mem_filterMap.mp h
    obtain ⟨finding, -, rfl⟩ := Option.map_eq_some_iff.mp h
    exact mem_tags_of_mem_openingTags htag
  · exact hmarkers _ h
  · obtain ⟨skip, hskip, rfl⟩ := List.mem_map.mp h
    exact Rule.mem_tags_of_mem_headingSkips hskip

/-! ### The notices of a run -/

namespace Lint

theorem reports_gather {scan : Scan} {options : Options} {rules : List Rule}
    {notices : List (List Notice)}
    (h : List.Forall₂ (fun rule notices => ∀ found, rule.check scan options = .ok found →
      scan.Reports options.precisePositions notices found) rules notices)
    (hrules : ∀ rule ∈ rules, ∃ found, rule.check scan options = .ok found) :
    scan.Reports options.precisePositions notices.flatten
      (gather scan options rules).diagnostics := by
  induction h with
  | nil => exact .nil
  | @cons rule first rules notices hrule _ ih =>
    obtain ⟨found, hfound⟩ := hrules rule List.mem_cons_self
    rw [gather, hfound, List.flatten_cons]
    exact List.rel_append (hrule found hfound)
      (ih fun rule' hrule' => hrules rule' (List.mem_cons_of_mem rule hrule'))

/-- **The diagnostics of a run are its notices.** -/
theorem reports_validate {text : Text} {scan : Scan} (h : Scan.ofText text = .ok scan)
    (options : Options) :
    scan.Reports options.precisePositions (scan.notices options.checkUnquoted)
      (validate text options) := by
  have hrules : ∀ rule ∈ Rule.builtin, ∃ found, rule.check scan options = .ok found :=
    fun rule hrule => Rule.exists_check_of_mem_builtin
      (fun tag htag => Scan.inside_of_ofText h htag) options hrule
  rw [validate, run, Option.map_some, h]
  exact reports_gather (Scan.reports_builtin h options) hrules

end Lint

end MarkupLint

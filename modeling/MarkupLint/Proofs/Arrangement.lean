import MarkupLint.Proofs.Repetition
import MarkupLint.Proofs.ReportedPlaces
import MarkupLint.Proofs.StoppedRuns

/-!
# How a report is arranged

The diagnostics of a run are not sorted; they come as the rules find them. That is an order of its
own. The categories come one after the other, each rule reports in its own category and under its
own codes, and inside a category the diagnostics follow the text.

Nesting is the exception. That a closing tag does not fit is known as soon as it is read, and that
an opening tag is never closed is known only in the end. So there are two runs through the text,
first the closing tags and then the opening ones. The latter are left on the list of open tags in
the order in which they were opened, whatever was passed over in between.

What the order goes by is the same for a notice and for its diagnostic, so all of this is shown
about notices.

## Main results

* `Nesting.verdicts_pairwise` — the two runs of the nesting check
* `Scan.pairwise_precedes_notices` — the order of the notices
* `Rule.owns_of_check` — a rule reports in its category and under its codes
* `Lint.validate_arranged` — the order of the report
-/

namespace MarkupLint

/-! ### Labels -/

/-- What the order of a report goes by. -/
structure Label where
  /-- The category of rules. -/
  category : Option String
  /-- The code. -/
  code : String
  /-- The offset at which the place starts. -/
  start : ℕ
deriving DecidableEq, Repr

namespace Label

/-- The place of the category in the reporting order. Without a category it is the last. -/
def rank (label : Label) : ℕ := (label.category.map Category.rank).getD Category.all.length

/-- The label is that of an element that is never closed. -/
def Unclosed (label : Label) : Prop := label.code = Finding.unclosedTag.code

/-- What a report has to look like at two of its diagnostics, the first of which comes earlier. -/
structure Precedes (label later : Label) : Prop where
  /-- Categories come in the reporting order. -/
  rank_le : label.rank ≤ later.rank
  /-- Of a category, what is never closed comes behind all else. -/
  unclosed_last : label.category = later.category → label.Unclosed → later.Unclosed
  /-- Apart from that, a category follows the text. -/
  start_le : label.category = later.category → (label.Unclosed ↔ later.Unclosed) →
    label.start ≤ later.start

variable {label later : Label}

theorem precedes_of_rank_lt (h : label.rank < later.rank) : label.Precedes later := by
  have hne : label.category ≠ later.category := by
    intro heq
    rw [rank, heq] at h
    exact lt_irrefl _ h
  exact ⟨h.le, fun heq => absurd heq hne, fun heq => absurd heq hne⟩

theorem precedes_of_category_eq (hcategory : label.category = later.category)
    (hlast : label.Unclosed → later.Unclosed)
    (hstart : (label.Unclosed ↔ later.Unclosed) → label.start ≤ later.start) :
    label.Precedes later := by
  refine ⟨?_, fun _ => hlast, fun _ => hstart⟩
  rw [rank, hcategory]
  exact le_rfl

end Label

/-- The label of the diagnostic. -/
def Diagnostic.label (d : Diagnostic) : Label := ⟨d.category, d.code, d.range.start⟩

namespace Notice

/-- The label of the notice. -/
def label (notice : Notice) : Label :=
  ⟨notice.finding.category, notice.finding.code, notice.place.extent.start⟩

/-- A diagnostic has the label of its notice. -/
theorem label_diagnostic {text : Text} {scan : Scan} (hscan : Scan.ofText text = .ok scan)
    {notice : Notice} (hplace : notice.place.Of scan) {precise : Bool} {d : Diagnostic}
    (h : notice.diagnostic scan.table precise = .ok d) : d.label = notice.label := by
  obtain ⟨hresolve, hsaid⟩ := diagnostic_eq_ok_iff.mp h
  rw [Diagnostic.label, hsaid.category_eq, hsaid.code_eq,
    (Place.resolved hscan hplace hresolve).range_eq, label]

end Notice

/-! ### Verdicts -/

namespace Nesting

/-- Whether the verdict is on an element that is never closed. -/
def Verdict.isUnclosed : Verdict → Bool
  | unclosed _ => true
  | _ => false

theorem Verdict.unclosed_label_iff {verdict : Verdict} :
    verdict.notice.label.Unclosed ↔ verdict.isUnclosed = true := by
  have hunexpected : Finding.unexpectedCloser.code ≠ Finding.unclosedTag.code := by decide
  have hmismatched : Finding.mismatchedCloser.code ≠ Finding.unclosedTag.code := by decide
  cases verdict with
  | unexpected => exact iff_of_false hunexpected Bool.false_ne_true
  | mismatched => exact iff_of_false hmismatched Bool.false_ne_true
  | unclosed => exact iff_of_true rfl rfl

theorem isUnclosed_of_misfitAt? {tags : List Tag} {k : ℕ} {placed : ℕ × Verdict}
    (h : misfitAt? tags k = some placed) : placed.1 = k ∧ placed.2.isUnclosed = false := by
  obtain ⟨rfl, tag, -, hmisfit⟩ := misfitAt?_eq_some_iff.mp h
  refine ⟨rfl, ?_⟩
  obtain ⟨-, ⟨-, heq⟩ | ⟨_, _, _, -, -, heq⟩⟩ := misfit?_eq_some_iff.mp hmisfit
  all_goals
    rw [← heq]
    rfl

/-- Closing tags come in their order, and then the open ones do. -/
theorem placedVerdicts_pairwise (tags : List Tag) :
    (placedVerdicts tags).Pairwise fun placed later =>
      (placed.2.isUnclosed = true → later.2.isUnclosed = true) ∧
        (placed.2.isUnclosed = later.2.isUnclosed → placed.1 < later.1) := by
  refine List.pairwise_append.mpr ⟨?misfits, ?unclosed, ?between⟩
  case misfits =>
    refine List.Pairwise.filterMap _ (fun k k' hlt placed hplaced later hlater => ?_)
      List.pairwise_lt_range
    obtain ⟨hk, hclosed⟩ := isUnclosed_of_misfitAt? hplaced
    obtain ⟨hk', -⟩ := isUnclosed_of_misfitAt? hlater
    rw [hclosed, hk, hk']
    exact ⟨fun h => absurd h Bool.false_ne_true, fun _ => hlt⟩
  case unclosed =>
    -- the list of open tags starts with the innermost one
    have hopen := (List.pairwise_cons.mp (openAt_pairwise tags tags.length)).2
    rw [List.pairwise_map, List.pairwise_reverse]
    exact (List.pairwise_map.mp hopen).imp fun hgt => ⟨fun _ => rfl, fun _ => hgt⟩
  case between =>
    intro placed hplaced later hlater
    obtain ⟨k, -, hmisfit⟩ := List.mem_filterMap.mp hplaced
    obtain ⟨opener, -, rfl⟩ := List.mem_map.mp hlater
    rw [(isUnclosed_of_misfitAt? hmisfit).2]
    exact ⟨fun _ => rfl, fun h => absurd h Bool.false_ne_true⟩

/-- **The two runs of the nesting check.** -/
theorem verdicts_pairwise {tags : List Tag} {R : Tag → Tag → Prop} (h : tags.Pairwise R) :
    (verdicts tags).Pairwise fun verdict later =>
      (verdict.isUnclosed = true → later.isUnclosed = true) ∧
        (verdict.isUnclosed = later.isUnclosed → R verdict.tag later.tag) := by
  rw [verdicts_eq, List.pairwise_map]
  refine (placedVerdicts_pairwise tags).imp_of_mem fun hmem hmem' h' => ⟨h'.1, fun heq => ?_⟩
  obtain ⟨hi, hplace⟩ :=
    List.getElem?_eq_some_iff.mp (mem_placedVerdicts_iff.mp hmem).getElem?
  obtain ⟨hj, hplace'⟩ :=
    List.getElem?_eq_some_iff.mp (mem_placedVerdicts_iff.mp hmem').getElem?
  rw [← hplace, ← hplace']
  exact List.pairwise_iff_getElem.mp h _ _ hi hj (h'.2 heq)

end Nesting

/-! ### Starts -/

namespace Scan

variable {text : Text} {scan : Scan}

/-- A tag starts behind the tags before it. -/
theorem pairwise_extent_tags (hscan : ofText text = .ok scan) :
    scan.tags.Pairwise fun tag later =>
      (Place.tag tag).extent.stop ≤ (Place.tag later).extent.start := by
  refine (reading_of_ofText hscan).inOrder.stop_le_start.imp_of_mem fun {tag later} htag _ hle => ?_
  have hzero := (inside_of_ofText hscan htag).1
  rw [Tag.stop] at hle
  show tag.start.toNat + tag.raw.length ≤ later.start.toNat
  omega

theorem start_le_of_tag {tag tag' : Tag} {notice later : Notice}
    (h : (Place.tag tag).extent.stop ≤ (Place.tag tag').extent.start)
    (hnotice : notice.place = .tag tag) (hlater : later.place = .tag tag') :
    notice.label.start ≤ later.label.start := by
  show notice.place.extent.start ≤ later.place.extent.start
  rw [hnotice, hlater]
  exact (Place.tag tag).extent.start_le_stop.trans h

theorem start_le_of_attr {tag tag' : Tag} {attr attr' : Attribute} {notice later : Notice}
    (h : (Place.tag tag).extent.stop ≤ (Place.tag tag').extent.start)
    (hattr : attr ∈ tag.attributes) (hnotice : notice.place = .attr tag attr)
    (hlater : later.place = .attr tag' attr') :
    notice.label.start ≤ later.label.start := by
  have hstop := Tag.attribute_stop_lt hattr
  show notice.place.extent.start ≤ later.place.extent.start
  rw [hnotice, hlater]
  simp only [Place.extent] at h ⊢
  omega

theorem pairwise_start_attributeNotices (tag : Tag) (unquoted : Bool) :
    (tag.attributeNotices unquoted).Pairwise (·.label.start ≤ ·.label.start) := by
  have hlayout := Attribute.layout_readAll tag.attributeOffset tag.attributeText
  have horder : tag.attributes.Pairwise (·.offset ≤ ·.offset) :=
    hlayout.in_order.imp fun hlt => hlt.1.le
  unfold Tag.attributeNotices Tag.attributeFindings
  rw [List.pairwise_map]
  split
  · exact .nil
  · refine (Attribute.findingsFrom_pairwise (Q := (·.2.offset ≤ ·.2.offset)) (fun seen attr => ?_)
      id [] horder).imp fun hle => Nat.add_le_add_left hle _
    exact List.pairwise_map.mpr (List.pairwise_of_forall fun _ _ => le_rfl)

theorem start_markerNotice {markers : List (String × Finding)} {notice : Notice}
    (h : notice ∈ scan.markerNotices markers) : notice.label.start = 0 := by
  obtain ⟨finding, -, rfl⟩ := List.mem_map.mp h
  rfl

theorem pairwise_start_markerNotices (markers : List (String × Finding)) :
    (scan.markerNotices markers).Pairwise (·.label.start ≤ ·.label.start) :=
  List.pairwise_of_forall_mem_list fun _ hnotice _ _ =>
    (start_markerNotice hnotice).le.trans (Nat.zero_le _)

end Scan

/-! ### Rules -/

namespace Rule

/-- The rules of the library come in the reporting order. -/
theorem pairwise_rank_builtin : builtin.Pairwise (·.rank < ·.rank) := by
  decide

theorem pairwise_precedes {rule : Rule} {notices : List Notice}
    (hfindings : ∀ notice ∈ notices, notice.finding ∈ rule.findings)
    (hrule : ∀ finding ∈ rule.findings, finding.category = some rule.category ∧
      finding.code ≠ Finding.unclosedTag.code)
    (hstarts : notices.Pairwise (·.label.start ≤ ·.label.start)) :
    notices.Pairwise (·.label.Precedes ·.label) := by
  refine hstarts.imp_of_mem fun {notice later} hnotice hlater hle => ?_
  obtain ⟨hcategory, hclosed⟩ := hrule _ (hfindings notice hnotice)
  obtain ⟨hcategory', -⟩ := hrule _ (hfindings later hlater)
  exact Label.precedes_of_category_eq (hcategory.trans hcategory'.symm)
    (fun hunclosed => absurd hunclosed hclosed) fun _ => hle

/-- The diagnostic is one that the rule may report. -/
structure Owns (rule : Rule) (d : Diagnostic) : Prop where
  /-- The rule declares the code. -/
  code_mem : d.code ∈ rule.codes
  /-- The category is that of the rule. -/
  category_eq : d.category = some rule.category

/-- **A rule reports in its category and under its codes.** -/
theorem owns_of_check {text : Text} {scan : Scan} (hscan : Scan.ofText text = .ok scan)
    {options : Options} {rule : Rule} (hrule : rule ∈ builtin) {found : List Diagnostic}
    (h : rule.check scan options = .ok found) {d : Diagnostic} (hd : d ∈ found) :
    rule.Owns d := by
  have hnotices := (findings_of_noticesByRule scan options.checkUnquoted).mp
    (fun _ _ => And.intro) (Scan.reports_builtin hscan options)
  obtain ⟨notices, -, hfindings, hreports⟩ := exists_mem_of_forall₂ hnotices.flip hrule
  obtain ⟨notice, hnotice, hdiagnostic⟩ := exists_mem_of_forall₂ (hreports found h) hd
  obtain ⟨-, hsaid⟩ := Notice.diagnostic_eq_ok_iff.mp hdiagnostic
  have hfinding := hfindings notice hnotice
  refine ⟨?_, hsaid.category_eq.trans (category_of_mem_findings rule hrule _ hfinding)⟩
  rw [hsaid.code_eq]
  exact code_mem_codes hfinding

end Rule

/-! ### Notices and reports -/

namespace Scan

variable {text : Text} {scan : Scan}

theorem pairwise_precedes_verdicts (hscan : ofText text = .ok scan) :
    ((Nesting.verdicts scan.tags).map Nesting.Verdict.notice).Pairwise
      (·.label.Precedes ·.label) := by
  rw [List.pairwise_map]
  refine (Nesting.verdicts_pairwise (pairwise_extent_tags hscan)).imp ?_
  rintro verdict later ⟨hlast, hle⟩
  have hcategory : ∀ v : Nesting.Verdict,
      v.notice.label.category = some Rule.tagBalance.category := fun v =>
    Rule.category_of_mem_findings Rule.tagBalance (by simp [Rule.builtin]) _
      (Rule.mem_findings_of_verdict v)
  refine Label.precedes_of_category_eq ((hcategory verdict).trans (hcategory later).symm) ?_ ?_
  · rw [Nesting.Verdict.unclosed_label_iff, Nesting.Verdict.unclosed_label_iff]
    exact hlast
  · rw [Nesting.Verdict.unclosed_label_iff, Nesting.Verdict.unclosed_label_iff, ← Bool.eq_iff_iff]
    exact fun heq => start_le_of_tag (hle heq) rfl rfl

/-- What a rule notices has the rank of the rule. -/
theorem rank_of_noticesByRule (scan : Scan) (unquoted : Bool) :
    List.Forall₂ (fun rule notices => ∀ notice ∈ notices, notice.label.rank = rule.rank)
      Rule.builtin (scan.noticesByRule unquoted) := by
  have hfindings := Rule.findings_of_noticesByRule scan unquoted
  refine ((List.forall₂_and_left _ _).mpr ⟨Rule.category_of_mem_findings, hfindings⟩).imp ?_
  rintro rule notices ⟨hcategory, hfindings⟩ notice hnotice
  rw [Label.rank, Notice.label, hcategory _ (hfindings notice hnotice)]
  rfl

/-- **The order of the notices.** -/
theorem pairwise_precedes_notices (hscan : ofText text = .ok scan) (unquoted : Bool) :
    (scan.notices unquoted).Pairwise (·.label.Precedes ·.label) := by
  have htags := pairwise_extent_tags hscan
  refine List.pairwise_flatten.mpr ⟨fun notices hmem => ?_, ?_⟩
  · have hfindings := Rule.findings_of_noticesByRule scan unquoted
    simp only [Rule.builtin, noticesByRule, List.forall₂_cons] at hfindings
    obtain ⟨hstubs, -, hattributes, hmarkers, haccessibility, hsearch, -⟩ := hfindings
    simp only [noticesByRule, List.mem_cons, List.not_mem_nil, or_false] at hmem
    rcases hmem with rfl | rfl | rfl | rfl | rfl | rfl
    · refine Rule.pairwise_precedes hstubs (by decide) (List.pairwise_map.mpr ?_)
      exact (reading_of_ofText hscan).stubs_pairwise.imp le_of_lt
    · exact pairwise_precedes_verdicts hscan
    · exact Rule.pairwise_precedes hattributes (by decide) (pairwise_attributeNotices htags
        (pairwise_start_attributeNotices · unquoted) start_le_of_attr)
    · exact Rule.pairwise_precedes hmarkers (by decide) (pairwise_start_markerNotices _)
    · exact Rule.pairwise_precedes haccessibility (by decide)
        (pairwise_accessibilityNotices start_le_of_tag htags)
    · refine Rule.pairwise_precedes hsearch (by decide) (List.pairwise_append.mpr
        ⟨pairwise_start_markerNotices _, pairwise_headingNotices start_le_of_tag htags,
          fun notice hnotice later _ => ?_⟩)
      exact (start_markerNotice hnotice).le.trans (Nat.zero_le _)
  · -- the rules come in the order of their categories
    refine pairwise_of_forall₂ (rank_of_noticesByRule scan unquoted) Rule.pairwise_rank_builtin
      fun _ _ hrank hrank' hlt notice hnotice later hlater => Label.precedes_of_rank_lt ?_
    rw [hrank notice hnotice, hrank' later hlater]
    exact hlt

end Scan

namespace Lint

/-- The rules of the library report one after the other. -/
theorem exists_yield_builtin (text : Text) (options : Options) :
    ∃ scan found, Scan.ofText text = .ok scan ∧ Rule.Yield scan options Rule.builtin found ∧
      validate text options = found.flatten := by
  obtain ⟨scan, hscan, -⟩ := Scan.exists_ofText text
  have hvalidate : validate text options = (gather scan options Rule.builtin).diagnostics := by
    rw [validate, run, Option.map_some, hscan]
    rfl
  refine ⟨scan, ?_⟩
  cases upToFirstFault_gather scan options Rule.builtin with
  | completed hfound hdiagnostics => exact ⟨_, hscan, hfound, hvalidate.trans hdiagnostics⟩
  | @stopped before after rule fault found hrules _ hfault =>
    have hrule : rule ∈ Rule.builtin := hrules ▸ List.mem_append_right before List.mem_cons_self
    obtain ⟨ds, hds⟩ := Rule.exists_check_of_mem_builtin
      (fun tag htag => Scan.inside_of_ofText hscan htag) options hrule
    cases hfault.symm.trans hds

/-- Where rules declare different codes, what one of them reports can be told by its codes. -/
theorem filter_flatten_of_owns {scan : Scan} {options : Options} {rules : List Rule}
    {found : List (List Diagnostic)}
    (h : List.Forall₂ (fun rule ds => rule.check scan options = .ok ds ∧ ∀ d ∈ ds, rule.Owns d)
      rules found)
    (hcodes : rules.Pairwise fun rule later => ∀ code ∈ rule.codes, code ∉ later.codes)
    {rule : Rule} (hrule : rule ∈ rules) {ds : List Diagnostic}
    (hds : rule.check scan options = .ok ds) :
    found.flatten.filter (·.code ∈ rule.codes) = ds := by
  induction h with
  | nil => cases hrule
  | @cons first firstFound rules found hfirst hlater ih =>
    obtain ⟨hother, hcodes⟩ := List.pairwise_cons.mp hcodes
    rw [List.flatten_cons, List.filter_append]
    rcases List.mem_cons.mp hrule with rfl | hrule
    · cases hds.symm.trans hfirst.1
      have hown : ds.filter (·.code ∈ rule.codes) = ds :=
        List.filter_eq_self.mpr fun d hd => decide_eq_true (hfirst.2 d hd).code_mem
      have hothers : found.flatten.filter (·.code ∈ rule.codes) = [] := by
        refine List.filter_eq_nil_iff.mpr fun d hd hcode => ?_
        obtain ⟨part, hpart, hd⟩ := List.mem_flatten.mp hd
        obtain ⟨later, hmem, -, howns⟩ := exists_mem_of_forall₂ hlater hpart
        exact hother later hmem d.code (of_decide_eq_true hcode) (howns d hd).code_mem
      rw [hown, hothers, List.append_nil]
    · have hnone : firstFound.filter (·.code ∈ rule.codes) = [] := by
        refine List.filter_eq_nil_iff.mpr fun d hd hcode => ?_
        exact hother rule hrule d.code (hfirst.2 d hd).code_mem (of_decide_eq_true hcode)
      rw [hnone, List.nil_append, ih hcodes hrule]

/-- **What a rule reports can be told by its codes** in the report of a run. -/
theorem filter_validate {text : Text} {scan : Scan} (hscan : Scan.ofText text = .ok scan)
    {options : Options} {rule : Rule} (hrule : rule ∈ Rule.builtin) {found : List Diagnostic}
    (hfound : rule.check scan options = .ok found) :
    (validate text options).filter (·.code ∈ rule.codes) = found := by
  obtain ⟨scan', parts, hscan', hparts, hvalidate⟩ := exists_yield_builtin text options
  cases hscan.symm.trans hscan'
  rw [hvalidate]
  refine filter_flatten_of_owns ?_ Rule.pairwise_codes_builtin hrule hfound
  refine ((List.forall₂_and_left _ _).mpr ⟨fun _ => id, hparts⟩).imp ?_
  rintro rule' ds ⟨hrule', hds⟩
  exact ⟨hds, fun d hd => Rule.owns_of_check hscan hrule' hds hd⟩

/-- **The order of the report.** The report is what the rules report, one after the other, each in
its own category and under its own codes. Categories come in the reporting order and follow the
text, but for elements that are never closed, which come behind the closing tags that do not fit. -/
theorem validate_arranged (text : Text) (options : Options) :
    (∃ scan found, Scan.ofText text = .ok scan ∧
      List.Forall₂ (fun rule ds => rule.check scan options = .ok ds ∧ ∀ d ∈ ds, rule.Owns d)
        Rule.builtin found ∧
      validate text options = found.flatten) ∧
    (validate text options).Pairwise (·.label.Precedes ·.label) := by
  obtain ⟨scan, found, hscan, hfound, hvalidate⟩ := exists_yield_builtin text options
  refine ⟨⟨scan, found, hscan, ?_, hvalidate⟩, ?_⟩
  · refine ((List.forall₂_and_left _ _).mpr ⟨fun _ => id, hfound⟩).imp ?_
    rintro rule ds ⟨hrule, hds⟩
    exact ⟨hds, fun d hd => Rule.owns_of_check hscan hrule hds hd⟩
  · refine pairwise_of_forall₂ (reports_validate hscan options)
      (Scan.pairwise_precedes_notices hscan options.checkUnquoted)
      fun {notice later d e} hnotice hlater hd he hprecedes => ?_
    rw [Notice.label_diagnostic hscan (Scan.place_of_mem_notices hnotice) hd,
      Notice.label_diagnostic hscan (Scan.place_of_mem_notices hlater) he]
    exact hprecedes

end Lint

end MarkupLint

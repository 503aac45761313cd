import Mathlib.Data.Finset.Basic
import MarkupLint.Proofs.Agreement
import MarkupLint.Proofs.Arrangement

/-!
# Going on after an error, and repairing the tags

A closing tag that does not fit is reported and passed over, in the hope that the tags behind it
make sense without it. This file says that the hope is not disappointed: such a tag makes no
difference to anything behind it, and neither does taking it out.

What is reported is also enough. The tags that are left over, once everything reported is taken out,
are properly nested. For closing tags this is the same argument again. For elements that are never
closed it is another one, because they do make a difference: while they are open, closing tags of
outer elements do not fit. But those are reported as well, and a closing tag that is not reported
closes an element that is not either. So the walk over the tags that are left has the same elements
open as the walk over all tags, except for the reported ones.

Both arguments need to know that a verdict is about the tag at hand and not about an equal one
elsewhere. The tags of a scan stand at different places, so no two of them are equal.

## Main results

* `verdictsFrom_filter` — taking out closing tags that do not fit
* `verdictsFrom_filter_eq_nil` — taking out all tags that are reported
* `check_recovers` — both for the reports of the check
-/

namespace MarkupLint

/-! ### Reports about tags -/

namespace Tag

/-- The diagnostic is about the tag: it is reported at the range of the tag. -/
def ReportedBy (tag : Tag) (d : Diagnostic) : Prop := tag.range = .ok d.range

instance (tag : Tag) (d : Diagnostic) : Decidable (tag.ReportedBy d) :=
  inferInstanceAs (Decidable (_ = _))

/-- The tag is reported as an unexpected or as a mismatched closing tag. -/
def RejectedBy (tag : Tag) (diagnostics : List Diagnostic) : Prop :=
  ∃ d ∈ diagnostics, tag.ReportedBy d ∧
    (d.code = "STRUCTURE_UNEXPECTED_CLOSING_TAG" ∨ d.code = "STRUCTURE_MISMATCHED_CLOSING_TAG")

end Tag

namespace Nesting

/-- The report of the check allows to go on after errors and to repair them. -/
structure Recovers (table : LineTable) (tags : List Tag) (diagnostics : List Diagnostic) :
    Prop where
  /-- The report is that of the tags. -/
  check_eq : check table tags = .ok diagnostics
  /-- Without any of the closing tags that do not fit, the report is the same, except that it does
  not mention them. -/
  skips : ∀ deleted : Finset Tag, (∀ tag ∈ deleted, tag ∈ tags ∧ tag.RejectedBy diagnostics) →
    check table (tags.filter (· ∉ deleted)) =
      .ok (diagnostics.filter fun d => ∀ tag ∈ deleted, ¬ tag.ReportedBy d)
  /-- Without all of the tags that are reported, there is nothing to report. -/
  repairs : check table (tags.filter fun tag => ∀ d ∈ diagnostics, ¬ tag.ReportedBy d) = .ok []

/-! ### Taking out closing tags -/

/-- **Taking out closing tags that do not fit** takes out their verdicts and no others. -/
theorem verdictsFrom_filter {keep : Tag → Bool} {openers tags : List Tag} (hnodup : tags.Nodup)
    (hopeners : ∀ opener ∈ openers, keep opener = true)
    (htags : ∀ tag ∈ tags, keep tag = false →
      ∃ verdict ∈ verdictsFrom openers tags, verdict.isUnclosed = false ∧ verdict.tag = tag) :
    verdictsFrom openers (tags.filter keep) =
      (verdictsFrom openers tags).filter fun verdict => keep verdict.tag := by
  induction tags generalizing openers with
  | nil =>
    have hkept : ∀ verdict ∈ verdictsFrom openers [], keep verdict.tag = true := by
      intro verdict hmem
      obtain ⟨opener, hopener, rfl⟩ := List.mem_map.mp hmem
      exact hopeners opener (List.mem_reverse.mp hopener)
    exact (List.filter_eq_self.mpr hkept).symm
  | cons tag rest ih =>
    obtain ⟨hfresh, hrest⟩ := List.nodup_cons.mp hnodup
    rcases passed_or_accepted openers tag with ⟨passed, htag, heq⟩ | ⟨openers', hopeners', heq⟩
    · have hfilter : verdictsFrom openers (rest.filter keep) =
          (verdictsFrom openers rest).filter fun verdict => keep verdict.tag := by
        refine ih hrest hopeners fun tag' htag' hdeleted => ?_
        obtain ⟨verdict, hverdict, hunclosed, rfl⟩ :=
          htags tag' (List.mem_cons_of_mem tag htag') hdeleted
        rw [heq, List.mem_cons] at hverdict
        refine ⟨verdict, hverdict.resolve_left fun hfirst => hfresh ?_, hunclosed, rfl⟩
        rwa [← htag, ← hfirst]
      rw [heq, List.filter_cons, List.filter_cons, htag]
      by_cases hkeep : keep tag = true
      · rw [if_pos hkeep, if_pos hkeep, heq, hfilter]
      · rw [if_neg hkeep, if_neg hkeep, hfilter]
    · rw [heq] at htags ⊢
      have hkeep : keep tag = true := by
        refine Bool.not_eq_false _ |>.mp fun hdeleted => ?_
        obtain ⟨verdict, hverdict, hunclosed, rfl⟩ := htags tag List.mem_cons_self hdeleted
        rcases tag_mem_of_mem_verdictsFrom hverdict with hmem | ⟨opener, -, rfl⟩
        · exact hfresh hmem
        · exact Bool.false_ne_true hunclosed.symm
      rw [List.filter_cons_of_pos hkeep, heq]
      refine ih hrest (fun opener hopener => ?_) fun tag' htag' =>
        htags tag' (List.mem_cons_of_mem tag htag')
      rcases hopeners' opener hopener with rfl | hmem
      · exact hkeep
      · exact hopeners opener hmem

/-! ### Taking out everything that is reported -/

/-- The tags that are not kept are the ones on which there is a verdict. -/
def KeepsUnreported (keep : Tag → Bool) (openers tags : List Tag) : Prop :=
  ∀ tag ∈ openers ++ tags,
    keep tag = false ↔ ∃ verdict ∈ verdictsFrom openers tags, verdict.tag = tag

namespace KeepsUnreported

variable {keep : Tag → Bool} {openers tags : List Tag}

/-- A tag that is passed over is taken out, and what is said about the others stays the same. -/
theorem pass {tag : Tag} (h : KeepsUnreported keep openers (tag :: tags))
    (hfresh : tag ∉ openers ++ tags) {passed : Verdict} (htag : passed.tag = tag)
    (heq : verdictsFrom openers (tag :: tags) = passed :: verdictsFrom openers tags) :
    keep tag = false ∧ KeepsUnreported keep openers tags := by
  constructor
  · rw [h tag (by simp), heq]
    exact ⟨passed, List.mem_cons_self, htag⟩
  · intro tag' htag'
    rw [h tag' (((List.sublist_cons_self tag tags).append_left openers).subset htag'), heq]
    constructor
    · rintro ⟨verdict, hverdict, rfl⟩
      refine ⟨verdict, (List.mem_cons.mp hverdict).resolve_left fun hfirst => hfresh ?_, rfl⟩
      rwa [← htag, ← hfirst]
    · rintro ⟨verdict, hverdict, heq'⟩
      exact ⟨verdict, List.mem_cons_of_mem passed hverdict, heq'⟩

/-- If the walk goes on without a verdict, what is said about the tags that can still be reported
stays the same, and those that cannot are kept. -/
theorem accept (h : KeepsUnreported keep openers tags) {openers' tags' : List Tag}
    (heq : verdictsFrom openers tags = verdictsFrom openers' tags')
    (hsub : ∀ tag ∈ openers' ++ tags', tag ∈ openers ++ tags) :
    KeepsUnreported keep openers' tags' ∧
      ∀ tag ∈ openers ++ tags, tag ∉ openers' ++ tags' → keep tag = true := by
  constructor
  · intro tag htag
    rw [h tag (hsub tag htag), heq]
  · intro tag htag hfresh
    refine Bool.not_eq_false _ |>.mp fun hdeleted => hfresh ?_
    rw [h tag htag, heq] at hdeleted
    obtain ⟨verdict, hverdict, rfl⟩ := hdeleted
    rcases tag_mem_of_mem_verdictsFrom hverdict with hmem | ⟨opener, hmem, rfl⟩
    · exact List.mem_append_right openers' hmem
    · exact List.mem_append_left tags' hmem

end KeepsUnreported

/-- **Without the tags that are reported there is nothing to report.** The walk over the tags that
are left has the same elements open, except for those that are never closed. -/
theorem verdictsFrom_filter_eq_nil {keep : Tag → Bool} {openers tags : List Tag}
    (hnodup : (openers ++ tags).Nodup) (hkeep : KeepsUnreported keep openers tags) :
    verdictsFrom (openers.filter keep) (tags.filter keep) = [] := by
  induction tags using Tag.walkInduction generalizing openers with
  | nil =>
    have hnone : openers.filter keep = [] := by
      refine List.filter_eq_nil_iff.mpr fun opener hopener => ?_
      rw [Bool.not_eq_true, hkeep opener (List.mem_append_left [] hopener)]
      exact ⟨.unclosed opener, List.mem_map_of_mem (List.mem_reverse.mpr hopener), rfl⟩
    rw [hnone]
    rfl
  | closing tag rest hclosing ih =>
    obtain ⟨hfresh, hrest⟩ := List.nodup_cons.mp (List.nodup_middle.mp hnodup)
    rcases verdictsFrom_closing_cases rest hclosing openers with
      ⟨-, heq⟩ | ⟨opener, outer, rfl, hname, heq⟩ | ⟨opener, outer, -, -, heq⟩
    · obtain ⟨hdeleted, hkeep⟩ := hkeep.pass hfresh rfl heq
      rw [List.filter_cons_of_neg (by simp [hdeleted])]
      exact ih hrest hkeep
    · -- neither the closing tag nor the one it closes comes up again
      obtain ⟨hopener, hrest⟩ := List.nodup_cons.mp hrest
      have htag : tag ∉ outer ++ rest := fun hmem => hfresh (List.mem_cons_of_mem opener hmem)
      obtain ⟨hkeep, hkept⟩ := hkeep.accept heq fun tag' htag' => List.mem_cons_of_mem opener
        (((List.sublist_cons_self tag rest).append_left outer).subset htag')
      rw [List.filter_cons_of_pos (hkept opener List.mem_cons_self hopener),
        List.filter_cons_of_pos (hkept tag (by simp) htag),
        verdictsFrom_of_closes _ hclosing hname]
      exact ih hrest hkeep
    · obtain ⟨hdeleted, hkeep⟩ := hkeep.pass hfresh rfl heq
      rw [List.filter_cons_of_neg (by simp [hdeleted])]
      exact ih hrest hkeep
  | leaf tag rest hopening hleaf ih =>
    have hsub := (List.sublist_cons_self tag rest).append_left openers
    have hrest := ih (hnodup.sublist hsub)
      (hkeep.accept (verdictsFrom_of_leaf rest hopening hleaf openers) hsub.subset).1
    rw [List.filter_cons]
    split
    · rw [verdictsFrom_of_leaf _ hopening hleaf, hrest]
    · exact hrest
  | opens tag rest hopening hleaf ih =>
    have hrest := ih (List.nodup_middle.mp hnodup)
      (hkeep.accept (verdictsFrom_of_opens rest hopening hleaf openers) fun tag' =>
        List.perm_middle.mem_iff.mpr).1
    rw [List.filter_cons] at hrest ⊢
    split at hrest
    · rw [if_pos ‹_›, verdictsFrom_of_opens _ hopening hleaf, hrest]
    · rw [if_neg ‹_›, hrest]

/-! ### The report -/

/-- The diagnostic of a verdict is about the tag of the verdict. -/
theorem Verdict.reportedBy_of_diagnostic {table : LineTable} {verdict : Verdict} {d : Diagnostic}
    (h : verdict.diagnostic table = .ok d) :
    verdict.tag.ReportedBy d ∧ d.code = verdict.finding.1.code := by
  simp only [diagnostic, Finding.diagnostic, bind_eq_ok_iff] at h
  obtain ⟨range, hrange, span, -, message, -, hint, -, heq⟩ := h
  cases heq
  exact ⟨hrange, rfl⟩

/-- Verdicts on closing tags can be told by their codes. -/
theorem Verdict.isUnclosed_of_code {verdict : Verdict}
    (h : verdict.finding.1.code = "STRUCTURE_UNEXPECTED_CLOSING_TAG" ∨
      verdict.finding.1.code = "STRUCTURE_MISMATCHED_CLOSING_TAG") :
    verdict.isUnclosed = false := by
  cases verdict with
  | unexpected closer => rfl
  | mismatched opener closer => rfl
  | unclosed opener =>
    have hcode : Finding.unclosedTag.code = "STRUCTURE_UNEXPECTED_CLOSING_TAG" ∨
        Finding.unclosedTag.code = "STRUCTURE_MISMATCHED_CLOSING_TAG" := h
    exact absurd hcode (by decide)

section Report

variable {table : LineTable} {tags : List Tag} {diagnostics : List Diagnostic}

/-- A diagnostic is about one tag only. -/
theorem eq_of_reportedBy (horder : Tag.InOrder tags) {tag tag' : Tag} (htag : tag ∈ tags)
    (htag' : tag' ∈ tags) {d : Diagnostic} (h : tag.ReportedBy d) (h' : tag'.ReportedBy d) :
    tag = tag' := by
  have hstart := (Range.ofBounds_eq_ok_iff.mp h).1
  have hstart' := (Range.ofBounds_eq_ok_iff.mp h').1
  exact horder.eq_of_start_eq htag htag' (hstart.trans hstart'.symm)

/-- The diagnostics of the check are about the tags of its verdicts. -/
theorem forall₂_of_check (h : check table tags = .ok diagnostics) :
    List.Forall₂ (fun verdict d => verdict.tag ∈ tags ∧ verdict.diagnostic table = .ok d)
      (verdicts tags) diagnostics :=
  (List.forall₂_and_left _ _).mpr ⟨fun _ => tag_mem_of_mem_verdicts, mapM_eq_ok_iff.mp h⟩

/-- A tag is reported if there is a verdict on it. -/
theorem reported_iff (horder : Tag.InOrder tags) (h : check table tags = .ok diagnostics)
    {tag : Tag} (htag : tag ∈ tags) :
    (∃ d ∈ diagnostics, tag.ReportedBy d) ↔ ∃ verdict ∈ verdicts tags, verdict.tag = tag := by
  have hall := forall₂_of_check h
  constructor
  · rintro ⟨d, hd, hreported⟩
    obtain ⟨verdict, hverdict, hmem, hdiagnostic⟩ := exists_mem_of_forall₂ hall hd
    have hreported' := (Verdict.reportedBy_of_diagnostic hdiagnostic).1
    exact ⟨verdict, hverdict, eq_of_reportedBy horder hmem htag hreported' hreported⟩
  · rintro ⟨verdict, hverdict, rfl⟩
    obtain ⟨d, hd, -, hdiagnostic⟩ := exists_mem_of_forall₂ hall.flip hverdict
    exact ⟨d, hd, (Verdict.reportedBy_of_diagnostic hdiagnostic).1⟩

/-- A tag that is reported as a closing tag is one that was passed over. -/
theorem exists_verdict_of_rejectedBy (horder : Tag.InOrder tags)
    (h : check table tags = .ok diagnostics) {tag : Tag} (htag : tag ∈ tags)
    (hrejected : tag.RejectedBy diagnostics) :
    ∃ verdict ∈ verdicts tags, verdict.isUnclosed = false ∧ verdict.tag = tag := by
  obtain ⟨d, hd, hreported, hcode⟩ := hrejected
  obtain ⟨verdict, hverdict, hmem, hdiagnostic⟩ := exists_mem_of_forall₂ (forall₂_of_check h) hd
  obtain ⟨hreported', hcode'⟩ := Verdict.reportedBy_of_diagnostic hdiagnostic
  rw [hcode'] at hcode
  exact ⟨verdict, hverdict, Verdict.isUnclosed_of_code hcode,
    eq_of_reportedBy horder hmem htag hreported' hreported⟩

theorem check_filter_of_rejectedBy (horder : Tag.InOrder tags)
    (h : check table tags = .ok diagnostics) {deleted : Finset Tag}
    (hdeleted : ∀ tag ∈ deleted, tag ∈ tags ∧ tag.RejectedBy diagnostics) :
    check table (tags.filter (· ∉ deleted)) =
      .ok (diagnostics.filter fun d => ∀ tag ∈ deleted, ¬ tag.ReportedBy d) := by
  have hfilter : verdicts (tags.filter (· ∉ deleted)) =
      (verdicts tags).filter fun verdict => verdict.tag ∉ deleted := by
    refine verdictsFrom_filter horder.nodup (fun _ hnil => by cases hnil) fun tag htag hkeep => ?_
    have hmem : tag ∈ deleted := by simpa using hkeep
    exact exists_verdict_of_rejectedBy horder h htag (hdeleted tag hmem).2
  rw [check, hfilter]
  refine mapM_eq_ok_iff.mpr ((List.rel_filter ?_ (forall₂_of_check h)).imp fun _ _ h => h.2)
  rintro verdict d ⟨hmem, hdiagnostic⟩
  have hreported := (Verdict.reportedBy_of_diagnostic hdiagnostic).1
  simp only [decide_eq_true_eq]
  constructor
  · intro hkept tag htag hreported'
    exact hkept (eq_of_reportedBy horder (hdeleted tag htag).1 hmem hreported' hreported ▸ htag)
  · exact fun hnone htag => hnone verdict.tag htag hreported

theorem check_filter_of_reportedBy (horder : Tag.InOrder tags)
    (h : check table tags = .ok diagnostics) :
    check table (tags.filter fun tag => ∀ d ∈ diagnostics, ¬ tag.ReportedBy d) = .ok [] := by
  have hkeep : KeepsUnreported (fun tag => ∀ d ∈ diagnostics, ¬ tag.ReportedBy d) [] tags := by
    intro tag htag
    have hiff := reported_iff horder h htag
    rw [verdicts] at hiff
    simpa using hiff
  have hnothing : verdicts (tags.filter fun tag => ∀ d ∈ diagnostics, ¬ tag.ReportedBy d) = [] := by
    refine verdictsFrom_filter_eq_nil ?_ hkeep
    exact horder.nodup
  rw [check, hnothing]
  rfl

theorem exists_recovers (hinside : ∀ tag ∈ tags, tag.Inside table) (horder : Tag.InOrder tags) :
    ∃ diagnostics, Recovers table tags diagnostics := by
  obtain ⟨diagnostics, hcheck, -⟩ := exists_check hinside
  exact ⟨diagnostics, hcheck, fun _ => check_filter_of_rejectedBy horder hcheck,
    check_filter_of_reportedBy horder hcheck⟩

end Report

/-- **Going on after an error is skipping, and the report is a repair.** Wherever the tags lie
inside the text and stand in order, as those of a scan do, taking out any of the closing tags that
are reported as unexpected or mismatched takes the diagnostics about these out of the report and
changes nothing else, and taking out all tags that are reported leaves nothing to report. -/
theorem check_recovers :
    (∀ (table : LineTable) (tags : List Tag), (∀ tag ∈ tags, tag.Inside table) →
      Tag.InOrder tags → ∃ diagnostics, Recovers table tags diagnostics) ∧
    ∀ text : Text, ∃ scan diagnostics, Scan.ofText text = .ok scan ∧ scan.tags.Nodup ∧
      Recovers scan.table scan.tags diagnostics := by
  refine ⟨fun table tags => exists_recovers, fun text => ?_⟩
  obtain ⟨scan, hscan, -⟩ := Scan.exists_ofText text
  have horder := (Scan.reading_of_ofText hscan).inOrder
  obtain ⟨diagnostics, hrecovers⟩ :=
    exists_recovers (fun tag htag => Scan.inside_of_ofText hscan htag) horder
  exact ⟨scan, diagnostics, hscan, horder.nodup, hrecovers⟩

/-- There are closing tags to be taken out: `</i>` in `<p></i></p></b><br><i>` is one. -/
theorem check_recovers_strayTags :
    (∀ tag ∈ strayTags, tag.Inside ⟨22, []⟩) ∧ Tag.InOrder strayTags ∧
      ∃ diagnostics, Recovers ⟨22, []⟩ strayTags diagnostics ∧
        ∃ tag ∈ strayTags, tag.RejectedBy diagnostics := by
  have hinside : ∀ tag ∈ strayTags, tag.Inside ⟨22, []⟩ := by decide
  have horder : Tag.InOrder strayTags := ⟨by decide, by decide⟩
  obtain ⟨diagnostics, hrecovers⟩ := check_recovers.1 ⟨22, []⟩ strayTags hinside horder
  refine ⟨hinside, horder, diagnostics, hrecovers, ?_⟩
  have hverdict : .mismatched strayTags[0] strayTags[1] ∈ verdicts strayTags := by decide
  obtain ⟨d, hd, hmem, hdiagnostic⟩ :=
    exists_mem_of_forall₂ (forall₂_of_check hrecovers.check_eq).flip hverdict
  obtain ⟨hreported, hcode⟩ := Verdict.reportedBy_of_diagnostic hdiagnostic
  exact ⟨_, hmem, d, hd, hreported, .inr hcode⟩

end Nesting

end MarkupLint

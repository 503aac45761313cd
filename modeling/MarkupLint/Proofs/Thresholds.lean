import MarkupLint.Proofs.ReportOrder

/-!
# Thresholds

A report is cut down to what is bad enough and then put in order. It could as well be done the other
way round: the order keeps what it cannot tell apart in the order in which it came, so leaving some
diagnostics out does not move the others. Hence a report with a higher threshold is a part of the
one that shows everything, with the same order.

A report may be sorted and cut any number of times, by whoever passes it on. Each such `Step` keeps
all errors, since an error reaches every threshold that there is, and so does a whole run of them.

## Main results

* `Report.sorted_reaching` — a report with a threshold is a part of the whole report
* `Report.exists_applyAll` — no number of sorts and cuts loses an error
* `Report.sorting_and_cutting` — how sorts and cuts go together
-/

namespace MarkupLint

namespace Report

theorem filter_sorted (p : Diagnostic → Bool) (report : List Diagnostic) :
    (sorted report).filter p = sorted (report.filter p) :=
  filter_mergeSort isLE_trans isLE_total p report

end Report

/-! ### Severities with a rank -/

namespace Severity

/-- The severity is one of those that have a rank. -/
def Ranked (severity : Severity) : Prop := severity ∈ [info, warning, error]

instance : DecidablePred Ranked := fun severity =>
  inferInstanceAs (Decidable (severity ∈ [info, warning, error]))

/-- The higher of two severities. -/
def higher (m n : Severity) : Severity := if n.reaches m then n else m

theorem Ranked.cases {severity : Severity} (h : severity.Ranked) :
    severity = info ∨ severity = warning ∨ severity = error := by
  simpa [Ranked] using h

theorem Ranked.isSome_rank? {severity : Severity} (h : severity.Ranked) :
    severity.rank?.isSome = true := by
  rcases h.cases with rfl | rfl | rfl <;> rfl

/-- An error reaches every threshold. -/
theorem Ranked.reaches_of_error {least : Severity} (h : least.Ranked) :
    error.reaches least = true := by
  rcases h.cases with rfl | rfl | rfl <;> rfl

theorem Ranked.higher {m n : Severity} (hm : m.Ranked) (hn : n.Ranked) : (m.higher n).Ranked := by
  unfold Severity.higher
  split
  · exact hn
  · exact hm

/-- What reaches two thresholds is what reaches the higher one. -/
theorem Ranked.reaches_higher {m n : Severity} (hm : m.Ranked) (hn : n.Ranked)
    (severity : Severity) :
    severity.reaches (m.higher n) = (severity.reaches m && severity.reaches n) := by
  rcases hm.cases with rfl | rfl | rfl <;> rcases hn.cases with rfl | rfl | rfl <;>
    cases severity <;> rfl

end Severity

/-! ### Cutting and sorting, step by step -/

namespace Report

variable {report : List Diagnostic}

theorem ranked_sorted (hreport : ∀ d ∈ report, d.severity.Ranked) :
    ∀ d ∈ sorted report, d.severity.Ranked :=
  fun d hd => hreport d ((sorted_perm report).mem_iff.mp hd)

theorem ranked_reaching (hreport : ∀ d ∈ report, d.severity.Ranked) (least : Severity) :
    ∀ d ∈ reaching least report, d.severity.Ranked :=
  fun d hd => hreport d (List.mem_of_mem_filter hd)

theorem atLeast_of_ranked {least : Severity} (hleast : least.Ranked)
    (hreport : ∀ d ∈ report, d.severity.Ranked) :
    atLeast least report = .ok (reaching least report) := by
  have hnone : (least :: report.map Diagnostic.severity).find? (·.rank?.isNone) = none := by
    refine List.find?_eq_none.mpr fun severity hmem => ?_
    have hranked : severity.Ranked := by
      rcases List.mem_cons.mp hmem with rfl | hmem
      · exact hleast
      · obtain ⟨d, hd, rfl⟩ := List.mem_map.mp hmem
        exact hreport d hd
    simpa [Option.isSome_iff_ne_none] using hranked.isSome_rank?
  rw [atLeast, hnone]

theorem reaching_reaching {m n : Severity} (hm : m.Ranked) (hn : n.Ranked)
    (report : List Diagnostic) :
    reaching n (reaching m report) = reaching (m.higher n) report := by
  rw [reaching, reaching, List.filter_filter]
  refine List.filter_congr fun d _ => ?_
  rw [hm.reaches_higher hn, Bool.and_comm]

theorem sorted_sorted (report : List Diagnostic) : sorted (sorted report) = sorted report :=
  List.mergeSort_of_pairwise (pairwise_sorted report)

/-- A cut leaves all errors as they are. -/
theorem filter_isError_reaching {least : Severity} (h : least.Ranked) (report : List Diagnostic) :
    (reaching least report).filter Diagnostic.isError = report.filter Diagnostic.isError := by
  refine filter_filter_of_imp (fun d herror => ?_) report
  rw [beq_iff_eq.mp herror]
  exact h.reaches_of_error

/-- Whether there is an error does not depend on anything but the errors. -/
theorem hasErrors_eq_of_perm {report report' : List Diagnostic}
    (h : (report.filter Diagnostic.isError).Perm (report'.filter Diagnostic.isError)) :
    hasErrors report = hasErrors report' := by
  have hiff : ∀ report, hasErrors report = true ↔ report.filter Diagnostic.isError ≠ [] := by
    intro report
    simp [hasErrors]
  rw [Bool.eq_iff_iff, hiff, hiff]
  exact not_congr ⟨fun hnil => (hnil ▸ h).nil_eq.symm, fun hnil => (hnil ▸ h).eq_nil⟩

/-- One thing that is done to a report. -/
inductive Step where
  /-- It is put in order of place. -/
  | sort
  /-- It is cut down to what is at least as bad as `least`. -/
  | cut (least : Severity)
deriving DecidableEq, Repr

namespace Step

/-- The report after a step. -/
def apply : Step → List Diagnostic → Except Fault (List Diagnostic)
  | sort, report => .ok (sorted report)
  | cut least, report => atLeast least report

/-- The threshold of the step, if it has one, has a rank. -/
def Ranked : Step → Prop
  | sort => True
  | cut least => least.Ranked

/-- **One step** keeps all errors, and leaves nothing without a rank. -/
theorem exists_apply {step : Step} (hstep : step.Ranked)
    (hreport : ∀ d ∈ report, d.severity.Ranked) :
    ∃ next, step.apply report = .ok next ∧ (∀ d ∈ next, d.severity.Ranked) ∧
      (next.filter Diagnostic.isError).Perm (report.filter Diagnostic.isError) := by
  cases step with
  | sort =>
    exact ⟨sorted report, rfl, ranked_sorted hreport, (sorted_perm report).filter _⟩
  | cut least =>
    refine ⟨reaching least report, atLeast_of_ranked hstep hreport,
      ranked_reaching hreport least, ?_⟩
    rw [filter_isError_reaching hstep]

end Step

/-- The report after some steps, one behind the other. -/
def applyAll : List Step → List Diagnostic → Except Fault (List Diagnostic)
  | [], report => .ok report
  | step :: steps, report => step.apply report >>= applyAll steps

/-- **Any number of steps** keeps all errors. -/
theorem exists_applyAll {steps : List Step} (hsteps : ∀ step ∈ steps, step.Ranked)
    (hreport : ∀ d ∈ report, d.severity.Ranked) :
    ∃ last, applyAll steps report = .ok last ∧
      (last.filter Diagnostic.isError).Perm (report.filter Diagnostic.isError) := by
  induction steps generalizing report with
  | nil => exact ⟨report, rfl, .refl _⟩
  | cons step steps ih =>
    obtain ⟨hstep, hsteps⟩ := List.forall_mem_cons.mp hsteps
    obtain ⟨next, hnext, hranked, hperm⟩ := step.exists_apply hstep hreport
    obtain ⟨last, hlast, hperm'⟩ := ih hsteps hranked
    exact ⟨last, bind_eq_ok_iff.mpr ⟨next, hnext, hlast⟩, hperm'.trans hperm⟩

/-- **Sorting and cutting can be exchanged, and hide no error.** Where all severities have a rank,
the sorted report is cut to what the cut report is sorted to; of two cuts only the higher one
counts; sorting rearranges a report, and leaves it alone the second time; and after any number of
steps there are the errors that were there before. -/
theorem sorting_and_cutting (hreport : ∀ d ∈ report, d.severity.Ranked) {m n : Severity}
    (hm : m.Ranked) (hn : n.Ranked) :
    (∃ cut, atLeast m report = .ok cut ∧ atLeast m (sorted report) = .ok (sorted cut)) ∧
    (∃ cut, (atLeast m report >>= atLeast n) = .ok cut ∧ atLeast (m.higher n) report = .ok cut) ∧
    (sorted report).Pairwise (fun d e => (d.compareByPlace e).isLE) ∧
    sorted (sorted report) = sorted report ∧ (sorted report).Perm report ∧
    ∀ steps : List Step, (∀ step ∈ steps, step.Ranked) →
      ∃ last, applyAll steps report = .ok last ∧ hasErrors last = hasErrors report ∧
        (last.filter Diagnostic.isError).Perm (report.filter Diagnostic.isError) := by
  have hcut := atLeast_of_ranked hm hreport
  refine ⟨⟨reaching m report, hcut, ?_⟩, ⟨reaching (m.higher n) report, ?_, ?_⟩,
    pairwise_sorted report, sorted_sorted report, sorted_perm report, ?_⟩
  · rw [atLeast_of_ranked hm (ranked_sorted hreport)]
    exact congrArg _ (filter_sorted _ report)
  · refine bind_eq_ok_iff.mpr ⟨reaching m report, hcut, ?_⟩
    rw [atLeast_of_ranked hn (ranked_reaching hreport m), reaching_reaching hm hn]
  · exact atLeast_of_ranked (hm.higher hn) hreport
  · intro steps hsteps
    obtain ⟨last, hlast, hperm⟩ := exists_applyAll hsteps hreport
    exact ⟨last, hlast, hasErrors_eq_of_perm hperm, hperm⟩

/-- Three diagnostics which sorting cannot tell apart, though no two of them are the same. -/
def lookalikes : List Diagnostic :=
  let span : Span := ⟨.origin, .origin, by decide⟩
  [ ⟨"SEO_TITLE", .searchAdvice, "No title.", span, .document, .warning, some "Add one.", none⟩,
    ⟨"SEO_TITLE", .searchAdvice, "No title.", span, .document, .error, none, some "seo"⟩,
    ⟨"SEO_TITLE", .searchAdvice, "No title.", span, ⟨0, 4, by decide⟩, .info, none, none⟩ ]

theorem sorting_and_cutting_lookalikes :
    (∃ cut, atLeast .warning lookalikes = .ok cut ∧
      atLeast .warning (sorted lookalikes) = .ok (sorted cut)) ∧
    (atLeast .warning lookalikes >>= atLeast .error) = atLeast .error lookalikes ∧
    ∃ last, applyAll [.sort, .cut .warning, .sort, .cut .error] lookalikes = .ok last ∧
      hasErrors last = true := by
  obtain ⟨hexchange, ⟨cut, htwice, honce⟩, -, -, -, hsteps⟩ :=
    sorting_and_cutting (by decide : ∀ d ∈ lookalikes, d.severity.Ranked)
      (m := .warning) (n := .error) (by decide) (by decide)
  obtain ⟨last, hlast, herrors, -⟩ :=
    hsteps [.sort, .cut .warning, .sort, .cut .error] (by simp [Step.Ranked, Severity.Ranked])
  exact ⟨hexchange, htwice.trans honce.symm, last, hlast, herrors.trans (by decide)⟩

end Report

end MarkupLint

import MarkupLint.Lint.Run
import MarkupLint.Proofs.Recognition
import MarkupLint.Proofs.RuleSets

/-!
# Runs that are stopped by a rule

Rules can be supplied by anyone, and a rule may give up. The run is over then, but what was found so
far is kept. From the outside such an outcome looks like any other, so it had better be clear what
is in it: the diagnostics of all rules before the first one that gave up, in the order of the
categories, and not a part of what that rule or a later one might have reported.

Before it comes to that, the request is checked. Options must not come together with a mode, and the
rules must go together. A request that is refused is refused for every document, so nothing of the
document is ever looked at.

## Main results

* `Lint.upToFirstFault_gather` — what rules report until one of them gives up
* `Lint.check_eq_ok` — a request that makes sense is met
* `Lint.check_stops_at_first_fault` — what the outcome of a run with any rules holds
-/

namespace MarkupLint

/-- The rules yield the given diagnostics on a scan, each rule its own list of them. -/
def Rule.Yield (scan : Scan) (options : Options) (rules : List Rule)
    (found : List (List Diagnostic)) : Prop :=
  List.Forall₂ (fun rule ds => rule.check scan options = .ok ds) rules found

/-- The diagnostics are those that the rules report on a scan before the first of them gives up, and
the run is completed if none does. -/
inductive UpToFirstFault (scan : Scan) (options : Options) (rules : List Rule)
    (diagnostics : List Diagnostic) (completed : Bool) : Prop where
  /-- No rule gives up. -/
  | completed {found : List (List Diagnostic)} (hfound : Rule.Yield scan options rules found)
      (hdiagnostics : diagnostics = found.flatten) (hcompleted : completed = true)
  /-- A rule gives up, and those before it do not. -/
  | stopped {before after : List Rule} {rule : Rule} {fault : Fault}
      {found : List (List Diagnostic)} (hrules : rules = before ++ rule :: after)
      (hfound : Rule.Yield scan options before found)
      (hfault : rule.check scan options = .error fault)
      (hdiagnostics : diagnostics = found.flatten) (hcompleted : completed = false)

theorem Outcome.hasErrors_iff {outcome : Outcome} :
    outcome.hasErrors = true ↔ ∃ d ∈ outcome.diagnostics, d.severity = .error := by
  simp [hasErrors, Report.hasErrors, Diagnostic.isError]

namespace Lint

/-- **What rules report until one of them gives up.** -/
theorem upToFirstFault_gather (scan : Scan) (options : Options) (rules : List Rule) :
    UpToFirstFault scan options rules (gather scan options rules).diagnostics
      (gather scan options rules).completed := by
  induction rules with
  | nil => exact .completed .nil rfl rfl
  | cons rule rest ih =>
    rw [gather]
    cases hcheck : rule.check scan options with
    | error fault => exact .stopped (List.nil_append _).symm .nil hcheck rfl rfl
    | ok found =>
      dsimp only
      cases ih with
      | completed hfound hdiagnostics hcompleted =>
        exact .completed (.cons hcheck hfound) (congrArg (found ++ ·) hdiagnostics) hcompleted
      | stopped hrules hfound hfault hdiagnostics hcompleted =>
        exact .stopped (congrArg (rule :: ·) hrules) (.cons hcheck hfound) hfault
          (congrArg (found ++ ·) hdiagnostics) hcompleted

/-! ### Requests -/

/-- The request is refused, whatever the document is. -/
def Refused (options : Option Options) (mode : Option Mode) (rules : Option (List Rule))
    (fault : Fault) : Prop :=
  ∀ document : Option Text, check document options mode rules = .error fault

section Requests

variable {options : Option Options} {mode : Option Mode} {resolved : Options}

/-- A request that makes sense is met. -/
theorem check_eq_ok {rules ordered : List Rule}
    (hresolve : Options.resolve options mode = .ok resolved)
    (hrules : RuleSet.validate rules = .ok ()) (horder : RuleSet.order rules = .ok ordered)
    (document : Option Text) :
    check document options mode (some rules) = .ok (run document resolved ordered) := by
  refine bind_eq_ok_iff.mpr ⟨resolved, hresolve, ?_⟩
  exact bind_eq_ok_iff.mpr ⟨(), hrules, bind_eq_ok_iff.mpr ⟨ordered, horder, rfl⟩⟩

theorem refused_of_rejected {rules : List Rule} {fault : Fault}
    (hresolve : Options.resolve options mode = .ok resolved)
    (hrules : RuleSet.validate rules = .error fault) :
    Refused options mode (some rules) fault := by
  intro document
  rw [check, hresolve]
  show (RuleSet.validate rules >>= _) = _
  rw [hrules]
  rfl

/-- Sets of rules that agree inside every category lead to the same outcome. -/
theorem check_congr {rules other : List Rule} (hrules : RuleSet.validate rules = .ok ())
    (h : ∀ category, rules.filter (·.category == category) =
      other.filter (·.category == category)) (document : Option Text) :
    check document options mode (some rules) = check document options mode (some other) := by
  have hother : RuleSet.validate other = .ok () :=
    RuleSet.validate_eq_ok_iff.mpr
      ((RuleSet.validate_eq_ok_iff.mp hrules).perm (perm_of_filter_eq Rule.category h))
  simp only [check, Option.getD_some, hrules, hother, RuleSet.order_congr h]

end Requests

/-- **A run stops at the first rule that gives up.** With rules that go together, its outcome holds
the scan and what the rules, in the order of their categories, report before one of them gives up.
Only the order inside each category matters. And a request that makes no sense is refused before the
document is looked at. -/
theorem check_stops_at_first_fault :
    (∀ (text : Text) (options : Option Options) (mode : Option Mode) (resolved : Options)
      (rules : List Rule), Options.resolve options mode = .ok resolved →
      RuleSet.validate rules = .ok () →
      ∃ scan ordered outcome, Scan.ofText text = .ok scan ∧
        RuleSet.StablyOrders ordered rules ∧
        check (some text) options mode (some rules) = .ok outcome ∧ outcome.scan = some scan ∧
        UpToFirstFault scan resolved ordered outcome.diagnostics outcome.completed ∧
        (outcome.hasErrors = true ↔ ∃ d ∈ outcome.diagnostics, d.severity = .error)) ∧
    (∀ (document : Option Text) (options : Option Options) (mode : Option Mode)
      (rules other : List Rule), RuleSet.validate rules = .ok () →
      (∀ category, rules.filter (·.category == category) =
        other.filter (·.category == category)) →
      check document options mode (some rules) = check document options mode (some other)) ∧
    (∀ (options : Option Options) (mode : Option Mode) (resolved : Options) (rules : List Rule)
      (fault : Fault), Options.resolve options mode = .ok resolved →
      RuleSet.validate rules = .error fault → Refused options mode (some rules) fault) ∧
    ∀ (options : Options) (mode : Mode) (rules : Option (List Rule)),
      Refused (some options) (some mode) rules .optionsAndMode := by
  refine ⟨fun text options mode resolved rules hresolve hrules => ?_,
    fun document options mode rules other hrules h => check_congr hrules h document,
    fun options mode resolved rules fault => refused_of_rejected,
    fun options mode rules document => rfl⟩
  obtain ⟨scan, hscan, -⟩ := Scan.exists_ofText text
  obtain ⟨ordered, horder, hstable⟩ := RuleSet.exists_order hrules
  have hrun : run (some text) resolved ordered = runScan scan resolved ordered := by
    rw [run, Option.map_some, hscan]
  refine ⟨scan, ordered, _, hscan, hstable, check_eq_ok hresolve hrules horder (some text), ?_, ?_,
    Outcome.hasErrors_iff⟩
  · rw [hrun]
    rfl
  · rw [hrun]
    exact upToFirstFault_gather scan resolved ordered

/-- A rule on nesting that gives up, whatever the scan. -/
def givesUp : Rule where
  name := "givesUp"
  category := Category.nesting.name
  codes := ["STRUCTURE_GIVES_UP"]
  check _ _ := .error (.ruleFailed "")

/-- The rule that gives up comes first in the list but second in order, so the run keeps what the
other rule reports: one tag that is never ended. -/
theorem check_stops_at_givesUp :
    RuleSet.validate [givesUp, .unterminatedTags] = .ok () ∧
    (∃ scan ordered outcome, Scan.ofText "<div>\n<p".toList = .ok scan ∧
      RuleSet.StablyOrders ordered [givesUp, .unterminatedTags] ∧
      check (some "<div>\n<p".toList) none none (some [givesUp, .unterminatedTags]) = .ok outcome ∧
      outcome.scan = some scan ∧
      UpToFirstFault scan {} ordered outcome.diagnostics outcome.completed ∧
      (outcome.hasErrors = true ↔ ∃ d ∈ outcome.diagnostics, d.severity = .error) ∧
      outcome.completed = false ∧
      outcome.diagnostics.map Diagnostic.code = ["SCANNER_MALFORMED_TAG"]) ∧
    check none none none (some [givesUp, .unterminatedTags]) =
      check none none none (some [.unterminatedTags, givesUp]) ∧
    Refused none none (some [givesUp, givesUp]) (.repeatedRule "givesUp") ∧
    Refused (some {}) (some .precise) (some []) .optionsAndMode := by
  obtain ⟨hmet, hcongr, hrejected, hconflict⟩ := check_stops_at_first_fault
  have hresult : (check (some "<div>\n<p".toList) none none
      (some [givesUp, .unterminatedTags])).toOption.map
        (fun outcome => (outcome.completed, outcome.diagnostics.map Diagnostic.code)) =
      some (false, ["SCANNER_MALFORMED_TAG"]) := by
    decide +kernel
  refine ⟨rfl, ?_, hcongr none none none _ _ rfl fun category => ?_,
    hrejected none none {} _ _ rfl rfl, hconflict {} .precise (some [])⟩
  · obtain ⟨scan, ordered, outcome, hscan, hordered, hcheck, hkept, hupTo, herrors⟩ :=
      hmet "<div>\n<p".toList none none {} [givesUp, .unterminatedTags] rfl rfl
    rw [hcheck] at hresult
    obtain ⟨hcompleted, hcodes⟩ := Prod.mk.inj (Option.some.inj hresult)
    exact ⟨scan, ordered, outcome, hscan, hordered, hcheck, hkept, hupTo, herrors, hcompleted,
      hcodes⟩
  · by_cases h : givesUp.category = category
    · subst h
      rfl
    · simp [List.filter_cons, h]

end Lint

end MarkupLint

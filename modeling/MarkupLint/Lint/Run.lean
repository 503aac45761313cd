import MarkupLint.Diagnostic.Report
import MarkupLint.Log
import MarkupLint.Rule.Builtin

/-!
# Runs

A run scans a document once and lets every rule look at the scan, in the order of the categories. A
rule that gives up ends the run, which then keeps what the rules before it have reported. So a run
always has an outcome; only a request that makes no sense has none, and is refused before anything
is scanned.
-/

namespace MarkupLint

/-- What a run has led to. -/
structure Outcome where
  /-- The scan, if there was a text to scan. -/
  scan : Option Scan
  /-- The diagnostics, in the order of the rules. -/
  diagnostics : List Diagnostic
  /-- Whether all rules have reported. -/
  completed : Bool
  /-- What happened. -/
  log : List Log.Event

namespace Outcome

/-- Whether an error was reported. -/
def hasErrors (outcome : Outcome) : Bool := Report.hasErrors outcome.diagnostics

end Outcome

namespace Lint

/-- What a list of rules has reported. -/
structure Gathered where
  /-- The diagnostics, in the order of the rules. -/
  diagnostics : List Diagnostic
  /-- Whether all rules have reported. -/
  completed : Bool
  /-- What happened. -/
  log : List Log.Event

/-- Lets rules look at a scan, one after the other, until one of them gives up. -/
def gather (scan : Scan) (options : Options) : List Rule → Gathered
  | [] => ⟨[], true, []⟩
  | rule :: rest =>
    match rule.check scan options with
    | .error _ => ⟨[], false, []⟩
    | .ok found =>
      let later := gather scan options rest
      ⟨found ++ later.diagnostics, later.completed, .ruleDone rule.name found.length :: later.log⟩

/-- The event of a tag start that is never ended. -/
def stubEvent (stub : Stub) : Log.Event :=
  .unterminated (String.ofList stub.tagStart.text) stub.start

/-- The outcome of a run over a scan. -/
def runScan (scan : Scan) (options : Options) (rules : List Rule) : Outcome :=
  let gathered := gather scan options rules
  { scan := some scan
    diagnostics := gathered.diagnostics
    completed := gathered.completed
    log := scan.stubs.map stubEvent ++ gathered.log ++
      if gathered.completed then [] else [.aborted gathered.diagnostics.length] }

/-- The outcome of a run that could not scan anything. -/
def unscanned : Outcome := ⟨none, [], false, [.aborted 0]⟩

/-- The outcome of a run over a document with rules in order. There is no document if what was
handed in is no text. -/
def run (document : Option Text) (options : Options) (rules : List Rule) : Outcome :=
  match document.map Scan.ofText with
  | some (.ok scan) => runScan scan options rules
  | some (.error _) => unscanned
  | none => unscanned

/-- Runs rules over a document, those of the library if none are given. Options, mode and rules are
checked first. -/
def check (document : Option Text) (options : Option Options) (mode : Option Mode)
    (rules : Option (List Rule)) : Except Fault Outcome := do
  let options ← Options.resolve options mode
  let rules := rules.getD Rule.builtin
  RuleSet.validate rules
  let rules ← RuleSet.order rules
  return run document options rules

/-- The diagnostics of the rules of the library for a text. -/
def validate (text : Text) (options : Options) : List Diagnostic :=
  (run (some text) options Rule.builtin).diagnostics

end Lint

end MarkupLint

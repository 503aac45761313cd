import MarkupLint.CommandLine.Arguments
import MarkupLint.Diagnostic.Basic
import MarkupLint.Lint.Options
import MarkupLint.Log

/-!
# Settings of the command line

What can be asked of the linter on the command line, and the switches that ask for it. Each switch
may be repeated: the last value counts, and each `-v` shows more of the log.

A choice may be left open. An open form is text, but there is no run without a mode, and no file can
be reported on without a least severity; those are faults once they matter.
-/

namespace MarkupLint

namespace CommandLine

/-- The forms of a report. -/
inductive Format where
  | text
  | json
deriving DecidableEq, Repr

/-- What the linter is asked to do. -/
structure Settings where
  /-- The profile, unless it was left open. -/
  mode : Option Mode := some .compat
  /-- Whether values without quotes are reported in any case. -/
  checkUnquoted : Bool := false
  /-- The least severity that is shown, unless it was left open. -/
  least : Option Severity := some .info
  /-- The form of the report. -/
  format : Format := .text
  /-- How often more of the log was asked for. -/
  verbosity : Nat := 0
deriving DecidableEq, Repr

namespace Settings

/-- The options of the runs. -/
def options (settings : Settings) : Except Fault Options :=
  match settings.mode with
  | none => .error .openMode
  | some mode =>
    let base := Options.forMode mode
    .ok (if settings.checkUnquoted then { base with checkUnquoted := true } else base)

/-- The least level of the events that are shown. -/
def logLevel (settings : Settings) : Log.Level :=
  match settings.verbosity with
  | 0 => .warning
  | 1 => .info
  | _ => .debug

end Settings

/-- The arguments of the linter. -/
def lintGrammar : Grammar Settings where
  flags :=
    [ ⟨"--help", some 'h', .help⟩,
      ⟨"--check-unquoted", none, .set fun s => { s with checkUnquoted := true }⟩,
      ⟨"--no-progress", none, .set id⟩,
      ⟨"--verbose", some 'v', .set fun s => { s with verbosity := s.verbosity + 1 }⟩ ]
  choices :=
    [ { name := "--mode"
        values := [("compat", fun s => { s with mode := some .compat }),
          ("precise", fun s => { s with mode := some .precise })]
        leaveOpen := fun s => { s with mode := none } },
      { name := "--min-severity"
        values := [("info", fun s => { s with least := some .info }),
          ("warning", fun s => { s with least := some .warning }),
          ("error", fun s => { s with least := some .error })]
        leaveOpen := fun s => { s with least := none } },
      { name := "--format"
        values := [("text", fun s => { s with format := .text }),
          ("json", fun s => { s with format := .json })]
        leaveOpen := fun s => { s with format := .text } } ]
  arity := .many

/-- How the linter is called. -/
def lintUsage : String :=
  "usage: htmlint [-h] [--mode \x7bcompat,precise\x7d] [--check-unquoted]\n" ++
  "               [--min-severity \x7binfo,warning,error\x7d] [--format \x7btext,json\x7d]\n" ++
  "               [--no-progress] [-v]\n" ++
  "               paths [paths ...]\n"

/-- The explanation of the linter. -/
def lintHelp : String :=
  lintUsage ++
  "\nLint HTML documents\n" ++
  "\npositional arguments:\n" ++
  "  paths                 HTML files or directories to lint\n" ++
  "\noptions:\n" ++
  "  -h, --help            show this help message and exit\n" ++
  "  --mode \x7bcompat,precise\x7d\n" ++
  "                        compat keeps tag-relative attribute columns; precise\n" ++
  "                        re-resolves them (default: compat)\n" ++
  "  --check-unquoted      Also report unquoted attribute values\n" ++
  "  --min-severity \x7binfo,warning,error\x7d\n" ++
  "                        Hide diagnostics below this severity (default: info)\n" ++
  "  --format \x7btext,json\x7d  Output format\n" ++
  "  --no-progress         Disable the tqdm progress bar\n" ++
  "  -v, --verbose         Increase log verbosity\n"

/-- The arguments of the listing: one file and no switches. -/
def listGrammar : Grammar Unit where
  flags := [⟨"--help", some 'h', .help⟩]
  choices := []
  arity := .one

/-- The explanation of the listing. -/
def listHelp : String :=
  "usage: list-tags [-h] path\n" ++
  "\nDump scanned tags for an HTML file\n" ++
  "\npositional arguments:\n" ++
  "  path\n" ++
  "\noptions:\n" ++
  "  -h, --help  show this help message and exit\n"

end CommandLine

end MarkupLint

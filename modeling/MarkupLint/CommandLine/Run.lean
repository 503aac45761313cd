import MarkupLint.CommandLine.Settings
import MarkupLint.Fault.Message
import MarkupLint.File.Tree
import MarkupLint.Json
import MarkupLint.Lint.Run
import MarkupLint.Tag.Listing

/-!
# The command line

What the linter answers to its arguments, given the files it can see. Every file is read and linted
by itself, into a `FileReport`; output, exit status and log are then put together from these. The
exit status is one if some file cannot be read or has an error, whether that error is shown or not.

A run is given up if the settings leave open what is needed, if a path is too long or leads through
a directory that may not be entered, or if a file to be read has a null character in its path. Then
there is no exit status. The first two come to light before anything is read; the last ends the run
between two files, and what was written and logged for the files before it stays. A report as text
is written file by file and a report in JSON at the end, so of the latter there is nothing then.
-/

namespace MarkupLint

namespace CommandLine

/-- What a program answers, where `ε` is the type of what it may give up for. -/
structure Response (ε : Type) where
  /-- The exit status, or what the program was given up for. -/
  status : Except ε Nat
  /-- What it writes. -/
  output : String
  /-- The events it shows. -/
  log : List Log.Event
deriving Repr

/-- The answer of a program that is given up before it does anything. -/
def Response.givenUp {ε : Type} (fault : ε) : Response ε := ⟨.error fault, "", []⟩

/-- The text of the file at a path, or why it cannot be read. A null character in the path is no
reason of that kind but a fault of its own. -/
def readText (tree : FileTree) (path : Path) : Except Fault (Except ReadFault Text) :=
  if path.hasNull then .error .nullInPath else .ok (tree.readText path)

/-- What came of a file. -/
inductive FileReport where
  /-- It cannot be read. -/
  | unreadable (path : Path) (cause : ReadFault)
  /-- It was linted, and some of its diagnostics are shown. -/
  | linted (path : Path) (outcome : Outcome) (shown : List Diagnostic)

namespace FileReport

/-- The report on the file at a path. It shows the diagnostics from the least severity on, in order
of place. -/
def ofPath (tree : FileTree) (options : Options) (least : Option Severity) (path : Path) :
    Except Fault FileReport := do
  match ← readText tree path, least with
  | .error cause, _ => return .unreadable path cause
  | .ok _, none => throw .openSeverity
  | .ok text, some least =>
    let outcome := Lint.run (some text) options Rule.builtin
    return .linted path outcome (Report.sorted (Report.reaching least outcome.diagnostics))

/-- Whether the file cannot be read or has an error. -/
def failed : FileReport → Bool
  | unreadable _ _ => true
  | linted _ outcome _ => outcome.hasErrors

/-- What happened. -/
def events : FileReport → List Log.Event
  | unreadable path cause => [.unreadable path.display cause]
  | linted _ outcome _ => outcome.log

/-- The lines of the file in a textual report. -/
def lines : FileReport → List String
  | unreadable _ _ => []
  | linted path _ shown => shown.map (·.line path.display)

end FileReport

/-- A position in a report in JSON. -/
def positionJson (p : Position) : Json := .obj [("line", .num p.line), ("column", .num p.column)]

/-- A string that may be missing. -/
def optionJson : Option String → Json
  | some s => .str s
  | none => .null

/-- A diagnostic in a report in JSON. -/
def diagnosticJson (d : Diagnostic) : Json :=
  .obj
    [ ("code", .str d.code), ("kind", .str d.kind.name), ("severity", .str d.severity.name),
      ("message", .str d.message), ("hint", optionJson d.hint),
      ("category", optionJson d.category),
      ("span", .obj [("start", positionJson d.span.start), ("end", positionJson d.span.stop)]),
      ("range", .arr [.num d.range.start, .num d.range.stop]) ]

/-- The entries with one more. An entry of the same name is replaced where it stands. -/
def putEntry {α : Type} (entries : List (String × α)) (name : String) (value : α) :
    List (String × α) :=
  if entries.any (·.1 == name) then
    entries.map fun entry => if entry.1 == name then (name, value) else entry
  else entries ++ [(name, value)]

/-- The files of a report that could be read, with the diagnostics that are shown. A file that
occurs several times has one entry, at its first place. -/
def entries (reports : List FileReport) : List (String × List Diagnostic) :=
  reports.foldl (fun entries report =>
    match report with
    | .unreadable _ _ => entries
    | .linted path _ shown => putEntry entries path.display shown) []

/-- A report as text, one line for each diagnostic. -/
def textOutput (reports : List FileReport) : String :=
  joinLines (reports.flatMap FileReport.lines)

/-- A report in JSON, by files. -/
def jsonOutput (reports : List FileReport) : String :=
  let fields := (entries reports).map fun entry =>
    (entry.1, Json.arr (entry.2.map diagnosticJson))
  (Json.obj fields).write ++ "\n"

/-- A report in the given form. -/
def output : Format → List FileReport → String
  | .text, reports => textOutput reports
  | .json, reports => jsonOutput reports

/-- The exit status for a list of files. -/
def status (reports : List FileReport) : Nat := if reports.any FileReport.failed then 1 else 0

/-- The reports on files, one after the other, up to the first fault. -/
def reportsUpTo (report : Path → Except Fault FileReport) :
    List Path → List FileReport × Option Fault
  | [] => ([], none)
  | file :: rest =>
    match report file with
    | .error fault => ([], some fault)
    | .ok first =>
      let (later, fault) := reportsUpTo report rest
      (first :: later, fault)

/-- What was written by the time of the given fault, if there is one. -/
def outputUpTo (format : Format) (reports : List FileReport) : Option Fault → String
  | none => output format reports
  | some _ =>
    match format with
    | .text => textOutput reports
    | .json => ""

/-- Lints files, one after the other. -/
def lintFiles (tree : FileTree) (settings : Settings) (options : Options) (files : List Path) :
    Response Fault :=
  let (reports, fault) := reportsUpTo (FileReport.ofPath tree options settings.least) files
  { status := match fault with
      | some fault => .error fault
      | none => .ok (status reports)
    output := outputUpTo settings.format reports fault
    log := Log.atLeast settings.logLevel (reports.flatMap FileReport.events) }

/-- Lints the files that a list of paths stands for. The mode is looked at first, then the paths;
after that the first file with a fault decides. -/
def lintPaths (tree : FileTree) (settings : Settings) (paths : List Path) : Response Fault :=
  match settings.options with
  | .error fault => .givenUp fault
  | .ok options =>
    match tree.collect paths with
    | .error fault => .givenUp fault
    | .ok files => lintFiles tree settings options files

/-- What the linter answers to its arguments. -/
def lint (tree : FileTree) (arguments : List String) : Response Fault :=
  match lintGrammar.parse {} arguments with
  | .help => ⟨.ok 0, lintHelp, []⟩
  | .wrong => ⟨.ok 2, "", []⟩
  | .accepted settings operands => lintPaths tree settings (operands.map Path.ofString)

/-- Why a file could not be listed. -/
inductive ListFault where
  | unreadable (cause : ReadFault)
  | refused (fault : Fault)
deriving DecidableEq, Repr

/-- The listing of the file at a path. -/
def listPath (tree : FileTree) (path : Path) : Except ListFault String := do
  let text ← (← (readText tree path).mapError .refused).mapError .unreadable
  let scan ← (Scan.ofText text).mapError .refused
  let listing ← (Listing.ofScan scan).mapError .refused
  return listing ++ "\nScanned " ++ toString scan.tags.length ++ " tags from " ++ path.display ++
    "\n"

/-- What the listing answers to its arguments. -/
def list (tree : FileTree) (arguments : List String) : Response ListFault :=
  match listGrammar.parse () arguments with
  | .help => ⟨.ok 0, listHelp, []⟩
  | .wrong => ⟨.ok 2, "", []⟩
  | .accepted _ operands =>
    match listPath tree (Path.ofString (operands.headD "")) with
    | .error fault => .givenUp fault
    | .ok output => ⟨.ok 0, output, []⟩

end CommandLine

end MarkupLint

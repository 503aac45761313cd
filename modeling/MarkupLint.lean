import MarkupLint.Attribute.Basic
import MarkupLint.Attribute.Check
import MarkupLint.Attribute.Reader
import MarkupLint.Category
import MarkupLint.CommandLine.Arguments
import MarkupLint.CommandLine.Run
import MarkupLint.CommandLine.Settings
import MarkupLint.Diagnostic.Basic
import MarkupLint.Diagnostic.Finding
import MarkupLint.Diagnostic.Report
import MarkupLint.Element.Outline
import MarkupLint.Element.Vocabulary
import MarkupLint.Fault
import MarkupLint.Fault.Message
import MarkupLint.File.Content
import MarkupLint.File.Path
import MarkupLint.File.Tree
import MarkupLint.Json
import MarkupLint.Lint.Options
import MarkupLint.Lint.Run
import MarkupLint.Log
import MarkupLint.Main
import MarkupLint.Nesting
import MarkupLint.Rule.Basic
import MarkupLint.Rule.Builtin
import MarkupLint.Tag.Basic
import MarkupLint.Tag.Listing
import MarkupLint.Tag.Piece
import MarkupLint.Tag.Scan
import MarkupLint.Tag.Scanner
import MarkupLint.Tag.Start
import MarkupLint.Text.Basic
import MarkupLint.Text.Cased
import MarkupLint.Text.CharRanges
import MarkupLint.Text.LineTable
import MarkupLint.Text.Lowercase
import MarkupLint.Text.LowercaseTable
import MarkupLint.Text.Position
import MarkupLint.Text.Printable
import MarkupLint.Text.Quoted
import MarkupLint.Text.Range
import MarkupLint.Text.Template
import MarkupLint.Proofs.Lists
import MarkupLint.Proofs.Places
import MarkupLint.Proofs.Reporting
import MarkupLint.Proofs.Reading
import MarkupLint.Proofs.Recognition
import MarkupLint.Proofs.AttributeBounds
import MarkupLint.Proofs.Completion
import MarkupLint.Proofs.Rendering
import MarkupLint.Proofs.Walk
import MarkupLint.Proofs.Agreement
import MarkupLint.Proofs.Balance
import MarkupLint.Proofs.Spelling
import MarkupLint.Proofs.Decomposition
import MarkupLint.Proofs.TagRendering
import MarkupLint.Proofs.LinePositions
import MarkupLint.Proofs.Notices
import MarkupLint.Proofs.ReportedPlaces
import MarkupLint.Proofs.Repetition
import MarkupLint.Proofs.ReportOrder
import MarkupLint.Proofs.CaseInsensitivity
import MarkupLint.Proofs.Concatenation
import MarkupLint.Proofs.RuleSets
import MarkupLint.Proofs.StoppedRuns
import MarkupLint.Proofs.Arrangement
import MarkupLint.Proofs.OptionEffects
import MarkupLint.Proofs.Stepping
import MarkupLint.Proofs.Joining
import MarkupLint.Proofs.FileReports
import MarkupLint.Proofs.Thresholds
import MarkupLint.Proofs.PathNames
import MarkupLint.Proofs.JsonReading
import MarkupLint.Proofs.ReportForms
import MarkupLint.Proofs.Repair
import MarkupLint.Proofs.ListedElements
import MarkupLint.Proofs.NameIndependence
import MarkupLint.Proofs.AttributePlaces
import MarkupLint.Proofs.ValuedAttributes
import MarkupLint.Proofs.Markers
import MarkupLint.Proofs.Stalling
import MarkupLint.Proofs.RepeatedAttributes
import MarkupLint.Proofs.HeadingLevels
import MarkupLint.Proofs.RefusedSets
